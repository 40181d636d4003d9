import Conductor.Text.Blank

/-! # Confirmation

Which answers agree to what was asked. Blanks around the answer do not count.
-/

namespace Conductor

def isLetterY (text : String) : Bool :=
  text = "y" || text = "Y"

/-- Whether an answer agrees expressly. -/
def isYes (answer : String) : Bool :=
  isLetterY (Text.trim answer)

/-- Whether an answer agrees expressly or by being empty. -/
def isYesOrDefault (answer : String) : Bool :=
  (Text.trim answer).isEmpty || isLetterY (Text.trim answer)

end Conductor
