import Conductor.EditDistance
import Conductor.Registry

/-! # Commands close to a mistyped word -/

namespace Conductor

/-- Whether a word may stand for a name: half of its characters suffice to edit it into it. -/
def isClose (word name : String) : Bool :=
  2 * editDistance word.toList name.toList ≤ word.toList.length

/-- The first command whose name is close to the word. -/
def closest? (word : String) : Option CommandInfo :=
  registry.find? fun info => isClose word info.name

end Conductor
