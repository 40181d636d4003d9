import Conductor.Registry

/-! # Output on the console

Text with styles, which are shown or left out only when it is written, and a palette whose colours
take turns.
-/

namespace Conductor

inductive Color
  | red
  | green
  | yellow
  | blue
  | magenta
  | cyan
  deriving DecidableEq, Repr

namespace Color

/-- The number of a colour in the codes of a terminal. -/
def number : Color → Nat
  | .red => 1
  | .green => 2
  | .yellow => 3
  | .blue => 4
  | .magenta => 5
  | .cyan => 6

def name : Color → String
  | .red => "red"
  | .green => "green"
  | .yellow => "yellow"
  | .blue => "blue"
  | .magenta => "magenta"
  | .cyan => "cyan"

end Color

structure Style where
  color : Color
  bold : Bool
  deriving DecidableEq, Repr

/-- A text of one style; without a style it is written as it is. -/
structure Span where
  style : Option Style
  text : String
  deriving DecidableEq, Repr

abbrev StyledText := List Span

namespace Span

def plain (text : String) : Span := ⟨none, text⟩

def colored (color : Color) (text : String) : Span := ⟨some ⟨color, false⟩, text⟩

def bold (color : Color) (text : String) : Span := ⟨some ⟨color, true⟩, text⟩

/-- The text between the codes that begin and end its style, if styles are shown. -/
def render (showStyles : Bool) (span : Span) : String :=
  match span.style with
  | some style =>
    if showStyles then
      "\x1b[3" ++ toString style.color.number ++ "m" ++ (if style.bold then "\x1b[1m" else "") ++
        span.text ++ "\x1b[0m"
    else span.text
  | none => span.text

end Span

namespace StyledText

def render (showStyles : Bool) (text : StyledText) : String :=
  String.join (text.map (Span.render showStyles))

def plainText (text : StyledText) : String :=
  String.join (text.map (·.text))

/-- A word in bold and a message after it, as a line. -/
def labelled (color : Color) (label separator message : String) : StyledText :=
  [.bold color label, .plain (separator ++ message ++ "\n")]

def error (message : String) : StyledText := labelled .red "error" ": " message

def warning (message : String) : StyledText := labelled .yellow "warning" ": " message

def info (message : String) : StyledText := labelled .blue "info" ": " message

/-- The message of a step, set apart by blank lines. -/
def banner (color : Color) (message : String) : StyledText :=
  [.plain "\n", .colored color (" > " ++ message), .plain "\n\n"]

def suggestion (color : Color) (name : String) : StyledText :=
  [.plain "\n", .colored color (" > Proceed with '" ++ name ++ "'? Y/n: ")]

end StyledText

/-- How many colours have been taken. -/
structure Palette where
  index : UInt64
  deriving DecidableEq, Repr

namespace Palette

def rotation : List Color := [.green, .yellow, .blue, .magenta, .cyan]

def fresh : Palette := ⟨0⟩

def color (palette : Palette) : Color :=
  rotation.getD (palette.index.toNat % 5) .green

def advance (palette : Palette) : Palette :=
  ⟨palette.index + 1⟩

def colors (palette : Palette) : Nat → List Color × Palette
  | 0 => ([], palette)
  | count + 1 =>
    let (more, after) := palette.advance.colors count
    (palette.color :: more, after)

end Palette

def usageHeader : String :=
  "\n\tEugene multifunctional script\n\t=============================\n\n"

/-- The lines of the usage for the given commands, each name in the next colour. -/
def usageLines (palette : Palette) : List CommandInfo → StyledText × Palette
  | [] => ([], palette)
  | info :: rest =>
    let (more, after) := usageLines palette.advance rest
    ([.plain "\t• ", .colored palette.color info.name,
        .plain (" is used to " ++ info.purpose ++ "\n" ++
          String.join (info.options.map fun option => "\t\t - " ++ option ++ "\n"))] ++ more,
      after)

def usage (palette : Palette) : StyledText × Palette :=
  let (lines, after) := usageLines palette registry
  (.plain usageHeader :: lines, after)

end Conductor
