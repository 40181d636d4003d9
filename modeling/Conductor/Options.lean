/-! # Options of the command line

Options stand before the first word that is none of them; from there on all words are taken as
they are. A double dash ends the options without being a word itself.
-/

namespace Conductor

inductive Refusal
  /-- Help is asked for. -/
  | help
  /-- An option is given twice. -/
  | conflict
  /-- An option that takes no value is given one. -/
  | surplusValue
  deriving DecidableEq, Repr

namespace Refusal

def name : Refusal → String
  | .help => "DisplayHelp"
  | .conflict => "ArgumentConflict"
  | .surplusValue => "TooManyValues"

def exitCode : Refusal → Nat
  | .help => 0
  | _ => 2

end Refusal

structure Options where
  /-- Whether runs of tools are shown. -/
  verbose : Bool := false
  /-- Whether styles are left out. -/
  noColor : Bool := false
  deriving DecidableEq, Repr

inductive Switch
  | verbose
  | noColor
  | help
  deriving DecidableEq, Repr

namespace Switch

def ofName? : String → Option Switch
  | "verbose" => some .verbose
  | "no-color" => some .noColor
  | "help" => some .help
  | _ => none

def ofLetter? : Char → Option Switch
  | 'v' => some .verbose
  | 'h' => some .help
  | _ => none

end Switch

/-- Sets an option, which must not be set yet. -/
def Options.set (options : Options) : Switch → Except Refusal Options
  | .verbose =>
    if options.verbose then .error .conflict else .ok { options with verbose := true }
  | .noColor =>
    if options.noColor then .error .conflict else .ok { options with noColor := true }
  | .help => .error .help

/-- What a word is before the first that is no option. -/
inductive Word
  | options (switches : List Switch)
  /-- An option with a value. -/
  | assignment
  /-- The end of the options. -/
  | separator
  | token
  deriving DecidableEq, Repr

/-- What a word is. Letters after one dash are options only if all of them are. -/
def Word.ofString (word : String) : Word :=
  match word.toList with
  | '-' :: '-' :: rest =>
    if rest.isEmpty then .separator
    else
      match Switch.ofName? (String.ofList (rest.takeWhile (· ≠ '='))) with
      | some found => if rest.contains '=' then .assignment else .options [found]
      | none => .token
  | '-' :: letter :: rest =>
    match (letter :: rest).mapM Switch.ofLetter? with
    | some found => .options found
    | none => .token
  | _ => .token

def Options.parseFrom (options : Options) : List String → Except Refusal (Options × List String)
  | [] => .ok (options, [])
  | word :: rest =>
    match Word.ofString word with
    | .options switches => do (← switches.foldlM Options.set options).parseFrom rest
    | .assignment => .error .surplusValue
    | .separator => .ok (options, rest)
    | .token => .ok (options, word :: rest)

def Options.parse (words : List String) : Except Refusal (Options × List String) :=
  Options.parseFrom {} words

end Conductor
