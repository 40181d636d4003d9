import Conductor.Actions.Build
import Conductor.Actions.Clean
import Conductor.Actions.Lint
import Conductor.Settings.Load
import Conductor.Similar

/-! # From words to acts

A name that is no command is answered by the usage and, once, by the question whether a similar
command is meant. Settings are read only when a command needs them.
-/

namespace Conductor

def versionText : String := "Eugene 0.01"

/-- Offers the closest command for a mistyped word, and gives its name if it is accepted. Only
the first offer at a gate is made. -/
def suggest (word : String) : Act (Option String) := do
  if ← Act.takeGate then
    match closest? word with
    | none =>
      Act.line ""
      return none
    | some info =>
      let answer ← Act.ask (.suggestion (← Act.nextColor) info.name)
      Act.line ""
      return if isYes answer then some info.name else none
  else return none

/-- The command that is meant, if there is one. An accepted suggestion counts as typed. -/
def resolve (invocation : Invocation) : Act (Option Command) := do
  Act.ofExcept invocation.checkArity
  match ← Act.ofExcept (Command.parse invocation.command invocation.arguments) with
  | some command => return some command
  | none =>
    Act.showUsage
    Act.line "\n"
    match ← suggest invocation.command with
    | some name => Act.ofExcept (Command.parse name invocation.arguments)
    | none => return none

def perform (settings : Settings) : Command → Act Unit
  | .build tests docs => build settings tests docs
  | .config => configure settings
  | .test run => test settings run
  | .clean forced kind => clean settings (Command.asksFirst forced kind)
  | .lint => lint settings
  | .doc upload => document settings upload
  | .version => Act.line versionText

/-- The settings for a command; a command that needs none gets the defaults. -/
def settingsFor (command : Command) : Act Settings := do
  if command.needsSettings then
    let project := (← Act.workspace).project
    match Settings.load (← Act.world).files project with
    | .ok settings => return settings
    | .error failure => Act.fail failure
  else return {}

inductive Reply
  /-- There was no word, and the usage was shown. -/
  | usage
  /-- No command was meant. -/
  | nothing
  | performed (command : Command)
  deriving DecidableEq, Repr

def obey (tokens : List String) : Act Reply := do
  match Invocation.ofTokens tokens with
  | none =>
    Act.showUsage
    return .usage
  | some invocation =>
    match ← resolve invocation with
    | none => return .nothing
    | some command =>
      let settings ← settingsFor command
      perform settings command
      return .performed command

end Conductor
