import Conductor.Answers
import Conductor.Command
import Conductor.Confirmation
import Conductor.Similar

/-!
# What an invocation means

A name stands for a command if it is one, or if the one that is offered for it is accepted. From
this the meaning of an invocation follows without running anything.
-/

namespace Conductor

theorem occursIn_iff {word text : List Char} : occursIn word text = true ↔ word <:+: text := by
  induction text with
  | nil => rw [occursIn, List.isEmpty_iff, List.infix_nil]
  | cons c rest ih =>
    rw [occursIn, Bool.or_eq_true, List.isPrefixOf_iff_prefix, ih, List.infix_cons_iff]

theorem hasFlag_iff {flag : String} {argument : Option String} :
    hasFlag flag argument = true ↔
      ∃ text, argument = some text ∧ flag.toList <:+: text.toList := by
  cases argument with
  | none => simp [hasFlag]
  | some text => simp [hasFlag, occursIn_iff]

namespace Command

def isKnown (name : String) : Bool :=
  (parse name []).toOption.join.isSome

def standsAlone (name : String) : Prop :=
  name = "config" ∨ name = "lint"

theorem parse_of_surplus {name : String} {arguments : List String} (h : 1 < arguments.length) :
    parse name arguments = .error (.tooManyArguments arguments.length) :=
  if_pos h

theorem parse_of_not_surplus {name : String} {arguments : List String}
    (h : ¬ 1 < arguments.length) : parse name arguments = ofName name arguments.head? :=
  if_neg h

theorem parse_of_unknown {name : String} {arguments : List String} (hknown : isKnown name = false)
    (h : ¬ 1 < arguments.length) : parse name arguments = .ok none := by
  rw [parse_of_not_surplus h]
  rw [isKnown, parse_of_not_surplus (by simp)] at hknown
  unfold ofName at hknown ⊢
  split <;> first | rfl | simp [Except.toOption, alone] at hknown

/-- A command that stands alone refuses an argument, and nothing else is refused. -/
theorem parse_of_known {name : String} {arguments : List String} (hknown : isKnown name = true)
    (h : ¬ 1 < arguments.length) :
    (∃ text, standsAlone name ∧ arguments = [text] ∧
      parse name arguments = .error (.unexpectedArgument name text)) ∨
    (∃ command, ¬ (standsAlone name ∧ arguments.length = 1) ∧
      parse name arguments = .ok (some command)) := by
  rw [parse_of_not_surplus h]
  rw [isKnown, parse_of_not_surplus (by simp)] at hknown
  match arguments, h with
  | [], _ =>
    refine .inr ?_
    unfold ofName at hknown ⊢
    split <;> simp_all [alone, Except.toOption]
  | [text], _ =>
    unfold ofName at hknown ⊢
    split <;> simp_all [standsAlone, alone, Except.toOption]
  | _ :: _ :: _, h => simp at h

/-- Whether a command configures the project before anything else. -/
def configures : Command → Bool
  | .build _ _ | .config | .test _ | .doc _ => true
  | _ => false

def makesTests : Command → Bool
  | .build tests _ => tests
  | .test _ => true
  | _ => false

/-- Whether documentation is wanted, which cannot be built yet. -/
def makesDocs : Command → Bool
  | .build _ docs => docs
  | .doc _ => true
  | _ => false

theorem needsSettings_of_configures {command : Command} (h : command.configures = true) :
    command.needsSettings = true := by
  cases command <;> first | rfl | cases h

/-- The names with their commands. -/
theorem ofName_cases {name : String} {argument : Option String} {command : Command}
    (h : ofName name argument = .ok (some command)) :
    (name = "build" ∧ command = .build (hasFlag "test" argument) (hasFlag "doc" argument)) ∨
    (name = "config" ∧ argument = none ∧ command = .config) ∨
    (name = "test" ∧ command = .test (hasFlag "run" argument)) ∨
    ((name = "clean" ∨ name = "mrproper") ∧
      command = .clean (hasFlag "force" argument || argument.isNone) (hasFlag "kind" argument)) ∨
    (name = "lint" ∧ argument = none ∧ command = .lint) ∨
    (name = "doc" ∧ command = .doc (hasFlag "up" argument)) ∨
    (name = "version" ∧ command = .version) := by
  unfold ofName alone at h
  split at h
  all_goals try split at h
  all_goals cases h
  all_goals simp

theorem makesDocs_iff_of_ofName {name : String} {argument : Option String} {command : Command}
    (h : ofName name argument = .ok (some command)) :
    command.makesDocs = true ↔
      name = "doc" ∨ name = "build" ∧ hasFlag "doc" argument = true := by
  rcases ofName_cases h with ⟨rfl, rfl⟩ | ⟨rfl, -, rfl⟩ | ⟨rfl, rfl⟩ | ⟨rfl | rfl, rfl⟩ |
    ⟨rfl, -, rfl⟩ | ⟨rfl, rfl⟩ | ⟨rfl, rfl⟩ <;> simp [makesDocs]

theorem makesTests_iff_of_ofName {name : String} {argument : Option String} {command : Command}
    (h : ofName name argument = .ok (some command)) :
    command.makesTests = true ↔
      name = "test" ∨ name = "build" ∧ hasFlag "test" argument = true := by
  rcases ofName_cases h with ⟨rfl, rfl⟩ | ⟨rfl, -, rfl⟩ | ⟨rfl, rfl⟩ | ⟨rfl | rfl, rfl⟩ |
    ⟨rfl, -, rfl⟩ | ⟨rfl, rfl⟩ | ⟨rfl, rfl⟩ <;> simp [makesTests]

end Command

theorem isKnown_of_mem_registry : ∀ info ∈ registry, Command.isKnown info.name = true := by
  decide

theorem isKnown_of_closest {word : String} {info : CommandInfo} (h : closest? word = some info) :
    Command.isKnown info.name = true :=
  isKnown_of_mem_registry info (List.mem_of_find?_eq_some h)

/-- The name that is offered for a word, if the answer accepts it. -/
def acceptedName (word : String) (answer : Answer) : Option String :=
  match closest? word, answer with
  | some info, .ok text => if isYes text then some info.name else none
  | _, _ => none

theorem acceptedName_of_none {word : String} (h : closest? word = none) (answer : Answer) :
    acceptedName word answer = none := by
  simp only [acceptedName, h]

theorem acceptedName_error (word : String) (failure : Failure) :
    acceptedName word (.error failure) = none := by
  unfold acceptedName
  cases closest? word <;> rfl

theorem acceptedName_ok {word : String} {info : CommandInfo} (h : closest? word = some info)
    (text : String) :
    acceptedName word (.ok text) = if isYes text then some info.name else none := by
  simp only [acceptedName, h]

/-- The name that a word stands for, given the answer to the question whether the closest name is
meant. -/
def effectiveName (word : String) (answer : Answer) : Option String :=
  if Command.isKnown word then some word else acceptedName word answer

theorem isKnown_of_effectiveName {word name : String} {answer : Answer}
    (h : effectiveName word answer = some name) : Command.isKnown name = true := by
  unfold effectiveName acceptedName at h
  split at h
  · cases h
    assumption
  · split at h
    · split at h
      · cases h
        exact isKnown_of_closest ‹_›
      · cases h
    · cases h

/-- The command that an invocation means, given the answer to the question that may be asked. -/
def Invocation.meaning (invocation : Invocation) (answer : Answer) : Option Command :=
  (effectiveName invocation.command answer).bind fun name =>
    (Command.parse name invocation.arguments).toOption.join

/-- Whether too much follows the name of an invocation. -/
def Invocation.isMisuse (invocation : Invocation) (answer : Answer) : Prop :=
  1 < invocation.arguments.length ∨ invocation.arguments.length = 1 ∧
    ∃ name, effectiveName invocation.command answer = some name ∧ Command.standsAlone name

namespace Invocation

variable {invocation : Invocation} {answer : Answer}

theorem meaning_of_not_named (h : effectiveName invocation.command answer = none) :
    invocation.meaning answer = none := by
  rw [meaning, h, Option.bind_none]

/-- An invocation with a meaning has a name, and what follows it is accepted. -/
theorem parse_of_meaning {command : Command} (h : invocation.meaning answer = some command) :
    ∃ name, effectiveName invocation.command answer = some name ∧
      Command.parse name invocation.arguments = .ok (some command) := by
  obtain ⟨name, hname, hparse⟩ := Option.bind_eq_some_iff.mp h
  refine ⟨name, hname, ?_⟩
  cases hresult : Command.parse name invocation.arguments with
  | error cause => simp [hresult, Except.toOption] at hparse
  | ok found =>
    rw [hresult] at hparse
    exact congrArg Except.ok hparse

theorem meaning_of_isMisuse (h : invocation.isMisuse answer) :
    invocation.meaning answer = none := by
  refine Option.eq_none_iff_forall_ne_some.mpr fun command hmeaning => ?_
  obtain ⟨name, hname, hparse⟩ := parse_of_meaning hmeaning
  rcases h with hsurplus | ⟨hlength, other, hother, halone⟩
  · rw [Command.parse_of_surplus hsurplus] at hparse
    cases hparse
  · obtain rfl : name = other := Option.some.inj (hname.symm.trans hother)
    have hfits : ¬ 1 < invocation.arguments.length := by omega
    rcases Command.parse_of_known (isKnown_of_effectiveName hname) hfits with
      ⟨text, -, -, herror⟩ | ⟨found, hfit, -⟩
    · rw [herror] at hparse
      cases hparse
    · exact hfit ⟨halone, hlength⟩

theorem not_isMisuse_of_not_named (hlength : ¬ 1 < invocation.arguments.length)
    (hname : effectiveName invocation.command answer = none) : ¬ invocation.isMisuse answer := by
  rintro (hsurplus | ⟨-, name, hsome, -⟩)
  · exact hlength hsurplus
  · rw [hname] at hsome
    cases hsome

end Invocation

def meaningOf (tokens : List String) (answer : Answer) : Option Command :=
  (Invocation.ofTokens tokens).bind fun invocation => invocation.meaning answer

def isMisused (tokens : List String) (answer : Answer) : Prop :=
  ∃ invocation, Invocation.ofTokens tokens = some invocation ∧ invocation.isMisuse answer

/-- Whether the words ask for a command of a name, or for a build with a flag in its argument. -/
def wants (tokens : List String) (answer : Answer) (name flag : String) : Prop :=
  ∃ invocation, Invocation.ofTokens tokens = some invocation ∧
    (effectiveName invocation.command answer = some name ∨
      effectiveName invocation.command answer = some "build" ∧
        ∃ text, invocation.arguments.head? = some text ∧ flag.toList <:+: text.toList)

/-- The words that mean a command come down to a name and at most one argument. -/
theorem ofName_of_meaningOf {tokens : List String} {answer : Answer} {command : Command}
    (h : meaningOf tokens answer = some command) :
    ∃ invocation name, Invocation.ofTokens tokens = some invocation ∧
      effectiveName invocation.command answer = some name ∧
      Command.ofName name invocation.arguments.head? = .ok (some command) := by
  obtain ⟨invocation, htokens, hmeaning⟩ := Option.bind_eq_some_iff.mp h
  obtain ⟨name, hname, hparse⟩ := Invocation.parse_of_meaning hmeaning
  refine ⟨invocation, name, htokens, hname, ?_⟩
  by_cases hsurplus : 1 < invocation.arguments.length
  · rw [Command.parse_of_surplus hsurplus] at hparse
    cases hparse
  · rwa [Command.parse_of_not_surplus hsurplus] at hparse

theorem wants_iff {tokens : List String} {answer : Answer} {invocation : Invocation}
    {found : String} (htokens : Invocation.ofTokens tokens = some invocation)
    (hfound : effectiveName invocation.command answer = some found) (name flag : String) :
    wants tokens answer name flag ↔
      found = name ∨ found = "build" ∧ hasFlag flag invocation.arguments.head? = true := by
  rw [wants, htokens, hasFlag_iff]
  simp [hfound]

theorem makesDocs_iff_wants {tokens : List String} {answer : Answer} {command : Command}
    (h : meaningOf tokens answer = some command) :
    command.makesDocs = true ↔ wants tokens answer "doc" "doc" := by
  obtain ⟨invocation, name, htokens, hname, hcommand⟩ := ofName_of_meaningOf h
  rw [wants_iff htokens hname, Command.makesDocs_iff_of_ofName hcommand]

theorem makesTests_iff_wants {tokens : List String} {answer : Answer} {command : Command}
    (h : meaningOf tokens answer = some command) :
    command.makesTests = true ↔ wants tokens answer "test" "test" := by
  obtain ⟨invocation, name, htokens, hname, hcommand⟩ := ofName_of_meaningOf h
  rw [wants_iff htokens hname, Command.makesTests_iff_of_ofName hcommand]

theorem meaningOf_of_isMisused {tokens : List String} {answer : Answer}
    (h : isMisused tokens answer) : meaningOf tokens answer = none := by
  obtain ⟨invocation, htokens, hmisuse⟩ := h
  rw [meaningOf, htokens, Option.bind_some, Invocation.meaning_of_isMisuse hmisuse]

end Conductor
