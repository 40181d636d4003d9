import Conductor.Proofs.Freed
import Conductor.Proofs.Obeying
import Mathlib.Data.List.Forall2

/-!
# All the ways to clean without a question

A clean has two names and takes any word. The word is only searched for two flags, so most words
mean the same clean, the one without a word. `clean_unasked_is_one_command` tells which words make
it ask, and that all others lead to the same run.
-/

namespace Conductor

def NamesClean (name : String) : Prop :=
  Text.lowercase name = "clean" ∨ Text.lowercase name = "mrproper"

/-- Whether a word after the command makes a clean ask before it removes anything. -/
def AsksFor (word : String) : Prop :=
  "kind".toList <:+: (Text.lowercase word).toList ∧
    ¬ "force".toList <:+: (Text.lowercase word).toList

/-- Whether no word follows the command, or a single one that does not make it ask. -/
def IsUnasking (arguments : List String) : Prop :=
  arguments = [] ∨ ∃ word, arguments = [word] ∧ ¬ AsksFor word

section

/-- Whether a word consists of the letters of a name, each in either case. -/
def IsInEitherCase (name word : String) : Prop :=
  List.Forall₂ (fun c d => d = c ∨ d = c.toUpper) name.toList word.toList

/-- Whether a character has the letter as its lower-case form wherever it stands. -/
def lowersTo (d c : Char) : Bool :=
  d != 'Σ' && d != 'İ' && Text.lowercaseChar d == c

theorem lowercaseAt_of_lowersTo {c d : Char} (h : lowersTo d c = true) (before after : List Char) :
    Text.lowercaseAt before d after = [c] := by
  simp only [lowersTo, Bool.and_eq_true, bne_iff_ne, beq_iff_eq] at h
  obtain ⟨⟨hsigma, hdotted⟩, hlower⟩ := h
  rw [Text.lowercaseAt, if_neg hsigma, if_neg hdotted, hlower]

/-- Whether lower case keeps the letters and undoes their capitals. -/
def areLetters (letters : List Char) : Bool :=
  letters.all fun c => lowersTo c c && lowersTo c.toUpper c

theorem lowercaseFrom_of_areLetters {letters word : List Char} (before : List Char)
    (hletters : areLetters letters = true)
    (h : List.Forall₂ (fun c d => d = c ∨ d = c.toUpper) letters word) :
    Text.lowercaseFrom before word = letters := by
  -- what stands before a letter only matters to a sigma, which no letter here is
  induction h generalizing before with
  | nil => rfl
  | @cons c d letters word hd _ ih =>
    simp only [areLetters, List.all_cons, Bool.and_eq_true] at hletters
    obtain ⟨⟨hsmall, hcapital⟩, hrest⟩ := hletters
    have hlower : lowersTo d c = true := by
      rcases hd with rfl | rfl
      · exact hsmall
      · exact hcapital
    rw [Text.lowercaseFrom, lowercaseAt_of_lowersTo hlower, ih _ hrest]
    rfl

theorem lowercase_of_isInEitherCase {name word : String} (hname : areLetters name.toList = true)
    (h : IsInEitherCase name word) : Text.lowercase word = name := by
  rw [Text.lowercase, lowercaseFrom_of_areLetters [] hname h, String.ofList_toList]

/-- The names of the clean command may be written in any case. -/
theorem namesClean_of_isInEitherCase {word : String}
    (h : IsInEitherCase "clean" word ∨ IsInEitherCase "mrproper" word) : NamesClean word :=
  h.imp (lowercase_of_isInEitherCase (by decide +kernel))
    (lowercase_of_isInEitherCase (by decide +kernel))

end

/-- What is done with the words of a command line when the settings are given. -/
def dispatch (settings : Settings) (tokens : List String) : Act Unit := do
  match Invocation.ofTokens tokens with
  | none => Act.showUsage
  | some invocation =>
    match ← resolve invocation with
    | none => pure ()
    | some command => perform settings command

def asksAfter (arguments : List String) : Bool :=
  let argument := (arguments.map Text.lowercase).head?
  Command.asksFirst (hasFlag "force" argument || argument.isNone) (hasFlag "kind" argument)

theorem asksAfter_singleton (word : String) : asksAfter [word] = true ↔ AsksFor word := by
  simp [asksAfter, Command.asksFirst, AsksFor, hasFlag, ← occursIn_iff]

theorem IsUnasking.length_le {arguments : List String} (h : IsUnasking arguments) :
    ¬ 1 < arguments.length := by
  rcases h with rfl | ⟨word, rfl, -⟩ <;> simp

theorem IsUnasking.asksAfter_eq {arguments : List String} (h : IsUnasking arguments) :
    asksAfter arguments = false := by
  rcases h with rfl | ⟨word, rfl, hword⟩
  · rfl
  · rwa [← asksAfter_singleton, Bool.not_eq_true] at hword

section

variable {name : String} {arguments : List String}

theorem ofName_of_namesClean (hname : NamesClean name) (argument : Option String) :
    Command.ofName (Text.lowercase name) argument =
      .ok (some (.clean (hasFlag "force" argument || argument.isNone)
        (hasFlag "kind" argument))) := by
  rcases hname with h | h <;> rw [h, Command.ofName]

theorem resolve_of_namesClean (hname : NamesClean name) (hlength : ¬ 1 < arguments.length) :
    ∃ forced kind, Command.asksFirst forced kind = asksAfter arguments ∧
      resolve ⟨Text.lowercase name, arguments.map Text.lowercase⟩ =
        pure (some (.clean forced kind)) := by
  refine ⟨_, _, (asksAfter.eq_def arguments).symm, Act.eq_of_run fun place world => ?_⟩
  have hfits : ¬ 1 < (arguments.map Text.lowercase).length := by rwa [List.length_map]
  have hknown : Command.isKnown (Text.lowercase name) = true := by
    rw [Command.isKnown, Command.parse_of_not_surplus (by simp), ofName_of_namesClean hname]
    rfl
  have hrun := @run_resolve_of_known place world
    ⟨Text.lowercase name, arguments.map Text.lowercase⟩ hfits hknown
  rw [hrun, Command.parse_of_not_surplus hfits, ofName_of_namesClean hname, Act.ofExcept]

theorem dispatch_of_namesClean (hname : NamesClean name) (hlength : ¬ 1 < arguments.length)
    (settings : Settings) :
    dispatch settings (name :: arguments) = clean settings (asksAfter arguments) := by
  obtain ⟨forced, kind, hasks, hresolve⟩ := resolve_of_namesClean hname hlength
  rw [dispatch, Invocation.ofTokens]
  dsimp only
  rw [hresolve, pure_bind, ← hasks]
  rfl

/-- The whole program reads the settings first, and else does the same. -/
theorem obey_of_namesClean (hname : NamesClean name) (hlength : ¬ 1 < arguments.length) :
    ∃ command : Command, command.needsSettings = true ∧
      obey (name :: arguments) = (do
        let settings ← settingsFor command
        clean settings (asksAfter arguments)) >>= fun _ => pure (.performed command) := by
  obtain ⟨forced, kind, hasks, hresolve⟩ := resolve_of_namesClean hname hlength
  refine ⟨.clean forced kind, rfl, ?_⟩
  rw [obey, Invocation.ofTokens]
  dsimp only
  rw [hresolve, pure_bind, ← hasks, bind_assoc]
  rfl

theorem takesOnly_obey_of_namesClean {deeds : List Deed} (hname : NamesClean name)
    (hlength : ¬ 1 < arguments.length)
    (hclean : ∀ settings, (clean settings (asksAfter arguments)).TakesOnly deeds) :
    (obey (name :: arguments)).TakesOnly deeds := by
  obtain ⟨command, -, hobey⟩ := obey_of_namesClean hname hlength
  rw [hobey]
  exact .bind (.bind (takesOnly_settingsFor command) hclean) fun _ => Act.takesOnly_pure _

/-- With equal acts behind them, words lead to equal runs, whatever is replied. -/
theorem carryOut_congr {tokens tokens' : List String} {act : Act Unit} {reply reply' : Reply}
    (h : obey tokens = act >>= fun _ => pure reply)
    (h' : obey tokens' = act >>= fun _ => pure reply') (place : Workspace) (world : World) :
    Program.carryOut place world tokens = Program.carryOut place world tokens' := by
  rw [Program.carryOut, Program.carryOut, h, h', Act.run_bind, Act.run_bind]
  rcases act.run place world with ⟨_ | _ | _, _⟩ <;> rfl

end

def WasAsked (before after : World) : Prop :=
  ∃ question answer, Event.asked question answer ∈ after.events.drop before.events.length

theorem takesOnly_clean_unasked (settings : Settings) :
    (clean settings false).TakesOnly Deed.sweeping :=
  takesOnly_clean settings (fun h => by cases h) (List.Subset.refl _)

section

variable {place : Workspace} {before after : World}

theorem wasAsked_iff {events : List Event} (h : after.events = before.events ++ events) :
    WasAsked before after ↔ ∃ event ∈ events, event.deed = .ask := by
  rw [WasAsked, h, List.drop_left]
  constructor
  · rintro ⟨question, answer, hmem⟩
    exact ⟨_, hmem, rfl⟩
  · rintro ⟨event, hmem, hdeed⟩
    cases event with
    | asked question answer => exact ⟨question, answer, hmem⟩
    | _ => cases hdeed

theorem wasAsked_wrote (h : before.events <+: after.events) (channel : Channel)
    (text : StyledText) : WasAsked before (after.wrote channel text) ↔ WasAsked before after := by
  obtain ⟨events, hevents⟩ := h
  have hwrote : (after.wrote channel text).events =
      before.events ++ (events ++ [.wrote channel text]) := by
    rw [World.wrote, ← hevents, List.append_assoc]
  rw [wasAsked_iff hwrote, wasAsked_iff hevents.symm]
  simp [or_and_right, exists_or, Event.deed]

theorem Steps.not_wasAsked {deeds : List Deed} (h : Steps place deeds before after)
    (ha : .ask ∉ deeds) : ¬ WasAsked before after := by
  obtain ⟨events, hevents, hall⟩ := h.events_eq
  rw [wasAsked_iff hevents]
  rintro ⟨event, hmem, hdeed⟩
  exact ha (hdeed ▸ (hall event hmem).1)

theorem Removal.asks {line : CommandLine} {message answer : String} {events : List Event}
    (h : Removal line message (some answer) events) : ∃ event ∈ events, event.deed = .ask := by
  cases h with
  | approved => exact ⟨_, List.mem_cons_self, rfl⟩
  | refused => exact ⟨_, List.mem_singleton_self _, rfl⟩

/-- A clean that asks has asked at least once, even if it heard no answer. -/
theorem Cleaned.asks {settings : Settings} {answer : Answer}
    {second : Except Failure (Option String)} {outcome : Outcome Unit} {events : List Event}
    (h : Cleaned settings (heard true answer) second outcome events) :
    ∃ event ∈ events, event.deed = .ask := by
  cases answer with
  | error failure =>
    cases h
    exact ⟨_, List.mem_singleton_self _, rfl⟩
  | ok text =>
    cases h with
    | halfway failure =>
      exact ⟨.asked (permission "Removing build logs") (.error failure), by simp, rfl⟩
    | whole h =>
      obtain ⟨event, hmem, hdeed⟩ := h.asks
      exact ⟨event, by simp [hmem], hdeed⟩

end

section

variable (place : Workspace) (world : World)

theorem wasAsked_clean (settings : Settings) (asksFirst : Bool) :
    WasAsked world ((clean settings asksFirst).run place world).2 ↔ asksFirst = true := by
  cases asksFirst with
  | false =>
    have hsteps := takesOnly_clean_unasked settings place world
    simpa using hsteps.not_wasAsked (by decide)
  | true =>
    obtain ⟨outcome, after, events, hrun, hevents, hcleaned⟩ := run_clean place world settings true
    rw [hrun, wasAsked_iff hevents]
    simpa using hcleaned.asks

variable {name : String} {arguments : List String}

/-- The whole program asks whenever its clean does, but it needs usable settings to get there. -/
theorem wasAsked_carryOut (hname : NamesClean name) (hlength : ¬ 1 < arguments.length) :
    WasAsked world (Program.carryOut place world (name :: arguments)).2 ↔
      asksAfter arguments = true ∧
        (Settings.load world.files place.project).isOk = true := by
  obtain ⟨command, hneeds, hobey⟩ := obey_of_namesClean hname hlength
  have hsteps : (obey (name :: arguments)).TakesOnly Deed.tidying :=
    takesOnly_obey_of_namesClean hname hlength fun settings =>
      takesOnly_clean settings (fun _ => by decide) (by decide)
  have hreported : WasAsked world (Program.carryOut place world (name :: arguments)).2 ↔
      WasAsked world ((obey (name :: arguments)).run place world).2 := by
    obtain ⟨events, hevents, -⟩ := (hsteps place world).events_eq
    rw [carryOut_snd]
    split
    · exact wasAsked_wrote ⟨events, hevents.symm⟩ _ _
    · rfl
  rw [hreported, hobey, Act.run_bind]
  cases hload : Settings.load world.files place.project with
  | error failure =>
    rw [Act.run_bind_of_failed _ _ (run_settingsFor_of_error place world hneeds hload)]
    simp [WasAsked, Except.isOk, Except.toBool]
  | ok settings =>
    rw [Act.run_bind_of_done _ _ (run_settingsFor_of_ok place world hneeds hload),
      ← wasAsked_clean place world settings]
    rcases (clean settings (asksAfter arguments)).run place world with ⟨_ | _ | _, after⟩ <;>
      simp [Except.isOk, Except.toBool]

/-- Settings are read and then a clean is done without a question. -/
theorem steps_carryOut_of_unasking (hname : NamesClean name) (h : IsUnasking arguments) :
    Steps place Deed.sweeping world (Program.carryOut place world (name :: arguments)).2 := by
  refine steps_carryOut (by decide) (takesOnly_obey_of_namesClean hname h.length_le
    (fun settings => ?_) place world)
  rw [h.asksAfter_eq]
  exact takesOnly_clean_unasked settings

end

/-- A clean asks exactly for a word with the one flag and without the other. Under either name, in
any case, and with any word for which it does not ask or with none, it is one and the same act: it
asks nothing, takes no answer, and ends in the same world in the same way. -/
theorem clean_unasked_is_one_command {name : String} (hname : NamesClean name) (place : Workspace)
    (world : World) :
    (∀ settings word,
      WasAsked world ((dispatch settings [name, word]).run place world).2 ↔ AsksFor word) ∧
    (∀ word, WasAsked world (Program.carryOut place world [name, word]).2 ↔
      AsksFor word ∧ (Settings.load world.files place.project).isOk = true) ∧
    ∀ other arguments, NamesClean other → IsUnasking arguments →
      (∀ settings, dispatch settings (name :: arguments) = dispatch settings [other] ∧
        let after := ((dispatch settings (name :: arguments)).run place world).2
        ¬ WasAsked world after ∧ after.answers = world.answers) ∧
      Program.carryOut place world (name :: arguments) = Program.carryOut place world [other] ∧
        let after := (Program.carryOut place world (name :: arguments)).2
        ¬ WasAsked world after ∧ after.answers = world.answers := by
  have hone (word : String) : ¬ 1 < [word].length := by simp
  refine ⟨fun settings word => ?_, fun word => ?_, fun other arguments hother hunasking => ?_⟩
  · rw [dispatch_of_namesClean hname (hone word), wasAsked_clean, asksAfter_singleton]
  · rw [wasAsked_carryOut place world hname (hone word), asksAfter_singleton]
  have hlength := hunasking.length_le
  have hnone : IsUnasking [] := .inl rfl
  refine ⟨fun settings => ?_, ?_⟩
  · have hsteps := takesOnly_clean_unasked settings place world
    have hdispatch : dispatch settings (name :: arguments) = clean settings false := by
      rw [dispatch_of_namesClean hname hlength, hunasking.asksAfter_eq]
    have hplain : dispatch settings [other] = clean settings false := by
      rw [dispatch_of_namesClean hother hnone.length_le, hnone.asksAfter_eq]
    rw [hdispatch, hplain]
    exact ⟨rfl, hsteps.not_wasAsked (by decide), hsteps.answers_eq (by decide)⟩
  · have hsteps := steps_carryOut_of_unasking place world hname hunasking
    refine ⟨?_, hsteps.not_wasAsked (by decide), hsteps.answers_eq (by decide)⟩
    obtain ⟨command, hneeds, hobey⟩ := obey_of_namesClean hname hlength
    obtain ⟨command', hneeds', hobey'⟩ := obey_of_namesClean hother hnone.length_le
    have hsettings : settingsFor command = settingsFor command' := by
      rw [settingsFor, settingsFor, hneeds, hneeds']
    rw [hsettings, hunasking.asksAfter_eq] at hobey
    exact carryOut_congr hobey hobey' place world

/-- Two spellings of the command and a word with both flags give the plain clean, and the Kelvin
sign counts as a letter of the kind one. -/
theorem clean_unasked_mixed_case :
    NamesClean "MrProper" ∧ NamesClean "CLEAN" ∧ IsUnasking ["Kind-Of-FORCE"] ∧
      AsksFor "\u212Aind" ∧
      dispatch {} ["MrProper", "Kind-Of-FORCE"] = dispatch {} ["CLEAN"] ∧
      WasAsked Sample.plain
        ((dispatch {} ["MrProper", "\u212Aind"]).run Sample.place Sample.plain).2 := by
  have hname : NamesClean "MrProper" :=
    namesClean_of_isInEitherCase (.inr (by simp [IsInEitherCase]))
  have hother : NamesClean "CLEAN" := namesClean_of_isInEitherCase (.inl (by simp [IsInEitherCase]))
  have hunasking : IsUnasking ["Kind-Of-FORCE"] := by
    refine .inr ⟨_, rfl, ?_⟩
    rw [← asksAfter_singleton]
    decide +kernel
  have hasks : AsksFor "\u212Aind" := by
    rw [← asksAfter_singleton]
    decide +kernel
  obtain ⟨hdispatch, -, hsame⟩ :=
    clean_unasked_is_one_command hname Sample.place Sample.plain
  exact ⟨hname, hother, hunasking, hasks, ((hsame _ _ hother hunasking).1 {}).1,
    (hdispatch {} _).mpr hasks⟩

end Conductor
