import Conductor.Main
import Conductor.Proofs.Building

/-!
# Commands that extend one another

A build goes on where a configuration ends, and tests and documentation are builds with something
after them. The commands are compared as whole runs: what one does is what another one does, or
begins with it. The main result is `commands_extend_one_another`.
-/

namespace Conductor

def Event.isRunOf (program : String) : Event → Bool
  | .ran line _ _ _ => line.program = program
  | _ => false

def runsOf (program : String) (events : List Event) : List Event :=
  events.filter (Event.isRunOf program)

namespace Act

variable {α β : Type} {P : Event → Prop}

/-- Wherever the act is run, it adds events of one sort. -/
def Adds (P : Event → Prop) (act : Act α) : Prop :=
  ∀ place world, ∃ new, (act.run place world).2.events = world.events ++ new ∧
    ∀ event ∈ new, P event

theorem adds_pure (value : α) : (pure value : Act α).Adds P :=
  fun _ _ => ⟨[], by simp, by simp⟩

theorem adds_fail (failure : Failure) : (fail failure : Act α).Adds P :=
  fun _ _ => ⟨[], by simp, by simp⟩

theorem Adds.bind {act : Act α} {next : α → Act β} (h : act.Adds P)
    (hnext : ∀ value, (next value).Adds P) : (act >>= next).Adds P := by
  intro place world
  obtain ⟨new, hnew, hall⟩ := h place world
  rcases hrun : act.run place world with ⟨value | failure | _, after⟩ <;> rw [hrun] at hnew
  · obtain ⟨more, hmore, hmoreAll⟩ := hnext value place after
    refine ⟨new ++ more, ?_, fun event hmem => (List.mem_append.mp hmem).elim (hall event)
      (hmoreAll event)⟩
    rw [run_bind_of_done _ _ hrun, hmore, hnew, List.append_assoc]
  · exact ⟨new, by rw [run_bind_of_failed _ _ hrun, hnew], hall⟩
  · exact ⟨new, by rw [run_bind_of_broken _ _ hrun, hnew], hall⟩

theorem Adds.attempt {act : Act α} (h : act.Adds P) : act.attempt.Adds P := by
  intro place world
  rw [run_attempt]
  exact h place world

theorem adds_write {channel : Channel} {text : StyledText} (h : P (.wrote channel text)) :
    (write channel text).Adds P :=
  fun _ _ => ⟨[.wrote channel text], rfl, by simpa using h⟩

theorem adds_banner {message : String} (h : ∀ color, P (.wrote .out (.banner color message))) :
    (banner message).Adds P :=
  fun _ world => ⟨[.wrote .out (.banner world.palette.color message)], rfl, by
    simpa using h world.palette.color⟩

theorem adds_assign {key : Variable} {value : String} (h : P (.assigned key value)) :
    (assign key value).Adds P := by
  intro place world
  rw [run_assign]
  split <;> exact ⟨[.assigned key value], rfl, by simpa using h⟩

theorem adds_runChecked {line : CommandLine}
    (h : ∀ environment response, P (.ran line .inherit environment response)) :
    (runChecked line).Adds P := by
  intro place world
  rw [run_runChecked]
  exact ⟨[.ran line .inherit world.environment (world.response place.host line)], rfl, by
    simpa using h _ _⟩

end Act

open Act

def uploadLine : StyledText := [.plain ("Uploading docs" ++ "\n")]

/-- What may be among the events of a configuration: no tool is run but the two that it needs, and
nothing is said of an upload. -/
def Event.isConfiguring : Event → Prop
  | .wrote _ text => text ≠ uploadLine
  | .ran line _ _ _ => line.program = "conan" ∨ line.program = "cmake"
  | _ => True

theorem isConfiguring_banner (color : Color) (message : String) :
    Event.isConfiguring (.wrote .out (.banner color message)) := by
  simp [Event.isConfiguring, StyledText.banner, uploadLine]

theorem isConfiguring_warning (message : String) :
    Event.isConfiguring (.wrote .err (.warning message)) := by
  simp [Event.isConfiguring, StyledText.warning, StyledText.labelled, uploadLine]

/-- The two lines differ in their first letters. -/
theorem isConfiguring_created (dir : String) :
    Event.isConfiguring
      (.wrote .out [.plain ("INFO: Created '" ++ dir ++ "/' directory" ++ "\n")]) := by
  intro h
  have hhead := congrArg (fun text : StyledText => (text.plainText.toList.head?)) h
  simp [StyledText.plainText, Span.plain, uploadLine, String.join] at hhead

theorem runsOf_ninja_of_isConfiguring {events : List Event}
    (h : ∀ event ∈ events, event.isConfiguring) : runsOf "ninja" events = [] := by
  refine List.filter_eq_nil_iff.mpr fun event hmem => ?_
  have hevent := h event hmem
  cases event with
  | ran line output environment response =>
    rcases hevent with hprogram | hprogram <;> simp [Event.isRunOf, hprogram]
  | _ => simp [Event.isRunOf]

section

variable (settings : Settings)

theorem adds_prepareBuildDir : (prepareBuildDir settings).Adds Event.isConfiguring := by
  intro place world
  simp only [prepareBuildDir, run_bind, run_workspace, run_world]
  split
  · exact adds_write (isConfiguring_created settings.dir) place _
  · exact adds_banner (fun color => isConfiguring_banner color _) place world
  · exact adds_fail _ place world

theorem adds_configureWith (toolchain : Toolchain) :
    (configureWith settings toolchain).Adds Event.isConfiguring := by
  have hbanner (message : String) : (banner message).Adds Event.isConfiguring :=
    adds_banner fun color => isConfiguring_banner color message
  have hsteps : (configureSteps settings toolchain).Adds Event.isConfiguring :=
    .bind (adds_runChecked fun _ _ => .inl rfl) fun _ => adds_runChecked fun _ _ => .inr rfl
  refine .bind (adds_assign trivial) fun _ => .bind (adds_assign trivial) fun _ => ?_
  refine .bind (hbanner _) fun _ => .bind hsteps.attempt fun result => ?_
  cases result with
  | ok value => exact .bind (hbanner _) fun _ => adds_pure true
  | error failure =>
    refine .bind (adds_write (isConfiguring_warning _)) fun _ => ?_
    exact .bind (hbanner _) fun _ => adds_pure false

theorem adds_configureAny (toolchains : List Toolchain) :
    (configureAny settings toolchains).Adds Event.isConfiguring := by
  induction toolchains with
  | nil => exact adds_pure false
  | cons toolchain rest ih =>
    refine .bind (adds_configureWith settings toolchain) fun found => ?_
    split
    · exact adds_pure true
    · exact ih

theorem adds_configure : (configure settings).Adds Event.isConfiguring := by
  refine .bind (adds_prepareBuildDir settings) fun _ => ?_
  refine .bind (adds_configureAny settings _) fun found => ?_
  split
  · exact adds_pure ()
  · exact adds_fail _

end

/-- An act that is not done can only be followed by the same end. -/
theorem run_bind_of_ne_done {act : Act Unit} {next : Unit → Act Unit} (place : Workspace)
    (world : World) (h : (act.run place world).1 ≠ .done ()) :
    (act >>= next).run place world = act.run place world := by
  rcases hrun : act.run place world with ⟨_ | failure | _, after⟩
  · rw [hrun] at h
    exact absurd rfl h
  · exact run_bind_of_failed _ _ hrun
  · exact run_bind_of_broken _ _ hrun

theorem run_bind_of_fst_eq_done {act : Act Unit} {next : Unit → Act Unit} (place : Workspace)
    (world : World) (h : (act.run place world).1 = .done ()) :
    (act >>= next).run place world = (next ()).run place (act.run place world).2 :=
  run_bind_of_done _ _ (Prod.ext h rfl)

variable (place : Workspace) (settings : Settings) (world : World)

/-- What a build adds to the events of the configuration. -/
theorem events_built (host : Host) (tests : Bool) :
    (world.built settings host tests).events =
      world.events ++ (if tests then [.assigned .buildTests "1"] else []) ++
        [.wrote .out (.banner world.palette.color
            ("Building project" ++ if tests then " and tests" else "")),
          .ran (.ninja settings.dir settings.jobs) .inherit (world.environment.forBuild tests)
            (host.run (.ninja settings.dir settings.jobs) (world.environment.forBuild tests)
              world.files).1] := by
  cases tests <;>
    simp [World.built, World.equipped, World.announced, World.painted, World.wrote, World.assigned,
      World.launched, World.response, Environment.forBuild]

theorem files_built (host : Host) (tests : Bool) :
    (world.built settings host tests).files =
      (host.run (.ninja settings.dir settings.jobs) (world.environment.forBuild tests)
        world.files).2 := by
  cases tests <;> rfl

/-- After a configuration a project is built. -/
theorem run_build_of_configured (tests docs : Bool)
    (haccepts : tests = true → place.host.accepts "1" = true)
    (h : ((configure settings).run place world).1 = .done ()) :
    (build settings tests docs).run place world =
      (if docs then .failed (.ofCause (.unsupported "Building doc")) else .done (),
        ((configure settings).run place world).2.built settings place.host tests) := by
  have hsettable : (tests && !place.host.accepts "1") = false := by
    cases tests with
    | false => rfl
    | true => rw [haccepts rfl]; rfl
  rw [build_eq, run_bind_of_fst_eq_done place world h, run_assemble, hsettable,
    if_neg Bool.false_ne_true]

theorem run_build_docs_ne_done (tests : Bool) :
    ((build settings tests true).run place world).1 ≠ .done () := by
  rw [build_eq]
  by_cases h : ((configure settings).run place world).1 = .done ()
  · rw [run_bind_of_fst_eq_done place world h, run_assemble]
    split <;> simp
  · rwa [run_bind_of_ne_done place world h]

/-- Without a run of the tests, testing is building. -/
theorem test_false : test settings false = build settings true false :=
  bind_pure_unit

theorem run_test_true :
    (test settings true).run place world =
      match (build settings true false).run place world with
      | (.done (), after) =>
        (.done (), (after.announced "Running tests").launched place.host (.ctest settings.dir)
          .inherit)
      | ended => ended := by
  rw [test, run_bind]
  rcases (build settings true false).run place world with ⟨_ | _ | _, _⟩
  · simp only [if_true, run_bind, run_banner, run_runUnchecked]
  · rfl
  · rfl

/-- Documentation is a build that never goes well. -/
theorem run_document (upload : Bool) :
    (document settings upload).run place world = (build settings false true).run place world :=
  run_bind_of_ne_done place world (run_build_docs_ne_done place settings world false)

theorem parse_test (flag : Option String) :
    Command.parse "test" flag.toList = .ok (some (.test (hasFlag "run" flag))) := by
  cases flag <;> rfl

theorem parse_doc (flag : Option String) :
    Command.parse "doc" flag.toList = .ok (some (.doc (hasFlag "up" flag))) := by
  cases flag <;> rfl

theorem parse_build (word : String) :
    Command.parse "build" [word] =
      .ok (some (.build (hasFlag "test" (some word)) (hasFlag "doc" (some word)))) :=
  rfl

/-- A word that asks for tests, or for documentation, and not for both. -/
theorem parse_build_of_infix {word wanted other : String}
    (hwanted : wanted.toList <:+: word.toList) (hother : ¬ other.toList <:+: word.toList) :
    hasFlag wanted (some word) = true ∧ hasFlag other (some word) = false := by
  rw [← Bool.not_eq_true, hasFlag_iff, hasFlag_iff]
  exact ⟨⟨word, rfl, hwanted⟩, fun ⟨_, hword, h⟩ => hother (Option.some.inj hword ▸ h)⟩

/-- Nothing is said of an upload, and the builder is run once the project is configured. -/
theorem events_document (upload : Bool) : ∃ new,
    ((document settings upload).run place world).2.events = world.events ++ new ∧
      (∀ channel, .wrote channel uploadLine ∉ new) ∧
      (((configure settings).run place world).1 = .done () → ∃ environment response,
        .ran (.ninja settings.dir settings.jobs) .inherit environment response ∈ new) := by
  obtain ⟨begun, hbegun, hconfiguring⟩ := adds_configure settings place world
  have hsilent (channel : Channel) : .wrote channel uploadLine ∉ begun :=
    fun hmem => hconfiguring _ hmem rfl
  rw [run_document]
  by_cases h : ((configure settings).run place world).1 = .done ()
  · have hrun := run_build_of_configured place settings world false true
      (fun hno => absurd hno Bool.false_ne_true) h
    have hevents := events_built settings ((configure settings).run place world).2 place.host false
    rw [hbegun, List.append_assoc, List.append_assoc] at hevents
    rw [hrun]
    refine ⟨_, hevents, fun channel hmem => ?_, fun _ => ?_⟩
    · rcases List.mem_append.mp hmem with hmem | hmem
      · exact hsilent channel hmem
      · simp [StyledText.banner, uploadLine] at hmem
    · exact ⟨_, _, List.mem_append_right _ (.tail _ (.head _))⟩
  · have hrun : (build settings false true).run place world =
        (configure settings).run place world := run_bind_of_ne_done place world h
    rw [hrun]
    exact ⟨begun, hbegun, hsilent, fun hdone => absurd hdone h⟩

/-- The commands compared. A build begins with a configuration, and ends with it unless it went
well; then the builder is run once, after the tests are asked for if they are wanted. Testing is
building with tests, and when a run of them is wanted it is that and, if it went well, the run.
Documenting is building with documentation: it never goes well, nothing is ever said of an upload,
and yet the builder is run whenever the configuration went well. -/
theorem commands_extend_one_another (haccepts : place.host.accepts "1" = true) :
    let run (command : Command) := (perform settings command).run place world
    let ninja : CommandLine :=
      ⟨"ninja", ["-C" ++ settings.dir, "-j" ++ toString settings.jobs]⟩
    let ctest : CommandLine :=
      ⟨"ctest", ["--rerun-failed", "--output-on-failure", "--test-dir", settings.dir ++ "/"]⟩
    (∃ begun, (run .config).2.events = world.events ++ begun ∧ runsOf "ninja" begun = [] ∧
      ∀ tests docs,
        ((run .config).1 ≠ .done () → run (.build tests docs) = run .config) ∧
        ((run .config).1 = .done () →
          let after := (run .config).2
          let environment := after.environment.forBuild tests
          let (response, files) := place.host.run ninja environment after.files
          (run (.build tests docs)).1 =
              (if docs then .failed (.ofCause (.unsupported "Building doc")) else .done ()) ∧
            (run (.build tests docs)).2.files = files ∧
            (run (.build tests docs)).2.events =
              world.events ++ begun ++ (if tests then [.assigned .buildTests "1"] else []) ++
                [.wrote .out (.banner after.palette.color
                    ("Building project" ++ if tests then " and tests" else "")),
                  .ran ninja .inherit environment response])) ∧
    (∀ (flag : Option String) (word : String), "test".toList <:+: word.toList →
      ¬ "doc".toList <:+: word.toList →
      ∃ testing building, Command.parse "test" flag.toList = .ok (some testing) ∧
        Command.parse "build" [word] = .ok (some building) ∧
        ((¬ ∃ text, flag = some text ∧ "run".toList <:+: text.toList) →
          run testing = run building) ∧
        ((∃ text, flag = some text ∧ "run".toList <:+: text.toList) →
          run testing =
            match run building with
            | (.done (), after) =>
              (.done (), (after.announced "Running tests").launched place.host ctest .inherit)
            | ended => ended)) ∧
    (∀ (flag : Option String) (word : String), "doc".toList <:+: word.toList →
      ¬ "test".toList <:+: word.toList →
      ∃ documenting building, Command.parse "doc" flag.toList = .ok (some documenting) ∧
        Command.parse "build" [word] = .ok (some building) ∧
        run documenting = run building ∧
        (run documenting).1 ≠ .done () ∧
        ∃ new, (run documenting).2.events = world.events ++ new ∧
          (∀ channel, .wrote channel [.plain ("Uploading docs" ++ "\n")] ∉ new) ∧
          ((run .config).1 = .done () →
            ∃ environment response, .ran ninja .inherit environment response ∈ new)) := by
  intro run ninja ctest
  obtain ⟨begun, hbegun, hconfiguring⟩ := adds_configure settings place world
  have hconfig : run .config = (configure settings).run place world := rfl
  rw [hconfig]
  refine ⟨⟨begun, hbegun, runsOf_ninja_of_isConfiguring hconfiguring, fun tests docs => ⟨?_, ?_⟩⟩,
    fun flag word hwanted hother => ?_, fun flag word hwanted hother => ?_⟩
  · exact run_bind_of_ne_done place world
  · intro hdone
    have hrun : run (.build tests docs) = _ :=
      run_build_of_configured place settings world tests docs (fun _ => haccepts) hdone
    rw [hrun]
    dsimp only
    rw [events_built, files_built, hbegun]
    exact ⟨rfl, rfl, rfl⟩
  · obtain ⟨htests, hdocs⟩ := parse_build_of_infix hwanted hother
    refine ⟨_, _, parse_test flag, parse_build word, fun hplain => ?_, fun hrun => ?_⟩
    · rw [← hasFlag_iff, Bool.not_eq_true] at hplain
      simp only [run, perform, hplain, htests, hdocs, test_false]
    · rw [← hasFlag_iff] at hrun
      simp only [run, perform, hrun, htests, hdocs, run_test_true]
      rfl
  · obtain ⟨hdocs, htests⟩ := parse_build_of_infix hwanted hother
    refine ⟨_, _, parse_doc flag, parse_build word, ?_, ?_,
      events_document place settings world _⟩
    · simp only [run, perform, htests, hdocs, run_document]
    · simp only [run, perform, run_document]
      exact run_build_docs_ne_done place settings world false

/-- In a rehearsal documenting with an upload is what building with documentation is. -/
theorem commands_extend_one_another_rehearsal :
    let place : Workspace := ⟨Rehearsal.project, Rehearsal.host⟩
    let world : World := { files := Rehearsal.files none, answers := .queue [] }
    let run (command : Command) := (perform {} command).run place world
    place.host.accepts "1" = true ∧
      "doc".toList <:+: "docs".toList ∧ ¬ "test".toList <:+: "docs".toList ∧
      ∃ documenting building, Command.parse "doc" ["up"] = .ok (some documenting) ∧
        Command.parse "build" ["docs"] = .ok (some building) ∧
        run documenting = run building ∧ (run documenting).1 ≠ .done () := by
  intro place world run
  have haccepts : place.host.accepts "1" = true := by decide
  have hdocs : "doc".toList <:+: "docs".toList := by decide
  have htests : ¬ "test".toList <:+: "docs".toList := by decide
  obtain ⟨-, -, hdocuments⟩ := commands_extend_one_another place {} world haccepts
  obtain ⟨documenting, building, hparse, hbuild, hsame, hnever, -⟩ :=
    hdocuments (some "up") "docs" hdocs htests
  exact ⟨haccepts, hdocs, htests, documenting, building, hparse, hbuild, hsame, hnever⟩

end Conductor
