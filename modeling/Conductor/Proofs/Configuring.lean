import Conductor.Proofs.Toolchains

/-!
# Configuring a project

The main result is `configure_tries_in_order`: once the build directory is there, the toolchains are
tried in order up to the first that works, and nothing else happens but texts on the output.
-/

namespace Conductor

namespace Attempt

variable (settings : Settings) (tests : Option String)

/-- The texts that tell how an attempt went, in the colour whose turn it is. -/
def ending (palette : Palette) (attempt : Attempt) : List Event :=
  match attempt.failure? settings with
  | none => [.wrote .out (.banner palette.color "Configuration successful!")]
  | some failure =>
    [.wrote .err (.warning failure.message),
      .wrote .out (.banner palette.color "Configuration failed :(")]

def log (palette : Palette) (attempt : Attempt) : List Event :=
  [.assigned .cc attempt.toolchain.cc, .assigned .cxx attempt.toolchain.cxx,
      .wrote .out (.banner palette.color "Trying to configure project ...")] ++
    attempt.runs settings tests ++ attempt.ending settings palette.advance

theorem beyondOutput_log (palette : Palette) (attempt : Attempt) :
    beyondOutput (attempt.log settings tests palette) = attempt.trace settings tests := by
  obtain ⟨toolchain, install, generate, h⟩ := attempt
  cases generate <;> cases hf : failure? settings ⟨toolchain, install, _, h⟩ <;>
    simp only [log, trace, ending, hf] <;> rfl

end Attempt

def World.tried (world : World) (host : Host) (settings : Settings) (toolchain : Toolchain) :
    World :=
  let tests := world.environment.buildTests
  let (attempt, files) := Attempt.make host settings tests world.files toolchain
  { world with
    files := files
    environment := Attempt.environment tests toolchain
    palette := world.palette.advance.advance
    events := world.events ++ attempt.log settings tests world.palette }

variable (place : Workspace) (settings : Settings) (world : World)

/-- The two checked steps make the attempt that the host gives rise to. -/
theorem run_configureSteps (tests : Option String) (toolchain : Toolchain)
    (h : world.environment = Attempt.environment tests toolchain) :
    (configureSteps settings toolchain).run place world =
      let (attempt, files) := Attempt.make place.host settings tests world.files toolchain
      (.ofFailure? (attempt.failure? settings),
        { world with
          files := files, events := world.events ++ attempt.runs settings tests }) := by
  have hinstall : world.response place.host (.conanInstall settings.dir) =
      (Attempt.installed place.host settings tests world.files toolchain).1 := by
    rw [World.response, h]
    rfl
  have hafter : world.launched place.host (.conanInstall settings.dir) .inherit =
      { world with
        files := (Attempt.installed place.host settings tests world.files toolchain).2
        events := world.events ++ [.ran (.conanInstall settings.dir) .inherit
          (Attempt.environment tests toolchain)
          (Attempt.installed place.host settings tests world.files toolchain).1] } := by
    rw [World.launched, hinstall, h]
    rfl
  by_cases hs : (Attempt.installed place.host settings tests world.files toolchain).1.succeeded
  · have hrun : (runChecked (.conanInstall settings.dir)).run place world =
        (.done (), world.launched place.host (.conanInstall settings.dir) .inherit) := by
      rw [run_runChecked, hinstall, (Response.failure?_eq_none_iff _ _).mpr hs]
      rfl
    rw [configureSteps, Act.run_bind_of_done _ _ hrun, run_runChecked, hafter,
      Attempt.make_of_succeeded hs]
    simp [Attempt.failure?, Attempt.runs, World.launched, World.response, h, Attempt.generated,
      CommandLine.conanInstall, CommandLine.cmakeGenerate]
  · obtain ⟨failure, hfailure⟩ : ∃ failure, (Attempt.installed place.host settings tests
        world.files toolchain).1.failure? (.conanInstall settings.dir) = some failure := by
      rw [← Option.ne_none_iff_exists', ne_eq, Response.failure?_eq_none_iff]
      exact hs
    have hrun : (runChecked (.conanInstall settings.dir)).run place world =
        (.failed failure, world.launched place.host (.conanInstall settings.dir) .inherit) := by
      rw [run_runChecked, hinstall, hfailure]
      rfl
    rw [configureSteps, Act.run_bind_of_failed _ _ hrun, hafter, Attempt.make_of_failed hs]
    simp only [Attempt.failure?, hfailure, Outcome.ofFailure?]
    rfl

theorem run_configureWith {toolchain : Toolchain} (h : place.host.takes toolchain = true) :
    (configureWith settings toolchain).run place world =
      (.done (Attempt.make place.host settings world.environment.buildTests world.files
        toolchain).1.succeeded, world.tried place.host settings toolchain) := by
  obtain ⟨hcc, hcxx⟩ : place.host.accepts toolchain.cc = true ∧
      place.host.accepts toolchain.cxx = true := by
    simpa [Host.takes] using h
  let set := (world.assigned .cc toolchain.cc).assigned .cxx toolchain.cxx
  let ready := set.announced "Trying to configure project ..."
  have hassignCc : (Act.assign .cc toolchain.cc).run place world =
      (.done (), world.assigned .cc toolchain.cc) := by
    rw [Act.run_assign, if_pos hcc]
  have hassignCxx : (Act.assign .cxx toolchain.cxx).run place (world.assigned .cc toolchain.cc) =
      (.done (), set) := by
    rw [Act.run_assign, if_pos hcxx]
  have hbanner : (Act.banner "Trying to configure project ...").run place set =
      (.done (), ready) :=
    rfl
  have hfiles : ready.files = world.files := rfl
  rw [configureWith, Act.run_bind_of_done _ _ hassignCc, Act.run_bind_of_done _ _ hassignCxx,
    Act.run_bind_of_done _ _ hbanner, Act.run_bind, Act.run_attempt,
    run_configureSteps place settings ready world.environment.buildTests toolchain rfl, hfiles]
  cases hf : (Attempt.make place.host settings world.environment.buildTests world.files
      toolchain).1.failure? settings with
  | none =>
    have hs := (Attempt.failure?_eq_none_iff settings _).mp hf
    simp only [hs, Outcome.ofFailure?, Act.run_bind, Act.run_banner, Act.run_pure, World.tried,
      Attempt.log, Attempt.ending, hf]
    simp [ready, set, World.announced, World.assigned, World.painted, World.wrote]
    rfl
  | some failure =>
    have hs : (Attempt.make place.host settings world.environment.buildTests world.files
        toolchain).1.succeeded = false := by
      rw [← Bool.not_eq_true, ← Attempt.failure?_eq_none_iff settings, hf]
      simp
    simp only [hs, Outcome.ofFailure?, Act.run_bind, Act.run_banner, Act.run_write, Act.run_pure,
      World.tried, Attempt.log, Attempt.ending, hf]
    simp [ready, set, World.announced, World.assigned, World.painted, World.wrote]
    rfl

/-- What is told of a toolchain that cannot be set, before the program breaks down. -/
def Host.cut (host : Host) (toolchain : Toolchain) : List Event :=
  .assigned .cc toolchain.cc ::
    if host.accepts toolchain.cc then [.assigned .cxx toolchain.cxx] else []

/-- How a search for a toolchain ends after some attempts, with the toolchains that are left over
and what is still done with the first of them. -/
inductive Search (host : Host) (tried : List Attempt) :
    List Toolchain → List Event → Outcome Bool → Prop
  | found {untouched : List Toolchain} (h : ∃ attempt ∈ tried, attempt.succeeded = true) :
      Search host tried untouched [] (.done true)
  | exhausted (h : ∀ attempt ∈ tried, attempt.succeeded = false) :
      Search host tried [] [] (.done false)
  | stuck {toolchain : Toolchain} {rest : List Toolchain}
      (h : ∀ attempt ∈ tried, attempt.succeeded = false) (hstuck : host.takes toolchain = false) :
      Search host tried (toolchain :: rest) (host.cut toolchain) .broken

/-- A failed attempt before a search does not change how it ends. -/
theorem Search.cons {host : Host} {attempt : Attempt} {tried : List Attempt}
    {untouched : List Toolchain} {cut : List Event} {outcome : Outcome Bool}
    (hfailed : attempt.succeeded = false) (h : Search host tried untouched cut outcome) :
    Search host (attempt :: tried) untouched cut outcome := by
  cases h with
  | found h =>
    obtain ⟨other, hmem, hother⟩ := h
    exact .found ⟨other, List.mem_cons_of_mem _ hmem, hother⟩
  | exhausted h => exact .exhausted (by simpa [hfailed] using h)
  | stuck h hstuck => exact .stuck (by simpa [hfailed] using h) hstuck

def Attempt.environmentAfter (environment : Environment) (tried : List Attempt) : Environment :=
  (tried.getLast?.map fun attempt =>
    Attempt.environment environment.buildTests attempt.toolchain).getD environment

theorem run_configureWith_of_stuck {toolchain : Toolchain}
    (h : place.host.takes toolchain = false) :
    ∃ after, (configureWith settings toolchain).run place world = (.broken, after) ∧
      after.events = world.events ++ place.host.cut toolchain := by
  by_cases hcc : place.host.accepts toolchain.cc = true
  · have hcxx : place.host.accepts toolchain.cxx = false := by
      simpa [Host.takes, hcc] using h
    refine ⟨(world.assigned .cc toolchain.cc).proposed .cxx toolchain.cxx, ?_, ?_⟩
    · simp [configureWith, Act.run_bind, Act.run_assign, hcc, hcxx]
    · simp [World.assigned, World.proposed, Host.cut, hcc]
  · refine ⟨world.proposed .cc toolchain.cc, ?_, ?_⟩
    · simp [configureWith, Act.run_bind, Act.run_assign, hcc]
    · simp [World.proposed, Host.cut, hcc]

/-- What a search through toolchains has done between two worlds. -/
structure Searched (host : Host) (settings : Settings) (toolchains : List Toolchain)
    (world after : World) (tried : List Attempt) (untouched : List Toolchain) (cut : List Event)
    (found : Outcome Bool) : Prop where
  toolchains_eq : toolchains = tried.map (·.toolchain) ++ untouched
  events_eq : beyondOutput after.events = beyondOutput world.events ++
    tried.flatMap (Attempt.trace settings world.environment.buildTests) ++ cut
  ends : Search host tried untouched cut found
  environment_eq : found ≠ .broken →
    after.environment = Attempt.environmentAfter world.environment tried

section

variable {host : Host} {settings : Settings} {attempt : Attempt} {rest : List Toolchain}
  {world next after : World}

/-- The first success ends a search. -/
theorem Searched.found
    (hevents : beyondOutput next.events =
      beyondOutput world.events ++ attempt.trace settings world.environment.buildTests)
    (henv : next.environment =
      Attempt.environment world.environment.buildTests attempt.toolchain)
    (hs : attempt.succeeded = true) :
    Searched host settings (attempt.toolchain :: rest) world next [attempt] rest []
      (.done true) where
  toolchains_eq := rfl
  events_eq := by simp [hevents]
  ends := .found ⟨attempt, List.mem_singleton.mpr rfl, hs⟩
  environment_eq _ := henv

/-- A failed attempt and a search after it make a longer search. -/
theorem Searched.cons {later : List Attempt} {untouched : List Toolchain} {cut : List Event}
    {found : Outcome Bool}
    (hevents : beyondOutput next.events =
      beyondOutput world.events ++ attempt.trace settings world.environment.buildTests)
    (henv : next.environment =
      Attempt.environment world.environment.buildTests attempt.toolchain)
    (hs : attempt.succeeded = false)
    (h : Searched host settings rest next after later untouched cut found) :
    Searched host settings (attempt.toolchain :: rest) world after (attempt :: later) untouched cut
      found := by
  have htests : next.environment.buildTests = world.environment.buildTests := by
    rw [henv]
    rfl
  refine ⟨?_, ?_, h.ends.cons hs, fun hdone => ?_⟩
  · rw [h.toolchains_eq]
    rfl
  · rw [h.events_eq, hevents, htests]
    simp
  · rw [h.environment_eq hdone]
    cases later with
    | nil => exact henv
    | cons other more =>
      simp only [Attempt.environmentAfter, htests, List.getLast?_cons, Option.map_some,
        Option.getD_some]

/-- A toolchain that cannot be set ends a search before anything was tried. -/
theorem Searched.stuck {toolchain : Toolchain}
    (hevents : after.events = world.events ++ host.cut toolchain)
    (hstuck : host.takes toolchain = false) :
    Searched host settings (toolchain :: rest) world after [] (toolchain :: rest)
      (host.cut toolchain) .broken where
  toolchains_eq := rfl
  events_eq := by
    have hcut : beyondOutput (host.cut toolchain) = host.cut toolchain := by
      rw [Host.cut]
      split <;> rfl
    rw [hevents, beyondOutput_append, hcut]
    simp
  ends := .stuck (by simp) hstuck
  environment_eq h := absurd rfl h

end

theorem beyondOutput_tried (host : Host) (toolchain : Toolchain) :
    beyondOutput (world.tried host settings toolchain).events = beyondOutput world.events ++
      (Attempt.make host settings world.environment.buildTests world.files toolchain).1.trace
        settings world.environment.buildTests := by
  rw [← Attempt.beyondOutput_log _ _ world.palette, ← beyondOutput_append]
  rfl

/-- The toolchains are tried as the host alone decides. The induction is on the toolchains, for all
worlds, since each attempt starts in the world that the one before it left. -/
theorem run_configureAny (toolchains : List Toolchain) :
    ∃ found after untouched cut,
      (configureAny settings toolchains).run place world = (found, after) ∧
      Searched place.host settings toolchains world after
        (Attempt.all place.host settings world.environment.buildTests world.files toolchains)
        untouched cut found := by
  induction toolchains generalizing world with
  | nil =>
    exact ⟨.done false, world, [], [], rfl, rfl, by simp [Attempt.all],
      .exhausted (by simp [Attempt.all]), fun _ => rfl⟩
  | cons toolchain rest ih =>
    by_cases htakes : place.host.takes toolchain = true
    · -- one attempt is made, and only if it fails the rest is searched from the world it left
      have hrun := run_configureWith place settings world htakes
      have hevents := beyondOutput_tried settings world place.host toolchain
      have htoolchain := Attempt.make_toolchain place.host settings world.environment.buildTests
        world.files toolchain
      have henv : (world.tried place.host settings toolchain).environment = Attempt.environment
          world.environment.buildTests (Attempt.make place.host settings
            world.environment.buildTests world.files toolchain).1.toolchain := by
        rw [htoolchain]
        rfl
      rw [Attempt.all_of_takes _ _ htakes]
      by_cases hs : (Attempt.make place.host settings world.environment.buildTests world.files
          toolchain).1.succeeded = true
      · rw [if_pos hs]
        rw [hs] at hrun
        refine ⟨.done true, world.tried place.host settings toolchain, rest, [], ?_, ?_⟩
        · rw [configureAny, Act.run_bind_of_done _ _ hrun]
          rfl
        · have hfound : Searched place.host settings (_ :: rest) world _ [_] rest [] (.done true) :=
            .found hevents henv hs
          rwa [htoolchain] at hfound
      · rw [if_neg hs]
        rw [Bool.not_eq_true] at hs
        rw [hs] at hrun
        obtain ⟨found, after, untouched, cut, hrest, hsearched⟩ :=
          ih (world.tried place.host settings toolchain)
        refine ⟨found, after, untouched, cut, ?_, ?_⟩
        · rw [configureAny, Act.run_bind_of_done _ _ hrun]
          exact hrest
        · have hlonger := Searched.cons hevents henv hs hsearched
          rwa [htoolchain] at hlonger
    · rw [Bool.not_eq_true] at htakes
      obtain ⟨after, hrun, hevents⟩ := run_configureWith_of_stuck place settings world htakes
      have htried : Attempt.all place.host settings world.environment.buildTests world.files
          (toolchain :: rest) = [] := by
        simp [Attempt.all, htakes]
      rw [htried]
      refine ⟨.broken, after, toolchain :: rest, place.host.cut toolchain, ?_,
        Searched.stuck hevents htakes⟩
      rw [configureAny, Act.run_bind_of_broken _ _ hrun]

/-- What comes of making a directory, where one that stands there already will do. -/
def orExisting (files : Files.Node) :
    Except SystemError Files.Node → Except SystemError Files.Node
  | .ok made => .ok made
  | .error .alreadyExists => .ok files
  | .error error => .error error

/-- The files once there is a build directory, unless it cannot be made. -/
def readied (project : String) (settings : Settings) (files : Files.Node) :
    Except SystemError Files.Node :=
  orExisting files (Files.makeDirectory files (buildPath project settings))

/-- The build directory is there afterwards, or else nothing has been done. -/
theorem run_prepareBuildDir :
    (∃ files ready, readied place.project settings world.files = .ok files ∧
      (prepareBuildDir settings).run place world = (.done (), ready) ∧
      ready.files = files ∧ ready.environment = world.environment ∧
      beyondOutput ready.events = beyondOutput world.events) ∨
    ∃ error, readied place.project settings world.files = .error error ∧
      (prepareBuildDir settings).run place world =
        (.failed ((Failure.ofCause (.system error)).within
          ("Failed to create " ++ buildPath place.project settings)), world) := by
  simp only [prepareBuildDir, Act.run_bind, Act.run_workspace, Act.run_world, readied]
  cases Files.makeDirectory world.files (buildPath place.project settings) with
  | ok files =>
    refine .inl ⟨files, _, rfl, rfl, rfl, rfl, ?_⟩
    exact beyondOutput_wrote { world with files := files } _
  | error error =>
    by_cases h : error = .alreadyExists
    · subst h
      refine .inl ⟨world.files, _, rfl, rfl, rfl, rfl, ?_⟩
      exact beyondOutput_wrote world.painted _
    · refine .inr ⟨error, ?_, ?_⟩ <;> cases error <;> first | rfl | exact absurd rfl h

def configured (settings : Settings) : Outcome Bool → Outcome Unit
  | .done true => .done ()
  | .done false => .failed (.ofCause (.configurationFailed settings.toolchains.length))
  | .failed failure => .failed failure
  | .broken => .broken

/-- Once there is a build directory, configuring is a search for a toolchain. -/
theorem run_configure_of_ready {ready : World}
    (h : (prepareBuildDir settings).run place world = (.done (), ready))
    (henv : ready.environment = world.environment)
    (hevents : beyondOutput ready.events = beyondOutput world.events) :
    ∃ found after untouched cut,
      (configure settings).run place world = (configured settings found, after) ∧
      Searched place.host settings settings.toolchains world after
        (Attempt.all place.host settings world.environment.buildTests ready.files
          settings.toolchains) untouched cut found := by
  obtain ⟨found, after, untouched, cut, hrun, hsplit, hafter, hsearch, hseen⟩ :=
    run_configureAny place settings ready settings.toolchains
  rw [henv] at hsplit hafter hsearch hseen
  rw [hevents] at hafter
  refine ⟨found, after, untouched, cut, ?_, hsplit, hafter, hsearch, hseen⟩
  rw [configure, Act.run_bind_of_done _ _ h, Act.run_bind, hrun]
  rcases found with (_ | _) | _ | _ <;> rfl

/-- Either there is no build directory and nothing has been done, or the toolchains have been
tried. -/
theorem run_configure :
    (∃ error, readied place.project settings world.files = .error error ∧
      (configure settings).run place world =
        (.failed ((Failure.ofCause (.system error)).within
          ("Failed to create " ++ buildPath place.project settings)), world)) ∨
    ∃ files found after untouched cut,
      readied place.project settings world.files = .ok files ∧
      (configure settings).run place world = (configured settings found, after) ∧
      Searched place.host settings settings.toolchains world after
        (Attempt.all place.host settings world.environment.buildTests files settings.toolchains)
        untouched cut found := by
  rcases run_prepareBuildDir place settings world with
    ⟨files, ready, hreadied, hready, rfl, henv, hevents⟩ | ⟨error, hreadied, hfailed⟩
  · obtain ⟨found, after, untouched, cut, hrun, hsearched⟩ :=
      run_configure_of_ready place settings world hready henv hevents
    exact .inr ⟨ready.files, found, after, untouched, cut, hreadied, hrun, hsearched⟩
  · refine .inl ⟨error, hreadied, ?_⟩
    rw [configure, Act.run_bind_of_failed _ _ hfailed]

namespace Search

variable {host : Host} {tried : List Attempt} {untouched : List Toolchain} {cut : List Event}
  {outcome : Outcome Bool} {settings}

theorem configured_eq_done_iff (h : Search host tried untouched cut outcome) :
    configured settings outcome = .done () ↔ ∃ attempt ∈ tried, attempt.succeeded = true := by
  cases h with
  | found h => exact ⟨fun _ => h, fun _ => rfl⟩
  | exhausted h => simpa [configured] using h
  | stuck h => simpa [configured] using h

theorem configured_eq_failed_iff (h : Search host tried untouched cut outcome)
    (failure : Failure) :
    configured settings outcome = .failed failure ↔
      failure = .ofCause (.configurationFailed settings.toolchains.length) ∧ untouched = [] ∧
        ∀ attempt ∈ tried, attempt.succeeded = false := by
  cases h with
  | found h =>
    obtain ⟨attempt, hmem, hs⟩ := h
    refine ⟨fun h => by simp [configured] at h, fun ⟨_, _, hall⟩ => ?_⟩
    rw [hall attempt hmem] at hs
    exact absurd hs Bool.false_ne_true
  | exhausted h =>
    refine ⟨fun heq => ?_, fun ⟨heq, _⟩ => by rw [heq]; rfl⟩
    exact ⟨(Outcome.failed.inj heq).symm, rfl, h⟩
  | stuck h => simp [configured]

theorem cut_eq_nil (h : Search host tried untouched cut outcome)
    (hne : configured settings outcome ≠ .broken) : cut = [] := by
  cases h with
  | found => rfl
  | exhausted => rfl
  | stuck => exact absurd rfl hne

theorem exists_not_takes (h : Search host tried untouched cut outcome)
    (heq : configured settings outcome = .broken) :
    ∃ toolchain rest, untouched = toolchain :: rest ∧ host.takes toolchain = false ∧
      cut = host.cut toolchain := by
  cases h with
  | found => simp [configured] at heq
  | exhausted => simp [configured] at heq
  | stuck _ hstuck => exact ⟨_, _, rfl, hstuck, rfl⟩

end Search

/-- Without a build directory nothing happens, and that failure is the end. With one, the toolchains
are tried one after another up to the first that succeeds: both variables are set, the tools are
run, a failed attempt is warned of, and nothing else happens but texts on the output. The program
breaks down only at a toolchain that cannot be the value of a variable. -/
theorem configure_tries_in_order :
    match (prepareBuildDir settings).run place world with
    | (.failed failure, after) =>
      after = world ∧ (configure settings).run place world = (.failed failure, world)
    | (.broken, _) => False
    | (.done (), ready) =>
      let tests := world.environment.buildTests
      let tried := Attempt.all place.host settings tests ready.files settings.toolchains
      ∃ outcome after untouched cut,
        (configure settings).run place world = (outcome, after) ∧
        settings.toolchains = tried.map (·.toolchain) ++ untouched ∧
        (∀ attempt ∈ tried.dropLast, attempt.succeeded = false) ∧
        (∀ attempt ∈ tried, attempt.failure? settings = none ↔ attempt.succeeded = true) ∧
        beyondOutput after.events =
          beyondOutput world.events ++ tried.flatMap (Attempt.trace settings tests) ++ cut ∧
        (outcome = .done () ↔ ∃ attempt ∈ tried, attempt.succeeded = true) ∧
        (∀ failure, outcome = .failed failure ↔
          failure = .ofCause (.configurationFailed settings.toolchains.length) ∧
            untouched = [] ∧ ∀ attempt ∈ tried, attempt.succeeded = false) ∧
        (outcome ≠ .broken → cut = []) ∧
        (outcome = .broken → ∃ toolchain rest, untouched = toolchain :: rest ∧
          place.host.takes toolchain = false ∧ cut = place.host.cut toolchain) := by
  rcases run_prepareBuildDir place settings world with
    ⟨files, ready, -, hready, -, henv, hevents⟩ | ⟨error, -, hfailed⟩
  · obtain ⟨found, after, untouched, cut, hrun, hsearched⟩ :=
      run_configure_of_ready place settings world hready henv hevents
    have hsearch := hsearched.ends
    rw [hready]
    exact ⟨configured settings found, after, untouched, cut, hrun, hsearched.toolchains_eq,
      Attempt.all_dropLast_failed _ _ _ _ _, fun attempt _ => attempt.failure?_eq_none_iff settings,
      hsearched.events_eq, hsearch.configured_eq_done_iff, hsearch.configured_eq_failed_iff,
      hsearch.cut_eq_nil, hsearch.exists_not_takes⟩
  · rw [hfailed]
    refine ⟨rfl, ?_⟩
    rw [configure, Act.run_bind_of_failed _ _ hfailed]

end Conductor
