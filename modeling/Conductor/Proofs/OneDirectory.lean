import Conductor.Proofs.Children
import Conductor.Proofs.Decoding
import Conductor.Proofs.Lingering

/-!
# The only thing that the program makes

Of itself the program changes no file, and it makes one directory at most: the build directory, one
level deep, before the first tool is run. It then stays, whatever becomes of the configuration. The
main result is `only_the_build_directory_is_made`.
-/

namespace Conductor

def Host.sparesFiles (host : Host) : Prop :=
  ∀ line environment files, (host.run line environment files).2 = files

/-- No tool was run and no variable was set. -/
def IsIdle (events : List Event) : Prop :=
  ∀ event ∈ events, event.deed ≠ .launch ∧ event.deed ≠ .assign

theorem IsIdle.wrote {world : World} (h : IsIdle world.events) (channel : Channel)
    (text : StyledText) : IsIdle (world.wrote channel text).events := by
  intro event hmem
  rcases List.mem_append.mp hmem with hmem | hmem
  · exact h event hmem
  · obtain rfl := List.mem_singleton.mp hmem
    exact ⟨by simp [Event.deed], by simp [Event.deed]⟩

section

variable {place : Workspace} {a b : World} {deeds : List Deed}

/-- With such tools only the making of a directory changes files. -/
theorem Steps.files_eq_of_sparesFiles (hhost : place.host.sparesFiles)
    (h : Steps place deeds a b) (hmake : .make ∉ deeds) : b.files = a.files := by
  refine h.keeps (I := fun world => world.files = a.files) (fun deed hdeed c d hs hc => ?_) rfl
  cases hs with
  | launch line output => exact (hhost line c.environment c.files).trans hc
  | make => exact absurd hdeed hmake
  | _ => exact hc

theorem Steps.isIdle (h : Steps place deeds a b) (hlaunch : .launch ∉ deeds)
    (hassign : .assign ∉ deeds) (ha : IsIdle a.events) : IsIdle b.events := by
  obtain ⟨new, hnew, hall⟩ := h.events_eq
  rw [hnew]
  intro event hmem
  rcases List.mem_append.mp hmem with hmem | hmem
  · exact ha event hmem
  · have hdeed := (hall event hmem).1
    exact ⟨fun hno => hlaunch (hno ▸ hdeed), fun hno => hassign (hno ▸ hdeed)⟩

end

open Act

section

variable (place : Workspace) (settings : Settings) (world : World) {command : Command}

/-- What follows on the build directory. -/
def onwards (command : Command) : Act Unit :=
  search settings >>= fun _ => afterwards settings command

theorem takesOnly_onwards (command : Command) :
    (onwards settings command).TakesOnly Deed.building :=
  .bind (takesOnly_search settings) fun _ => takesOnly_afterwards settings command

theorem perform_eq_onwards (h : command.configures = true) :
    perform settings command = prepareBuildDir settings >>= fun _ => onwards settings command := by
  rw [perform_eq_of_configures settings h, configure_eq, bind_assoc]
  rfl

/-- All else is done in the world with the build directory, whether it is made or there already. -/
theorem steps_perform_of_readied (h : command.configures = true) {left : Files.Node}
    (hleft : readied place.project settings world.files = .ok left) :
    Steps place Deed.building { world with files := left }
      ((perform settings command).run place world).2 := by
  have honwards (ready : World) : Steps place Deed.building ready
      ((onwards settings command).run place ready).2 :=
    takesOnly_onwards settings command place ready
  rw [perform_eq_onwards settings h]
  cases hmake : Files.makeDirectory world.files (buildPath place.project settings) with
  | ok made =>
    rw [readied, hmake] at hleft
    cases hleft
    have hprepare : (prepareBuildDir settings).run place world =
        (line ("INFO: Created '" ++ settings.dir ++ "/' directory")).run place
          { world with files := left } := by
      simp only [prepareBuildDir, run_bind, run_workspace, run_world, hmake]
      rfl
    rw [run_bind_of_done _ _ hprepare]
    exact (takesOnly_line (by decide) _ place _).trans (honwards _)
  | error error =>
    rw [readied, hmake] at hleft
    cases error with
    | alreadyExists =>
      cases hleft
      have hprepare : (prepareBuildDir settings).run place world = (banner
          ("INFO: '" ++ settings.dir ++ "/' directory already exists")).run place world := by
        simp only [prepareBuildDir, run_bind, run_workspace, run_world, hmake]
      rw [run_bind_of_done _ _ hprepare]
      exact (takesOnly_banner (by decide) (by decide) _ place world).trans (honwards _)
    | _ => cases hleft

/-- Without a build directory nothing is done. -/
theorem run_perform_of_error (h : command.configures = true) {error : SystemError}
    (herror : error ≠ .alreadyExists)
    (hmake : Files.makeDirectory world.files (buildPath place.project settings) = .error error) :
    (perform settings command).run place world =
      (.failed ((Failure.ofCause (.system error)).within
        ("Failed to create " ++ buildPath place.project settings)), world) := by
  have hprepare : (prepareBuildDir settings).run place world =
      (.failed ((Failure.ofCause (.system error)).within
        ("Failed to create " ++ buildPath place.project settings)), world) := by
    simp only [prepareBuildDir, run_bind, run_workspace, run_world, hmake]
    rfl
  rw [perform_eq_onwards settings h, run_bind_of_failed _ _ hprepare]

end

def World.initial (files : Files.Node) (input : List UInt8) : World :=
  { files := files, answers := .stream input }

section

variable {place : Workspace} {files : Files.Node} {input : List UInt8} {tokens : List String}

/-- A run that does not come to a configuration makes nothing. -/
theorem files_carryOut_of_not_configures (hhost : place.host.sparesFiles)
    (h : ∀ command settings, meaningOf tokens (Answers.stream input).next.1 = some command →
      command.configures = true → Settings.load files place.project ≠ .ok settings) :
    (Program.carryOut place (.initial files input) tokens).2.files = files := by
  cases hmeaning : meaningOf tokens (Answers.stream input).next.1 with
  | none =>
    have hsteps := steps_obey_of_no_meaning place (.initial files input) rfl hmeaning
    exact (steps_carryOut (by decide) hsteps).files_eq_of_sparesFiles hhost (by decide)
  | some command =>
    by_cases hconfigures : command.configures = true
    · cases hload : Settings.load files place.project with
      | ok settings => exact absurd hload (h command settings hmeaning hconfigures)
      | error failure =>
        have hneeds := Command.needsSettings_of_configures hconfigures
        have hsteps :=
          steps_obey_of_unusable place (.initial files input) rfl hmeaning hneeds hload
        exact (steps_carryOut (by decide) hsteps).files_eq_of_sparesFiles hhost (by decide)
    · rw [Bool.not_eq_true] at hconfigures
      have hsteps := steps_carryOut_of_not_configures place (.initial files input) rfl hmeaning
        hconfigures
      exact hsteps.files_eq_of_sparesFiles hhost (by decide)

variable {command : Command} {settings : Settings}
  (hmeaning : meaningOf tokens (Answers.stream input).next.1 = some command)
  (hconfigures : command.configures = true)
  (hload : Settings.load files place.project = .ok settings)

include hmeaning hconfigures hload

/-- A command that configures begins with the files as they are, before any tool is run. -/
theorem exists_resolved : ∃ resolved, resolved.files = files ∧ IsIdle resolved.events ∧
    ((obey tokens).run place (.initial files input)).2 =
      ((perform settings command).run place resolved).2 ∧
    ∀ failure after, (perform settings command).run place resolved = (.failed failure, after) →
      (obey tokens).run place (.initial files input) = (.failed failure, after) := by
  obtain ⟨resolved, hsteps, hobey⟩ :=
    run_obey_of_meaning place (.initial files input) rfl hmeaning
  have hfiles : resolved.files = files := hsteps.files_eq (by decide) (by decide)
  have hidle : IsIdle resolved.events :=
    hsteps.isIdle (by decide) (by decide) (by simp [IsIdle, World.initial])
  have hneeds := Command.needsSettings_of_configures hconfigures
  rw [← hfiles] at hload
  refine ⟨resolved, hfiles, hidle, ?_, ?_⟩
  · rw [hobey, (run_fulfil_of_ok place resolved hneeds hload).2]
  · intro failure after hperform
    rw [hobey, fulfil, run_bind_of_done _ _ (run_settingsFor_of_ok _ _ hneeds hload),
      run_bind_of_failed _ _ hperform]

/-- Before any tool is run there is a build directory, or it is made, and no other is made later. -/
theorem exists_ready {left : Files.Node}
    (hleft : readied place.project settings files = .ok left) :
    ∃ ready : World, ready.files = left ∧ IsIdle ready.events ∧
      Steps place Deed.building ready
        (Program.carryOut place (.initial files input) tokens).2 := by
  obtain ⟨resolved, hfiles, hidle, hobey, -⟩ := exists_resolved hmeaning hconfigures hload
  rw [← hfiles] at hleft
  have hsteps := steps_perform_of_readied place settings resolved hconfigures hleft
  rw [← hobey] at hsteps
  exact ⟨{ resolved with files := left }, rfl, hidle, steps_carryOut (by decide) hsteps⟩

/-- Where no build directory can be made, that is all that is told of. -/
theorem carryOut_of_makeDirectory_error {error : SystemError} (herror : error ≠ .alreadyExists)
    (hmake : Files.makeDirectory files (buildPath place.project settings) = .error error) :
    let failure := (Failure.ofCause (.system error)).within
      ("Failed to create " ++ buildPath place.project settings)
    ∃ before : World, before.files = files ∧ IsIdle before.events ∧
      Program.carryOut place (.initial files input) tokens =
        (.code 1, before.wrote .err failure.report) := by
  intro failure
  obtain ⟨resolved, hfiles, hidle, -, hfailed⟩ := exists_resolved hmeaning hconfigures hload
  have hmade := hmake
  rw [← hfiles] at hmade
  have hperform := run_perform_of_error place settings resolved hconfigures herror hmade
  refine ⟨resolved, hfiles, hidle, ?_⟩
  rw [Program.carryOut, hfailed _ _ hperform]
  rfl

end

/-- If the tools leave the files as they are, the program makes one empty directory at most. It is
made by a command that configures, with settings that can be used, where the build directory is
vacant: what the path leads into exists, its last name is free there and not too long, and the path
as a whole is not too long either. Nothing else is new in the end. The directory is there before
any tool is run or any variable is set, and nothing is made after it. Where something stands already
nothing is made. Where nothing stands and nothing can be made, nothing is done but to report why;
and so it is with the files if no command configures. -/
theorem only_the_build_directory_is_made (place : Workspace) (files : Files.Node)
    (input : List UInt8) (styled : Bool) {words tokens : List String} {options : Options}
    (hwords : Options.parse words = .ok (options, tokens)) (hhost : place.host.sparesFiles) :
    let answer := (Answers.stream input).next.1
    ∃ run, Program.run place files input styled words = .ok run ∧
      (∀ command settings, meaningOf tokens answer = some command → command.configures = true →
        Settings.load files place.project = .ok settings →
        let path := buildPath place.project settings
        (∀ above name, Files.IsVacant files path above name →
          run.world.files = files.put above name (.directory []) ∧
          run.world.files.get? (above ++ [name]) = some (.directory []) ∧
          (∀ other, other ≠ above ++ [name] →
            run.world.files.bareAt other = files.bareAt other) ∧
          ∃ ready : World, ready.files = files.put above name (.directory []) ∧
            IsIdle ready.events ∧ Steps place Deed.building ready run.world) ∧
        (Files.IsTaken files path → run.world.files = files) ∧
        ((∀ above name, ¬ Files.IsVacant files path above name) → ¬ Files.IsTaken files path →
          run.world.files = files ∧ IsIdle run.world.events ∧ run.exit = .code 1 ∧
          ∃ error, Files.makeDirectory files path = .error error ∧
            run.world.events.getLast? = some (.wrote .err (Failure.report
              ((Failure.ofCause (.system error)).within ("Failed to create " ++ path)))))) ∧
      ((∀ command settings, meaningOf tokens answer = some command → command.configures = true →
        Settings.load files place.project ≠ .ok settings) → run.world.files = files) := by
  intro answer
  refine ⟨_, run_eq place files input styled hwords,
    fun command settings hmeaning hconfigures hload => ⟨?_, ?_, ?_⟩, fun hnothing => ?_⟩
  · intro above name hvacant
    have hleft : readied place.project settings files =
        .ok (files.put above name (.directory [])) := by
      rw [readied, Files.makeDirectory_of_isVacant hvacant, orExisting]
    obtain ⟨ready, hready, hidle, hsteps⟩ :=
      exists_ready hmeaning hconfigures hload hleft
    have hfiles : (Program.carryOut place (.initial files input) tokens).2.files =
        files.put above name (.directory []) :=
      (hsteps.files_eq_of_sparesFiles hhost (by decide)).trans hready
    obtain ⟨entries, hleads, hfree⟩ := hvacant.free
    refine ⟨hfiles, ?_, fun other hother => ?_, ready, hready, hidle, hsteps⟩
    · exact hfiles ▸ Files.Node.get?_put_self hleads.get? hfree _
    · exact hfiles ▸ Files.Node.bareAt_put hleads.get? hfree hother
  · intro htaken
    have hleft : readied place.project settings files = .ok files := by
      rw [readied, Files.makeDirectory_of_isTaken htaken, orExisting]
    obtain ⟨ready, hready, -, hsteps⟩ := exists_ready hmeaning hconfigures hload hleft
    exact (hsteps.files_eq_of_sparesFiles hhost (by decide)).trans hready
  · intro hvacant htaken
    obtain ⟨error, herror, hmake⟩ := Files.makeDirectory_of_neither hvacant htaken
    obtain ⟨before, hfiles, hidle, hended⟩ :=
      carryOut_of_makeDirectory_error hmeaning hconfigures hload herror hmake
    rw [World.initial] at hended
    rw [hended]
    exact ⟨hfiles, hidle.wrote _ _, rfl, error, hmake, List.getLast?_concat ..⟩
  · exact files_carryOut_of_not_configures hhost hnothing

/-- A project directory in which nothing is. -/
def bareProject : Files.Node := .directory [("project", .directory [])]

theorem sparesFiles_rehearsal : Rehearsal.host.sparesFiles :=
  fun _ _ _ => rfl

theorem load_bareProject : Settings.load bareProject Rehearsal.project = .ok {} := by
  have h : Files.isFile bareProject (Files.Path.join Rehearsal.project settingsFile) = false := by
    decide +kernel
  simp [Settings.load, h]

theorem isVacant_bareProject :
    Files.IsVacant bareProject (buildPath Rehearsal.project {}) ["project"] "build" where
  lastEntry := by decide
  size_le := by decide
  free := by
    have hnames : (Files.Path.names (buildPath Rehearsal.project {})).dropLast = ["project"] := by
      decide
    refine ⟨[], ⟨by decide, by decide, by decide, ?_⟩, rfl⟩
    rw [hnames]
    exact ⟨[("project", .directory [])],
      .enter rfl (by decide) (by decide) rfl (by simp) .done, rfl, rfl⟩

/-- A rehearsed configuration of a project in which nothing is makes its build directory. -/
theorem only_the_build_directory_is_made_bare :
    Options.parse ["config"] = .ok ({}, ["config"]) ∧ Rehearsal.host.sparesFiles ∧
      ∃ run, Program.run ⟨Rehearsal.project, Rehearsal.host⟩ bareProject [] false ["config"] =
          .ok run ∧
        run.world.files.get? ["project", "build"] = some (.directory []) := by
  have hwords : Options.parse ["config"] = .ok ({}, ["config"]) := rfl
  have hmeaning : meaningOf ["config"] (Answers.stream []).next.1 = some .config := by decide
  obtain ⟨run, hrun, hconfigures, -⟩ :=
    only_the_build_directory_is_made ⟨Rehearsal.project, Rehearsal.host⟩ bareProject [] false hwords
      sparesFiles_rehearsal
  obtain ⟨hmade, -⟩ := hconfigures .config {} hmeaning rfl load_bareProject
  exact ⟨hwords, sparesFiles_rehearsal, run, hrun, (hmade _ _ isVacant_bareProject).2.1⟩

/-! ## A build directory out of reach -/

theorem makeDirectory_of_long {root : Files.Node} {path : String} (hnul : '\x00' ∉ path.toList)
    (hsize : Files.pathSizeLimit ≤ path.utf8ByteSize) :
    Files.makeDirectory root path = .error .nameTooLong := by
  have hempty : path ≠ "" := by
    rintro rfl
    exact absurd hsize (by decide)
  have hcheck : Files.checkPath path = .error .nameTooLong := by
    simp [Files.checkPath, hnul, hempty, hsize]
  rw [Files.makeDirectory, Files.locateParent, hcheck]
  rfl

/-- The settings of a build directory with a long name, reached by lingering in the project. -/
def remoteSettings (n size : Nat) : Settings := { dir := lingering n ++ longName size }

theorem buildPath_remoteSettings {n : Nat} (hn : 0 < n) (size : Nat) :
    buildPath "/p" (remoteSettings n size) = "/p/" ++ lingering n ++ longName size := by
  obtain ⟨m, rfl⟩ : ∃ m, n = m + 1 := ⟨n - 1, by omega⟩
  have hrelative : Files.Path.isAbsolute (remoteSettings (m + 1) size).dir = false := by
    simp [remoteSettings, lingering, Files.Path.isAbsolute]
  have hproject : ("/p".isEmpty || Files.Path.asksDirectory "/p") = false := by decide
  rw [buildPath, Files.Path.join, hrelative, hproject, if_neg Bool.false_ne_true,
    if_neg Bool.false_ne_true, remoteSettings, ← String.append_assoc]
  rfl

theorem usable_remoteSettings (n : Nat) {size : Nat} (hsize : 0 < size) :
    (remoteSettings n size).Usable := by
  have hb : 'b' ∈ (remoteSettings n size).dir.toList := by
    simp only [remoteSettings, longName, String.toList_append, String.toList_ofList]
    exact List.mem_append_right _ (List.mem_replicate.mpr ⟨by omega, rfl⟩)
  exact ⟨by simp [remoteSettings], by simp [remoteSettings], 'b', hb, by decide⟩

theorem run_config_remoteSettings {n size : Nat} (hn : 0 < n)
    (hsize : Files.pathSizeLimit ≤ 3 + 2 * n + size) (root : Files.Node) :
    (perform (remoteSettings n size) .config).run ⟨"/p", Rehearsal.host⟩ (.initial root []) =
      (.failed ((Failure.ofCause (.system .nameTooLong)).within
        ("Failed to create " ++ buildPath "/p" (remoteSettings n size))), .initial root []) := by
  refine run_perform_of_error ⟨"/p", Rehearsal.host⟩ (remoteSettings n size) (.initial root []) rfl
    (by decide) ?_
  show Files.makeDirectory root (buildPath "/p" (remoteSettings n size)) = .error .nameTooLong
  rw [buildPath_remoteSettings hn]
  refine makeDirectory_of_long ?_ ?_
  · have hname : '\x00' ∉ (longName size).toList := not_mem_longName (by decide) size
    simpa [hname] using noNul_lingering n
  · have hbase : "/p/".utf8ByteSize = 3 := by decide
    rw [String.utf8ByteSize_append, String.utf8ByteSize_append, utf8ByteSize_lingering,
      utf8ByteSize_longName, hbase]
    exact hsize

/-- The name of a build directory may be free in a directory that exists, and not too long, and yet
it is not made: the path as a whole is too long. -/
theorem build_directory_may_be_too_far :
    (remoteSettings 1920 255).Usable ∧ Rehearsal.host.sparesFiles ∧
      buildPath "/p" (remoteSettings 1920 255) = "/p/" ++ lingering 1920 ++ longName 255 ∧
      Files.find? (.directory [("p", .directory [])]) ("/p/" ++ lingering 1920) =
        .ok (.directory []) ∧
      '\x00' ∉ (longName 255).toList ∧ '/' ∉ (longName 255).toList ∧
      (longName 255).utf8ByteSize ≤ 255 ∧
      (perform (remoteSettings 1920 255) .config).run ⟨"/p", Rehearsal.host⟩
          (.initial (.directory [("p", .directory [])]) []) =
        (.failed ((Failure.ofCause (.system .nameTooLong)).within
          ("Failed to create " ++ buildPath "/p" (remoteSettings 1920 255))),
          .initial (.directory [("p", .directory [])]) []) :=
  ⟨usable_remoteSettings 1920 (by decide), sparesFiles_rehearsal,
    buildPath_remoteSettings (by decide) 255, find?_lingering (by decide),
    not_mem_longName (by decide) 255, not_mem_longName (by decide) 255,
    (utf8ByteSize_longName 255).le, run_config_remoteSettings (by decide) (by decide) _⟩

end Conductor
