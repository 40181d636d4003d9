import Conductor.Dispatch
import Conductor.Proofs.Acts
import Conductor.Proofs.Freed
import Conductor.Proofs.Plain
import Conductor.Tools.Scripted

/-!
# What a clean leaves

A clean that does not ask removes the build directory and then the log, whatever they are. If both
are plain paths and no link leads to them, nothing is found afterwards where the build directory
was, nothing but a directory where the log was, and all else is as before.
-/

namespace Conductor

/-- A host on which the remover is installed and can be started. -/
inductive Host.HasRemover (project : String) (environment : Environment) : Host → Prop
  | scripted {table : Scripted.Table} (h : List.lookup "rm" table = some .remover) :
      HasRemover project environment (Scripted.host table project)
  | system {table : Scripted.Table} (h : List.lookup "rm" table = some .remover)
      (hsmall : ∀ name value, (name, value) ∈ environment.assigned →
        name.utf8ByteSize + 1 + value.utf8ByteSize ≤ Scripted.maxTextSize) :
      HasRemover project environment (Scripted.systemHost table project)

/-- The line by which a path is removed, with `whole` even if it leads to a directory. -/
def CommandLine.removal (whole : Bool) (path : String) : CommandLine :=
  if whole then .removeTree path else .removeFile path

namespace Scripted

variable {table : Table} {environment : Environment} (project path : String) (files : Files.Node)
  (whole : Bool)

theorem runTool_removal (h : List.lookup "rm" table = some .remover) (remover : Remover) :
    (runTool remover table project (.removal whole path) environment files).2 =
      (remover files project whole path).2 := by
  have hprogram : (CommandLine.removal whole path).program = "rm" := by cases whole <;> rfl
  rw [runTool, hprogram, h]
  cases whole <;> rfl

theorem systemRun_cases (line : CommandLine) :
    (systemRun table project line environment files).2 =
        (runTool Files.systemRemoveIn table project line environment files).2 ∨
      (isOversized line environment = true ∧
        (systemRun table project line environment files).2 = files) := by
  rw [systemRun]
  rcases runTool Files.systemRemoveIn table project line environment files with
    ⟨_ | error, changed⟩
  · by_cases hover : isOversized line environment = true
    · right
      simp [hover]
    · left
      simp [hover]
  · exact .inl rfl

theorem isOversized_removal
    (hsmall : ∀ name value, (name, value) ∈ environment.assigned →
      name.utf8ByteSize + 1 + value.utf8ByteSize ≤ maxTextSize)
    (h : isOversized (.removal whole path) environment = true) :
    maxTextSize < path.utf8ByteSize := by
  rw [isOversized, Bool.or_eq_true] at h
  rcases h with h | h
  · have hprogram : ¬ maxTextSize < "rm".utf8ByteSize := by decide
    have hwhole : ¬ maxTextSize < "-rf".utf8ByteSize := by decide
    have hfile : ¬ maxTextSize < "-f".utf8ByteSize := by decide
    cases whole with
    | false => simpa [CommandLine.removal, CommandLine.removeFile, hprogram, hfile] using h
    | true => simpa [CommandLine.removal, CommandLine.removeTree, hprogram, hwhole] using h
  · obtain ⟨⟨name, value⟩, hmem, hlong⟩ := List.any_eq_true.mp h
    have hshort := hsmall name value hmem
    have hlong : maxTextSize < name.utf8ByteSize + 1 + value.utf8ByteSize := by simpa using hlong
    omega

theorem refusal?_removal {path : String} (hnul : hasNul path = false) :
    refusal? project (.removal whole path) files = none := by
  have hprogram : (CommandLine.removal whole path).program = "rm" := by cases whole <;> rfl
  have harguments : (CommandLine.removal whole path).arguments.any hasNul = false := by
    cases whole with
    | false =>
      have hflag : hasNul "-f" = false := by decide
      simp [CommandLine.removal, CommandLine.removeFile, hnul, hflag]
    | true =>
      have hflag : hasNul "-rf" = false := by decide
      simp [CommandLine.removal, CommandLine.removeTree, hnul, hflag]
  rw [refusal?, hprogram, harguments]
  rfl

end Scripted

namespace Files

variable {root : Node} {project path : String}

theorem utf8ByteSize_le_join (project path : String) :
    path.utf8ByteSize ≤ (Path.join project path).utf8ByteSize := by
  rw [Path.join]
  split
  · omega
  split
  · rw [String.utf8ByteSize_append]
    omega
  · rw [String.utf8ByteSize_append]
    omega

theorem size_lt_of_checkPath (h : checkPath path = .ok ()) :
    path.utf8ByteSize < pathSizeLimit := by
  rw [checkPath] at h
  split at h
  · cases h
  split at h
  · cases h
  split at h
  · cases h
  · omega

/-- What no system takes as a path is not found. -/
theorem takeAway_of_long (whole : Bool) (h : pathSizeLimit ≤ path.utf8ByteSize) :
    takeAway root whole path = root := by
  rw [takeAway]
  cases hfind : findSelf? root path with
  | error error => rfl
  | ok node =>
    obtain ⟨trail, htrail, -⟩ := trail_of_findSelf? hfind
    have hsize := size_lt_of_checkPath (trailToSelf_eq_ok_iff.mp htrail).1
    omega

end Files

open Files in
/-- A remover that is told a plain path takes away what the path leads to. -/
theorem Host.HasRemover.run_removal {host : Host} {project path : String}
    {environment : Environment} {files : Node} (h : host.HasRemover project environment)
    (hplain : Path.IsPlain path) (hdirect : Direct files (Path.join project path)) (whole : Bool) :
    (host.run (.removal whole path) environment files).2 =
      takeAway files whole (Path.join project path) := by
  cases h with
  | @scripted table h =>
    show (Scripted.runTool removeIn table project _ environment files).2 = _
    rw [Scripted.runTool_removal project path files whole h, removeIn_eq whole hplain hdirect]
  | @system table h hsmall =>
    rw [Scripted.run_systemHost, Scripted.refusal?_removal project files whole hplain.nulFree]
    dsimp only
    rcases Scripted.systemRun_cases project files (.removal whole path) with hran | ⟨hover, hsame⟩
    · rw [hran, Scripted.runTool_removal project path files whole h,
        systemRemoveIn_eq whole hplain hdirect]
    · have hlong := Scripted.isOversized_removal path whole hsmall hover
      have hjoin := utf8ByteSize_le_join project path
      have hlimit : pathSizeLimit ≤ Scripted.maxTextSize := by decide
      rw [hsame, takeAway_of_long whole (by omega)]

section

variable (place : Workspace) (world : World)

theorem run_clean_unasked (settings : Settings) :
    let first := place.host.run (.removeTree settings.dir) world.environment world.files
    ((clean settings false).run place world).1 = .done () ∧
      ((clean settings false).run place world).2.files =
        (place.host.run (.removeFile settings.logFile) world.environment first.2).2 := by
  intro first
  rw [run_clean_of_done place world (run_runOptional_unasked place world _ _), removeLog]
  split
  all_goals
    rw [Act.run_bind_of_done _ _ (run_runOptional_unasked place _ _ _), Act.run_banner]
    exact ⟨rfl, rfl⟩

end

namespace Files

section

variable {root : Node} {dir log : String} (hdir : Direct root dir) (hlog : Direct root log)

include hdir hlog

theorem findSelf?_swept_dir (node : Node) :
    findSelf? (takeAway (takeAway root true dir) false log) dir ≠ .ok node := by
  intro hnode
  have hlog' := @direct_takeAway _ true _ hdir _ hlog
  have hdir' := @direct_takeAway _ true _ hdir _ hdir
  obtain ⟨before, hbefore⟩ := exists_found hlog' hdir' hnode
  cases (spared_of_found hdir hbefore).1

theorem findSelf?_swept_log {node : Node}
    (hnode : findSelf? (takeAway (takeAway root true dir) false log) log = .ok node) :
    node.isDirectory = true :=
  (spared_of_found (@direct_takeAway _ true _ hdir _ hlog) hnode).2

theorem bareAt_swept {other : Place} (hbelow : ¬ Path.names dir <+: other)
    (hother : ¬ (other = Path.names log ∧
      ∃ node, root.get? other = some node ∧ node.isDirectory = false)) :
    (takeAway (takeAway root true dir) false log).bareAt other = root.bareAt other := by
  have hfirst : (takeAway root true dir).bareAt other = root.bareAt other :=
    bareAt_takeAway hdir hbelow
  rw [← hfirst]
  refine bareAt_takeAway_spared (@direct_takeAway _ true _ hdir _ hlog) ?_
  rintro ⟨hplace, node, hnode, hfile⟩
  have hbare : (takeAway root true dir).bareAt other = some node.bare := by
    rw [Node.bareAt, hnode]
    rfl
  rw [hfirst] at hbare
  obtain ⟨before, hbefore, heq⟩ := Option.map_eq_some_iff.mp hbare
  refine hother ⟨hplace, before, hbefore, ?_⟩
  rw [← Node.isDirectory_bare, heq, Node.isDirectory_bare, hfile]

end

end Files

/-- Without a flag, with one that forces, or with one that is not kind, a clean does not ask. -/
theorem parse_clean_unasked {argument : Option String}
    (h : argument = none ∨ hasFlag "force" argument = true ∨ hasFlag "kind" argument = false) :
    ∃ forced kind, (kind && !forced) = false ∧
      Command.parse "clean" argument.toList = .ok (some (.clean forced kind)) := by
  refine ⟨hasFlag "force" argument || argument.isNone, hasFlag "kind" argument, ?_, ?_⟩
  · rcases h with rfl | h | h
    · rfl
    · simp [h]
    · simp [h]
  · cases argument <;> rfl

open Files in
/-- A clean that does not ask leaves nothing at the build directory and nothing but a directory at
the log. All that is neither at or below the one nor the other is as before. -/
theorem clean_sweeps {place : Workspace} {world : World} {settings : Settings}
    {argument : Option String}
    (hargument : argument = none ∨ hasFlag "force" argument = true ∨
      hasFlag "kind" argument = false)
    (hhost : place.host.HasRemover place.project world.environment)
    (hproject : ∀ name ∈ Path.names place.project, IsEntryName name)
    (hdir : Path.IsPlain settings.dir) (hlog : Path.IsPlain settings.logFile)
    (hdirStraight :
      world.files.Straight (Path.names place.project ++ Path.names settings.dir))
    (hlogStraight :
      world.files.Straight (Path.names place.project ++ Path.names settings.logFile)) :
    ∃ command, Command.parse "clean" argument.toList = .ok (some command) ∧
      let run := (perform settings command).run place world
      let dirPlace := Path.names place.project ++ Path.names settings.dir
      let logPlace := Path.names place.project ++ Path.names settings.logFile
      run.1 = .done () ∧
        (∀ node, findSelf? run.2.files (buildPath place.project settings) ≠ .ok node) ∧
        (∀ node, findSelf? run.2.files (Path.join place.project settings.logFile) = .ok node →
          node.isDirectory = true) ∧
        ∀ other, ¬ dirPlace <+: other →
          ¬ (other = logPlace ∧
            ∃ node, world.files.get? other = some node ∧ node.isDirectory = false) →
          run.2.files.bareAt other = world.files.bareAt other := by
  obtain ⟨forced, kind, hasks, hparse⟩ := parse_clean_unasked hargument
  refine ⟨_, hparse, ?_⟩
  intro run dirPlace logPlace
  have hrun : run = (clean settings false).run place world := by
    rw [← hasks]
    rfl
  obtain ⟨hdone, hfiles⟩ := run_clean_unasked place world settings
  have hdirDirect : Direct world.files (buildPath place.project settings) :=
    .join hproject hdir hdirStraight
  have hlogDirect : Direct world.files (Path.join place.project settings.logFile) :=
    .join hproject hlog hlogStraight
  have hend : run.2.files =
      takeAway (takeAway world.files true (buildPath place.project settings)) false
        (Path.join place.project settings.logFile) := by
    have hfirst : (place.host.run (.removeTree settings.dir) world.environment world.files).2 =
        takeAway world.files true (buildPath place.project settings) :=
      hhost.run_removal hdir hdirDirect true
    rw [hrun, hfiles, hfirst]
    exact hhost.run_removal hlog (direct_takeAway hdirDirect hlogDirect) false
  have hdirPlace : Path.names (buildPath place.project settings) = dirPlace :=
    Path.names_join hdir.isAbsolute_eq place.project
  have hlogPlace : Path.names (Path.join place.project settings.logFile) = logPlace :=
    Path.names_join hlog.isAbsolute_eq place.project
  rw [hend, ← hdirPlace, ← hlogPlace]
  exact ⟨by rw [hrun, hdone], findSelf?_swept_dir hdirDirect hlogDirect,
    fun _ => findSelf?_swept_log hdirDirect hlogDirect,
    fun _ => bareAt_swept hdirDirect hlogDirect⟩

/-- A build directory that is a link, and a log in the directory where it leads. -/
def Sample.logged : World :=
  Sample.world [("o", .directory [("log", .file (.zeros 5)), ("f", .file (.zeros 300))]),
    ("build", .link "o")]

/-- The link and the log are gone, and the other file is still where the link led. -/
theorem clean_sweeps_link :
    let settings : Settings := { logFile := "o/log" }
    let dirPlace := Files.Path.names "/p" ++ Files.Path.names settings.dir
    let logPlace := Files.Path.names "/p" ++ Files.Path.names settings.logFile
    Sample.place.host.HasRemover "/p" Sample.logged.environment ∧
      (∀ name ∈ Files.Path.names "/p", Files.IsEntryName name) ∧
      Files.Path.IsPlain settings.dir ∧ Files.Path.IsPlain settings.logFile ∧
      Sample.logged.files.Straight dirPlace ∧ Sample.logged.files.Straight logPlace ∧
      ∃ command, Command.parse "clean" [] = .ok (some command) ∧
        let after := ((perform settings command).run Sample.place Sample.logged).2.files
        (∀ node, Files.findSelf? after (buildPath "/p" settings) ≠ .ok node) ∧
          (∀ node, Files.findSelf? after (Files.Path.join "/p" "o/log") = .ok node →
            node.isDirectory = true) ∧
          after.bareAt ["p", "o", "f"] = some (.file (.zeros 300)) := by
  intro settings dirPlace logPlace
  have hdirPlace : dirPlace = ["p", "build"] := by decide +kernel
  have hlogPlace : logPlace = ["p", "o", "log"] := by decide +kernel
  have hhost : Sample.place.host.HasRemover "/p" Sample.logged.environment := .scripted rfl
  have hproject : ∀ name ∈ Files.Path.names "/p", Files.IsEntryName name := by decide +kernel
  have hdir : Files.Path.IsPlain settings.dir := by decide +kernel
  have hlog : Files.Path.IsPlain settings.logFile := by decide +kernel
  have hdirStraight : Sample.logged.files.Straight dirPlace :=
    Files.Node.straight_of_directories (by decide +kernel)
  have hlogStraight : Sample.logged.files.Straight logPlace :=
    Files.Node.straight_of_directories (by decide +kernel)
  refine ⟨hhost, hproject, hdir, hlog, hdirStraight, hlogStraight, ?_⟩
  obtain ⟨command, hparse, -, hgone, hspared, hkept⟩ :=
    @clean_sweeps Sample.place Sample.logged settings none (.inl rfl) hhost hproject hdir hlog
      hdirStraight hlogStraight
  refine ⟨command, hparse, hgone, hspared, ?_⟩
  refine (hkept ["p", "o", "f"] ?_ ?_).trans rfl
  · show ¬ dirPlace <+: _
    rw [hdirPlace]
    decide
  · show ¬ (_ = logPlace ∧ _)
    rw [hlogPlace]
    simp

/-- A build directory with two points in a row in its name stays, plain as it is otherwise. -/
theorem clean_keeps_two_points :
    let world := Sample.world [("a..b", .directory [("x", .file (.zeros 3))])]
    let settings : Settings := { dir := "a..b" }
    let after := ((perform settings (.clean true false)).run Sample.place world).2.files
    Sample.place.host.HasRemover "/p" world.environment ∧
      (∀ piece ∈ Files.splitSlash settings.dir.toList,
        piece ≠ [] ∧ Files.IsEntryName (String.ofList piece)) ∧
      hasNul settings.dir = false ∧ settings.dir.toList.head? ≠ some '-' ∧
      Files.Path.IsPlain settings.logFile ∧
      world.files.Straight (Files.Path.names "/p" ++ Files.Path.names settings.dir) ∧
      world.files.Straight (Files.Path.names "/p" ++ Files.Path.names settings.logFile) ∧
      (Files.findSelf? after (buildPath "/p" settings)).isOk = true := by
  intro world settings after
  have hdirStraight :
      world.files.Straight (Files.Path.names "/p" ++ Files.Path.names settings.dir) :=
    Files.Node.straight_of_directories (by decide +kernel)
  have hlogStraight :
      world.files.Straight (Files.Path.names "/p" ++ Files.Path.names settings.logFile) :=
    Files.Node.straight_of_directories (by decide +kernel)
  exact ⟨.scripted rfl, by decide +kernel, by decide, by decide, by decide +kernel, hdirStraight,
    hlogStraight, by decide +kernel⟩

end Conductor
