import Conductor.Proofs.Cleaning
import Conductor.Proofs.Measuring
import Conductor.Tools.Scripted

/-!
# What a clean says it freed

A clean tells the size of the build directory only when the directory was there before the removal
and is gone after it. What is told is then what was lost, but for files whose paths are too long to
be asked for. There is one exception: a build directory that is a link is measured where the link
leads, while only the link is removed. So nothing is lost, and the size of what is still there is
told.
-/

namespace Conductor

/-- The remover of a host takes away what it is told to, or a part of it, or nothing. -/
def Host.RemovesTrees (host : Host) (project : String) : Prop :=
  ∀ dir environment files,
    Files.Removes files (Files.Path.join project dir)
      (host.run ⟨"rm", ["-rf", dir]⟩ environment files).2

namespace Scripted

variable (table : Table) (project dir : String) (environment : Environment) (files : Files.Node)

theorem removes_runTool {remover : Remover}
    (h : Files.Removes files (Files.Path.join project dir) (remover files project true dir).2) :
    Files.Removes files (Files.Path.join project dir)
      (runTool remover table project ⟨"rm", ["-rf", dir]⟩ environment files).2 := by
  rw [runTool]
  split
  · exact .nothing
  · exact .nothing
  · exact .nothing
  · exact h

theorem removesTrees_host : (host table project).RemovesTrees project :=
  fun dir environment files =>
    removes_runTool table project dir environment files (Files.removes_removeIn project true)

theorem run_systemHost (line : CommandLine) :
    (systemHost table project).run line environment files =
      match refusal? project line files with
      | some error => (.refused error, files)
      | none => systemRun table project line environment files := rfl

theorem removesTrees_systemHost : (systemHost table project).RemovesTrees project := by
  intro dir environment files
  have hran := removes_runTool table project dir environment files
    (Files.removes_systemRemoveIn project true)
  rw [run_systemHost]
  split
  · exact .nothing
  · rw [systemRun]
    split
    · rename_i hrun
      rwa [hrun] at hran
    · rename_i hrun
      split
      · exact .nothing
      · rwa [hrun] at hran

end Scripted

namespace Files

variable {root : Node} {path : String}

theorem exists?_of_trailTo {trail : Trail} (h : trailTo root path = .ok trail) :
    exists? root path = true := by
  rw [exists?, locate_of_trail h]
  rfl

/-- What is measured is there: either it stands at the path itself, or a link there leads to it. -/
theorem sizeAt_cases (h : 0 < sizeAt root path) :
    exists? root path = true ∧ ∃ node, findSelf? root path = .ok node ∧
      ((∀ target, node ≠ .link target) →
        (sizeAt root path).toNat = node.sizeFrom path % 2 ^ 64) ∧
      ∀ target, node = .link target → ∃ entries, find? root path = .ok (.directory entries) ∧
        (sizeAt root path).toNat = (Node.directory entries).sizeFrom path % 2 ^ 64 := by
  have hbegins : ∃ start, WalkBegins root path start := by
    by_contra hnone
    rw [sizeAt_of_not_begins (not_exists.mp hnone)] at h
    exact absurd h (by decide)
  obtain ⟨start, hstart⟩ := hbegins
  have hsize : (sizeAt root path).toNat = start.sizeFrom path % 2 ^ 64 := by
    rw [sizeAt_of_begins hstart, UInt64.toNat_ofNat']
  cases hstart with
  | here hfind hnode =>
    obtain ⟨trail, htrail, rfl⟩ := trail_of_findSelf? hfind
    have hthrough := trailTo_of_trailToSelf htrail hnode
    exact ⟨exists?_of_trailTo hthrough, _, hfind, fun _ => hsize,
      fun target hlink => absurd hlink (hnode target)⟩
  | behind hlink hfind =>
    obtain ⟨trail, htrail, -⟩ := trail_of_find? hfind
    exact ⟨exists?_of_trailTo htrail, _, hlink, fun hno => absurd rfl (hno _),
      fun _ _ => ⟨_, hfind, hsize⟩⟩

/-- If the path led to something before a removal and leads nowhere after it, then all that stood at
the path itself is lost. -/
theorem Removes.lostSize_eq {after node : Node} (h : Removes root path after)
    (hproper : root.Proper) (hfound : exists? root path = true)
    (hgone : exists? after path = false) (hnode : findSelf? root path = .ok node) :
    lostSize root after = node.totalSize := by
  obtain ⟨trail, htrail, rfl⟩ := trail_of_findSelf? hnode
  have hget := (sound_trailToSelf htrail).get?_place
  cases h with
  | nothing =>
    rw [hfound] at hgone
    cases hgone
  | @entry before name entries hplace hdirectory =>
    rw [locateSelf_of_trail htrail] at hplace
    rw [Except.ok.inj hplace] at hget
    exact lostSize_remove hproper hdirectory hget
  | @content place entries hplace hdirectory =>
    rw [locateSelf_of_trail htrail] at hplace
    rw [Except.ok.inj hplace, hdirectory] at hget
    rw [lostSize_clear hproper hdirectory, ← Option.some.inj hget, Node.totalSize]

end Files

/-- What a clean does after it has told what it freed. -/
def removeLog (settings : Settings) (asksFirst : Bool) : Act Unit := do
  let _ ← runOptional (.removeFile settings.logFile) "Removing build logs" asksFirst
  Act.banner "Clean without scratching"

theorem eq_append_of_events {a b c : World} {first rest events : List Event}
    (hfirst : b.events = a.events ++ first) (hrest : c.events = b.events ++ rest)
    (hevents : c.events = a.events ++ events) : events = first ++ rest := by
  rw [hrest, hfirst, List.append_assoc] at hevents
  exact (List.append_cancel_left hevents).symm

section

variable (place : Workspace) (world : World)

/-- An optional run tells nothing itself, and the tool was run if it says so. -/
theorem run_runOptional_silently (line : CommandLine) (message : String) (asksFirst : Bool) :
    ∃ outcome after events, (runOptional line message asksFirst).run place world =
        (outcome, after) ∧ outcome ≠ .broken ∧ after.events = world.events ++ events ∧
      (∀ channel text, .wrote channel text ∉ events) ∧
      (outcome = .done true →
        after.files = (place.host.run line world.environment world.files).2 ∧
        .ran line .inherit world.environment (world.response place.host line) ∈ events) := by
  cases asksFirst with
  | false =>
    rw [run_runOptional_unasked]
    exact ⟨_, _, _, rfl, by simp, rfl, by simp, fun _ => ⟨rfl, by simp⟩⟩
  | true =>
    rw [run_runOptional_asked]
    cases world.answers.next.1 with
    | error failure => exact ⟨_, _, _, rfl, by simp, rfl, by simp, fun h => by cases h⟩
    | ok text =>
      by_cases hyes : isYesOrDefault text = true
      · simp only [if_pos hyes]
        refine ⟨_, _, _, rfl, by simp, List.append_assoc .., by simp, fun _ => ⟨rfl, ?_⟩⟩
        exact List.mem_cons_of_mem _ List.mem_cons_self
      · simp only [if_neg hyes]
        exact ⟨_, _, _, rfl, by simp, rfl, by simp, fun h => by cases h⟩

/-- A clean tells what it freed if the build directory was to be removed, held something, and is
gone. -/
theorem run_clean_of_done {settings : Settings} {asksFirst removed : Bool} {after : World}
    (h : (runOptional (.removeTree settings.dir) "Removing build directory" asksFirst).run place
      world = (.done removed, after)) :
    let path := buildPath place.project settings
    let size := Files.sizeAt world.files path
    (clean settings asksFirst).run place world =
      (removeLog settings asksFirst).run place
        (if removed && 0 < size && !Files.exists? after.files path then
          after.wrote .out (.info ("Freed " ++ Size.format size.toNat))
        else after) := by
  intro path size
  rw [clean, Act.run_bind, Act.run_workspace]
  dsimp only
  rw [Act.run_bind, Act.run_world]
  dsimp only
  rw [Act.run_bind_of_done _ _ h, Act.run_bind, Act.run_world]
  dsimp only
  split <;> rfl

/-- After the build directory nothing more is told, but that all is clean. -/
theorem run_removeLog_silently (settings : Settings) (asksFirst : Bool) :
    ∃ events, ((removeLog settings asksFirst).run place world).2.events = world.events ++ events ∧
      ∀ text, .wrote .out (.info text) ∉ events := by
  obtain ⟨outcome, after, events, hrun, hends, hevents, hsilent, -⟩ :=
    run_runOptional_silently place world (.removeFile settings.logFile) "Removing build logs"
      asksFirst
  rw [removeLog]
  cases outcome with
  | done removed =>
    rw [Act.run_bind_of_done _ _ hrun, Act.run_banner]
    let farewell : StyledText := .banner after.palette.color "Clean without scratching"
    refine ⟨events ++ [.wrote .out farewell], ?_, ?_⟩
    · show after.events ++ _ = _
      rw [hevents, List.append_assoc]
    · intro text hmem
      rcases List.mem_append.mp hmem with hmem | hmem
      · exact hsilent _ _ hmem
      · simp [farewell, StyledText.info, StyledText.labelled, StyledText.banner] at hmem
  | failed failure =>
    rw [Act.run_bind_of_failed _ _ hrun]
    exact ⟨events, hevents, fun text => hsilent _ _⟩
  | broken => exact absurd rfl hends

/-- A clean tells what it freed only if the build directory held something, was to be removed, and
is gone; and it tells the size that the directory had before. -/
theorem of_told_freed {settings : Settings} {asksFirst : Bool} {events : List Event} {text : String}
    (hevents : ((clean settings asksFirst).run place world).2.events = world.events ++ events)
    (htold : .wrote .out (.info ("Freed " ++ text)) ∈ events) :
    let path := buildPath place.project settings
    let size := Files.sizeAt world.files path
    .ran (.removeTree settings.dir) .inherit world.environment
        (world.response place.host (.removeTree settings.dir)) ∈ events ∧
      0 < size ∧ text = Size.format size.toNat ∧
      Files.exists? (place.host.run (.removeTree settings.dir) world.environment world.files).2
        path = false := by
  intro path size
  obtain ⟨outcome, after, first, hrun, hends, hfirst, hsilent, hremoved⟩ :=
    run_runOptional_silently place world (.removeTree settings.dir) "Removing build directory"
      asksFirst
  cases outcome with
  | broken => exact absurd rfl hends
  | failed failure =>
    rw [run_clean_of_failed place world hrun, hfirst] at hevents
    rw [← List.append_cancel_left hevents] at htold
    exact absurd htold (hsilent _ _)
  | done removed =>
    rw [run_clean_of_done place world hrun] at hevents
    split at hevents
    · rename_i hfreed
      simp only [Bool.and_eq_true, decide_eq_true_eq, Bool.not_eq_true'] at hfreed
      obtain ⟨⟨rfl, hsize⟩, hgone⟩ := hfreed
      obtain ⟨hfiles, hran⟩ := hremoved rfl
      let freed : StyledText := .info ("Freed " ++ Size.format size.toNat)
      obtain ⟨rest, hrest, hmute⟩ :=
        run_removeLog_silently place (after.wrote .out freed) settings asksFirst
      have htell : (after.wrote .out freed).events = after.events ++ [.wrote .out freed] := rfl
      rw [htell, List.append_assoc] at hrest
      rw [eq_append_of_events hfirst hrest hevents] at htold ⊢
      refine ⟨List.mem_append_left _ hran, hsize, ?_, hfiles ▸ hgone⟩
      rcases List.mem_append.mp htold with hmem | hmem
      · exact absurd hmem (hsilent _ _)
      rcases List.mem_append.mp hmem with hmem | hmem
      · simpa [freed, StyledText.info, StyledText.labelled, Span.plain] using hmem
      · exact absurd hmem (hmute _)
    · obtain ⟨rest, hrest, hmute⟩ := run_removeLog_silently place after settings asksFirst
      rw [eq_append_of_events hfirst hrest hevents] at htold
      rcases List.mem_append.mp htold with hmem | hmem
      · exact absurd hmem (hsilent _ _)
      · exact absurd hmem (hmute _)

end

/-- What a clean says it freed are the files that were lost with the build directory, or as many of
them as a walk from there comes to. There is one exception: if the build directory is a link,
nothing is lost, and the size is that of the directory to which it leads. -/
theorem clean_frees_what_it_tells {settings : Settings} {forced kind : Bool} {place : Workspace}
    {world : World} {events : List Event} {text : String}
    (hhost : place.host.RemovesTrees place.project) (hproper : world.files.Proper)
    (hevents : ((perform settings (.clean forced kind)).run place world).2.events =
      world.events ++ events)
    (htold : .wrote .out (.info ("Freed " ++ text)) ∈ events) :
    let path := buildPath place.project settings
    let line : CommandLine := ⟨"rm", ["-rf", settings.dir]⟩
    let lost := Files.lostSize world.files
      (place.host.run line world.environment world.files).2
    .ran line .inherit world.environment (world.response place.host line) ∈ events ∧
      ∃ node, Files.findSelf? world.files path = .ok node ∧
        ((∀ target, node ≠ .link target) →
          text = Size.format (node.sizeFrom path % 2 ^ 64) ∧ node.sizeFrom path ≤ lost ∧
            (node.IsWithinReach path → node.sizeFrom path = lost)) ∧
        ∀ target, node = .link target → lost = 0 ∧
          ∃ entries, Files.find? world.files path = .ok (.directory entries) ∧
            text = Size.format ((Files.Node.directory entries).sizeFrom path % 2 ^ 64) := by
  intro path line lost
  obtain ⟨hran, hsize, htext, hgone⟩ := of_told_freed place world hevents htold
  obtain ⟨hfound, node, hnode, hdirect, hled⟩ := Files.sizeAt_cases hsize
  have hlost : lost = node.totalSize :=
    (hhost settings.dir world.environment world.files).lostSize_eq hproper hfound hgone hnode
  refine ⟨hran, node, hnode, fun hno => ⟨?_, ?_, fun hreach => ?_⟩, fun target hlink => ?_⟩
  · rw [htext, hdirect hno]
  · rw [hlost]
    exact node.sizeFrom_le path
  · rw [hlost, hreach.sizeFrom_eq]
  · obtain ⟨entries, hentries, hbytes⟩ := hled target hlink
    refine ⟨?_, entries, hentries, by rw [htext, hbytes]⟩
    rw [hlost, hlink, Files.Node.totalSize]

def Sample.world (entries : Files.Entries) : World where
  files := .directory [("p", .directory entries)]
  answers := .stream []

/-- A machine on which only the remover is installed. -/
def Sample.place : Workspace := ⟨"/p", Scripted.host [("rm", .remover)] "/p"⟩

/-- A build directory of 1536 bytes. -/
def Sample.plain : World :=
  Sample.world [("build", .directory [("f", .file (.zeros 1536))])]

/-- A build directory that is a link to a directory of 300 bytes. -/
def Sample.linked : World :=
  Sample.world [("o", .directory [("f", .file (.zeros 300))]), ("build", .link "o")]

def Sample.second? (world : World) : Option Event :=
  ((perform {} (.clean true false)).run Sample.place world).2.events[1]?

theorem Sample.second?_plain :
    Sample.second? Sample.plain = some (.wrote .out (.info ("Freed " ++ "1.50 KB"))) := by
  rfl

theorem Sample.second?_linked :
    Sample.second? Sample.linked = some (.wrote .out (.info ("Freed " ++ "300.00 B"))) := by
  rfl

/-- A directory is lost with the bytes that it held. -/
theorem clean_frees_directory :
    let events := ((perform {} (.clean true false)).run Sample.place Sample.plain).2.events
    let after := (Sample.place.host.run ⟨"rm", ["-rf", "build"]⟩ {} Sample.plain.files).2
    Sample.place.host.RemovesTrees Sample.place.project ∧ Sample.plain.files.Proper ∧
      .wrote .out (.info ("Freed " ++ "1.50 KB")) ∈ events ∧
      "1.50 KB" = Size.format (Files.lostSize Sample.plain.files after % 2 ^ 64) := by
  intro events after
  have hhost : Sample.place.host.RemovesTrees Sample.place.project :=
    Scripted.removesTrees_host [("rm", .remover)] "/p"
  have hproper : Sample.plain.files.Proper := by
    simp [Sample.plain, Sample.world, Files.Node.Proper, Files.Entries.Proper]
  have htold : .wrote .out (.info ("Freed " ++ "1.50 KB")) ∈ events :=
    List.mem_of_getElem? Sample.second?_plain
  refine ⟨hhost, hproper, htold, ?_⟩
  obtain ⟨-, node, hnode, hdirect, -⟩ :=
    @clean_frees_what_it_tells {} true false Sample.place Sample.plain events _ hhost hproper rfl
      htold
  have hbuild : Files.findSelf? Sample.plain.files (buildPath "/p" {}) =
      .ok (.directory [("f", .file (.zeros 1536))]) := rfl
  obtain rfl := Except.ok.inj (hbuild.symm.trans hnode)
  obtain ⟨htext, -, hall⟩ := hdirect (by simp)
  rwa [hall (by decide)] at htext

/-- The build directory is a link to the directory `o`. It is told that 300 bytes were freed, but
only the link is gone. -/
theorem clean_tells_of_linked_directory :
    let events := ((perform {} (.clean true false)).run Sample.place Sample.linked).2.events
    let after := (Sample.place.host.run ⟨"rm", ["-rf", "build"]⟩ {} Sample.linked.files).2
    .wrote .out (.info ("Freed " ++ "300.00 B")) ∈ events ∧ after.get? ["p", "build"] = none ∧
      after.get? ["p", "o", "f"] = some (.file (.zeros 300)) ∧
      Files.lostSize Sample.linked.files after = 0 ∧ Size.format 0 ≠ "300.00 B" := by
  intro events after
  exact ⟨List.mem_of_getElem? Sample.second?_linked, rfl, rfl, rfl, by decide +kernel⟩

end Conductor
