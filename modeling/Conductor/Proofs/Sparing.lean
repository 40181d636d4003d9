import Conductor.Proofs.Confinement
import Conductor.Proofs.Freed
import Conductor.Proofs.Spelling
import Conductor.Proofs.Walking
import Mathlib.Data.List.Infix

/-!
# Lists in the build directory

A lint is told by a path where the build directory is, and keeps out of what it comes to by the same
path. If the path is that of the project with the names of the place of the build directory behind
it, nothing in the build directory is formatted. Any other path that leads there is not recognised,
and then all lists are formatted that stand in the build directory and are not hidden.
-/

namespace Conductor

namespace Files

/-- The build directory is at a place strictly inside the project, whose entries are given. -/
structure BuildsInside (root : Node) (project dir : String) (entries : Entries) (inside : Place) :
    Prop where
  isAbsolute : Path.isAbsolute project = true
  isProject : find? root project = .ok (.directory entries)
  isStrict : inside ≠ []
  leads : ∃ here, locate root project = .ok here ∧
    locate root (Path.join project dir) = .ok (here ++ inside)

/-- The path of the build directory is that of the project with the names of its place behind it,
but for names that stay in place. -/
def IsSpelledOut (project dir : String) (inside : Place) : Prop :=
  Path.components (Path.join project dir) = Path.components project ++ inside

instance (project dir : String) (inside : Place) : Decidable (IsSpelledOut project dir inside) :=
  inferInstanceAs (Decidable (_ = _))

theorem trail_of_locate {root : Node} {path : String} {place : Place}
    (h : locate root path = .ok place) : ∃ trail, trailTo root path = .ok trail ∧
      trail.place = place := by
  cases htrail : trailTo root path with
  | error error =>
    rw [locate, htrail] at h
    cases h
  | ok trail =>
    rw [locate_of_trail htrail] at h
    exact ⟨trail, rfl, Except.ok.inj h⟩

/-- Above a file there is no link. -/
theorem Node.ne_link_of_get? {node below : Node} {place above : Place} {content : Content}
    (h : node.get? place = some (.file content)) (hbegins : above <+: place)
    (habove : node.get? above = some below) (target : String) : below ≠ .link target := by
  rintro rfl
  obtain ⟨rest, rfl⟩ := hbegins
  rw [get?_append, habove] at h
  cases rest <;> cases h

section

variable {root : Node} {project dir : String} {entries : Entries} {inside : Place}
  (h : BuildsInside root project dir entries inside)

include h

/-- The place of the build directory is the only one that is spelled like its path, among those of
files and of directories above them. -/
theorem BuildsInside.eq_inside {place above : Place} {content : Content}
    (hget : (Node.directory entries).get? place = some (.file content))
    (hnames : ∀ name ∈ place, IsFileName name) (hbegins : above <+: place)
    (hspelled : IsSpelledOut project dir above) : above = inside := by
  obtain ⟨here, hhere, hbuild⟩ := h.leads
  obtain ⟨trail, htrail, rfl⟩ := trail_of_locate hhere
  obtain ⟨after, hafter, hplace⟩ := trail_of_locate hbuild
  obtain ⟨other, hother, hentries⟩ := trail_of_find? h.isProject
  obtain rfl : other = trail := Except.ok.inj (hother.symm.trans htrail)
  obtain ⟨below, hbelow⟩ : ∃ below, (Node.directory entries).get? above = some below := by
    obtain ⟨rest, rfl⟩ := hbegins
    rw [Node.get?_append] at hget
    obtain ⟨below, hbelow, -⟩ := Option.bind_eq_some_iff.mp hget
    exact ⟨below, hbelow⟩
  rw [← hentries] at hget hbelow
  have hspelled := place_of_components htrail hafter h.isAbsolute hspelled hbelow
    (Node.ne_link_of_get? hget hbegins hbelow)
    fun name hname => (hnames name (hbegins.subset hname)).2.2
  rw [hplace] at hspelled
  exact (List.append_cancel_left hspelled).symm

variable (hproper : (Node.directory entries).Proper) (hnamed : (Node.directory entries).WellNamed)

include hproper hnamed

/-- Nothing is found in a build directory whose path is spelled out. -/
theorem BuildsInside.not_inside_of_mem (hspelled : IsSpelledOut project dir inside) {path : String}
    (hpath : path ∈ findLists root project dir) : ¬ inside <+: Path.names path := by
  intro hbegins
  obtain ⟨place, hlisted, rfl⟩ := (mem_findLists_iff h.isProject hproper hnamed).mp hpath
  obtain ⟨content, hget⟩ := hlisted.isFile
  have hnames := Node.isFileName_of_get? hproper hnamed hget
  rw [Path.names_ofNames hnames] at hbegins
  refine hlisted.isOutside inside h.isStrict hbegins ?_
  rw [hspelled, Path.components_join_ofNames (ne_empty_of_find? h.isProject)]
  exact fun name hname => hnames name (hbegins.subset hname)

/-- Everything is found in a build directory whose path is not spelled out. -/
theorem BuildsInside.mem_of_inside (hspelled : ¬ IsSpelledOut project dir inside) {place : Place}
    (hlist : IsList entries project place) (hbegins : inside <+: place) :
    Path.ofNames place ∈ findLists root project dir := by
  obtain ⟨content, hget⟩ := hlist.isFile
  have hnames := Node.isFileName_of_get? hproper hnamed hget
  refine (mem_findLists_iff h.isProject hproper hnamed).mpr
    ⟨place, ⟨hlist, fun above habove hbefore heq => ?_⟩, rfl⟩
  rw [Path.components_join_ofNames (ne_empty_of_find? h.isProject)
    fun name hname => hnames name (hbefore.subset hname)] at heq
  obtain rfl := h.eq_inside hget hnames hbefore heq.symm
  exact hspelled heq.symm

end

end Files

def World.sourcesFormatted (world : World) (place : Workspace) (settings : Settings) : World :=
  world.launched place.host ⟨"clang-format-all", settings.formatDirs⟩ .inherit

def World.listsFormatted (world : World) (place : Workspace) (lists : List String) : World :=
  if lists.isEmpty then world
  else world.launched place.host ⟨"cmake-format", "-i" :: lists⟩ .discard

section

variable {settings : Settings} {place : Workspace} {world ready : World}
  (hready : (ensureTool "cmake-format").run place (world.wrote .out [.plain ("Linting" ++ "\n")]) =
    (.done (), ready))

include hready

/-- Once there is the tool for the lists, the sources are formatted, and then the lists that are
found in what they leave. -/
theorem run_lint :
    let before := ready.sourcesFormatted place settings
    (lint settings).run place world = (.done (), before.listsFormatted place
      (Files.findLists before.files place.project settings.dir)) := by
  intro before
  rw [lint, Act.run_bind, Act.run_line]
  dsimp only
  rw [Act.run_bind_of_done _ _ hready, Act.run_bind, run_runUnchecked]
  simp only [Act.run_bind, Act.run_workspace, Act.run_world]
  split
  case isTrue hnone => exact congrArg (Prod.mk _) (if_pos hnone).symm
  case isFalse hsome =>
    rw [run_runUnchecked]
    exact congrArg (Prod.mk _) (if_neg hsome).symm

/-- A lint that finds its tool formats no list in the build directory if the path of the build
directory is spelled out. If it is not, all lists in the build directory are formatted that can be
reached and are not hidden. -/
theorem lint_spares_build_dir {entries : Files.Entries} {inside : Files.Place}
    (hbuild : Files.BuildsInside (ready.sourcesFormatted place settings).files place.project
      settings.dir entries inside)
    (hproper : (Files.Node.directory entries).Proper)
    (hnamed : (Files.Node.directory entries).WellNamed) :
    let before := ready.sourcesFormatted place settings
    let lists := Files.findLists before.files place.project settings.dir
    (lint settings).run place world = (.done (), before.listsFormatted place lists) ∧
      (Files.IsSpelledOut place.project settings.dir inside →
        ∀ path ∈ lists, ¬ inside <+: Files.Path.names path) ∧
      (¬ Files.IsSpelledOut place.project settings.dir inside →
        ∀ list, Files.IsList entries place.project list → inside <+: list →
          Files.Path.ofNames list ∈ lists) :=
  ⟨run_lint hready,
    fun hspelled _ hpath => hbuild.not_inside_of_mem hproper hnamed hspelled hpath,
    fun hspelled _ hlist hbegins => hbuild.mem_of_inside hproper hnamed hspelled hlist hbegins⟩

end

/-- A project with a list in its directory `build`. -/
def Sample.built : Files.Entries :=
  [("src", .directory []), ("build", .directory [("CMakeLists.txt", .file (.zeros 0))])]

def Sample.formatters : Workspace :=
  ⟨"/p", Scripted.host [("cmake-format", .rules [])] "/p"⟩

theorem Sample.proper_built : (Files.Node.directory Sample.built).Proper := by
  simp [Sample.built, Files.Node.Proper, Files.Entries.Proper]

theorem Sample.wellNamed_built : (Files.Node.directory Sample.built).WellNamed := by
  simp [Sample.built, Files.Node.WellNamed, Files.Entries.WellNamed, Files.IsFileName,
    Files.IsEntryName]

/-- Whatever leads to the directory `build` is the path of a build directory in the project. -/
theorem Sample.buildsInside_built {dir : String} {files : Files.Node}
    (hfiles : files = (Sample.world Sample.built).files)
    (h : Files.locate files (Files.Path.join "/p" dir) = .ok ["p", "build"]) :
    Files.BuildsInside files "/p" dir Sample.built ["build"] where
  isAbsolute := by decide
  isProject := by
    rw [hfiles]
    rfl
  isStrict := by decide
  leads := by
    refine ⟨["p"], ?_, h⟩
    rw [hfiles]
    rfl

/-- The path of the build directory has steps that stay, which do not count. -/
theorem lint_spares_build_dir_dotted :
    let settings : Settings := { dir := "./build//" }
    let world := Sample.world Sample.built
    let ready := world.wrote .out [.plain ("Linting" ++ "\n")]
    let before := ready.sourcesFormatted Sample.formatters settings
    let lists := Files.findLists before.files "/p" "./build//"
    (lint settings).run Sample.formatters world =
        (.done (), before.listsFormatted Sample.formatters lists) ∧
      Files.BuildsInside before.files "/p" "./build//" Sample.built ["build"] ∧
      ∀ path ∈ lists, ¬ ["build"] <+: Files.Path.names path := by
  intro settings world ready before lists
  have hready : (ensureTool "cmake-format").run Sample.formatters ready = (.done (), ready) := rfl
  have hbuild : Files.BuildsInside before.files "/p" "./build//" Sample.built ["build"] :=
    Sample.buildsInside_built rfl rfl
  obtain ⟨hrun, hspares, -⟩ := @lint_spares_build_dir settings Sample.formatters world ready hready
    Sample.built ["build"] hbuild Sample.proper_built Sample.wellNamed_built
  exact ⟨hrun, hbuild, hspares (by decide)⟩

/-- A path that is accepted leads out of another directory into the build directory, and the list
there is found. -/
theorem found_in_build_dir :
    let files := (Sample.world Sample.built).files
    Settings.parse "[build]\ndir = \"src/../build\"\n" = .ok { dir := "src/../build" } ∧
      Files.BuildsInside files "/p" "src/../build" Sample.built ["build"] ∧
      "build/CMakeLists.txt" ∈ Files.findLists files "/p" "src/../build" ∧
      ["build"] <+: Files.Path.names "build/CMakeLists.txt" := by
  intro files
  have htext : onlyDir "src/../build" = "[build]\ndir = \"src/../build\"\n" := by decide +kernel
  have hparse : Settings.parse (onlyDir "src/../build") = .ok { dir := "src/../build" } :=
    parse_onlyDir ⟨'s', by decide, by decide⟩
  have hbuild : Files.BuildsInside files "/p" "src/../build" Sample.built ["build"] :=
    Sample.buildsInside_built rfl rfl
  have hreads : ∀ above ∈ ["build", "CMakeLists.txt"].inits,
      Files.readsFrom "/p" above = true := by decide
  have hlist : Files.IsList Sample.built "/p" ["build", "CMakeLists.txt"] :=
    ⟨⟨.zeros 0, rfl⟩, rfl, by decide,
      fun above hbegins _ => hreads above ((List.mem_inits _ _).mpr hbegins)⟩
  have hspelled : ¬ Files.IsSpelledOut "/p" "src/../build" ["build"] := by decide
  rw [htext] at hparse
  exact ⟨hparse, hbuild, hbuild.mem_of_inside Sample.proper_built Sample.wellNamed_built hspelled
    hlist (by decide), by decide⟩

end Conductor
