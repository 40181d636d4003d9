import Conductor.Proofs.Building
import Conductor.Proofs.Freed
import Conductor.Proofs.Reaching

/-!
# Whether there is a build directory

What stands where the build directory should be is taken for it, whatever it is. So a configuration
that goes ahead has a build directory unless a file stands there, or a link that leads to no
directory (`configure_founds_build_dir`).
-/

namespace Conductor

namespace Files

/-- A file stands where the path leads, or a link that leads to no directory. -/
inductive IsObstructed (root : Node) (path : String) : Prop
  | file {above : Place} {entries : Entries} {name : String} {content : Content}
      (hleads : LeadsInto root path above entries) (hlast : Path.lastEntry path = some name)
      (hsize : name.utf8ByteSize ≤ maxNameSize)
      (hlookup : List.lookup name entries = some (.file content))
  | link {above : Place} {entries : Entries} {name target : String}
      (hleads : LeadsInto root path above entries) (hlast : Path.lastEntry path = some name)
      (hsize : name.utf8ByteSize ≤ maxNameSize)
      (hlookup : List.lookup name entries = some (.link target))
      (hastray : ∀ below, find? root path ≠ .ok (.directory below))

variable {root : Node} {path : String}

/-- What is in the way takes the place. -/
theorem IsObstructed.exists_entry (h : IsObstructed root path) :
    ∃ above entries name node, LeadsInto root path above entries ∧
      Path.lastEntry path = some name ∧ name.utf8ByteSize ≤ maxNameSize ∧
      List.lookup name entries = some node := by
  cases h with
  | file hleads hlast hsize hlookup => exact ⟨_, _, _, _, hleads, hlast, hsize, hlookup⟩
  | link hleads hlast hsize hlookup => exact ⟨_, _, _, _, hleads, hlast, hsize, hlookup⟩

theorem IsObstructed.isTaken (h : IsObstructed root path) : IsTaken root path := by
  obtain ⟨above, entries, name, node, hleads, hlast, hsize, hlookup⟩ := h.exists_entry
  refine ⟨above, entries, hleads, fun other hother => ?_⟩
  obtain rfl : name = other := Option.some.inj (hlast.symm.trans hother)
  exact ⟨hsize, by rw [hlookup]; rfl⟩

theorem IsVacant.not_isObstructed {above : Place} {name : String}
    (h : IsVacant root path above name) : ¬ IsObstructed root path := by
  intro hobstructed
  obtain ⟨other, entries, name', node, hleads, hlast, -, hlookup⟩ := hobstructed.exists_entry
  obtain ⟨entries', hleads', hfree⟩ := h.free
  obtain ⟨-, rfl⟩ := hleads.unique hleads'
  obtain rfl : name = name' := Option.some.inj (h.lastEntry.symm.trans hlast)
  rw [hfree] at hlookup
  cases hlookup

/-- Through what is in the way there is no directory. -/
theorem IsObstructed.find?_ne (h : IsObstructed root path) (below : Entries) :
    find? root path ≠ .ok (.directory below) := by
  cases h with
  | @file above entries name content hleads hlast hsize hlookup =>
    obtain ⟨before, hbefore⟩ := hleads.follows_entry hlast hsize hlookup (by simp)
    intro hfind
    have hnode := find?_eq_here hbefore hfind
    cases hnode
  | link hleads hlast hsize hlookup hastray => exact hastray below

/-- What stands where the path leads is a directory, links followed, unless it is in the way. -/
theorem IsTaken.find?_iff (h : IsTaken root path) :
    (∃ below, find? root path = .ok (.directory below)) ↔ ¬ IsObstructed root path := by
  refine ⟨fun ⟨below, hfind⟩ hobstructed => hobstructed.find?_ne below hfind, fun hfree => ?_⟩
  obtain ⟨above, entries, hleads, htaken⟩ := h
  cases hlast : Path.lastEntry path with
  | none => exact hleads.find?_of_no_entry hlast
  | some name =>
    obtain ⟨hsize, hsome⟩ := htaken name hlast
    obtain ⟨node, hlookup⟩ := Option.isSome_iff_exists.mp hsome
    cases node with
    | file content => exact absurd (.file hleads hlast hsize hlookup) hfree
    | directory below =>
      obtain ⟨before, hbefore⟩ := hleads.follows_entry hlast hsize hlookup (by simp)
      exact ⟨below, find?_of_follows hleads.checkPath_eq hbefore rfl⟩
    | link target =>
      -- it is followed, so it takes the place only if it leads to no directory
      by_contra hastray
      exact hfree (.link hleads hlast hsize hlookup fun below hfind => hastray ⟨below, hfind⟩)

/-- The files after a directory was made, or found to exist, have it if nothing is in the way. -/
theorem find?_orExisting_iff {files : Node}
    (h : orExisting root (makeDirectory root path) = .ok files) :
    (∃ below, find? files path = .ok (.directory below)) ↔ ¬ IsObstructed root path := by
  rcases makeDirectory_cases root path with
    ⟨above, name, hvacant, hmade⟩ | ⟨htaken, hmade⟩ | ⟨error, hne, hmade⟩
  · rw [hmade] at h
    cases h
    exact iff_of_true ⟨[], hvacant.find?_put⟩ hvacant.not_isObstructed
  · rw [hmade] at h
    cases h
    exact htaken.find?_iff
  · rw [hmade] at h
    cases error <;> first | exact absurd rfl hne | cases h

end Files

open Files in
/-- A configuration that cannot make the build directory ends with that failure and has done
nothing. One that goes ahead has a build directory, links followed, unless a file stands at its
path, or a link that leads to no directory. Then it goes ahead, too, in unchanged files. -/
theorem configure_founds_build_dir (settings : Settings) (place : Workspace) (world : World) :
    let path := buildPath place.project settings
    ∃ outcome ready, (prepareBuildDir settings).run place world = (outcome, ready) ∧
      ((∃ failure, outcome = .failed failure ∧ ¬ IsObstructed world.files path ∧
          (configure settings).run place world = (.failed failure, world)) ∨
        outcome = .done () ∧ toolRuns ready.events = toolRuns world.events ∧
          (configure settings).run place world = (search settings).run place ready ∧
          ((∃ below, find? ready.files path = .ok (.directory below)) ↔
            ¬ IsObstructed world.files path) ∧
          (IsObstructed world.files path → ready.files = world.files)) := by
  intro path
  rcases run_prepareBuildDir place settings world with
    ⟨files, ready, hreadied, hready, rfl, -, hevents⟩ | ⟨error, hreadied, hfailed⟩
  · refine ⟨.done (), ready, hready, .inr ⟨rfl, ?_, ?_, find?_orExisting_iff hreadied, ?_⟩⟩
    · rw [← toolRuns_beyondOutput, hevents, toolRuns_beyondOutput]
    · rw [configure_eq, Act.run_bind_of_done _ _ hready]
    · intro hobstructed
      rw [readied, makeDirectory_of_isTaken hobstructed.isTaken] at hreadied
      exact (Except.ok.inj hreadied).symm
  · refine ⟨_, world, hfailed, .inl ⟨_, rfl, fun hobstructed => ?_, ?_⟩⟩
    · rw [readied, makeDirectory_of_isTaken hobstructed.isTaken] at hreadied
      cases hreadied
    · rw [configure_eq, Act.run_bind_of_failed _ _ hfailed]

/-- A project with a file where the build directory should be. -/
def Sample.blocked : World :=
  Sample.world [("build", .file (.zeros 4))]

def Sample.configurers : Workspace :=
  ⟨"/p", Scripted.host [("conan", .rules []), ("cmake", .rules [])] "/p"⟩

/-- A configuration goes ahead and succeeds with a file in the place of its build directory. -/
theorem configure_ignores_obstruction :
    let path := buildPath Sample.configurers.project {}
    let prepared := (prepareBuildDir {}).run Sample.configurers Sample.blocked
    let configured := (configure {}).run Sample.configurers Sample.blocked
    Settings.load Sample.blocked.files "/p" = .ok {} ∧ prepared.1 = .done () ∧
      Files.find? prepared.2.files path = .ok (.file (.zeros 4)) ∧ configured.1 = .done () ∧
      (linesRun configured.2.events).map (·.program) = ["conan", "cmake"] :=
  ⟨rfl, rfl, rfl, rfl, rfl⟩

end Conductor
