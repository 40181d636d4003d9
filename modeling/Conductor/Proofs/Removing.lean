import Conductor.Files.Remove
import Conductor.Proofs.Following
import Mathlib.Data.List.Basic

/-!
# What a removal takes away

Whatever a remover is told, it takes away nothing, or the entry that the path leads to, or all that
the directory holds to which the path leads (`Removes`). An entry that is named by the path is
removed itself, whether it is a file, a link or a directory (`removeTree_of_lastName`).
-/

namespace Conductor.Files

variable {root : Node} {path : String}

theorem checked_eq_ok_iff {throughLast : Bool} {trail : Trail} :
    (do
      checkPath path
      follow root throughLast maxLinks [] (Path.steps path)) = .ok trail ↔
      checkPath path = .ok () ∧ Follows root throughLast maxLinks [] (Path.steps path) trail := by
  rw [← follow_eq_ok_iff]
  cases checkPath path with
  | ok done => exact ⟨fun h => ⟨rfl, h⟩, fun h => h.2⟩
  | error error =>
    constructor
    · intro h
      cases h
    · rintro ⟨h, -⟩
      cases h

theorem trailToSelf_eq_ok_iff {trail : Trail} : trailToSelf root path = .ok trail ↔
    checkPath path = .ok () ∧ Follows root false maxLinks [] (Path.steps path) trail :=
  checked_eq_ok_iff

theorem trailTo_eq_ok_iff {trail : Trail} : trailTo root path = .ok trail ↔
    checkPath path = .ok () ∧ Follows root true maxLinks [] (Path.steps path) trail :=
  checked_eq_ok_iff

theorem findSelf?_of_trail {trail : Trail} (h : trailToSelf root path = .ok trail) :
    findSelf? root path = .ok (trail.here root) := by
  rw [findSelf?, h]
  rfl

theorem locateSelf_of_trail {trail : Trail} (h : trailToSelf root path = .ok trail) :
    locateSelf root path = .ok trail.place := by
  rw [locateSelf, h]
  rfl

theorem locate_of_trail {trail : Trail} (h : trailTo root path = .ok trail) :
    locate root path = .ok trail.place := by
  rw [locate, h]
  rfl

theorem exists_trail_of_here {result : Except SystemError Trail} {node : Node}
    (h : (do return (← result).here root) = Except.ok node) :
    ∃ trail, result = .ok trail ∧ trail.here root = node := by
  cases result with
  | error error => cases h
  | ok trail =>
    cases h
    exact ⟨trail, rfl, rfl⟩

theorem trail_of_findSelf? {node : Node} (h : findSelf? root path = .ok node) :
    ∃ trail, trailToSelf root path = .ok trail ∧ trail.here root = node :=
  exists_trail_of_here h

theorem trail_of_find? {node : Node} (h : find? root path = .ok node) :
    ∃ trail, trailTo root path = .ok trail ∧ trail.here root = node :=
  exists_trail_of_here h

theorem sound_trailToSelf {trail : Trail} (h : trailToSelf root path = .ok trail) :
    trail.Sound root :=
  (trailToSelf_eq_ok_iff.mp h).2.sound trivial

theorem trailTo_of_trailToSelf {trail : Trail} (h : trailToSelf root path = .ok trail)
    (hend : ∀ target, trail.here root ≠ .link target) : trailTo root path = .ok trail := by
  obtain ⟨hcheck, hfollows⟩ := trailToSelf_eq_ok_iff.mp h
  exact trailTo_eq_ok_iff.mpr ⟨hcheck, hfollows.through hend⟩

theorem getLast?_of_splitSlash {cs : List Char} (h : ∀ piece ∈ splitSlash cs, piece = []) :
    cs = [] ∨ cs.getLast? = some '/' := by
  induction cs with
  | nil => exact .inl rfl
  | cons c rest ih =>
    right
    rw [splitSlash] at h
    split at h
    · rename_i hslash
      rw [List.getLast?_cons, hslash]
      rcases ih (fun piece hpiece => h piece (List.mem_cons_of_mem _ hpiece)) with rfl | hlast
      · rfl
      · rw [hlast]
        rfl
    · split at h
      · cases h [c] (by simp)
      · rename_i piece pieces _
        cases h (c :: piece) (by simp)

theorem Path.steps_ne_nil (h : path ≠ "") : Path.steps path ≠ [] := by
  rw [Path.steps]
  split
  · simp
  · rename_i hslash
    intro hnames
    -- Without names there are only slashes, and one of them is the last character.
    have hempty : ∀ piece ∈ splitSlash path.toList, piece = [] := by
      simpa [Path.names] using hnames
    rcases getLast?_of_splitSlash hempty with hnil | hlast
    · exact h (String.toList_eq_nil_iff.mp hnil)
    · exact hslash (by simpa [Path.asksDirectory] using hlast)

/-- A path that is followed to its end either has a last name, which is an entry, or ends in a
directory. -/
theorem exists_lastName_or_directory {trail : Trail} (h : trailToSelf root path = .ok trail) :
    (∃ name, Path.steps path = Path.names path ∧ (Path.names path).getLast? = some name ∧
      IsEntryName name) ∨ ∃ entries, trail.here root = .directory entries := by
  obtain ⟨hcheck, hfollows⟩ := trailToSelf_eq_ok_iff.mp h
  have hpath : path ≠ "" := by
    rintro rfl
    cases hcheck
  obtain ⟨last, hlast⟩ := Option.isSome_iff_exists.mp
    (List.getLast?_isSome.mpr (Path.steps_ne_nil hpath))
  by_cases hname : IsEntryName last
  · left
    have hsteps : Path.steps path = Path.names path := by
      rw [Path.steps] at hlast ⊢
      split at hlast
      · rw [List.getLast?_concat] at hlast
        cases hlast
        exact absurd rfl hname.1
      · rename_i hslash
        rw [if_neg hslash]
    exact ⟨last, hsteps, hsteps ▸ hlast, hname⟩
  · right
    exact hfollows.here_of_getLast? trivial hlast hname

theorem locateParent_eq {before : Trail} {entries : Entries} {name : String}
    (hcheck : checkPath path = .ok ())
    (hfollows : Follows root true maxLinks [] (Path.names path).dropLast before)
    (hhere : before.here root = .directory entries) (hlast : (Path.names path).getLast? = some name)
    (hname : IsEntryName name) : locateParent root path = .ok (before.place, some name) := by
  have hin : (name = "." || name = "..") = false := by
    simpa [IsEntryName] using hname
  rw [locateParent, hcheck]
  simp only [Except.bind, bind, follow_eq_ok_iff.mpr hfollows, hhere, hlast, hin]
  rfl

/-- What the last name of a path stands for is removed from the directory in which it is. -/
theorem removeTree_of_lastName {trail : Trail} {name : String}
    (h : trailToSelf root path = .ok trail) (hsteps : Path.steps path = Path.names path)
    (hlast : (Path.names path).getLast? = some name) (hname : IsEntryName name) :
    ∃ before entries, trail.place = before ++ [name] ∧
      root.get? before = some (.directory entries) ∧
      removeTree root path = .ok (root.remove before name) := by
  obtain ⟨hcheck, hfollows⟩ := trailToSelf_eq_ok_iff.mp h
  have hnames := List.dropLast_append_getLast? name hlast
  rw [hsteps, ← hnames] at hfollows
  obtain ⟨before, entries, node, hbefore, hhere, -, hlookup, rfl⟩ :=
    hfollows.exists_before hname
  have hsound : before.Sound root := hbefore.sound trivial
  have hdirectory : root.get? before.place = some (.directory entries) := by
    rw [hsound.get?_place, hhere]
  have hplace : Trail.place ((name, node) :: before) = before.place ++ [name] :=
    Trail.place_cons name node before
  have hnode : root.get? (before.place ++ [name]) = some node := by
    rw [← hplace]
    exact (sound_trailToSelf h).get?_place
  refine ⟨before.place, entries, hplace, hdirectory, ?_⟩
  rw [removeTree, locateSelf_of_trail h, locateParent_eq hcheck hbefore hhere hlast hname, hplace]
  simp only [Except.bind, bind, hnode]
  cases node with
  | directory below => exact if_pos rfl
  | _ => rfl

/-- What a remover may do when it is told to remove what is at an absolute path. A link is not
followed where the path ends. -/
inductive Removes (root : Node) (path : String) : Node → Prop
  | nothing : Removes root path root
  | entry {before : Place} {name : String} {entries : Entries}
      (hplace : locateSelf root path = .ok (before ++ [name]))
      (hdirectory : root.get? before = some (.directory entries)) :
      Removes root path (root.remove before name)
  | content {place : Place} {entries : Entries} (hplace : locateSelf root path = .ok place)
      (hdirectory : root.get? place = some (.directory entries)) :
      Removes root path (root.clear place)

theorem removes_removeTree {trail : Trail} {after : Node} (h : trailToSelf root path = .ok trail)
    (hafter : removeTree root path = .ok after) : Removes root path after := by
  rcases exists_lastName_or_directory h with ⟨name, hsteps, hlast, hname⟩ | ⟨entries, hhere⟩
  · obtain ⟨before, entries, hplace, hdirectory, hremoved⟩ :=
      removeTree_of_lastName h hsteps hlast hname
    rw [hremoved] at hafter
    cases hafter
    exact .entry (by rw [locateSelf_of_trail h, hplace]) hdirectory
  · have hget := (sound_trailToSelf h).get?_place
    rw [hhere] at hget
    rw [removeTree, locateSelf_of_trail h] at hafter
    simp only [Except.bind, bind, hget] at hafter
    split at hafter
    · cases hafter
    · rename_i parent hparent
      split at hafter
      · rename_i _ _ before name _
        split at hafter
        · rename_i hplace
          cases hafter
          rw [← hplace] at hget
          obtain ⟨above, habove⟩ :=
            Node.isDirectory_of_get? (Option.isSome_iff_exists.mpr ⟨_, hget⟩)
          exact .entry (by rw [locateSelf_of_trail h, hplace]) habove
        · cases hafter
      · rename_i hno heq
        cases heq
        exact absurd rfl (hno entries)
      · cases hafter

/-- Only directories are emptied, since all else is removed by its name. -/
theorem removes_removeOrClear {node : Node} (hnode : findSelf? root path = .ok node) :
    Removes root path (removeOrClear root path) := by
  obtain ⟨trail, h, -⟩ := trail_of_findSelf? hnode
  rw [removeOrClear]
  cases hremoved : removeTree root path with
  | ok after => exact removes_removeTree h hremoved
  | error error =>
    rcases exists_lastName_or_directory h with ⟨name, hsteps, hlast, hname⟩ | ⟨entries, hhere⟩
    · obtain ⟨before, entries, -, -, hsome⟩ := removeTree_of_lastName h hsteps hlast hname
      rw [hsome] at hremoved
      cases hremoved
    · have hthrough : trailTo root path = .ok trail :=
        trailTo_of_trailToSelf h fun target hlink => by
          rw [hhere] at hlink
          cases hlink
      have hdirectory : root.get? trail.place = some (.directory entries) := by
        rw [(sound_trailToSelf h).get?_place, hhere]
      rw [locate_of_trail hthrough]
      exact .content (locateSelf_of_trail h) hdirectory

variable (base : String) (whole : Bool)

theorem removes_removeIn :
    Removes root (Path.join base path) (removeIn root base whole path).2 := by
  rw [removeIn]
  split
  · exact .nothing
  dsimp only
  split
  · exact .nothing
  · rename_i hfind
    split
    · exact removes_removeOrClear hfind
    · exact .nothing
  · rename_i hfind
    exact removes_removeOrClear hfind

theorem removes_systemRemoveIn :
    Removes root (Path.join base path) (systemRemoveIn root base whole path).2 := by
  rw [systemRemoveIn]
  split
  · exact .nothing
  dsimp only
  split
  · exact .nothing
  · rename_i hfind
    split
    · exact removes_removeOrClear hfind
    · exact .nothing
  · rename_i hfind
    exact removes_removeOrClear hfind

end Conductor.Files
