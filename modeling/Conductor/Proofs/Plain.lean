import Conductor.Proofs.Paths
import Conductor.Proofs.Removing
import Conductor.Tools

/-!
# Plain paths

A path is direct in a tree if all its names are those of entries and none of these before the last
is a link. Such a path leads to what stands at the place with its names (`findSelf?_eq_ok_iff`). So
a remover that is told a plain path takes away the entry at this place, or nothing (`takeAway`), and
all else stays as it was.
-/

namespace Conductor.Files

/-- A relative path of entries, written with single slashes, that does not look like an option. -/
structure Path.IsPlain (path : String) : Prop where
  isEntry : ∀ piece ∈ splitSlash path.toList, piece ≠ [] ∧ IsEntryName (String.ofList piece)
  nulFree : hasNul path = false
  notOption : path.toList.head? ≠ some '-'
  noTwoPoints : hasTwoPoints path.toList = false

instance : DecidablePred Path.IsPlain := fun path =>
  decidable_of_iff
    ((∀ piece ∈ splitSlash path.toList, piece ≠ [] ∧ IsEntryName (String.ofList piece)) ∧
      hasNul path = false ∧ path.toList.head? ≠ some '-' ∧ hasTwoPoints path.toList = false)
    ⟨fun ⟨isEntry, nulFree, notOption, noTwoPoints⟩ => ⟨isEntry, nulFree, notOption, noTwoPoints⟩,
      fun h => ⟨h.isEntry, h.nulFree, h.notOption, h.noTwoPoints⟩⟩

namespace Path.IsPlain

variable {path : String}

theorem names_eq (h : IsPlain path) :
    names path = (splitSlash path.toList).map String.ofList := by
  have hfilter : (splitSlash path.toList).filter (! ·.isEmpty) = splitSlash path.toList := by
    refine List.filter_eq_self.mpr fun piece hpiece => ?_
    have hne := (h.isEntry piece hpiece).1
    simpa using hne
  rw [names, hfilter]

theorem names_ne_nil (h : IsPlain path) : names path ≠ [] := by
  rw [h.names_eq]
  simpa using splitSlash_ne_nil path.toList

theorem isEntryName (h : IsPlain path) {name : String} (hname : name ∈ names path) :
    IsEntryName name := by
  rw [h.names_eq] at hname
  obtain ⟨piece, hpiece, rfl⟩ := List.mem_map.mp hname
  exact (h.isEntry piece hpiece).2

theorem isAbsolute_eq (h : IsPlain path) : isAbsolute path = false := by
  by_contra habsolute
  have hhead : path.toList.head? = some '/' := by simpa [isAbsolute] using habsolute
  obtain ⟨rest, hrest⟩ := List.head?_eq_some_iff.mp hhead
  have hempty : [] ∈ splitSlash path.toList := by
    rw [hrest, splitSlash, if_pos rfl]
    exact List.mem_cons_self
  exact (h.isEntry [] hempty).1 rfl

theorem asksDirectory_eq (h : IsPlain path) : asksDirectory path = false := by
  by_contra hslash
  have hlast : path.toList.getLast? = some '/' := by simpa [asksDirectory] using hslash
  obtain ⟨rest, hrest⟩ := List.getLast?_eq_some_iff.mp hlast
  have hempty : [] ∈ splitSlash path.toList := by
    rw [hrest, splitSlash_append]
    exact List.mem_append_right _ (by simp [splitSlash])
  exact (h.isEntry [] hempty).1 rfl

theorem endsInPoint_eq (h : IsPlain path) : endsInPoint path = false := by
  by_contra hpoint
  have hlast : (splitSlash path.toList).getLast? = some ['.'] := by
    simpa [endsInPoint] using hpoint
  exact (h.isEntry _ (List.mem_of_getLast? hlast)).2.1 rfl

theorem isProtected_eq (h : IsPlain path) : isProtected path = false := by
  have hnames : (names path).all (· = ".") = false := by
    obtain ⟨name, hname⟩ := List.exists_mem_of_ne_nil _ h.names_ne_nil
    refine List.all_eq_false.mpr ⟨name, hname, ?_⟩
    simpa using (h.isEntryName hname).1
  have hrelative : (path.toList.head? = some '/') = False := by
    simpa [isAbsolute] using h.isAbsolute_eq
  simp only [isProtected, hnames, hrelative, h.notOption, h.noTwoPoints]
  rfl

end Path.IsPlain

/-- No entry on the way to a place is a link. -/
def Node.Straight (root : Node) (place : Place) : Prop :=
  ∀ before rest target, before ++ rest = place → rest ≠ [] →
    root.get? before ≠ some (.link target)

/-- It is enough that all on the way are directories. -/
theorem Node.straight_of_directories {root : Node} {place : Place}
    (h : ∀ k, k < place.length → (root.get? (place.take k)).all isDirectory = true) :
    root.Straight place := by
  rintro before rest target rfl hrest hlink
  have hlength : 0 < rest.length := List.length_pos_iff.mpr hrest
  have hdirectory := h before.length (by rw [List.length_append]; omega)
  rw [List.take_left, hlink] at hdirectory
  cases hdirectory

section

variable {root : Node} {links : Nat} {trail after : Trail} {steps : List String}

/-- On a straight way every name counts. -/
theorem Follows.place_eq (h : Follows root false links trail steps after)
    (htrail : trail.Sound root) (hnames : ∀ name ∈ steps, IsEntryName name)
    (hstraight : root.Straight (trail.place ++ steps)) :
    after.place = trail.place ++ steps ∧ ∀ name ∈ steps, name.utf8ByteSize ≤ maxNameSize := by
  induction h with
  | done => simp
  | stay => exact absurd rfl (hnames _ List.mem_cons_self).1
  | back => exact absurd rfl (hnames _ List.mem_cons_self).2
  | enter hhere _ hsize hlookup _ _ ih =>
    rw [← List.singleton_append, ← List.append_assoc, ← Trail.place_cons] at hstraight ⊢
    obtain ⟨hplace, hsizes⟩ := ih ⟨htrail, _, hhere, hlookup⟩
      (fun name hname => hnames name (List.mem_cons_of_mem _ hname)) hstraight
    exact ⟨hplace, List.forall_mem_cons.mpr ⟨hsize, hsizes⟩⟩
  | keep _ _ hsize => exact ⟨Trail.place_cons _ _ _, by simpa using hsize⟩
  | @jump _ trail _ name rest entries target hhere _ _ hlookup hgo =>
    have hrest : rest ≠ [] := by simpa using hgo
    have hlink : root.get? (trail.place ++ [name]) = some (.link target) := by
      rw [← Trail.place_cons name (.link target)]
      exact Trail.Sound.get?_place ⟨htrail, entries, hhere, hlookup⟩
    exact absurd hlink (hstraight _ rest target (by simp) hrest)

/-- A straight way to something can be followed to its end. -/
theorem exists_follows {node : Node} (htrail : trail.Sound root)
    (hnames : ∀ name ∈ steps, IsEntryName name)
    (hsizes : ∀ name ∈ steps, name.utf8ByteSize ≤ maxNameSize)
    (hstraight : root.Straight (trail.place ++ steps))
    (hnode : root.get? (trail.place ++ steps) = some node) :
    ∃ after, Follows root false links trail steps after := by
  induction steps generalizing trail with
  | nil => exact ⟨trail, .done⟩
  | cons name rest ih =>
    obtain ⟨hname, hnames⟩ := List.forall_mem_cons.mp hnames
    obtain ⟨hsize, hsizes⟩ := List.forall_mem_cons.mp hsizes
    obtain ⟨entries, hdirectory⟩ := Node.isDirectory_of_get? (by rw [hnode]; rfl)
    have hhere : trail.here root = .directory entries :=
      Option.some.inj (htrail.get?_place.symm.trans hdirectory)
    have hchild := hnode
    rw [Node.get?_append, hdirectory, Option.bind_some, Node.get?_cons] at hchild
    obtain ⟨child, hlookup, -⟩ := Option.bind_eq_some_iff.mp hchild
    have hsound : Trail.Sound root ((name, child) :: trail) := ⟨htrail, entries, hhere, hlookup⟩
    by_cases hlink : ∃ target, child = .link target
    · obtain ⟨target, rfl⟩ := hlink
      by_cases hrest : rest = []
      · subst hrest
        exact ⟨_, .keep hhere hname hsize hlookup rfl⟩
      · have hplace := hsound.get?_place
        rw [Trail.place_cons] at hplace
        exact absurd hplace (hstraight _ rest target (by simp) hrest)
    · rw [← List.singleton_append, ← List.append_assoc, ← Trail.place_cons name child]
        at hstraight hnode
      obtain ⟨after, hafter⟩ := ih hsound hnames hsizes hstraight hnode
      exact ⟨after, .enter hhere hname hsize hlookup (fun target h => hlink ⟨target, h⟩) hafter⟩

end

/-- A path whose names lead straight to an entry. -/
structure Direct (root : Node) (path : String) : Prop where
  named : Path.asksDirectory path = false
  names_ne_nil : Path.names path ≠ []
  isEntryName : ∀ name ∈ Path.names path, IsEntryName name
  straight : root.Straight (Path.names path)

theorem asksDirectory_join {path : String} (hplain : Path.IsPlain path) (project : String) :
    Path.asksDirectory (Path.join project path) = false := by
  obtain ⟨c, hlast⟩ : ∃ c, path.toList.getLast? = some c := by
    refine Option.isSome_iff_exists.mp (List.getLast?_isSome.mpr fun hempty => ?_)
    have hpiece : [] ∈ splitSlash path.toList := by simp [hempty, splitSlash]
    exact (hplain.isEntry [] hpiece).1 rfl
  have hc : c ≠ '/' := by
    rintro rfl
    have hslash := hplain.asksDirectory_eq
    rw [Path.asksDirectory, hlast] at hslash
    cases hslash
  have hjoin : (Path.join project path).toList.getLast? = some c := by
    rw [Path.join, hplain.isAbsolute_eq, if_neg Bool.false_ne_true]
    split <;> simp [List.getLast?_append, List.getLast?_cons, hlast]
  rw [Path.asksDirectory, hjoin]
  simpa using hc

/-- A plain path is direct from a directory if no link is on the way. -/
theorem Direct.join {root : Node} {project path : String}
    (hproject : ∀ name ∈ Path.names project, IsEntryName name) (hplain : Path.IsPlain path)
    (hstraight : root.Straight (Path.names project ++ Path.names path)) :
    Direct root (Path.join project path) := by
  have hnames := Path.names_join hplain.isAbsolute_eq project
  refine ⟨asksDirectory_join hplain project, ?_, ?_, hnames ▸ hstraight⟩
  · rw [hnames]
    exact List.append_ne_nil_of_right_ne_nil _ hplain.names_ne_nil
  · intro name hname
    rw [hnames] at hname
    rcases List.mem_append.mp hname with hname | hname
    · exact hproject name hname
    · exact hplain.isEntryName hname

def Path.IsShort (path : String) : Prop :=
  checkPath path = .ok () ∧ ∀ name ∈ Path.names path, name.utf8ByteSize ≤ maxNameSize

namespace Direct

variable {root : Node} {path : String}

theorem steps_eq (h : Direct root path) : Path.steps path = Path.names path := by
  rw [Path.steps, if_neg (by simp [h.named])]

theorem place_eq (h : Direct root path) {trail : Trail}
    (htrail : trailToSelf root path = .ok trail) :
    trail.place = Path.names path ∧ Path.IsShort path := by
  obtain ⟨hcheck, hfollows⟩ := trailToSelf_eq_ok_iff.mp htrail
  rw [h.steps_eq] at hfollows
  obtain ⟨hplace, hsizes⟩ := hfollows.place_eq trivial h.isEntryName h.straight
  exact ⟨hplace, hcheck, hsizes⟩

/-- A direct path leads to what stands at its place. -/
theorem findSelf?_eq_ok_iff (h : Direct root path) {node : Node} :
    findSelf? root path = .ok node ↔
      Path.IsShort path ∧ root.get? (Path.names path) = some node := by
  constructor
  · intro hfind
    obtain ⟨trail, htrail, hhere⟩ := trail_of_findSelf? hfind
    obtain ⟨hplace, hshort⟩ := h.place_eq htrail
    have hget := (sound_trailToSelf htrail).get?_place
    rw [hplace, hhere] at hget
    exact ⟨hshort, hget⟩
  · rintro ⟨⟨hcheck, hsizes⟩, hnode⟩
    obtain ⟨trail, hfollows⟩ :
        ∃ trail, Follows root false maxLinks [] (Path.names path) trail :=
      exists_follows trivial h.isEntryName hsizes h.straight hnode
    rw [← h.steps_eq] at hfollows
    have htrail := trailToSelf_eq_ok_iff.mpr ⟨hcheck, hfollows⟩
    have hget := (sound_trailToSelf htrail).get?_place
    rw [(h.place_eq htrail).1, hnode] at hget
    rw [findSelf?_of_trail htrail, Option.some.inj hget]

end Direct

def Node.without (root : Node) (place : Place) : Node :=
  root.remove place.dropLast (place.getLastD "")

namespace Node

variable {root node : Node} {place other : Place}

theorem without_concat (before : Place) (name : String) :
    root.without (before ++ [name]) = root.remove before name := by
  simp [without, List.getLastD_eq_getLast?]

@[simp] theorem isDirectory_bare (node : Node) : node.bare.isDirectory = node.isDirectory := by
  cases node <;> rfl

theorem exists_parent (hplace : place ≠ []) (hnode : root.get? place = some node) :
    ∃ before name entries, place = before ++ [name] ∧
      root.get? before = some (.directory entries) := by
  obtain ⟨before, name, rfl⟩ := List.eq_nil_or_concat' place |>.resolve_left hplace
  obtain ⟨entries, hentries⟩ := isDirectory_of_get? (Option.isSome_iff_exists.mpr ⟨node, hnode⟩)
  exact ⟨before, name, entries, rfl, hentries⟩

theorem get?_without (hplace : place ≠ []) (hnode : root.get? place = some node)
    (hother : place <+: other) : (root.without place).get? other = none := by
  obtain ⟨before, name, entries, rfl, hentries⟩ := exists_parent hplace hnode
  rw [without_concat]
  exact get?_remove_below hentries hother

theorem bareAt_without (hplace : place ≠ []) (hnode : root.get? place = some node)
    (hother : ¬ place <+: other) : (root.without place).bareAt other = root.bareAt other := by
  obtain ⟨before, name, entries, rfl, hentries⟩ := exists_parent hplace hnode
  rw [without_concat]
  exact bareAt_remove hentries hother

end Node

/-- The tree without what a path leads to. With `whole` that may be a directory. -/
def takeAway (root : Node) (whole : Bool) (path : String) : Node :=
  match findSelf? root path with
  | .error _ => root
  | .ok node => if whole || !node.isDirectory then root.without (Path.names path) else root

section

variable {root : Node} {whole : Bool} {path : String} (h : Direct root path)

include h

theorem removeOrClear_eq {node : Node} (hnode : findSelf? root path = .ok node) :
    removeOrClear root path = root.without (Path.names path) := by
  obtain ⟨trail, htrail, -⟩ := trail_of_findSelf? hnode
  obtain ⟨name, hlast⟩ := Option.isSome_iff_exists.mp (List.getLast?_isSome.mpr h.names_ne_nil)
  have hname := h.isEntryName name (List.mem_of_getLast? hlast)
  obtain ⟨before, entries, hplace, -, hremoved⟩ :=
    removeTree_of_lastName htrail h.steps_eq hlast hname
  rw [(h.place_eq htrail).1] at hplace
  rw [removeOrClear, hremoved, hplace, Node.without_concat]

/-- Either nothing is taken away, or what stands at the place. -/
theorem takeAway_cases :
    takeAway root whole path = root ∨ ∃ node, root.get? (Path.names path) = some node ∧
      (whole = true ∨ node.isDirectory = false) ∧
      takeAway root whole path = root.without (Path.names path) := by
  rw [takeAway]
  cases hfind : findSelf? root path with
  | error error => exact .inl rfl
  | ok node =>
    dsimp only
    split
    · rename_i htaken
      obtain ⟨-, hnode⟩ := h.findSelf?_eq_ok_iff.mp hfind
      exact .inr ⟨node, hnode, by simpa using htaken, rfl⟩
    · exact .inl rfl

/-- All that is not at or below the place is as before. -/
theorem bareAt_takeAway {other : Place} (hother : ¬ Path.names path <+: other) :
    (takeAway root whole path).bareAt other = root.bareAt other := by
  rcases takeAway_cases h with heq | ⟨node, hnode, -, heq⟩
  · rw [heq]
  · rw [heq, Node.bareAt_without h.names_ne_nil hnode hother]

/-- Nothing is added. -/
theorem bareAt_of_takeAway {other : Place} {bare : Node}
    (hbare : (takeAway root whole path).bareAt other = some bare) :
    root.bareAt other = some bare := by
  rcases takeAway_cases h with heq | ⟨node, hnode, -, heq⟩
  · rwa [heq] at hbare
  · by_cases hother : Path.names path <+: other
    · rw [heq, Node.bareAt, Node.get?_without h.names_ne_nil hnode hother] at hbare
      cases hbare
    · rwa [bareAt_takeAway h hother] at hbare

/-- If directories are spared, all but what is no directory at the place is as before. -/
theorem bareAt_takeAway_spared {other : Place}
    (hother : ¬ (other = Path.names path ∧
      ∃ node, root.get? other = some node ∧ node.isDirectory = false)) :
    (takeAway root false path).bareAt other = root.bareAt other := by
  rcases @takeAway_cases root false path h with heq | ⟨node, hnode, hfile, heq⟩
  · rw [heq]
  · have hfile : node.isDirectory = false := by simpa using hfile
    by_cases hbelow : Path.names path <+: other
    · obtain ⟨rest, rfl⟩ := hbelow
      cases rest with
      | nil =>
        rw [List.append_nil] at hother
        exact absurd ⟨rfl, node, hnode, hfile⟩ hother
      | cons step rest =>
        have hnone : root.get? (Path.names path ++ step :: rest) = none := by
          rw [Node.get?_append, hnode]
          cases node <;> first | rfl | cases hfile
        rw [heq, Node.bareAt, Node.bareAt, hnone,
          Node.get?_without h.names_ne_nil hnode (List.prefix_append _ _)]
    · exact bareAt_takeAway h hbelow

/-- A removal makes no link where there was none. -/
theorem straight_takeAway {place : Place} (hplace : root.Straight place) :
    (takeAway root whole path).Straight place := by
  intro before rest target hbefore hrest hlink
  have hbare : (takeAway root whole path).bareAt before = some (.link target) := by
    rw [Node.bareAt, hlink]
    rfl
  have hroot := bareAt_of_takeAway h hbare
  obtain ⟨node, hnode, heq⟩ := Option.map_eq_some_iff.mp hroot
  cases node with
  | link other =>
    cases heq
    exact hplace before rest _ hbefore hrest hnode
  | _ => cases heq

theorem direct_takeAway {other : String} (hother : Direct root other) :
    Direct (takeAway root whole path) other :=
  ⟨hother.named, hother.names_ne_nil, hother.isEntryName, straight_takeAway h hother.straight⟩

/-- What is found after a removal was found before. -/
theorem exists_found {other : String} (hother : Direct root other) {node : Node}
    (hnode : findSelf? (takeAway root whole path) other = .ok node) :
    ∃ node, findSelf? root other = .ok node := by
  obtain ⟨hshort, hget⟩ := (direct_takeAway h hother).findSelf?_eq_ok_iff.mp hnode
  have hbare : (takeAway root whole path).bareAt (Path.names other) = some node.bare := by
    rw [Node.bareAt, hget]
    rfl
  obtain ⟨before, hbefore, -⟩ := Option.map_eq_some_iff.mp (bareAt_of_takeAway h hbare)
  exact ⟨before, hother.findSelf?_eq_ok_iff.mpr ⟨hshort, hbefore⟩⟩

/-- What is still found at the path itself is a directory that was to be spared. -/
theorem spared_of_found {node : Node}
    (hnode : findSelf? (takeAway root whole path) path = .ok node) :
    whole = false ∧ node.isDirectory = true := by
  cases hfind : findSelf? root path with
  | error error =>
    have heq : takeAway root whole path = root := by rw [takeAway, hfind]
    rw [heq, hfind] at hnode
    cases hnode
  | ok before =>
    obtain ⟨-, hbefore⟩ := h.findSelf?_eq_ok_iff.mp hfind
    by_cases htaken : (whole || !before.isDirectory) = true
    · have heq : takeAway root whole path = root.without (Path.names path) := by
        rw [takeAway, hfind]
        exact if_pos htaken
      obtain ⟨-, hget⟩ := (direct_takeAway h h).findSelf?_eq_ok_iff.mp hnode
      rw [heq, Node.get?_without h.names_ne_nil hbefore List.prefix_rfl] at hget
      cases hget
    · have heq : takeAway root whole path = root := by
        rw [takeAway, hfind]
        exact if_neg htaken
      rw [heq, hfind] at hnode
      cases hnode
      simpa using htaken

end

section

variable {root : Node} {base path : String} (whole : Bool) (hplain : Path.IsPlain path)
  (h : Direct root (Path.join base path))

include hplain h

theorem removeIn_eq :
    (removeIn root base whole path).2 = takeAway root whole (Path.join base path) := by
  rw [removeIn, if_neg (by simp [hplain.isProtected_eq]), takeAway, hplain.endsInPoint_eq]
  dsimp only
  cases hfind : findSelf? root (Path.join base path) with
  | error error => rfl
  | ok node =>
    rw [← removeOrClear_eq h hfind]
    cases node with
    | directory entries => cases whole <;> rfl
    | _ => cases whole <;> rfl

theorem systemRemoveIn_eq :
    (systemRemoveIn root base whole path).2 = takeAway root whole (Path.join base path) := by
  have hlast : (Path.names path).getLast? ≠ some "." := fun hpoint =>
    (hplain.isEntryName (List.mem_of_getLast? hpoint)).1 rfl
  rw [systemRemoveIn, if_neg (by simp [hplain.isProtected_eq]), takeAway, decide_eq_true hlast]
  dsimp only
  cases hfind : findSelf? root (Path.join base path) with
  | error error => rfl
  | ok node =>
    rw [← removeOrClear_eq h hfind]
    cases node with
    | directory entries => cases whole <;> rfl
    | _ => cases whole <;> rfl

end

end Conductor.Files
