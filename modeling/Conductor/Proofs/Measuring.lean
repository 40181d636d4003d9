import Conductor.Proofs.Lingering
import Conductor.Proofs.Reaching
import Conductor.Proofs.Walking
import Mathlib.Algebra.BigOperators.Group.Finset.Defs
import Mathlib.Algebra.Order.BigOperators.Group.List

/-!
# What a walk measures

The size at a path is that of all files to which a walk from there comes, each counted once, and the
order in which directories list their entries does not matter (`sizeAt_sums_files`). A walk begins
at what the path leads to, or in the directory behind a link (`WalkBegins`), and comes to a file if
no path on the way to it is too long (`comesTo_iff`).
-/

namespace Conductor.Files

/-! ## The files of a tree -/

mutual

/-- No file is listed twice. -/
theorem Node.nodup_files : (node : Node) → node.Proper → node.files.Nodup
  | .file _, _ => List.nodup_singleton _
  | .link _, _ => List.nodup_nil
  | .directory entries, h => Entries.nodup_files entries h

theorem Entries.nodup_files :
    (entries : List (String × Node)) → Entries.Proper entries → (Entries.files entries).Nodup
  | [], _ => List.nodup_nil
  | (name, node) :: rest, h => by
    have hinjective : (fun file : Place × Content => (name :: file.1, file.2)).Injective := by
      rintro ⟨place, content⟩ ⟨other, more⟩ heq
      simpa using heq
    rw [Entries.files]
    refine ((Node.nodup_files node h.2.1).map hinjective).append (Entries.nodup_files rest h.2.2) ?_
    -- no entry of the rest has the name with which the places of the first one begin
    intro file hfirst hrest
    obtain ⟨⟨place, content⟩, -, rfl⟩ := List.mem_map.mp hfirst
    rw [Entries.mem_files_iff rest h.2.2, Node.get?_cons, h.1] at hrest
    cases hrest

end

theorem Node.mem_files_iff_bareAt {node : Node} (hproper : node.Proper) {place : Place}
    {content : Content} :
    (place, content) ∈ node.files ↔ node.bareAt place = some (.file content) := by
  rw [mem_files_iff node hproper, bareAt]
  rcases node.get? place with _ | (_ | _ | _) <;> simp [bare]

theorem Node.Proper.of_get? {node below : Node} {place : Place} (hproper : node.Proper)
    (h : node.get? place = some below) : below.Proper := by
  induction place generalizing node with
  | nil =>
    cases h
    exact hproper
  | cons name rest ih =>
    cases node with
    | file content => cases h
    | link target => cases h
    | directory entries =>
      rw [get?_cons] at h
      obtain ⟨child, hlookup, hbelow⟩ := Option.bind_eq_some_iff.mp h
      exact ih (proper_of_lookup hproper hlookup) hbelow

/-! ## The files to which a walk comes -/

/-- Whether a walk from a path comes to a place: neither a path on the way nor the last one is too
long. -/
def comesTo (path : String) : Place → Bool
  | [] => isShortPath path
  | name :: rest => isShortPath path && comesTo (Path.join path name) rest

theorem comesTo_iff {path : String} {place : Place} :
    comesTo path place = true ↔ ∀ above, above <+: place → readsFrom path above = true := by
  induction place generalizing path with
  | nil => simp [comesTo, readsFrom]
  | cons name rest ih =>
    rw [comesTo, Bool.and_eq_true, ih]
    constructor
    · rintro ⟨hshort, hrest⟩ above hbegins
      cases above with
      | nil => exact hshort
      | cons first above =>
        obtain ⟨rfl, hbelow⟩ := List.cons_prefix_cons.mp hbegins
        exact hrest above hbelow
    · intro h
      refine ⟨h [] List.nil_prefix, fun above hbegins => ?_⟩
      exact h (name :: above) (List.cons_prefix_cons.mpr ⟨rfl, hbegins⟩)

theorem comesTo_eq_false {path : String} (h : isShortPath path = false) (place : Place) :
    comesTo path place = false := by
  cases place <;> simp [comesTo, h]

mutual

/-- What is measured are the files to which the walk comes. -/
theorem Node.sizeFrom_eq : (node : Node) → (path : String) →
    node.sizeFrom path = sizeOf (node.files.filter fun file => comesTo path file.1)
  | .file content, path => by
    rw [Node.sizeFrom, Node.files]
    cases hshort : isShortPath path <;> simp [comesTo, hshort, sizeOf]
  | .link _, _ => rfl
  | .directory entries, path => by
    rw [Node.sizeFrom, Node.files]
    cases hshort : isShortPath path with
    | true => exact Entries.sizeFrom_eq hshort entries
    | false =>
      simp only [comesTo_eq_false hshort, List.filter_false]
      rfl

theorem Entries.sizeFrom_eq {path : String} (hshort : isShortPath path = true) :
    (entries : List (String × Node)) → Entries.sizeFrom path entries =
      sizeOf ((Entries.files entries).filter fun file => comesTo path file.1)
  | [] => rfl
  | (name, node) :: rest => by
    rw [Entries.sizeFrom, Entries.files, List.filter_append, List.filter_map, sizeOf_append,
      sizeOf_map, Node.sizeFrom_eq node, Entries.sizeFrom_eq hshort rest]
    simp only [Function.comp_def, comesTo, hshort, Bool.true_and]

end

theorem Node.sizeFrom_le (node : Node) (path : String) : node.sizeFrom path ≤ node.totalSize := by
  rw [Node.sizeFrom_eq, ← Node.sizeOf_files, sizeOf, sizeOf]
  exact (List.filter_sublist.map _).sum_le_sum fun _ _ => Nat.zero_le _

def Node.IsWithinReach (path : String) (node : Node) : Prop :=
  ∀ file ∈ node.files, comesTo path file.1 = true

instance (path : String) : DecidablePred (Node.IsWithinReach path) := fun node =>
  inferInstanceAs (Decidable (∀ file ∈ node.files, comesTo path file.1 = true))

theorem Node.IsWithinReach.sizeFrom_eq {path : String} {node : Node}
    (h : node.IsWithinReach path) : node.sizeFrom path = node.totalSize := by
  rw [Node.sizeFrom_eq, List.filter_eq_self.mpr h, Node.sizeOf_files]

/-! ## Where a walk begins -/

/-- A walk from a path begins at what is there, or in the directory to which a link leads that is
there. -/
inductive WalkBegins (root : Node) (path : String) : Node → Prop
  | here {node : Node} (h : findSelf? root path = .ok node)
      (hnode : ∀ target, node ≠ .link target) : WalkBegins root path node
  | behind {target : String} {entries : Entries}
      (hlink : findSelf? root path = .ok (.link target))
      (h : find? root path = .ok (.directory entries)) :
      WalkBegins root path (.directory entries)

section

variable {root start : Node} {path : String}

theorem sizeAt_of_begins (h : WalkBegins root path start) :
    sizeAt root path = UInt64.ofNat (start.sizeFrom path) := by
  rw [sizeAt]
  cases h with
  | here h hnode =>
    rw [h]
    cases start with
    | link target => exact absurd rfl (hnode target)
    | _ => rfl
  | behind hlink h => rw [hlink, h]

/-- Of a link that leads to no directory nothing is measured. -/
theorem sizeAt_of_link {target : String} (hlink : findSelf? root path = .ok (.link target))
    (h : ∀ entries, find? root path ≠ .ok (.directory entries)) : sizeAt root path = 0 := by
  rw [sizeAt, hlink]
  dsimp only
  split
  · rename_i entries hdirectory
    exact absurd hdirectory (h entries)
  · rfl

theorem sizeAt_of_error {error : SystemError} (h : findSelf? root path = .error error) :
    sizeAt root path = 0 := by
  rw [sizeAt, h]

theorem sizeAt_of_not_begins (h : ∀ start, ¬ WalkBegins root path start) :
    sizeAt root path = 0 := by
  cases hfind : findSelf? root path with
  | error error => exact sizeAt_of_error hfind
  | ok node =>
    by_cases hlink : ∃ target, node = .link target
    · obtain ⟨target, rfl⟩ := hlink
      exact sizeAt_of_link hfind fun entries hled => h _ (.behind hfind hled)
    · exact absurd (.here hfind fun target heq => hlink ⟨target, heq⟩) (h node)

/-- A walk begins at a place of the tree. -/
theorem WalkBegins.exists_place (h : WalkBegins root path start) :
    ∃ place, root.get? place = some start := by
  cases h with
  | here h _ =>
    obtain ⟨trail, htrail, rfl⟩ := trail_of_findSelf? h
    exact ⟨trail.place, (sound_trailToSelf htrail).get?_place⟩
  | behind _ h =>
    obtain ⟨trail, htrail, hhere⟩ := trail_of_find? h
    rw [← hhere]
    exact ⟨trail.place, ((trailTo_eq_ok_iff.mp htrail).2.sound trivial).get?_place⟩

end

/-! ## The order of entries -/

/-- Whether the same stands at each place of two trees, in whatever order it is listed. -/
def Node.SameButOrder (node other : Node) : Prop :=
  ∀ place, other.bareAt place = node.bareAt place

section

variable {root other start node : Node} {path : String}

theorem Node.sameButOrder_of_perm {entries more : Entries} (hproper : Entries.Proper entries)
    (hmore : Entries.Proper more) (h : entries.Perm more) :
    (directory entries).SameButOrder (directory more) := by
  have hlookup (name : String) : List.lookup name more = List.lookup name entries := by
    refine Option.ext fun node => ?_
    rw [← mem_iff_lookup hmore, ← mem_iff_lookup hproper, h.mem_iff]
  intro place
  cases place with
  | nil => rfl
  | cons name rest => rw [bareAt, bareAt, get?_cons, get?_cons, hlookup]

theorem Node.SameButOrder.symm (h : root.SameButOrder other) : other.SameButOrder root :=
  fun place => (h place).symm

theorem Node.SameButOrder.extends (h : root.SameButOrder other) : other.Extends root :=
  fun place _ hnode => (h place).trans hnode

/-- At each place the trees are the same below, too. -/
theorem Node.SameButOrder.below (h : root.SameButOrder other) {place : Place} {below : Node}
    (hnode : root.get? place = some node) (hbelow : other.get? place = some below) :
    node.SameButOrder below := by
  intro rest
  have hrest := h (place ++ rest)
  rwa [bareAt, bareAt, get?_append, get?_append, hnode, hbelow] at hrest

theorem Node.SameButOrder.sizeFrom_eq (h : node.SameButOrder other) (hproper : node.Proper)
    (hother : other.Proper) (path : String) : other.sizeFrom path = node.sizeFrom path := by
  have hperm : other.files.Perm node.files := by
    refine (List.perm_ext_iff_of_nodup (nodup_files other hother) (nodup_files node hproper)).mpr ?_
    rintro ⟨place, content⟩
    rw [mem_files_iff_bareAt hother, mem_files_iff_bareAt hproper, h place]
  rw [Node.sizeFrom_eq, Node.sizeFrom_eq, sizeOf, sizeOf]
  exact ((hperm.filter _).map _).sum_nat

theorem Node.SameButOrder.follows (h : root.SameButOrder other) {throughLast : Bool}
    {trail : Trail} {steps : List String}
    (hfollows : Follows root throughLast maxLinks [] steps trail) :
    ∃ after, Follows other throughLast maxLinks [] steps after ∧
      (trail.here root).SameButOrder (after.here other) := by
  have hstart : Trail.Sound other [] := trivial
  obtain ⟨after, hafter, hplace⟩ := hfollows.extend h.extends trivial hstart rfl
  have hthere := (hafter.sound trivial).get?_place
  rw [hplace] at hthere
  exact ⟨after, hafter, h.below (hfollows.sound trivial).get?_place hthere⟩

theorem Node.SameButOrder.exists_findSelf? (h : root.SameButOrder other)
    (hfind : findSelf? root path = .ok node) :
    ∃ below, findSelf? other path = .ok below ∧ node.SameButOrder below := by
  obtain ⟨trail, htrail, rfl⟩ := trail_of_findSelf? hfind
  obtain ⟨hcheck, hfollows⟩ := trailToSelf_eq_ok_iff.mp htrail
  obtain ⟨after, hafter, hsame⟩ := h.follows hfollows
  exact ⟨_, findSelf?_of_trail (trailToSelf_eq_ok_iff.mpr ⟨hcheck, hafter⟩), hsame⟩

theorem Node.SameButOrder.exists_find? (h : root.SameButOrder other)
    (hfind : find? root path = .ok node) :
    ∃ below, find? other path = .ok below ∧ node.SameButOrder below := by
  obtain ⟨trail, htrail, rfl⟩ := trail_of_find? hfind
  obtain ⟨hcheck, hfollows⟩ := trailTo_eq_ok_iff.mp htrail
  obtain ⟨after, hafter, hsame⟩ := h.follows hfollows
  exact ⟨_, find?_of_trail (trailTo_eq_ok_iff.mpr ⟨hcheck, hafter⟩), hsame⟩

theorem Node.SameButOrder.bare_eq (h : node.SameButOrder other) : other.bare = node.bare :=
  Option.some.inj (h [])

/-- In both trees a walk begins at the same. -/
theorem WalkBegins.of_sameButOrder (h : root.SameButOrder other)
    (hbegins : WalkBegins root path start) :
    ∃ there, WalkBegins other path there ∧ start.SameButOrder there := by
  cases hbegins with
  | here hfind hnode =>
    obtain ⟨there, hthere, hsame⟩ := h.exists_findSelf? hfind
    refine ⟨there, .here hthere fun target hlink => ?_, hsame⟩
    have hbare := hsame.bare_eq
    rw [hlink] at hbare
    exact hnode target (Node.bare_eq_link hbare.symm)
  | behind hlink hfind =>
    obtain ⟨link, hthere, hsame⟩ := h.exists_findSelf? hlink
    obtain rfl := Node.bare_eq_link hsame.bare_eq
    obtain ⟨below, hbelow, hsame⟩ := h.exists_find? hfind
    obtain ⟨entries, rfl⟩ := Node.bare_eq_directory hsame.bare_eq
    exact ⟨_, .behind hthere hbelow, hsame⟩

theorem sizeAt_eq_of_sameButOrder (h : root.SameButOrder other) (hproper : root.Proper)
    (hother : other.Proper) : sizeAt other path = sizeAt root path := by
  by_cases hbegins : ∃ start, WalkBegins root path start
  · obtain ⟨start, hstart⟩ := hbegins
    obtain ⟨there, hthere, hsame⟩ := hstart.of_sameButOrder h
    obtain ⟨place, hplace⟩ := hstart.exists_place
    obtain ⟨other, hother'⟩ := hthere.exists_place
    rw [sizeAt_of_begins hstart, sizeAt_of_begins hthere,
      hsame.sizeFrom_eq (hproper.of_get? hplace) (hother.of_get? hother')]
  · have hnone (there : Node) : ¬ WalkBegins other path there := by
      intro hthere
      obtain ⟨start, hstart, -⟩ := hthere.of_sameButOrder h.symm
      exact hbegins ⟨start, hstart⟩
    rw [sizeAt_of_not_begins hnone, sizeAt_of_not_begins (not_exists.mp hbegins)]

/-- The files to which a walk comes, each once. -/
theorem exists_files_sizeFrom (hproper : node.Proper) (path : String) :
    ∃ files : Finset (Place × Content),
      (∀ place content, (place, content) ∈ files ↔ node.get? place = some (.file content) ∧
        ∀ above, above <+: place → readsFrom path above = true) ∧
      node.sizeFrom path = ∑ file ∈ files, file.2.size := by
  have hnodup : (node.files.filter fun file => comesTo path file.1).Nodup :=
    (node.nodup_files hproper).filter _
  refine ⟨⟨_, Multiset.coe_nodup.mpr hnodup⟩, fun place content => ?_, node.sizeFrom_eq path⟩
  rw [Finset.mem_mk, Multiset.mem_coe, List.mem_filter, node.mem_files_iff hproper, comesTo_iff]

/-- The size at a path is the sum of the sizes of all files below the node at which the walk begins,
as long as that is a number of 64 bits. Each of them is counted once, and none that is behind a link
or has too long a path. Nothing is measured if the path leads nowhere, or to a link that leads to no
directory. The order in which directories list their entries does not matter. -/
theorem sizeAt_sums_files (hproper : root.Proper) (path : String) :
    (∀ start, WalkBegins root path start → ∃ files : Finset (Place × Content),
      (∀ place content, (place, content) ∈ files ↔ start.get? place = some (.file content) ∧
        ∀ above, above <+: place → readsFrom path above = true) ∧
      (∑ file ∈ files, file.2.size < 2 ^ 64 →
        (sizeAt root path).toNat = ∑ file ∈ files, file.2.size)) ∧
    (∀ error, findSelf? root path = .error error → sizeAt root path = 0) ∧
    (∀ target, findSelf? root path = .ok (.link target) →
      (∀ entries, find? root path ≠ .ok (.directory entries)) → sizeAt root path = 0) ∧
    ∀ other : Node, other.Proper → root.SameButOrder other →
      sizeAt other path = sizeAt root path := by
  refine ⟨fun start hstart => ?_, fun error => sizeAt_of_error, fun target => sizeAt_of_link,
    fun other hother h => sizeAt_eq_of_sameButOrder h hproper hother⟩
  obtain ⟨place, hplace⟩ := hstart.exists_place
  obtain ⟨files, hmem, hsum⟩ := exists_files_sizeFrom (hproper.of_get? hplace) path
  refine ⟨files, hmem, fun hsmall => ?_⟩
  rw [sizeAt_of_begins hstart, UInt64.toNat_ofNat_of_lt', hsum]
  rwa [hsum]

end

/-- A build directory with a file, a directory and a link to where it is, and a link to it. -/
def Sample.compiled : Entries :=
  [("out", .link "build"),
    ("build", .directory [
      ("a.o", .file (.zeros 100)),
      ("nested", .directory [("b.o", .file (.zeros 28))]),
      ("up", .link "..")])]

/-- The link is entered, but not the one behind it, in whatever order the two entries are listed. -/
theorem sizeAt_sums_files_out :
    (Node.directory Sample.compiled).Proper ∧ sizeAt (.directory Sample.compiled) "/out" = 128 ∧
      sizeAt (.directory Sample.compiled.reverse) "/out" =
        sizeAt (.directory Sample.compiled) "/out" ∧
      ∃ start, WalkBegins (.directory Sample.compiled) "/out" start ∧
        ∃ files : Finset (Place × Content),
          (∀ place content, (place, content) ∈ files ↔ start.get? place = some (.file content) ∧
            ∀ above, above <+: place → readsFrom "/out" above = true) ∧
          (∑ file ∈ files, file.2.size < 2 ^ 64 →
            (sizeAt (.directory Sample.compiled) "/out").toNat = ∑ file ∈ files, file.2.size) := by
  have hproper : (Node.directory Sample.compiled).Proper := by
    simp [Sample.compiled, Node.Proper, Entries.Proper]
  have hreverse : (Node.directory Sample.compiled.reverse).Proper := by
    simp [Sample.compiled, Node.Proper, Entries.Proper]
  have hsame : (Node.directory Sample.compiled).SameButOrder (.directory Sample.compiled.reverse) :=
    Node.sameButOrder_of_perm hproper hreverse (List.reverse_perm _).symm
  have hlink : findSelf? (.directory Sample.compiled) "/out" = .ok (.link "build") := rfl
  obtain ⟨start, hstart⟩ : ∃ start, WalkBegins (.directory Sample.compiled) "/out" start :=
    ⟨_, .behind hlink rfl⟩
  obtain ⟨hsums, -, -, horder⟩ := sizeAt_sums_files hproper "/out"
  exact ⟨hproper, rfl, horder _ hreverse hsame, start, hstart, hsums start hstart⟩

theorem utf8ByteSize_add_le_join {path : String} (h : Path.isAbsolute path = false)
    (base : String) :
    base.utf8ByteSize + path.utf8ByteSize ≤ (Path.join base path).utf8ByteSize := by
  rw [Path.join, h, if_neg Bool.false_ne_true]
  split
  · rw [String.utf8ByteSize_append]
  · rw [String.utf8ByteSize_append, String.utf8ByteSize_append]
    omega

/-- The entries of a directory with a file whose name is as long as a name may be. -/
def Sample.distant : Entries := [(longName 255, .file (.zeros 300))]

/-- A directory can be read, and yet a file in it is not measured: the path of the file is too
long. -/
theorem sizeAt_passes_over_distant :
    let root : Node := .directory [("p", .directory Sample.distant)]
    let path := "/p/" ++ lingering 1950
    root.Proper ∧ findSelf? root path = .ok (.directory Sample.distant) ∧
      readsFrom path [] = true ∧
      (Node.directory Sample.distant).get? [longName 255] = some (.file (.zeros 300)) ∧
      (Node.directory Sample.distant).totalSize = 300 ∧ sizeAt root path = 0 := by
  intro root path
  have hpath : path.utf8ByteSize = 3903 := utf8ByteSize_lingeringPath 1950
  have hfind : findSelf? root path = .ok (.directory Sample.distant) :=
    findSelf?_lingering (by decide)
  have hshort : isShortPath path = true := by
    rw [isShortPath, hpath]
    decide
  have hrelative : Path.isAbsolute (longName 255) = false := by
    rw [Path.isAbsolute, decide_eq_false_iff_not]
    exact fun hhead => not_mem_longName (by decide) 255 (List.mem_of_head? hhead)
  have hlong : isShortPath (Path.join path (longName 255)) = false := by
    have hjoin := utf8ByteSize_add_le_join hrelative path
    rw [hpath, utf8ByteSize_longName] at hjoin
    rw [isShortPath, decide_eq_false_iff_not, pathSizeLimit]
    omega
  have hproper : root.Proper := by
    simp [root, Sample.distant, Node.Proper, Entries.Proper]
  refine ⟨hproper, hfind, hshort, by simp [Sample.distant, Node.get?], rfl, ?_⟩
  rw [sizeAt_of_begins (.here hfind (by simp)), Node.sizeFrom, if_pos hshort, Sample.distant,
    Entries.sizeFrom, Node.sizeFrom, hlong]
  rfl

end Conductor.Files
