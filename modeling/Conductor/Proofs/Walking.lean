import Conductor.Files.Walk
import Conductor.Proofs.ByteOrder
import Conductor.Proofs.Lost
import Conductor.Proofs.Naming
import Conductor.Proofs.Removing

/-!
# What a walk finds

A walk comes to a file if it can read each directory on the way and enters each entry on it
(`Node.mem_search_iff`). Since it takes the entries of each directory by their names, it finds the
places in ascending order, and so each of them once (`Node.pairwise_search`).
-/

namespace Conductor.Files

/-- What holds of a directory if it holds of its entries holds of all trees. -/
theorem Node.induct {motive : Node → Prop} (file : ∀ content, motive (.file content))
    (link : ∀ target, motive (.link target))
    (directory : ∀ entries : Entries, (∀ entry ∈ entries, motive entry.2) →
      motive (.directory entries)) (node : Node) : motive node := by
  refine @Node.rec motive (fun entries => ∀ entry ∈ entries, motive entry.2)
    (fun entry => motive entry.2) file link directory ?_ ?_ ?_ node
  · simp
  · exact fun entry rest hentry hrest => List.forall_mem_cons.mpr ⟨hentry, hrest⟩
  · exact fun name node hnode => hnode

/-! ## Entries of a directory -/

section

variable {entries : Entries} {name : String} {node : Node}

theorem mem_iff_lookup (h : Entries.Proper entries) :
    (name, node) ∈ entries ↔ List.lookup name entries = some node := by
  induction entries with
  | nil => simp
  | cons entry rest ih =>
    obtain ⟨key, here⟩ := entry
    rw [List.mem_cons, Node.lookup_cons_eq, ih h.2.2, Prod.mk.injEq]
    by_cases hkey : name = key
    · subst hkey
      simp [h.1, eq_comm]
    · simp [hkey]

theorem proper_of_mem (h : Entries.Proper entries) (hmem : (name, node) ∈ entries) :
    node.Proper :=
  proper_of_lookup h ((mem_iff_lookup h).mp hmem)

theorem nodup_names (h : Entries.Proper entries) : (entries.map (·.1)).Nodup := by
  induction entries with
  | nil => exact List.nodup_nil
  | cons entry rest ih =>
    obtain ⟨key, here⟩ := entry
    refine List.nodup_cons.mpr ⟨fun hmem => ?_, ih h.2.2⟩
    obtain ⟨⟨name, node⟩, hin, rfl⟩ := List.mem_map.mp hmem
    have hlookup := h.1
    rw [(mem_iff_lookup h.2.2).mp hin] at hlookup
    cases hlookup

end

/-! ## The search -/

section

variable {wanted : String} {enter read : Place → Bool}

/-- Whether a walk that is somewhere goes on by all these names. -/
def GoesOn (enter read : Place → Bool) (here : Place) : Place → Prop
  | [] => True
  | name :: rest =>
    read here = true ∧ enter (here ++ [name]) = true ∧ GoesOn enter read (here ++ [name]) rest

/-- A walk goes on if it can read each directory on the way and enters each entry on it. -/
theorem goesOn_iff {here rest : Place} : GoesOn enter read here rest ↔
    ∀ above name, above ++ [name] <+: rest →
      read (here ++ above) = true ∧ enter (here ++ above ++ [name]) = true := by
  induction rest generalizing here with
  | nil => simp [GoesOn]
  | cons step rest ih =>
    rw [GoesOn, ih]
    constructor
    · rintro ⟨hread, henter, hrest⟩ above name hbegins
      cases above with
      | nil =>
        obtain ⟨rfl, -⟩ := List.cons_prefix_cons.mp hbegins
        simpa using ⟨hread, henter⟩
      | cons first above =>
        obtain ⟨rfl, hbelow⟩ := List.cons_prefix_cons.mp hbegins
        simpa using hrest above name hbelow
    · intro h
      obtain ⟨hread, henter⟩ := h [] step (by simp)
      rw [List.append_nil] at hread henter
      refine ⟨hread, henter, fun above name hbegins => ?_⟩
      have hbelow := h (step :: above) name (List.cons_prefix_cons.mpr ⟨rfl, hbegins⟩)
      simpa using hbelow

theorem Entries.searchEach_eq (here : Place) (entries : Entries) :
    Entries.searchEach wanted enter read here entries =
      (entries.filter fun entry => enter (here ++ [entry.1])).map fun entry =>
        (entry.1, entry.2.search wanted enter read (here ++ [entry.1])) := by
  induction entries with
  | nil => rfl
  | cons entry rest ih =>
    obtain ⟨name, node⟩ := entry
    rw [Entries.searchEach, List.filter_cons, ih]
    split <;> rfl

theorem Entries.mem_searchEach {here : Place} {entries : Entries} {entry : String × List Place} :
    entry ∈ Entries.searchEach wanted enter read here entries ↔
      ∃ name node, (name, node) ∈ entries ∧ enter (here ++ [name]) = true ∧
        entry = (name, node.search wanted enter read (here ++ [name])) := by
  rw [searchEach_eq, List.mem_map]
  constructor
  · rintro ⟨⟨name, node⟩, hmem, rfl⟩
    obtain ⟨hmem, henter⟩ := List.mem_filter.mp hmem
    exact ⟨name, node, hmem, henter, rfl⟩
  · rintro ⟨name, node, hmem, henter, rfl⟩
    exact ⟨(name, node), List.mem_filter.mpr ⟨hmem, henter⟩, rfl⟩

theorem Node.mem_search_directory {entries : Entries} {here found : Place} :
    found ∈ (directory entries).search wanted enter read here ↔
      read here = true ∧ ∃ name node, (name, node) ∈ entries ∧ enter (here ++ [name]) = true ∧
        found ∈ node.search wanted enter read (here ++ [name]) := by
  rw [search]
  split
  case isFalse hread => simp [hread]
  case isTrue hread =>
    simp only [List.mem_flatMap, List.mem_mergeSort, Entries.mem_searchEach, hread, true_and]
    constructor
    · rintro ⟨_, ⟨name, node, hmem, henter, rfl⟩, hfound⟩
      exact ⟨name, node, hmem, henter, hfound⟩
    · rintro ⟨name, node, hmem, henter, hfound⟩
      exact ⟨_, ⟨name, node, hmem, henter, rfl⟩, hfound⟩

/-- Exactly the files of that name are found to which the walk goes on. -/
theorem Node.mem_search_iff {node : Node} (hproper : node.Proper) {here found : Place} :
    found ∈ node.search wanted enter read here ↔
      ∃ rest, found = here ++ rest ∧ (∃ content, node.get? rest = some (.file content)) ∧
        found.getLast? = some wanted ∧ GoesOn enter read here rest := by
  induction node using Node.induct generalizing here with
  | file content =>
    rw [search]
    constructor
    · intro hfound
      split at hfound
      · rename_i hlast
        obtain rfl := List.mem_singleton.mp hfound
        exact ⟨[], (List.append_nil _).symm, ⟨content, rfl⟩, hlast, trivial⟩
      · cases hfound
    · rintro ⟨rest, rfl, ⟨content, hget⟩, hlast, -⟩
      cases rest with
      | nil =>
        rw [List.append_nil] at hlast ⊢
        simp [hlast]
      | cons name rest => cases hget
  | link target =>
    rw [search]
    constructor
    · intro hfound
      cases hfound
    · rintro ⟨rest, -, ⟨content, hget⟩, -⟩
      cases rest <;> cases hget
  | directory entries ih =>
    rw [mem_search_directory]
    constructor
    · rintro ⟨hread, name, node, hmem, henter, hfound⟩
      obtain ⟨rest, rfl, ⟨content, hget⟩, hlast, hgoes⟩ :=
        (ih _ hmem (proper_of_mem hproper hmem)).mp hfound
      refine ⟨name :: rest, by simp, ⟨content, ?_⟩, hlast, hread, henter, hgoes⟩
      rw [get?_cons, (mem_iff_lookup hproper).mp hmem]
      exact hget
    · rintro ⟨rest, rfl, ⟨content, hget⟩, hlast, hgoes⟩
      cases rest with
      | nil => cases hget
      | cons name rest =>
        obtain ⟨hread, henter, hgoes⟩ := hgoes
        rw [get?_cons] at hget
        obtain ⟨node, hlookup, hget⟩ := Option.bind_eq_some_iff.mp hget
        have hmem := (mem_iff_lookup hproper).mpr hlookup
        refine ⟨hread, name, node, hmem, henter, ?_⟩
        exact (ih _ hmem (proper_of_mem hproper hmem)).mpr
          ⟨rest, by simp, ⟨content, hget⟩, hlast, hgoes⟩

/-- The entries that a walk takes are in the order of their names, which are different. -/
theorem Entries.pairwise_searchEach {entries : Entries} (h : Entries.Proper entries)
    (here : Place) :
    ((Entries.searchEach wanted enter read here entries).mergeSort fun a b => a.1 ≤ b.1).Pairwise
      fun a b => a.1 < b.1 := by
  have hnodup : ((Entries.searchEach wanted enter read here entries).map (·.1)).Nodup := by
    rw [searchEach_eq, List.map_map]
    exact (nodup_names h).sublist (List.filter_sublist.map _)
  have hperm := List.mergeSort_perm (Entries.searchEach wanted enter read here entries)
    fun a b => a.1 ≤ b.1
  have hdistinct := List.pairwise_map.mp ((hperm.map (·.1)).nodup_iff.mpr hnodup)
  have hsorted : ((Entries.searchEach wanted enter read here entries).mergeSort
      fun a b => a.1 ≤ b.1).Pairwise fun a b => decide (a.1 ≤ b.1) = true := by
    refine List.pairwise_mergeSort (fun a b c hab hbc => ?_) (fun a b => ?_) _
    · simp only [decide_eq_true_eq] at hab hbc ⊢
      exact String.le_trans hab hbc
    · simp only [Bool.or_eq_true, decide_eq_true_eq]
      exact String.le_total a.1 b.1
  exact hsorted.imp₂ (fun a b hle hne => lt_of_le_of_ne (of_decide_eq_true hle) hne) hdistinct

/-- The places that are found ascend. -/
theorem Node.pairwise_search {node : Node} (hproper : node.Proper) (here : Place) :
    (node.search wanted enter read here).Pairwise (· < ·) := by
  induction node using Node.induct generalizing here with
  | file content =>
    rw [search]
    split <;> simp
  | link target => exact List.Pairwise.nil
  | directory entries ih =>
    rw [search]
    split
    case isFalse => exact List.Pairwise.nil
    case isTrue =>
      refine List.pairwise_flatMap.mpr ⟨fun entry hentry => ?_, ?_⟩
      · rw [List.mem_mergeSort, Entries.mem_searchEach] at hentry
        obtain ⟨name, node, hmem, -, rfl⟩ := hentry
        exact ih _ hmem (proper_of_mem hproper hmem) _
      -- what is found in an entry begins with the place of the entry
      · refine (Entries.pairwise_searchEach hproper here).imp_of_mem ?_
        intro a b ha hb hlt first hfirst second hsecond
        rw [List.mem_mergeSort, Entries.mem_searchEach] at ha hb
        obtain ⟨name, node, hmem, -, rfl⟩ := ha
        obtain ⟨other, next, hnext, -, rfl⟩ := hb
        obtain ⟨rest, rfl, -⟩ := (mem_search_iff (proper_of_mem hproper hmem)).mp hfirst
        obtain ⟨later, rfl, -⟩ := (mem_search_iff (proper_of_mem hproper hnext)).mp hsecond
        rw [List.append_assoc, List.append_assoc]
        exact List.append_left_lt (List.cons_lt_cons_iff.mpr (.inl hlt))

end

/-! ## Names of a tree -/

mutual

/-- Whether each entry of each directory of a tree has a name that an entry can have. -/
def Node.WellNamed : Node → Prop
  | .file _ => True
  | .link _ => True
  | .directory entries => Entries.WellNamed entries

def Entries.WellNamed : List (String × Node) → Prop
  | [] => True
  | (name, node) :: rest => IsFileName name ∧ node.WellNamed ∧ Entries.WellNamed rest

end

theorem wellNamed_of_mem {entries : Entries} {name : String} {node : Node}
    (h : Entries.WellNamed entries) (hmem : (name, node) ∈ entries) :
    IsFileName name ∧ node.WellNamed := by
  induction entries with
  | nil => cases hmem
  | cons entry rest ih =>
    obtain ⟨hname, hnode, hrest⟩ := h
    rcases List.mem_cons.mp hmem with rfl | hmem
    · exact ⟨hname, hnode⟩
    · exact ih hrest hmem

theorem Node.isFileName_of_get? {node below : Node} {place : Place} (hproper : node.Proper)
    (hnamed : node.WellNamed) (h : node.get? place = some below) :
    ∀ name ∈ place, IsFileName name := by
  induction place generalizing node with
  | nil => simp
  | cons name rest ih =>
    cases node with
    | file content => cases h
    | link target => cases h
    | directory entries =>
      rw [get?_cons] at h
      obtain ⟨next, hlookup, hnext⟩ := Option.bind_eq_some_iff.mp h
      have hmem := (mem_iff_lookup hproper).mpr hlookup
      obtain ⟨hname, hwell⟩ := wellNamed_of_mem hnamed hmem
      exact List.forall_mem_cons.mpr ⟨hname, ih (proper_of_mem hproper hmem) hwell hnext⟩

/-! ## Lists of build targets -/

def byteNames (path : String) : List (List UInt8) :=
  (Path.names path).map Text.bytes

/-- A list of build targets in a directory that is not hidden. Its place is seen from the directory
that `base` leads to. -/
structure IsList (entries : Entries) (base : String) (place : Place) : Prop where
  /-- All before the last name are directories. -/
  isFile : ∃ content, (Node.directory entries).get? place = some (.file content)
  isNamed : place.getLast? = some listsName
  isVisible : ∀ name ∈ place, name.toList.head? ≠ some '.'
  /-- The paths of the directories on the way are short enough for them to be opened. -/
  isReadable : ∀ above, above <+: place → above ≠ place → readsFrom base above = true

/-- Such a list that is not in the directory at the path of the build directory. -/
structure IsListed (entries : Entries) (base buildDir : String) (place : Place) : Prop extends
    IsList entries base place where
  isOutside : ∀ above, above ≠ [] → above <+: place →
    Path.components (Path.join base (Path.ofNames above)) ≠
      Path.components (Path.join base buildDir)

section

variable {root : Node} {base buildDir : String} {entries : Entries} {place : Place}

/-- A path that leads to a directory leads there itself, or to a link. -/
theorem findSelf?_of_find? (h : find? root base = .ok (.directory entries)) :
    findSelf? root base = .ok (.directory entries) ∨
      ∃ target, findSelf? root base = .ok (.link target) := by
  obtain ⟨trail, htrail, hhere⟩ := trail_of_find? h
  obtain ⟨hcheck, hfollows⟩ := trailTo_eq_ok_iff.mp htrail
  obtain ⟨kept, hkept, hend⟩ := hfollows.exists_kept
  have hself := findSelf?_of_trail (trailToSelf_eq_ok_iff.mpr ⟨hcheck, hkept⟩)
  rcases hend with rfl | ⟨target, hlink⟩
  · exact .inl (by rw [hself, hhere])
  · exact .inr ⟨target, by rw [hself, hlink]⟩

/-- What is walked through is the directory that the base leads to. -/
theorem findLists_eq (h : find? root base = .ok (.directory entries)) :
    findLists root base buildDir =
      ((Node.directory entries).search listsName (entersFrom base buildDir)
        (readsFrom base) []).map Path.ofNames := by
  rw [findLists]
  rcases findSelf?_of_find? h with hself | ⟨target, hself⟩
  · rw [hself]
  · rw [hself, h]

theorem ne_empty_of_find? {node : Node} (h : find? root base = .ok node) : base ≠ "" := by
  rintro rfl
  cases h

theorem exists_next_name {above : Place} (h : above <+: place) (hne : above ≠ place) :
    ∃ name, above ++ [name] <+: place := by
  obtain ⟨rest, rfl⟩ := h
  cases rest with
  | nil => exact absurd (List.append_nil above).symm hne
  | cons name rest => exact ⟨name, rest, by simp⟩

theorem entersFrom_iff {name : String} : entersFrom base buildDir (place ++ [name]) = true ↔
    name.toList.head? ≠ some '.' ∧
      Path.components base ++ (place ++ [name]) ≠ Path.components (Path.join base buildDir) := by
  simp [entersFrom]

theorem isListed_iff (hbase : base ≠ "") (hnames : ∀ name ∈ place, IsFileName name) :
    IsListed entries base buildDir place ↔
      (∃ content, (Node.directory entries).get? place = some (.file content)) ∧
        place.getLast? = some listsName ∧
        GoesOn (entersFrom base buildDir) (readsFrom base) [] place := by
  have hcomponents {above : Place} (h : above <+: place) :
      Path.components (Path.join base (Path.ofNames above)) = Path.components base ++ above :=
    Path.components_join_ofNames hbase fun name hname => hnames name (h.subset hname)
  rw [goesOn_iff]
  simp only [List.nil_append, entersFrom_iff]
  constructor
  · intro h
    refine ⟨h.isFile, h.isNamed, fun above name hbegins => ?_⟩
    have hmem : name ∈ place := hbegins.subset (by simp)
    have hout := h.isOutside _ (by simp) hbegins
    rw [hcomponents hbegins] at hout
    have hne : above ≠ place := by
      rintro rfl
      have hlength := hbegins.length_le
      simp at hlength
    have hbefore : above <+: place := (List.prefix_append ..).trans hbegins
    exact ⟨h.isReadable above hbefore hne, h.isVisible name hmem, hout⟩
  · rintro ⟨hfile, hnamed, hgoes⟩
    refine ⟨⟨hfile, hnamed, fun name hname => ?_, fun above hbegins hne => ?_⟩,
      fun above hne hbegins => ?_⟩
    · obtain ⟨above, rest, rfl⟩ := List.append_of_mem hname
      exact (hgoes above name ⟨rest, by simp⟩).2.1
    · obtain ⟨name, hname⟩ := exists_next_name hbegins hne
      exact (hgoes above name hname).1
    · rw [hcomponents hbegins]
      obtain ⟨init, last, rfl⟩ : ∃ init last, above = init ++ [last] :=
        ⟨_, _, (List.dropLast_append_getLast hne).symm⟩
      exact (hgoes init last hbegins).2.2

variable (hbase : find? root base = .ok (.directory entries))
  (hproper : (Node.directory entries).Proper) (hnamed : (Node.directory entries).WellNamed)

include hbase hproper hnamed

/-- The places that are found are those of the lists, and have proper names. -/
theorem mem_search_listsName_iff : place ∈ (Node.directory entries).search listsName
      (entersFrom base buildDir) (readsFrom base) [] ↔
    IsListed entries base buildDir place ∧ ∀ name ∈ place, IsFileName name := by
  have hempty := ne_empty_of_find? hbase
  rw [Node.mem_search_iff hproper]
  constructor
  · rintro ⟨rest, rfl, ⟨content, hget⟩, hlast, hgoes⟩
    have hnames := Node.isFileName_of_get? hproper hnamed hget
    exact ⟨(isListed_iff hempty hnames).mpr ⟨⟨content, hget⟩, hlast, hgoes⟩, hnames⟩
  · rintro ⟨hlisted, hnames⟩
    exact ⟨place, rfl, (isListed_iff hempty hnames).mp hlisted⟩

theorem mem_findLists_iff {path : String} : path ∈ findLists root base buildDir ↔
    ∃ place, IsListed entries base buildDir place ∧ path = Path.ofNames place := by
  rw [findLists_eq hbase, List.mem_map]
  constructor
  · rintro ⟨place, hmem, rfl⟩
    exact ⟨place, ((mem_search_listsName_iff hbase hproper hnamed).mp hmem).1, rfl⟩
  · rintro ⟨place, hlisted, rfl⟩
    obtain ⟨content, hget⟩ := hlisted.isFile
    have hnames := Node.isFileName_of_get? hproper hnamed hget
    exact ⟨place, (mem_search_listsName_iff hbase hproper hnamed).mpr ⟨hlisted, hnames⟩, rfl⟩

theorem pairwise_findLists : (findLists root base buildDir).Pairwise
    fun first second => byteNames first < byteNames second := by
  rw [findLists_eq hbase, List.pairwise_map]
  refine (Node.pairwise_search hproper []).imp_of_mem fun hfirst hsecond hlt => ?_
  have hfirst := ((mem_search_listsName_iff hbase hproper hnamed).mp hfirst).2
  have hsecond := ((mem_search_listsName_iff hbase hproper hnamed).mp hsecond).2
  rw [byteNames, byteNames, Path.names_ofNames hfirst, Path.names_ofNames hsecond]
  exact Text.map_bytes_lt hlt

/-- Exactly the lists of build targets are found that stand in directories which are neither hidden
nor the build directory, in the order of the bytes of their names and so each of them once. -/
theorem findLists_exact_and_ascending (buildDir : String) :
    (findLists root base buildDir).Pairwise
        (fun first second => byteNames first < byteNames second) ∧
      ∀ path, path ∈ findLists root base buildDir ↔
        ∃ place, IsListed entries base buildDir place ∧ path = Path.ofNames place :=
  ⟨pairwise_findLists hbase hproper hnamed, fun _ => mem_findLists_iff hbase hproper hnamed⟩

end

/-- A directory with a list, and with others behind a link, in the build directory and in a hidden
one. -/
def Sample.project : Entries :=
  [("src", .directory [("CMakeLists.txt", .file (.zeros 0)), ("more", .link "../build")]),
    ("build", .directory [("CMakeLists.txt", .file (.zeros 0))]),
    (".git", .directory [("CMakeLists.txt", .file (.zeros 0))])]

def Sample.tree : Node :=
  .directory [("work", .directory Sample.project), ("p", .link "work")]

theorem findLists_exact_and_ascending_link :
    find? Sample.tree "/p" = .ok (.directory Sample.project) ∧
      (Node.directory Sample.project).Proper ∧ (Node.directory Sample.project).WellNamed ∧
      (findLists Sample.tree "/p" "./build").Pairwise
        (fun first second => byteNames first < byteNames second) ∧
      ∀ path, path ∈ findLists Sample.tree "/p" "./build" ↔
        ∃ place, IsListed Sample.project "/p" "./build" place ∧ path = Path.ofNames place := by
  have hbase : find? Sample.tree "/p" = .ok (.directory Sample.project) := rfl
  have hproper : (Node.directory Sample.project).Proper := by
    simp [Sample.project, Node.Proper, Entries.Proper]
  have hnamed : (Node.directory Sample.project).WellNamed := by
    simp [Sample.project, Node.WellNamed, Entries.WellNamed, IsFileName, IsEntryName]
  exact ⟨hbase, hproper, hnamed, findLists_exact_and_ascending hbase hproper hnamed "./build"⟩

end Conductor.Files
