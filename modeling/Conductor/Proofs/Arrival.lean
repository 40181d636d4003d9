import Conductor.Proofs.Documents
import Mathlib.Data.List.Forall2
import Mathlib.Data.List.Induction

/-!
# The order of keys

The keys of a table stand in the order in which the lines of the document come to them, and so do
the keys of the tables in it (`arranged_of_build?`). A line comes to a key when it names it; but a
table that is first met on the way to one below it comes once more, with its own header. Without
such tables the keys stand in the order in which they are named first (`arrivals_eq_eraseDups`).
-/

namespace Conductor.Toml

inductive Purpose
  | value
  | table
  | element
  deriving DecidableEq

/-- A key that a line names, and the way to its table from the one at hand. -/
structure Mention where
  path : List String
  key : String
  purpose : Purpose
  deriving DecidableEq

namespace Mention

/-- The first key on the way, which is one of the table at hand. -/
def first (mention : Mention) : String :=
  mention.path.headD mention.key

/-- Whether the line is the header of a table in the one at hand. -/
def Opens (mention : Mention) : Prop :=
  mention.path = [] ∧ mention.purpose = .table

instance (mention : Mention) : Decidable mention.Opens :=
  inferInstanceAs (Decidable (_ ∧ _))

/-- The mention as seen from further up. -/
def under (above : List String) (mention : Mention) : Mention :=
  { mention with path := above ++ mention.path }

/-- The mention as seen from the table of a key, if it leads through it. -/
def within? (key : String) (mention : Mention) : Option Mention :=
  match mention.path with
  | [] => none
  | step :: path => if step = key then some { mention with path } else none

def ofPair (pair : List String × String × Value) : Mention :=
  ⟨pair.1, pair.2.1, .value⟩

end Mention

/-- The mentions of some lines, where those without a header of their own belong to the given
one. -/
def mentions (header : List String) : List Statement → List Mention
  | [] => []
  | .table path key :: rest => ⟨path, key, .table⟩ :: mentions (path ++ [key]) rest
  | .element path key :: rest => ⟨path, key, .element⟩ :: mentions (path ++ [key]) rest
  | .pair path key _ :: rest => ⟨header ++ path, key, .value⟩ :: mentions header rest

/-- The keys of a table after one more mention. -/
def arrive (keys : List String) (mention : Mention) : List String :=
  if mention.Opens then keys.filter (· ≠ mention.key) ++ [mention.key]
  else if mention.first ∈ keys then keys
  else keys ++ [mention.first]

/-- The keys of a table in the order in which the mentions come to them. -/
def arrivals (mentions : List Mention) : List String :=
  mentions.foldl arrive []

def within (key : String) (mentions : List Mention) : List Mention :=
  mentions.filterMap (Mention.within? key)

/-- The mentions in each table of an array after one more mention. -/
def gather (key : String) (groups : List (List Mention)) (mention : Mention) :
    List (List Mention) :=
  match mention.within? key with
  | some inner => groups.dropLast ++ groups.getLast?.toList.map (· ++ [inner])
  | none => if mention = ⟨[], key, .element⟩ then groups ++ [[]] else groups

def elementsOf (key : String) (mentions : List Mention) : List (List Mention) :=
  mentions.foldl (gather key) []

/-- The keys of a table stand in the order in which the mentions come to them, and so do those of
the tables in it. -/
inductive Arranged : List Mention → Entries → Prop
  | intro {mentions : List Mention} {entries : Entries}
      (keys : entries.map (·.1) = arrivals mentions)
      (table : ∀ key origin below, (key, .table origin below) ∈ entries →
        Arranged (within key mentions) below)
      (tables : ∀ key elements, (key, .tables elements) ∈ entries →
        List.Forall₂ Arranged (elementsOf key mentions) elements) :
      Arranged mentions entries

def Node.Arranged (mentions : List Mention) (key : String) : Node → Prop
  | .leaf _ => True
  | .table _ below => Toml.Arranged (within key mentions) below
  | .tables elements => List.Forall₂ Toml.Arranged (elementsOf key mentions) elements

theorem Arranged.keys {seen : List Mention} {entries : Entries} (h : Arranged seen entries) :
    entries.map (·.1) = arrivals seen := by
  cases h with
  | intro keys _ _ => exact keys

theorem Arranged.node {seen : List Mention} {entries : Entries} (h : Arranged seen entries)
    {entry : String × Node} (hmem : entry ∈ entries) : entry.2.Arranged seen entry.1 := by
  obtain ⟨key, node⟩ := entry
  cases h with
  | intro _ table tables =>
    cases node with
    | leaf value => trivial
    | table origin below => exact table key origin below hmem
    | tables elements => exact tables key elements hmem

theorem Arranged.of_nodes {seen : List Mention} {entries : Entries}
    (hkeys : entries.map (·.1) = arrivals seen)
    (hnodes : ∀ entry ∈ entries, entry.2.Arranged seen entry.1) : Arranged seen entries :=
  .intro hkeys (fun _ _ _ hmem => hnodes _ hmem) fun _ _ hmem => hnodes _ hmem

theorem Arranged.of_lookup {seen : List Mention} {entries : Entries} (h : Arranged seen entries)
    {key : String} {node : Node} (hlookup : List.lookup key entries = some node) :
    node.Arranged seen key := by
  obtain ⟨before, after, rfl, -⟩ := List.lookup_eq_some_iff.mp hlookup
  have hmem : (key, node) ∈ before ++ (key, node) :: after := by simp
  exact h.node hmem

/-! ## One more key -/

theorem first_eq_of_within? {key : String} {mention inner : Mention}
    (h : mention.within? key = some inner) : mention.first = key := by
  obtain ⟨path, name, purpose⟩ := mention
  cases path with
  | nil => cases h
  | cons step path =>
    simp only [Mention.within?, Option.ite_none_right_eq_some] at h
    exact h.1

theorem within?_under (key : String) (path : List String) (mention : Mention) :
    (mention.under (key :: path)).within? key = some (mention.under path) := by
  simp [Mention.under, Mention.within?]

theorem mem_arrive {keys : List String} {mention : Mention} {key : String} :
    key ∈ arrive keys mention ↔ key ∈ keys ∨ mention.first = key := by
  obtain ⟨path, name, purpose⟩ := mention
  rw [arrive]
  split
  case isTrue h =>
    obtain ⟨rfl, -⟩ := h
    by_cases hkey : key = name <;> simp [Mention.first, hkey, eq_comm]
  case isFalse =>
    split
    case isTrue hmem =>
      constructor
      · exact .inl
      · rintro (h | rfl)
        · exact h
        · exact hmem
    case isFalse => simp [eq_comm]

theorem mem_arrivals {seen : List Mention} {key : String} :
    key ∈ arrivals seen ↔ ∃ mention ∈ seen, mention.first = key := by
  have hfold (keys : List String) : key ∈ seen.foldl arrive keys ↔
      key ∈ keys ∨ ∃ mention ∈ seen, mention.first = key := by
    induction seen generalizing keys with
    | nil => simp
    | cons mention seen ih =>
      simp only [List.foldl_cons, ih, mem_arrive, or_assoc, List.mem_cons, exists_eq_or_imp]
  rw [arrivals, hfold]
  simp

theorem arrivals_append (seen new : List Mention) :
    arrivals (seen ++ new) = new.foldl arrive (arrivals seen) :=
  List.foldl_append

theorem eraseDups_concat (keys : List String) (key : String) :
    (keys ++ [key]).eraseDups =
      if key ∈ keys then keys.eraseDups else keys.eraseDups ++ [key] := by
  rw [List.eraseDups_append]
  by_cases h : key ∈ keys <;> simp [List.removeAll, h, List.eraseDups_cons]

/-- Where no header brings back a key that was there, the keys stand in the order in which they are
named first. -/
theorem arrivals_eq_eraseDups {seen : List Mention}
    (h : ∀ before mention, before ++ [mention] <+: seen → mention.Opens →
      mention.key ∉ arrivals before) :
    arrivals seen = (seen.map Mention.first).eraseDups := by
  induction seen using List.reverseRecOn with
  | nil => rfl
  | append_singleton before mention ih =>
    have hbefore : arrivals before = (before.map Mention.first).eraseDups :=
      ih fun earlier other hearlier =>
        h earlier other (hearlier.trans (List.prefix_append before [mention]))
    have hnamed : mention.first ∈ before.map Mention.first ↔ mention.first ∈ arrivals before := by
      rw [hbefore, List.mem_eraseDups]
    rw [arrivals_append, List.map_append, List.map_singleton, eraseDups_concat, ← hbefore,
      List.foldl_cons, List.foldl_nil, arrive]
    simp only [hnamed]
    split
    case isTrue hopens =>
      have hfresh : mention.key ∉ arrivals before := h before mention (List.prefix_refl _) hopens
      have hfirst : mention.first = mention.key := by rw [Mention.first, hopens.1]; rfl
      have hkept : (arrivals before).filter (· ≠ mention.key) = arrivals before := by
        refine List.filter_eq_self.mpr fun key hmem => ?_
        have hne : key ≠ mention.key := fun heq => hfresh (heq ▸ hmem)
        simpa using hne
      rw [hkept, hfirst, if_neg hfresh]
    case isFalse => rfl

theorem elementsOf_append (key : String) (seen new : List Mention) :
    elementsOf key (seen ++ new) = new.foldl (gather key) (elementsOf key seen) :=
  List.foldl_append

theorem within_append (key : String) (seen new : List Mention) :
    within key (seen ++ new) = within key seen ++ within key new :=
  List.filterMap_append

theorem gather_of_first_ne {key : String} {mention : Mention} (h : mention.first ≠ key)
    (groups : List (List Mention)) : gather key groups mention = groups := by
  rw [gather]
  split
  case h_1 hinner => exact absurd (first_eq_of_within? hinner) h
  case h_2 =>
    refine if_neg fun heq => h ?_
    rw [heq]
    rfl

theorem foldl_gather_of_first_ne {key : String} {new : List Mention}
    (h : ∀ mention ∈ new, mention.first ≠ key) (groups : List (List Mention)) :
    new.foldl (gather key) groups = groups := by
  induction new with
  | nil => rfl
  | cons mention new ih =>
    obtain ⟨hfirst, hrest⟩ := List.forall_mem_cons.mp h
    rw [List.foldl_cons, gather_of_first_ne hfirst, ih hrest]

theorem within_of_first_ne {key : String} {new : List Mention}
    (h : ∀ mention ∈ new, mention.first ≠ key) : within key new = [] := by
  refine List.filterMap_eq_nil_iff.mpr fun mention hmem => ?_
  cases hinner : mention.within? key with
  | none => rfl
  | some inner => exact absurd (first_eq_of_within? hinner) (h mention hmem)

theorem first_ne_of_not_mem {seen : List Mention} {key : String} (h : key ∉ arrivals seen) :
    ∀ mention ∈ seen, mention.first ≠ key :=
  fun mention hmem heq => h (mem_arrivals.mpr ⟨mention, hmem, heq⟩)

/-- Mentions of other keys make no difference to a node. -/
theorem Node.Arranged.append {seen new : List Mention} {key : String} {node : Node}
    (h : node.Arranged seen key) (hnew : ∀ mention ∈ new, mention.first ≠ key) :
    node.Arranged (seen ++ new) key := by
  cases node with
  | leaf value => trivial
  | table origin below =>
    rw [Node.Arranged, within_append, within_of_first_ne hnew, List.append_nil]
    exact h
  | tables elements =>
    rw [Node.Arranged, elementsOf_append, foldl_gather_of_first_ne hnew]
    exact h

/-- All mentions come to the key, and none of them with its header. -/
def ComeTo (key : String) (mentions : List Mention) : Prop :=
  ∀ mention ∈ mentions, mention.first = key ∧ ¬ mention.Opens

section

variable {seen new : List Mention} {key : String} {entries : Entries}

/-- Mentions that all come to one key leave the others as they are. -/
theorem Arranged.update (h : Arranged seen entries) (hnew : ∀ mention ∈ new, mention.first = key)
    {after : Entries} (hkeys : after.map (·.1) = arrivals (seen ++ new))
    (hafter : ∀ entry ∈ after, (entry ∈ entries ∧ entry.1 ≠ key) ∨
      (entry.1 = key ∧ entry.2.Arranged (seen ++ new) key)) :
    Arranged (seen ++ new) after := by
  refine .of_nodes hkeys fun entry hmem => ?_
  rcases hafter entry hmem with ⟨hold, hne⟩ | ⟨rfl, hnode⟩
  · refine (h.node hold).append fun mention hmention heq => hne ?_
    rw [← hnew mention hmention, heq]
  · exact hnode

theorem foldl_arrive_of_mem {keys : List String} (hkey : key ∈ keys)
    (hnew : ComeTo key new) :
    new.foldl arrive keys = keys := by
  induction new with
  | nil => rfl
  | cons mention new ih =>
    obtain ⟨⟨hfirst, hopens⟩, hrest⟩ := List.forall_mem_cons.mp hnew
    rw [List.foldl_cons, arrive, if_neg hopens, hfirst, if_pos hkey, ih hrest]

theorem arrivals_of_mem (hkey : key ∈ arrivals seen)
    (hnew : ComeTo key new) :
    arrivals (seen ++ new) = arrivals seen := by
  rw [arrivals_append, foldl_arrive_of_mem hkey hnew]

theorem arrivals_of_not_mem (hkey : key ∉ arrivals seen) (hne : new ≠ [])
    (hnew : ComeTo key new) :
    arrivals (seen ++ new) = arrivals seen ++ [key] := by
  obtain ⟨mention, new, rfl⟩ := List.exists_cons_of_ne_nil hne
  obtain ⟨⟨hfirst, hopens⟩, hrest⟩ := List.forall_mem_cons.mp hnew
  rw [arrivals_append, List.foldl_cons, arrive, if_neg hopens, hfirst, if_neg hkey,
    foldl_arrive_of_mem (by simp) hrest]

/-- With its own header a table comes behind its siblings. -/
theorem arrivals_opens (hnew : ComeTo key new) :
    arrivals (seen ++ ⟨[], key, .table⟩ :: new) = (arrivals seen).filter (· ≠ key) ++ [key] := by
  rw [arrivals_append, List.foldl_cons, arrive, if_pos ⟨rfl, rfl⟩,
    foldl_arrive_of_mem (by simp) hnew]

theorem Arranged.not_mem_arrivals (h : Arranged seen entries)
    (hlookup : List.lookup key entries = none) : key ∉ arrivals seen := by
  rw [← h.keys]
  exact lookup_eq_none_iff_not_mem.mp hlookup

theorem Arranged.mem_arrivals (h : Arranged seen entries) {node : Node}
    (hlookup : List.lookup key entries = some node) : key ∈ arrivals seen := by
  rw [← h.keys]
  obtain ⟨before, after, rfl, -⟩ := List.lookup_eq_some_iff.mp hlookup
  simp

/-- A key that comes for the first time stands last. -/
theorem Arranged.append (h : Arranged seen entries) (hlookup : List.lookup key entries = none)
    (hne : new ≠ []) (hnew : ComeTo key new) {node : Node}
    (hnode : node.Arranged (seen ++ new) key) :
    Arranged (seen ++ new) (entries ++ [(key, node)]) := by
  refine h.update (fun mention hmem => (hnew mention hmem).1) ?_ fun entry hmem => ?_
  · rw [arrivals_of_not_mem (h.not_mem_arrivals hlookup) hne hnew, List.map_append, h.keys]
    rfl
  · rcases List.mem_append.mp hmem with hmem | hmem
    · exact .inl ⟨hmem, ne_of_lookup_eq_none hlookup hmem⟩
    · obtain rfl := List.mem_singleton.mp hmem
      exact .inr ⟨rfl, hnode⟩

/-- A key that comes again keeps its place. -/
theorem Arranged.replace (h : Arranged seen entries) {old : Node}
    (hlookup : List.lookup key entries = some old)
    (hnew : ComeTo key new) {node : Node}
    (hnode : node.Arranged (seen ++ new) key) :
    Arranged (seen ++ new) (entries.replace key node) := by
  refine h.update (fun mention hmem => (hnew mention hmem).1) ?_ fun entry hmem => ?_
  · rw [arrivals_of_mem (h.mem_arrivals hlookup) hnew, Entries.keys_replace, h.keys]
  · obtain ⟨found, hfound, rfl⟩ := List.mem_map.mp hmem
    by_cases hkey : found.1 = key
    · rw [if_pos hkey]
      exact .inr ⟨rfl, hnode⟩
    · rw [if_neg hkey]
      exact .inl ⟨hfound, hkey⟩

theorem erase_of_lookup (hlookup : List.lookup key entries = none) :
    entries.erase key = entries := by
  refine List.filter_eq_self.mpr fun entry hmem => ?_
  simpa using ne_of_lookup_eq_none hlookup hmem

/-- A table that comes with its own header stands last. -/
theorem Arranged.reopen (h : Arranged seen entries)
    (hnew : ComeTo key new) {node : Node}
    (hnode : node.Arranged (seen ++ ⟨[], key, .table⟩ :: new) key) :
    Arranged (seen ++ ⟨[], key, .table⟩ :: new) (entries.erase key ++ [(key, node)]) := by
  have hfirst : ∀ mention ∈ (⟨[], key, .table⟩ :: new : List Mention), mention.first = key :=
    List.forall_mem_cons.mpr ⟨rfl, fun mention hmem => (hnew mention hmem).1⟩
  refine h.update hfirst ?_ fun entry hmem => ?_
  · rw [arrivals_opens hnew, ← h.keys, List.map_append, List.filter_map]
    rfl
  · rcases List.mem_append.mp hmem with hmem | hmem
    · obtain ⟨hold, hne⟩ := List.mem_filter.mp hmem
      exact .inl ⟨hold, by simpa using hne⟩
    · obtain rfl := List.mem_singleton.mp hmem
      exact .inr ⟨rfl, hnode⟩

end

/-! ## Lines -/

/-- Mentions below a key come to that key. -/
theorem comeTo_under (key : String) (path : List String) (new : List Mention) :
    ComeTo key (new.map (Mention.under (key :: path))) := by
  intro mention hmem
  obtain ⟨inner, -, rfl⟩ := List.mem_map.mp hmem
  exact ⟨rfl, fun h => absurd h.1 (List.cons_ne_nil _ _)⟩

theorem within_under (key : String) (path : List String) (new : List Mention) :
    within key (new.map (Mention.under (key :: path))) = new.map (Mention.under path) := by
  rw [within, List.filterMap_map]
  have hinner : Mention.within? key ∘ Mention.under (key :: path) =
      some ∘ Mention.under path := funext fun mention => within?_under key path mention
  rw [hinner, List.filterMap_eq_map]

theorem foldl_gather_under (key : String) (path : List String) (new last : List Mention)
    (groups : List (List Mention)) :
    (new.map (Mention.under (key :: path))).foldl (gather key) (groups ++ [last]) =
      groups ++ [last ++ new.map (Mention.under path)] := by
  induction new generalizing last with
  | nil => rw [List.map_nil, List.foldl_nil, List.map_nil, List.append_nil]
  | cons mention new ih =>
    have hgather : gather key (groups ++ [last]) (mention.under (key :: path)) =
        groups ++ [last ++ [mention.under path]] := by
      rw [gather, within?_under]
      simp
    rw [List.map_cons, List.foldl_cons, hgather, ih, List.append_assoc, List.map_cons,
      List.singleton_append]

theorem under_nil (new : List Mention) : new.map (Mention.under []) = new :=
  List.map_id' new

theorem exists_concat_of_forall₂ {α β : Type} {R : α → β → Prop} {items : List α}
    {others : List β} {other : β} (h : List.Forall₂ R items (others ++ [other])) :
    ∃ before last, items = before ++ [last] ∧ List.Forall₂ R before others ∧ R last other := by
  have hreverse := List.forall₂_reverse_iff.mpr h
  rw [List.reverse_append, List.reverse_singleton, List.singleton_append,
    List.forall₂_cons_right_iff] at hreverse
  obtain ⟨last, before, hlast, hbefore, hitems⟩ := hreverse
  refine ⟨before.reverse, last, ?_, ?_, hlast⟩
  · rw [← List.reverse_cons, ← hitems, List.reverse_reverse]
  · rw [← List.forall₂_reverse_iff, List.reverse_reverse]
    exact hbefore

variable {seen new : List Mention} {entries after : Entries} {path : List String} {key : String}

theorem Arranged.nil : Arranged [] [] :=
  .of_nodes rfl (by simp)

/-- A change at the end of a path that follows some mentions makes the whole follow them as seen
from further up. -/
theorem Arranged.descend {made : Origin} {change : Origin → Entries → Option Entries}
    (hne : new ≠ []) (hchange : ∀ origin seen (below after : Entries), Arranged seen below →
      change origin below = some after → Arranged (seen ++ new) after)
    {origin : Origin} (h : Arranged seen entries)
    (hdescend : Entries.descend made change path origin entries = some after) :
    Arranged (seen ++ new.map (Mention.under path)) after := by
  induction path generalizing seen origin entries after with
  | nil =>
    rw [under_nil]
    exact hchange origin seen entries after h hdescend
  | cons key path ih =>
    rw [Entries.descend] at hdescend
    split at hdescend
    case h_1 hlookup =>
      -- Nothing has come to a key that is not there, so that its table starts without mentions.
      obtain ⟨below, hbelow, rfl⟩ := Option.map_eq_some_iff.mp hdescend
      have hinner : Arranged ([] ++ new.map (Mention.under path)) below := ih .nil hbelow
      refine h.append hlookup (mt List.map_eq_nil_iff.mp hne) (comeTo_under key path new) ?_
      rw [Node.Arranged, within_append, within_under,
        within_of_first_ne (first_ne_of_not_mem (h.not_mem_arrivals hlookup))]
      exact hinner
    case h_2 => cases hdescend
    case h_3 origin' below hlookup =>
      split at hdescend
      · cases hdescend
      · obtain ⟨changed, hchanged, rfl⟩ := Option.map_eq_some_iff.mp hdescend
        refine h.replace hlookup (comeTo_under key path new) ?_
        rw [Node.Arranged, within_append, within_under]
        exact ih (h.of_lookup hlookup) hchanged
    case h_4 elements hlookup =>
      split at hdescend
      · cases hdescend
      · rename_i last hlast
        obtain ⟨changed, hchanged, rfl⟩ := Option.map_eq_some_iff.mp hdescend
        have helements : List.Forall₂ Arranged (elementsOf key seen) elements :=
          h.of_lookup hlookup
        -- The way leads into the last table, and so do the mentions into the last group.
        rw [← List.dropLast_append_getLast? last hlast] at helements
        obtain ⟨groups, group, hgroups, hbefore, hgroup⟩ := exists_concat_of_forall₂ helements
        refine h.replace hlookup (comeTo_under key path new) ?_
        rw [Node.Arranged, elementsOf_append, hgroups, foldl_gather_under]
        exact List.rel_append hbefore (.cons (ih hgroup hchanged) .nil)

theorem Arranged.insert {value : Value} (h : Arranged seen entries)
    (hinsert : entries.insert path key value = some after) :
    Arranged (seen ++ [⟨path, key, .value⟩]) after := by
  have hnew : ComeTo key [⟨[], key, .value⟩] := by
    simp [ComeTo, Mention.first, Mention.Opens]
  have hafter : Arranged (seen ++ [(⟨[], key, .value⟩ : Mention)].map (Mention.under path))
      after := by
    refine h.descend (by simp) (fun origin seen below after hbelow hchange => ?_) hinsert
    split at hchange
    · cases hchange
    · split at hchange
      · cases hchange
      · rename_i hfresh
        cases hchange
        exact hbelow.append (Option.not_isSome_iff_eq_none.mp hfresh) (by simp) hnew trivial
  simpa [Mention.under] using hafter

variable {pairs : List (List String × String × Value)}

theorem Arranged.insertAll (h : Arranged seen entries)
    (hinsert : Entries.insertAll pairs entries = some after) :
    Arranged (seen ++ pairs.map Mention.ofPair) after := by
  induction pairs generalizing seen entries with
  | nil =>
    cases hinsert
    rw [List.map_nil, List.append_nil]
    exact h
  | cons pair pairs ih =>
    obtain ⟨next, hnext, hrest⟩ := Option.bind_eq_some_iff.mp hinsert
    have hafter := ih (h.insert hnext) hrest
    rwa [List.append_assoc] at hafter

def sectionMentions (purpose : Purpose) (path : List String) (key : String)
    (pairs : List (List String × String × Value)) : List Mention :=
  ⟨path, key, purpose⟩ :: (pairs.map Mention.ofPair).map (Mention.under (path ++ [key]))

theorem sectionMentions_under (purpose : Purpose) (path : List String) (key : String)
    (pairs : List (List String × String × Value)) :
    (sectionMentions purpose [] key pairs).map (Mention.under path) =
      sectionMentions purpose path key pairs := by
  simp [sectionMentions, Mention.under, Mention.ofPair]

theorem within_section (purpose : Purpose) (key : String)
    (pairs : List (List String × String × Value)) :
    within key (sectionMentions purpose [] key pairs) = pairs.map Mention.ofPair := by
  have hpairs := within_under key [] (pairs.map Mention.ofPair)
  rw [under_nil] at hpairs
  exact hpairs

/-- A section begins one more table of an array. -/
theorem foldl_gather_section (key : String) (pairs : List (List String × String × Value))
    (groups : List (List Mention)) :
    (sectionMentions .element [] key pairs).foldl (gather key) groups =
      groups ++ [pairs.map Mention.ofPair] := by
  have hpairs := foldl_gather_under key [] (pairs.map Mention.ofPair) [] groups
  rw [under_nil, List.nil_append] at hpairs
  have hheader : gather key groups ⟨[], key, .element⟩ = groups ++ [[]] := by
    simp [gather, Mention.within?]
  rw [sectionMentions, List.foldl_cons, hheader]
  exact hpairs

theorem Arranged.addTable (h : Arranged seen entries)
    (hadd : entries.addTable path key pairs = some after) :
    Arranged (seen ++ sectionMentions .table path key pairs) after := by
  have hpairs := comeTo_under key [] (pairs.map Mention.ofPair)
  rw [← sectionMentions_under]
  refine h.descend (List.cons_ne_nil _ _) (fun origin seen siblings after hsiblings hchange => ?_)
    hadd
  split at hchange
  case h_1 hlookup =>
    obtain ⟨body, hbody, rfl⟩ := Option.map_eq_some_iff.mp hchange
    have hnode : (Node.table .opened body).Arranged
        (seen ++ sectionMentions .table [] key pairs) key := by
      rw [Node.Arranged, within_append, within_section,
        within_of_first_ne (first_ne_of_not_mem (hsiblings.not_mem_arrivals hlookup))]
      exact Arranged.nil.insertAll hbody
    rw [← erase_of_lookup hlookup]
    exact hsiblings.reopen hpairs hnode
  case h_2 below hlookup =>
    obtain ⟨body, hbody, rfl⟩ := Option.map_eq_some_iff.mp hchange
    have hbelow : Arranged (within key seen) below := hsiblings.of_lookup hlookup
    have hnode : (Node.table .opened body).Arranged
        (seen ++ sectionMentions .table [] key pairs) key := by
      rw [Node.Arranged, within_append, within_section]
      exact hbelow.insertAll hbody
    exact hsiblings.reopen hpairs hnode
  case h_3 => cases hchange

theorem Arranged.addElement (h : Arranged seen entries)
    (hadd : entries.addElement path key pairs = some after) :
    Arranged (seen ++ sectionMentions .element path key pairs) after := by
  have hnew : ComeTo key (sectionMentions .element [] key pairs) :=
    List.forall_mem_cons.mpr ⟨⟨rfl, by simp [Mention.Opens]⟩, comeTo_under key [] _⟩
  rw [← sectionMentions_under]
  refine h.descend (List.cons_ne_nil _ _) (fun origin seen siblings after hsiblings hchange => ?_)
    hadd
  split at hchange
  case h_1 hlookup =>
    obtain ⟨body, hbody, rfl⟩ := Option.map_eq_some_iff.mp hchange
    have hnode : (Node.tables [body]).Arranged
        (seen ++ sectionMentions .element [] key pairs) key := by
      rw [Node.Arranged, elementsOf_append, foldl_gather_section, elementsOf,
        foldl_gather_of_first_ne (first_ne_of_not_mem (hsiblings.not_mem_arrivals hlookup))]
      exact .cons (Arranged.nil.insertAll hbody) .nil
    exact hsiblings.append hlookup (List.cons_ne_nil _ _) hnew hnode
  case h_2 elements hlookup =>
    obtain ⟨body, hbody, rfl⟩ := Option.map_eq_some_iff.mp hchange
    have helements : List.Forall₂ Arranged (elementsOf key seen) elements :=
      hsiblings.of_lookup hlookup
    have hnode : (Node.tables (elements ++ [body])).Arranged
        (seen ++ sectionMentions .element [] key pairs) key := by
      rw [Node.Arranged, elementsOf_append, foldl_gather_section]
      exact List.rel_append helements (.cons (Arranged.nil.insertAll hbody) .nil)
    exact hsiblings.replace hlookup hnew hnode
  case h_3 => cases hchange

/-- The lines up to the first header speak of the table at hand, and no line behind it does. -/
theorem mentions_eq (header : List String) (lines : List Statement) :
    mentions header lines =
      ((leadingPairs lines).1.map Mention.ofPair).map (Mention.under header) ++
        mentions [] (leadingPairs lines).2 := by
  fun_induction leadingPairs lines with
  | case1 path key value rest pairs later hleading ih =>
    rw [hleading] at ih
    rw [mentions, ih]
    rfl
  | case2 rest hpair =>
    cases rest with
    | nil => rfl
    | cons line rest =>
      cases line with
      | pair path key value => exact absurd rfl (hpair path key value rest)
      | _ => rfl

/-- The mentions of a header with its pairs come before those of the sections behind it. -/
theorem mentions_section (purpose : Purpose) (path : List String) (key : String)
    (rest : List Statement) :
    ⟨path, key, purpose⟩ :: mentions (path ++ [key]) rest =
      sectionMentions purpose path key (leadingPairs rest).1 ++
        mentions [] (leadingPairs rest).2 := by
  rw [mentions_eq, sectionMentions, List.cons_append]

theorem Arranged.addSections {lines : List Statement} (h : Arranged seen entries)
    (hadd : addSections entries lines = some after) :
    Arranged (seen ++ mentions [] lines) after := by
  fun_induction Toml.addSections entries lines generalizing seen with
  | case1 =>
    cases hadd
    rw [mentions, List.append_nil]
    exact h
  | case2 entries path key rest ih =>
    obtain ⟨next, hnext, hrest⟩ := Option.bind_eq_some_iff.mp hadd
    rw [mentions, mentions_section, ← List.append_assoc]
    exact ih next (h.addTable hnext) hrest
  | case3 entries path key rest ih =>
    obtain ⟨next, hnext, hrest⟩ := Option.bind_eq_some_iff.mp hadd
    rw [mentions, mentions_section, ← List.append_assoc]
    exact ih next (h.addElement hnext) hrest
  | case4 => cases hadd

/-- The keys of a document stand in the order in which its lines come to them. -/
theorem arranged_of_build? {lines : List Statement} (h : build? lines = some entries) :
    Arranged (mentions [] lines) entries := by
  obtain ⟨first, hfirst, hsections⟩ := Option.bind_eq_some_iff.mp h
  have hall := (Arranged.nil.insertAll hfirst).addSections hsections
  rw [mentions_eq, under_nil]
  exact hall

/-- The keys of a table in braces stand in the order of its pairs. -/
theorem arranged_of_inlineRest {scan : Scan Value} {cs rest : List Char} {table : Table}
    (h : inlineRest scan cs = some (.table table, rest)) :
    ∃ pairs entries, (pairs = [] ∨ inlinePairs scan (dropSpaces cs) = some (pairs, rest)) ∧
      Arranged (pairs.map Mention.ofPair) entries ∧ table = Entries.values entries := by
  rw [inlineRest] at h
  split at h
  case h_1 =>
    cases h
    exact ⟨[], [], .inl rfl, .nil, rfl⟩
  case h_2 =>
    split at h
    · cases h
    · rename_i pairs tail hpairs
      obtain ⟨entries, hentries, heq⟩ := Option.map_eq_some_iff.mp h
      cases heq
      exact ⟨pairs, entries, .inr hpairs, Arranged.nil.insertAll hentries, rfl⟩

end Conductor.Toml
