import Conductor.Toml.Document

/-!
# What documents hold

In a well-formed value each key of a table stands once, at every depth, and each integer is one that
a document may hold. The main result is `wellFormed_of_parse?`: texts denote nothing else.
-/

namespace Conductor.Toml

/-- Keys are unique and integers are in range, at every depth. -/
inductive Value.WellFormed : Value → Prop
  | string (text : String) : WellFormed (.string text)
  | integer {n : Int} (h : inIntegerRange n = true) : WellFormed (.integer n)
  | float (x : Number.Binary64) : WellFormed (.float x)
  | boolean (b : Bool) : WellFormed (.boolean b)
  | dateTime (written : String) : WellFormed (.dateTime written)
  | array {elements : List Value} (h : ∀ value ∈ elements, value.WellFormed) :
      WellFormed (.array elements)
  | table {entries : Table} (hkeys : (entries.map (·.1)).Nodup)
      (h : ∀ entry ∈ entries, entry.2.WellFormed) : WellFormed (.table entries)

/-- The same of a table under construction. -/
inductive Node.WellFormed : Node → Prop
  | leaf {value : Value} (h : value.WellFormed) : WellFormed (.leaf value)
  | table {origin : Origin} {entries : Entries} (hkeys : (entries.map (·.1)).Nodup)
      (h : ∀ entry ∈ entries, entry.2.WellFormed) : WellFormed (.table origin entries)
  | tables {elements : List Entries} (hkeys : ∀ entries ∈ elements, (entries.map (·.1)).Nodup)
      (h : ∀ entries ∈ elements, ∀ entry ∈ entries, entry.2.WellFormed) :
      WellFormed (.tables elements)

theorem wellFormed_table_iff {entries : Table} :
    (Value.table entries).WellFormed ↔
      (entries.map (·.1)).Nodup ∧ ∀ entry ∈ entries, entry.2.WellFormed := by
  constructor
  · rintro ⟨⟩
    exact ⟨‹_›, ‹_›⟩
  · rintro ⟨hkeys, h⟩
    exact .table hkeys h

theorem wellFormed_array_iff {elements : List Value} :
    (Value.array elements).WellFormed ↔ ∀ value ∈ elements, value.WellFormed := by
  constructor
  · rintro ⟨⟩
    assumption
  · exact .array

theorem lookup_eq_none_iff_not_mem {α : Type} {entries : List (String × α)} {key : String} :
    List.lookup key entries = none ↔ key ∉ entries.map (·.1) := by
  rw [List.lookup_eq_none_iff]
  constructor
  · intro h hmem
    obtain ⟨entry, hentry, rfl⟩ := List.mem_map.mp hmem
    simpa using h entry hentry
  · intro h entry hmem
    have hne : key ≠ entry.1 := fun heq => h (List.mem_map.mpr ⟨entry, hmem, heq.symm⟩)
    simpa using hne

theorem ne_of_lookup_eq_none {α : Type} {entries : List (String × α)} {key : String}
    (h : List.lookup key entries = none) {entry : String × α} (hmem : entry ∈ entries) :
    entry.1 ≠ key := by
  intro heq
  exact lookup_eq_none_iff_not_mem.mp h (List.mem_map.mpr ⟨entry, hmem, heq⟩)

namespace Entries

structure WellFormed (entries : Entries) : Prop where
  keys : (entries.map (·.1)).Nodup
  nodes : ∀ entry ∈ entries, entry.2.WellFormed

theorem WellFormed.nil : WellFormed [] := ⟨List.nodup_nil, by simp⟩

theorem WellFormed.of_lookup {entries : Entries} {key : String} {node : Node}
    (h : entries.WellFormed) (hlookup : List.lookup key entries = some node) :
    node.WellFormed := by
  obtain ⟨before, after, rfl, -⟩ := List.lookup_eq_some_iff.mp hlookup
  exact h.nodes (key, node) (by simp)

theorem WellFormed.append {entries : Entries} {key : String} {node : Node}
    (h : entries.WellFormed) (hlookup : List.lookup key entries = none) (hnode : node.WellFormed) :
    WellFormed (entries ++ [(key, node)]) := by
  have hfresh := lookup_eq_none_iff_not_mem.mp hlookup
  refine ⟨?_, fun entry hmem => ?_⟩
  · rw [List.map_append, List.nodup_append]
    refine ⟨h.keys, by simp, fun other hother last hlast => ?_⟩
    obtain rfl : last = key := by simpa using hlast
    exact fun heq => hfresh (heq ▸ hother)
  · rcases List.mem_append.mp hmem with hmem | hmem
    · exact h.nodes entry hmem
    · rw [List.mem_singleton.mp hmem]
      exact hnode

theorem keys_replace (entries : Entries) (key : String) (node : Node) :
    (entries.replace key node).map (·.1) = entries.map (·.1) := by
  rw [replace, List.map_map]
  refine List.map_congr_left fun entry _ => ?_
  by_cases h : entry.1 = key <;> simp [h]

theorem WellFormed.replace {entries : Entries} {key : String} {node : Node}
    (h : entries.WellFormed) (hnode : node.WellFormed) : (entries.replace key node).WellFormed := by
  refine ⟨by rw [keys_replace]; exact h.keys, fun entry hmem => ?_⟩
  obtain ⟨old, hold, rfl⟩ := List.mem_map.mp hmem
  by_cases hkey : old.1 = key
  · rw [if_pos hkey]
    exact hnode
  · rw [if_neg hkey]
    exact h.nodes old hold

theorem WellFormed.erase {entries : Entries} (h : entries.WellFormed) (key : String) :
    (entries.erase key).WellFormed :=
  ⟨h.keys.sublist (List.filter_sublist.map _),
    fun entry hmem => h.nodes entry ((List.mem_filter.mp hmem).1)⟩

theorem lookup_erase_self (entries : Entries) (key : String) :
    List.lookup key (entries.erase key) = none := by
  rw [List.lookup_eq_none_iff]
  intro entry hmem
  have hkey : entry.1 ≠ key := by simpa using (List.mem_filter.mp hmem).2
  simpa using hkey.symm

theorem WellFormed.node {entries : Entries} (h : entries.WellFormed) (origin : Origin) :
    (Node.table origin entries).WellFormed :=
  .table h.keys h.nodes

theorem wellFormed_of_table {origin : Origin} {entries : Entries}
    (h : (Node.table origin entries).WellFormed) : entries.WellFormed := by
  cases h with
  | table hkeys hnodes => exact ⟨hkeys, hnodes⟩

theorem wellFormed_tables_iff {elements : List Entries} :
    (Node.tables elements).WellFormed ↔ ∀ entries ∈ elements, WellFormed entries := by
  constructor
  · rintro ⟨⟩ entries hmem
    rename_i hkeys hnodes
    exact ⟨hkeys entries hmem, hnodes entries hmem⟩
  · intro h
    exact .tables (fun entries hmem => (h entries hmem).keys)
      fun entries hmem => (h entries hmem).nodes

/-- A change at the end of a path that keeps tables well-formed keeps the whole well-formed. -/
theorem WellFormed.descend {made : Origin} {change : Origin → Entries → Option Entries}
    (hchange : ∀ origin (below after : Entries), below.WellFormed →
      change origin below = some after → after.WellFormed)
    {path : List String} {origin : Origin} {entries after : Entries} (h : entries.WellFormed)
    (hdescend : descend made change path origin entries = some after) : after.WellFormed := by
  induction path generalizing origin entries after with
  | nil => exact hchange origin entries after h hdescend
  | cons key path ih =>
    rw [Entries.descend] at hdescend
    split at hdescend
    case h_1 hlookup =>
      obtain ⟨below, hbelow, rfl⟩ := Option.map_eq_some_iff.mp hdescend
      exact h.append hlookup ((ih .nil hbelow).node made)
    case h_2 => cases hdescend
    case h_3 origin' below hlookup =>
      split at hdescend
      · cases hdescend
      · obtain ⟨changed, hchanged, rfl⟩ := Option.map_eq_some_iff.mp hdescend
        have hbelow := wellFormed_of_table (h.of_lookup hlookup)
        exact h.replace ((ih hbelow hchanged).node origin')
    case h_4 elements hlookup =>
      have helements := wellFormed_tables_iff.mp (h.of_lookup hlookup)
      split at hdescend
      · cases hdescend
      · rename_i last hlast
        obtain ⟨changed, hchanged, rfl⟩ := Option.map_eq_some_iff.mp hdescend
        have hnew := ih (helements last (List.mem_of_getLast? hlast)) hchanged
        refine h.replace (wellFormed_tables_iff.mpr fun entries hmem => ?_)
        rcases List.mem_append.mp hmem with hmem | hmem
        · exact helements entries (List.dropLast_subset _ hmem)
        · rw [List.mem_singleton.mp hmem]
          exact hnew

theorem WellFormed.insert {entries after : Entries} {path : List String} {key : String}
    {value : Value} (h : entries.WellFormed) (hvalue : value.WellFormed)
    (hinsert : entries.insert path key value = some after) : after.WellFormed := by
  refine h.descend (fun origin below after hbelow hchange => ?_) hinsert
  split at hchange
  · cases hchange
  · split at hchange
    · cases hchange
    · rename_i hnew
      cases hchange
      exact hbelow.append (Option.not_isSome_iff_eq_none.mp hnew) (.leaf hvalue)

theorem WellFormed.insertAll {pairs : List (List String × String × Value)}
    {entries after : Entries} (h : entries.WellFormed)
    (hpairs : ∀ pair ∈ pairs, pair.2.2.WellFormed)
    (hinsert : Entries.insertAll pairs entries = some after) : after.WellFormed := by
  induction pairs generalizing entries with
  | nil =>
    cases hinsert
    exact h
  | cons pair pairs ih =>
    obtain ⟨next, hnext, hrest⟩ := Option.bind_eq_some_iff.mp hinsert
    exact ih (h.insert (hpairs pair (by simp)) hnext)
      (fun pair hmem => hpairs pair (List.mem_cons_of_mem _ hmem)) hrest

variable {entries after : Entries} {path : List String} {key : String}
  {pairs : List (List String × String × Value)}

theorem WellFormed.addTable (h : entries.WellFormed)
    (hpairs : ∀ pair ∈ pairs, pair.2.2.WellFormed)
    (hadd : entries.addTable path key pairs = some after) : after.WellFormed := by
  refine h.descend (fun origin siblings after hsiblings hchange => ?_) hadd
  split at hchange
  case h_1 hlookup =>
    obtain ⟨body, hbody, rfl⟩ := Option.map_eq_some_iff.mp hchange
    exact hsiblings.append hlookup ((WellFormed.nil.insertAll hpairs hbody).node .opened)
  case h_2 below hlookup =>
    obtain ⟨body, hbody, rfl⟩ := Option.map_eq_some_iff.mp hchange
    have hbelow := wellFormed_of_table (hsiblings.of_lookup hlookup)
    exact (hsiblings.erase key).append (lookup_erase_self siblings key)
      ((hbelow.insertAll hpairs hbody).node .opened)
  case h_3 => cases hchange

theorem WellFormed.addElement (h : entries.WellFormed)
    (hpairs : ∀ pair ∈ pairs, pair.2.2.WellFormed)
    (hadd : entries.addElement path key pairs = some after) : after.WellFormed := by
  refine h.descend (fun origin siblings after hsiblings hchange => ?_) hadd
  split at hchange
  case h_1 hlookup =>
    obtain ⟨body, hbody, rfl⟩ := Option.map_eq_some_iff.mp hchange
    have hnew := WellFormed.nil.insertAll hpairs hbody
    exact hsiblings.append hlookup (wellFormed_tables_iff.mpr (by simpa using hnew))
  case h_2 elements hlookup =>
    obtain ⟨body, hbody, rfl⟩ := Option.map_eq_some_iff.mp hchange
    have hnew := WellFormed.nil.insertAll hpairs hbody
    have hold := wellFormed_tables_iff.mp (hsiblings.of_lookup hlookup)
    refine hsiblings.replace (wellFormed_tables_iff.mpr fun entries hmem => ?_)
    rcases List.mem_append.mp hmem with hmem | hmem
    · exact hold entries hmem
    · rw [List.mem_singleton.mp hmem]
      exact hnew
  case h_3 => cases hchange

theorem keys_values (entries : Entries) : (values entries).map (·.1) = entries.map (·.1) := by
  induction entries with
  | nil => rfl
  | cons entry rest ih => rw [values, List.map_cons, ih, List.map_cons]

theorem mem_values {entries : Entries} {entry : String × Value} (h : entry ∈ values entries) :
    ∃ node, (entry.1, node) ∈ entries ∧ entry.2 = node.value := by
  induction entries with
  | nil => cases h
  | cons first rest ih =>
    rw [values] at h
    rcases List.mem_cons.mp h with rfl | h
    · exact ⟨first.2, by simp, rfl⟩
    · obtain ⟨node, hmem, hvalue⟩ := ih h
      exact ⟨node, List.mem_cons_of_mem _ hmem, hvalue⟩

theorem mem_arrayValues {elements : List Entries} {value : Value}
    (h : value ∈ arrayValues elements) :
    ∃ entries ∈ elements, value = .table (values entries) := by
  induction elements with
  | nil => cases h
  | cons first rest ih =>
    rw [arrayValues] at h
    rcases List.mem_cons.mp h with rfl | h
    · exact ⟨first, by simp, rfl⟩
    · obtain ⟨entries, hmem, hvalue⟩ := ih h
      exact ⟨entries, List.mem_cons_of_mem _ hmem, hvalue⟩

end Entries

theorem Node.WellFormed.value {node : Node} (h : node.WellFormed) : node.value.WellFormed := by
  have htable (entries : Entries) (hkeys : (entries.map (·.1)).Nodup)
      (hvalues : ∀ entry ∈ entries, entry.2.value.WellFormed) :
      (Value.table (Entries.values entries)).WellFormed := by
    refine .table (by rwa [Entries.keys_values]) fun entry hmem => ?_
    obtain ⟨node, hnode, heq⟩ := Entries.mem_values hmem
    rw [heq]
    exact hvalues _ hnode
  induction h with
  | leaf h =>
    rw [Node.value]
    exact h
  | @table origin entries hkeys _ ih =>
    rw [Node.value]
    exact htable entries hkeys ih
  | @tables elements hkeys _ ih =>
    rw [Node.value]
    refine .array fun value hmem => ?_
    obtain ⟨entries, hentries, rfl⟩ := Entries.mem_arrayValues hmem
    exact htable entries (hkeys entries hentries) (ih entries hentries)

theorem Entries.WellFormed.values {entries : Entries} (h : entries.WellFormed) :
    (Value.table (Entries.values entries)).WellFormed := by
  have hnode := (h.node .opened).value
  rwa [Node.value] at hnode

/-- A scan that reads only well-formed values. -/
def Scan.Yields (scan : Scan Value) : Prop :=
  ∀ cs found rest, scan cs = some (found, rest) → found.WellFormed

theorem wellFormed_of_integer? {cs : List Char} {n : Int} (h : integer? cs = some n) :
    (Value.integer n).WellFormed := by
  obtain ⟨m, -, hm⟩ := Option.bind_eq_some_iff.mp h
  obtain ⟨hrange, heq⟩ := Option.ite_none_right_eq_some.mp hm
  cases heq
  exact .integer hrange

theorem wellFormed_of_scalarValue? {run : List Char} {found : Value}
    (h : scalarValue? run = some found) : found.WellFormed := by
  rw [scalarValue?] at h
  split at h
  · cases h
    exact .boolean true
  split at h
  · cases h
    exact .boolean false
  split at h
  · cases h
    exact .dateTime _
  split at h
  case h_1 n hn =>
    cases h
    exact wellFormed_of_integer? hn
  case h_2 =>
    obtain ⟨x, -, rfl⟩ := Option.map_eq_some_iff.mp h
    exact .float x

theorem yields_scalar : Scan.Yields scalar := by
  intro cs found rest h
  have hrun {run : List Char} {rest' : List Char}
      (hmap : ((scalarValue? run).map fun value => (value, rest')) = some (found, rest)) :
      found.WellFormed := by
    obtain ⟨value, hvalue, heq⟩ := Option.map_eq_some_iff.mp hmap
    cases heq
    exact wellFormed_of_scalarValue? hvalue
  rw [scalar] at h
  dsimp only at h
  split at h
  · split at h
    · exact hrun h
    · exact hrun h
  · exact hrun h

section

variable {scan : Scan Value} (hscan : scan.Yields)

include hscan

theorem wellFormed_of_keyValue {cs rest : List Char} {pair : List String × String × Value}
    (h : keyValue scan cs = some (pair, rest)) : pair.2.2.WellFormed := by
  rw [keyValue] at h
  split at h
  · obtain ⟨found, hfound, heq⟩ := Option.map_eq_some_iff.mp h
    cases heq
    exact hscan _ _ _ hfound
  · cases h

theorem wellFormed_of_arrayRest {cs rest : List Char} {elements : List Value}
    (h : arrayRest scan cs = some (elements, rest)) : ∀ value ∈ elements, value.WellFormed := by
  fun_induction arrayRest scan cs generalizing elements rest with
  | case2 cs more hskip =>
    cases h
    simp
  | case4 cs start hskip hstart element more hfound after hafter hlength ih =>
    obtain ⟨⟨later, tail⟩, hlater, heq⟩ := Option.map_eq_some_iff.mp h
    cases heq
    intro value hmem
    rcases List.mem_cons.mp hmem with rfl | hmem
    · exact hscan _ _ _ hfound
    · exact ih hlater value hmem
  | case6 cs start hskip hstart element more hfound after hafter =>
    cases h
    intro value hmem
    rw [List.mem_singleton.mp hmem]
    exact hscan _ _ _ hfound
  | _ => cases h

theorem wellFormed_of_inlinePairs {cs rest : List Char}
    {pairs : List (List String × String × Value)}
    (h : inlinePairs scan cs = some (pairs, rest)) : ∀ pair ∈ pairs, pair.2.2.WellFormed := by
  fun_induction inlinePairs scan cs generalizing pairs rest with
  | case1 cs pair more hfound hlength ih =>
    obtain ⟨⟨later, tail⟩, hlater, heq⟩ := Option.map_eq_some_iff.mp h
    cases heq
    intro other hmem
    rcases List.mem_cons.mp hmem with rfl | hmem
    · exact wellFormed_of_keyValue hscan hfound
    · exact ih hlater other hmem
  | case3 cs pair more hfound =>
    cases h
    intro other hmem
    rw [List.mem_singleton.mp hmem]
    exact wellFormed_of_keyValue hscan hfound
  | _ => cases h

theorem wellFormed_of_inlineRest {cs rest : List Char} {found : Value}
    (h : inlineRest scan cs = some (found, rest)) : found.WellFormed := by
  rw [inlineRest] at h
  split at h
  · cases h
    exact Entries.WellFormed.nil.values
  · split at h
    · cases h
    · rename_i pairs tail hpairs
      obtain ⟨entries, hentries, heq⟩ := Option.map_eq_some_iff.mp h
      cases heq
      exact (Entries.WellFormed.nil.insertAll (wellFormed_of_inlinePairs hscan hpairs)
        hentries).values

end

theorem wellFormed_of_anyString {cs rest : List Char} {found : Value}
    (h : ((anyString cs).map fun (text, rest) => (Value.string (String.ofList text), rest)) =
      some (found, rest)) : found.WellFormed := by
  obtain ⟨⟨text, tail⟩, -, heq⟩ := Option.map_eq_some_iff.mp h
  cases heq
  exact .string _

/-- Values are well-formed however deep their brackets nest. -/
theorem yields_value (depth : Nat) : Scan.Yields (value depth) := by
  induction depth with
  | zero =>
    intro cs found rest h
    rw [value.eq_def] at h
    split at h
    case h_1 => exact wellFormed_of_anyString h
    case h_2 => exact wellFormed_of_anyString h
    case h_3 => cases h
    case h_4 => cases h
    case h_5 => exact yields_scalar _ _ _ h
  | succ depth ih =>
    intro cs found rest h
    rw [value.eq_def] at h
    split at h
    case h_1 => exact wellFormed_of_anyString h
    case h_2 => exact wellFormed_of_anyString h
    case h_3 =>
      obtain ⟨⟨elements, tail⟩, helements, heq⟩ := Option.map_eq_some_iff.mp h
      cases heq
      exact .array (wellFormed_of_arrayRest ih helements)
    case h_4 => exact wellFormed_of_inlineRest ih h
    case h_5 => exact yields_scalar _ _ _ h

def Statement.WellFormed : Statement → Prop
  | .pair _ _ value => value.WellFormed
  | _ => True

theorem wellFormed_of_statement {cs rest : List Char} {found : Statement}
    (h : statement cs = some (found, rest)) : found.WellFormed := by
  rw [statement.eq_def] at h
  split at h
  · split at h
    · cases h
      trivial
    · cases h
  · split at h
    · cases h
      trivial
    · cases h
  · obtain ⟨⟨⟨path, key, value⟩, tail⟩, hpair, heq⟩ := Option.map_eq_some_iff.mp h
    cases heq
    exact wellFormed_of_keyValue (yields_value maxDepth) hpair

theorem wellFormed_of_statements {cs : List Char} {found : List Statement}
    (h : statements cs = some found) : ∀ statement ∈ found, statement.WellFormed := by
  fun_induction statements cs generalizing found with
  | case2 =>
    cases h
    simp
  | case5 cs start hstart hskip first rest hfirst more hmore hlength ih =>
    obtain ⟨later, hlater, rfl⟩ := Option.map_eq_some_iff.mp h
    intro statement hmem
    rcases List.mem_cons.mp hmem with rfl | hmem
    · exact wellFormed_of_statement hfirst
    · exact ih hlater statement hmem
  | _ => cases h

theorem wellFormed_leadingPairs {found : List Statement}
    (h : ∀ statement ∈ found, statement.WellFormed) :
    (∀ pair ∈ (leadingPairs found).1, pair.2.2.WellFormed) ∧
      ∀ statement ∈ (leadingPairs found).2, statement.WellFormed := by
  fun_induction leadingPairs found with
  | case1 path key value rest pairs later hleading ih =>
    obtain ⟨hpairs, hlater⟩ := ih fun statement hmem => h statement (List.mem_cons_of_mem _ hmem)
    rw [hleading] at hpairs hlater
    refine ⟨fun pair hmem => ?_, hlater⟩
    rcases List.mem_cons.mp hmem with rfl | hmem
    · exact h (.pair path key value) (by simp)
    · exact hpairs pair hmem
  | case2 => exact ⟨by simp, h⟩

theorem Entries.WellFormed.addSections {entries after : Entries} {found : List Statement}
    (hentries : entries.WellFormed) (h : ∀ statement ∈ found, statement.WellFormed)
    (hadd : addSections entries found = some after) : after.WellFormed := by
  fun_induction Toml.addSections entries found with
  | case1 =>
    cases hadd
    exact hentries
  | case2 entries path key rest ih =>
    obtain ⟨next, hnext, hrest⟩ := Option.bind_eq_some_iff.mp hadd
    obtain ⟨hpairs, hlater⟩ := wellFormed_leadingPairs (List.forall_mem_cons.mp h).2
    exact ih next (hentries.addTable hpairs hnext) hlater hrest
  | case3 entries path key rest ih =>
    obtain ⟨next, hnext, hrest⟩ := Option.bind_eq_some_iff.mp hadd
    obtain ⟨hpairs, hlater⟩ := wellFormed_leadingPairs (List.forall_mem_cons.mp h).2
    exact ih next (hentries.addElement hpairs hnext) hlater hrest
  | case4 => cases hadd

/-- Whatever a text denotes is well-formed. -/
theorem wellFormed_of_parse? {text : String} {table : Table} (h : parse? text = some table) :
    (Value.table table).WellFormed := by
  rw [parse?_eq_parseChars?] at h
  obtain ⟨entries, hbuild, rfl⟩ := Option.map_eq_some_iff.mp h
  obtain ⟨found, hfound, hbuild⟩ := Option.bind_eq_some_iff.mp hbuild
  obtain ⟨first, hfirst, hsections⟩ := Option.bind_eq_some_iff.mp hbuild
  obtain ⟨hpairs, hlater⟩ := wellFormed_leadingPairs (wellFormed_of_statements hfound)
  exact ((Entries.WellFormed.nil.insertAll hpairs hfirst).addSections hlater hsections).values

end Conductor.Toml
