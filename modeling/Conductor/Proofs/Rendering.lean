import Conductor.Proofs.Decoding
import Conductor.Proofs.Lines
import Conductor.Proofs.Sections

/-!
# Settings as a document

`Settings.render` writes every setting. It is read back as what it was written from, if the settings
can be used and a document can hold their number of jobs, and no other settings are ever read
(`parse_render_iff`).
-/

namespace Conductor

open Toml

def Toolchain.lines (toolchain : Toolchain) : List String :=
  ["[[toolchains]]", entry "cc" (quoted toolchain.cc), entry "cxx" (quoted toolchain.cxx)]

def Settings.lines (settings : Settings) : List String :=
  ["[build]", entry "dir" (quoted settings.dir), entry "generator" (quoted settings.generator),
    entry "jobs" (toString settings.jobs), entry "log_file" (quoted settings.logFile)] ++
  settings.toolchains.flatMap Toolchain.lines ++
  ["[lint]", entry "format_dirs" (listed settings.formatDirs)]

/-- The document that gives every setting. -/
def Settings.render (settings : Settings) : String :=
  ofLines settings.lines

example : ({ toolchains := [⟨"gcc", "g++"⟩], formatDirs := ["a\\b"] } : Settings).lines =
    ["[build]", "dir = \"build\"", "generator = \"Ninja\"", "jobs = 4", "log_file = \"build.log\"",
      "[[toolchains]]", "cc = \"gcc\"", "cxx = \"g++\"",
      "[lint]", "format_dirs = [\"a\\\\b\"]"] := by
  decide +kernel

def Toolchain.table (toolchain : Toolchain) : Table :=
  [("cc", .string toolchain.cc), ("cxx", .string toolchain.cxx)]

def Settings.buildTable (settings : Settings) : Table :=
  [("dir", .string settings.dir), ("generator", .string settings.generator),
    ("jobs", .integer settings.jobs), ("log_file", .string settings.logFile)]

def Settings.lintTable (settings : Settings) : Table :=
  [("format_dirs", .array (settings.formatDirs.map .string))]

def Settings.table (settings : Settings) : Table :=
  [("build", .table settings.buildTable),
    ("toolchains", .array (settings.toolchains.map fun toolchain => .table toolchain.table)),
    ("lint", .table settings.lintTable)]

def Settings.statements (settings : Settings) : List Statement :=
  .table [] "build" :: (pairs settings.buildTable ++
    (elements "toolchains" (settings.toolchains.map Toolchain.table) ++
      .table [] "lint" :: pairs settings.lintTable))

theorem reads_quoted (key : String) (hkey : IsBare key) (text : String) :
    Reads (entry key (quoted text)) (.pair [] key (.string text)) :=
  reads_entry key _ hkey (visible_quoted text) fun _ => value_quoted maxDepth text (by simp)

theorem reads_listed (key : String) (hkey : IsBare key) (texts : List String) :
    Reads (entry key (listed texts)) (.pair [] key (.array (texts.map .string))) :=
  reads_entry key _ hkey (visible_listed texts) fun _ => value_listed 78 texts _

theorem reads_number (key : String) (hkey : IsBare key) {n : Nat} (h : n ≤ 9223372036854775807) :
    Reads (entry key (toString n)) (.pair [] key (.integer n)) := by
  have hdigits : (toString n).toList = Nat.toDigits 10 n := by
    rw [Nat.toString_eq_ofList_toDigits, String.toList_ofList]
  refine reads_entry key _ hkey ?_ fun rest => ?_
  · obtain ⟨c, cs, hcs⟩ := List.exists_cons_of_ne_nil (Nat.toDigits_ne_nil (n := n) (b := 10))
    refine ⟨c, cs, by rw [hdigits, hcs], fun hmem => ?_⟩
    have hc : c.isDigit = true := isDigit_toDigits n c (by simp [hcs])
    simp only [List.mem_cons, List.not_mem_nil, or_false] at hmem
    rcases hmem with rfl | rfl | rfl | rfl | rfl | rfl <;> cases hc
  · rw [hdigits]
    exact value_toDigits maxDepth h rest

theorem reads_toolchain (toolchain : Toolchain) :
    List.Forall₂ Reads toolchain.lines (.element [] "toolchains" :: pairs toolchain.table) :=
  .cons (reads_element "toolchains" (by decide)) <|
    .cons (reads_quoted "cc" (by decide) toolchain.cc) <|
    .cons (reads_quoted "cxx" (by decide) toolchain.cxx) .nil

theorem reads_toolchains (toolchains : List Toolchain) :
    List.Forall₂ Reads (toolchains.flatMap Toolchain.lines)
      (elements "toolchains" (toolchains.map Toolchain.table)) := by
  induction toolchains with
  | nil => exact .nil
  | cons toolchain toolchains ih => exact List.rel_append (reads_toolchain toolchain) ih

theorem reads_lines {settings : Settings} (h : settings.jobs ≤ 9223372036854775807) :
    List.Forall₂ Reads settings.lines settings.statements := by
  have hbuild : List.Forall₂ Reads _ (.table [] "build" :: pairs settings.buildTable) :=
    .cons (reads_table "build" (by decide)) <|
    .cons (reads_quoted "dir" (by decide) settings.dir) <|
    .cons (reads_quoted "generator" (by decide) settings.generator) <|
    .cons (reads_number "jobs" (by decide) h) <|
    .cons (reads_quoted "log_file" (by decide) settings.logFile) .nil
  have hlint : List.Forall₂ Reads _ (.table [] "lint" :: pairs settings.lintTable) :=
    .cons (reads_table "lint" (by decide)) <|
    .cons (reads_listed "format_dirs" (by decide) settings.formatDirs) .nil
  have hall := List.rel_append hbuild (List.rel_append (reads_toolchains settings.toolchains) hlint)
  rw [Settings.lines, List.append_assoc]
  exact hall

/-- The sections of the settings, as they are built one after the other. -/
theorem build?_statements {settings : Settings} (h : settings.toolchains ≠ []) :
    build? settings.statements = some
      [("build", .table .opened (leaves settings.buildTable)),
        ("toolchains", .tables ((settings.toolchains.map Toolchain.table).map leaves)),
        ("lint", .table .opened (leaves settings.lintTable))] := by
  let lint : List Statement := .table [] "lint" :: (pairs settings.lintTable ++ [])
  let toolchains : List Statement := elements "toolchains" (settings.toolchains.map Toolchain.table)
  have hstatements : settings.statements =
      .table [] "build" :: (pairs settings.buildTable ++ (toolchains ++ lint)) := by
    rw [Settings.statements, ← List.append_nil (pairs settings.lintTable)]
  have hlater : leadingPairs (toolchains ++ lint) = ([], toolchains ++ lint) := by
    obtain ⟨toolchain, rest, hcons⟩ := List.exists_cons_of_ne_nil h
    simp only [toolchains, hcons]
    rfl
  have htables : ∀ entries ∈ settings.toolchains.map Toolchain.table,
      (entries.map (·.1)).Nodup := by
    simp [Toolchain.table]
  have hbuild : build? settings.statements = addSections [] settings.statements := rfl
  rw [hbuild, hstatements, addSections_table rfl (by simp [Settings.buildTable]) hlater,
    addSections_elements rfl htables rfl (by simpa using h),
    addSections_table rfl (by simp [Settings.lintTable]) rfl, addSections]
  rfl

theorem parse?_render {settings : Settings} (hjobs : settings.jobs ≤ 9223372036854775807)
    (htoolchains : settings.toolchains ≠ []) :
    parse? settings.render = some settings.table := by
  rw [Settings.render, parse?_ofLines (reads_lines hjobs), build?_statements htoolchains,
    Option.map_some]
  have harray : (settings.toolchains.map Toolchain.table).map Value.table =
      settings.toolchains.map fun toolchain => .table toolchain.table := List.map_map
  simp only [Entries.values, Node.value, values_leaves, arrayValues_leaves, harray]
  rfl

theorem isToolchain_table (toolchain : Toolchain) :
    IsToolchain (Value.table toolchain.table).tree toolchain := by
  refine ⟨entryTree? toolchain.table, .table ?_, rfl, rfl⟩
  exact (Decode.known_iff _ _).mpr (by simp [Toolchain.table])

/-- A list stands for what each of its elements stands for. -/
theorem isList_map {α : Type} {stands : Tree → α → Prop} {write : α → Value}
    (h : ∀ a, stands (write a).tree a) (results : List α) :
    IsList stands (Value.array (results.map write)).tree results := by
  refine ⟨results.map fun a => (write a).tree, ?_, ?_⟩
  · rw [Value.tree, trees_eq_map, List.map_map]
    rfl
  · rw [List.forall₂_map_left_iff, List.forall₂_same]
    exact fun a _ => h a

theorem describes_table (settings : Settings) :
    Describes (entryTree? settings.table) settings where
  known := (Decode.known_iff _ _).mpr (by simp [Settings.table])
  build := by
    refine ⟨_, .table ?_, rfl, rfl, rfl, rfl⟩
    exact (Decode.known_iff _ _).mpr (by simp [Settings.buildTable])
  toolchains := isList_map isToolchain_table settings.toolchains
  lint := by
    refine ⟨_, .table ?_, isList_map (fun _ => rfl) settings.formatDirs⟩
    exact (Decode.known_iff _ _).mpr (by simp [Settings.lintTable])

theorem inIntegerRange_of_tree {value : Value} (h : value.WellFormed) {n : Int}
    (htree : value.tree = .integer n) : inIntegerRange n = true := by
  cases h with
  | integer hrange =>
    cases htree
    exact hrange
  | _ => cases htree

/-- No document gives more jobs than it can write. -/
theorem jobs_le_of_describes {table : Table} {settings : Settings}
    (htable : (Value.table table).WellFormed) (h : Describes (entryTree? table) settings) :
    settings.jobs ≤ 9223372036854775807 := by
  obtain ⟨field?, hfields, -, -, hjobs, -⟩ := h.build
  rw [entryTree?_eq] at hfields
  rw [Decode.eq_treeOf_of_fields hfields, Decode.treeOf] at hjobs
  cases hfound : Decode.fieldOf ["dir", "generator", "jobs", "log_file"]
    (List.lookup "build" table) "jobs" with
  | none =>
    rw [hfound] at hjobs
    have hdefault : settings.jobs = 4 := hjobs
    omega
  | some value =>
    rw [hfound] at hjobs
    have hvalue : value.WellFormed :=
      Decode.wellFormed_fieldOf (fun _ => Decode.wellFormed_of_lookup htable) hfound
    have hrange := inIntegerRange_of_tree hvalue hjobs
    simp [inIntegerRange] at hrange
    omega

/-- Exactly usable settings whose number of jobs can be written are read from a document, and then
from the one that gives every setting. -/
theorem parse_render_iff (settings : Settings) :
    (Settings.parse settings.render = .ok settings ↔
      settings.Usable ∧ settings.jobs ≤ 9223372036854775807) ∧
    ((∃ text, Settings.parse text = .ok settings) ↔
      settings.Usable ∧ settings.jobs ≤ 9223372036854775807) := by
  have hread (text : String) (h : Settings.parse text = .ok settings) :
      settings.Usable ∧ settings.jobs ≤ 9223372036854775807 := by
    obtain ⟨table, hparse⟩ := exists_parse?_of_parse h
    obtain ⟨hdescribes, husable⟩ := (parse_eq_ok_iff_of_parse? hparse settings).mp h
    exact ⟨husable, jobs_le_of_describes (wellFormed_of_parse? hparse) hdescribes⟩
  have hrender (husable : settings.Usable) (hjobs : settings.jobs ≤ 9223372036854775807) :
      Settings.parse settings.render = .ok settings := by
    have hparse := parse?_render hjobs husable.toolchains
    exact (parse_eq_ok_iff_of_parse? hparse settings).mpr ⟨describes_table settings, husable⟩
  refine ⟨⟨hread _, fun h => hrender h.1 h.2⟩, ?_, fun h => ⟨_, hrender h.1 h.2⟩⟩
  rintro ⟨text, h⟩
  exact hread text h

end Conductor
