import Conductor.Proofs.Arrival
import Conductor.Proofs.Faults
import Conductor.Proofs.Rendering
import Conductor.Settings.Load

/-!
# Which fault is reported

A text that is no document is refused as such, whatever else is wrong in it. Of a document the
first fault in its order is reported, and only without such a fault it matters whether the settings
can be used (`reported_fault`).
-/

namespace Conductor

open Toml

inductive Settings.Fails (settings : Settings) : Fault → Prop
  | toolchains (h : settings.toolchains = []) : Fails settings .noToolchain
  | jobs (htoolchains : settings.toolchains ≠ []) (h : settings.jobs = 0) : Fails settings .noJobs
  | dir (htoolchains : settings.toolchains ≠ []) (hjobs : settings.jobs ≠ 0)
      (h : ∀ c ∈ settings.dir.toList, Text.isBlank c = true) : Fails settings .blankDir

theorem Settings.Fails.validate_eq {settings : Settings} {fault : Fault}
    (h : settings.Fails fault) : settings.validate = .error fault := by
  rw [Settings.validate]
  cases h with
  | toolchains h => rw [if_pos (List.isEmpty_iff.mpr h)]
  | jobs htoolchains h =>
    rw [if_neg (mt List.isEmpty_iff.mp htoolchains), if_pos h]
  | dir htoolchains hjobs h =>
    rw [if_neg (mt List.isEmpty_iff.mp htoolchains), if_neg hjobs, if_pos ((isEmpty_trim _).mpr h)]

theorem Settings.Fails.ofDocument_eq {settings : Settings} {fault : Fault}
    (h : settings.Fails fault) : fault.ofDocument = false := by
  cases h <;> rfl

theorem Fault.failure_of_document {fault : Fault} (h : fault.ofDocument = true) :
    fault.failure = ⟨["Failed to parse Eugene.toml"], .invalidConfig fault.message⟩ := by
  rw [Fault.failure, h]
  rfl

theorem Fault.failure_of_settings {fault : Fault} (h : fault.ofDocument = false) :
    fault.failure = ⟨[], .invalidConfig fault.message⟩ := by
  rw [Fault.failure, h]
  rfl

theorem Fault.cause_failure (fault : Fault) :
    fault.failure.cause = .invalidConfig fault.message := by
  cases h : fault.ofDocument with
  | true => rw [fault.failure_of_document h]
  | false => rw [fault.failure_of_settings h]

/-- The table has the keys of the lines of the text, in the order in which they come to them. -/
def InOrder (text : String) (table : Table) : Prop :=
  ∃ lines entries, statements (dropMark text.toList) = some lines ∧
    build? lines = some entries ∧ Arranged (mentions [] lines) entries ∧
    table = Entries.values entries

theorem inOrder_of_parse? {text : String} {table : Table} (h : parse? text = some table) :
    InOrder text table := by
  rw [parse?_eq_parseChars?] at h
  obtain ⟨entries, hbuild, rfl⟩ := Option.map_eq_some_iff.mp h
  obtain ⟨lines, hlines, hbuild⟩ := Option.bind_eq_some_iff.mp hbuild
  exact ⟨lines, entries, hlines, hbuild, arranged_of_build? hbuild, rfl⟩

section

variable {text : String} {table : Table} (hparse : parse? text = some table)

include hparse

theorem ofText_of_fault {fault : Fault} (h : Settings.ofTable table = .error fault) :
    Settings.ofText text = .error fault.failure := by
  have hparsed : Settings.parse text = .error fault := by
    rw [Settings.parse, hparse]
    simp only [h, bind, Except.bind]
  rw [Settings.ofText, hparsed]

theorem ofText_of_fails {settings : Settings} {fault : Fault}
    (h : Settings.ofTable table = .ok settings) (hfails : settings.Fails fault) :
    Settings.ofText text = .error fault.failure := by
  have hparsed : Settings.parse text = .error fault := by
    rw [Settings.parse, hparse]
    simp only [h, bind, Except.bind, hfails.validate_eq]
  rw [Settings.ofText, hparsed]

theorem ofText_of_usable {settings : Settings} (h : Settings.ofTable table = .ok settings)
    (husable : settings.Usable) : Settings.ofText text = .ok settings := by
  have hdescribes := (ofTable_eq_ok_iff (wellFormed_of_parse? hparse) settings).mp h
  rw [Settings.ofText, (parse_eq_ok_iff_of_parse? hparse settings).mpr ⟨hdescribes, husable⟩]

end

theorem ofText_of_no_document {text : String} (h : parse? text = none) :
    Settings.ofText text =
      .error ⟨["Failed to parse Eugene.toml"], .invalidConfig "<toml syntax error>"⟩ := by
  rw [Settings.ofText, Settings.parse, h]
  rfl

/-- A text fails only by the fault that reading it finds. -/
theorem exists_fault_of_ofText {text : String} {failure : Failure}
    (h : Settings.ofText text = .error failure) : ∃ fault : Fault, failure = fault.failure := by
  rw [Settings.ofText] at h
  split at h
  · cases h
  · cases h
    exact ⟨_, rfl⟩

/-- Every failure is one of the settings. A text that is no document fails by its syntax. A document
fails by its first fault, where keys stand in the order in which the lines, or the pairs between
braces, come to them, and elements in their own; without faults it stands for settings, and fails
by the first check that these do not pass, outside of the context that the other failures have. -/
theorem reported_fault (text : String) :
    (∀ failure, Settings.ofText text = .error failure →
      ∃ problem, failure.cause = .invalidConfig problem) ∧
    (parse? text = none → Settings.ofText text =
      .error ⟨["Failed to parse Eugene.toml"], .invalidConfig "<toml syntax error>"⟩) ∧
    (∀ depth cs rest inner, value (depth + 1) ('{' :: cs) = some (.table inner, rest) →
      ∃ pairs entries,
        (pairs = [] ∨ inlinePairs (value depth) (dropSpaces cs) = some (pairs, rest)) ∧
        Arranged (pairs.map Mention.ofPair) entries ∧ inner = Entries.values entries) ∧
    ∀ table, parse? text = some table →
      InOrder text table ∧
      ((∃ position fault, DocumentFaults table position fault) →
        ∃ position fault, IsFirst (DocumentFaults table) position fault ∧
          Settings.ofText text =
            .error ⟨["Failed to parse Eugene.toml"], .invalidConfig fault.message⟩) ∧
      ((∀ position fault, ¬ DocumentFaults table position fault) →
        ∃ settings, Describes (entryTree? table) settings ∧
          (∀ fault, settings.Fails fault →
            Settings.ofText text = .error ⟨[], .invalidConfig fault.message⟩) ∧
          (settings.Usable → Settings.ofText text = .ok settings)) := by
  refine ⟨fun failure hfailure => ?_, ofText_of_no_document,
    fun _ _ _ _ => arranged_of_inlineRest, fun table hparse => ?_⟩
  · obtain ⟨fault, rfl⟩ := exists_fault_of_ofText hfailure
    exact ⟨fault.message, fault.cause_failure⟩
  · have htable := wellFormed_of_parse? hparse
    have hreports := reports_ofTable htable
    refine ⟨inOrder_of_parse? hparse, fun ⟨_, _, hfault⟩ => ?_, fun hnone => ?_⟩
    · obtain ⟨position, first, hfirst, hresult⟩ := hreports.exists_first hfault
      have hdocument := ofDocument_documentFaults table position first hfirst.found
      refine ⟨position, first, hfirst, ?_⟩
      rw [ofText_of_fault hparse hresult, first.failure_of_document hdocument]
    · obtain ⟨settings, hresult⟩ := hreports.exists_ok hnone
      refine ⟨settings, (ofTable_eq_ok_iff htable settings).mp hresult, fun fault hfails => ?_,
        ofText_of_usable hparse hresult⟩
      rw [ofText_of_fails hparse hresult hfails, fault.failure_of_settings hfails.ofDocument_eq]

/-- Lines with faults at several depths. -/
def Sample.nested : String :=
  "toolchains = [\x7b cc = \"gcc\", ld = 1 \x7d]\n[build]\njobs = -1\nthreads = 2\n"

def Sample.nestedTable : Table :=
  [("toolchains", .array [.table [("cc", .string "gcc"), ("ld", .integer 1)]]),
    ("build", .table [("jobs", .integer (-1)), ("threads", .integer 2)])]

/-- The toolchain between braces. -/
theorem Sample.value_nested (rest : List Char) :
    value 78 ("\x7b cc = \"gcc\", ld = 1 \x7d".toList ++ rest) =
      some (.table [("cc", .string "gcc"), ("ld", .integer 1)], rest) := by
  have hgcc : value 77 ((quoted "gcc").toList ++ ',' :: (" ld = 1 \x7d".toList ++ rest)) =
      some (.string "gcc", ',' :: (" ld = 1 \x7d".toList ++ rest)) :=
    value_quoted 77 "gcc" (by simp)
  have hone : value 77 ("1".toList ++ ' ' :: '}' :: rest) =
      some (.integer 1, ' ' :: '}' :: rest) := rfl
  have hcc : keyValue (value 77) ("cc = \"gcc\", ld = 1 \x7d".toList ++ rest) =
      some (([], "cc", .string "gcc"), ',' :: (" ld = 1 \x7d".toList ++ rest)) :=
    keyValue_entry "cc" (quoted "gcc") (by decide) (visible_quoted "gcc") rfl hgcc
  have hld : keyValue (value 77) (" ld = 1 \x7d".toList ++ rest) =
      some (([], "ld", .integer 1), '}' :: rest) :=
    keyValue_entry "ld" "1" (by decide) ⟨'1', [], rfl, by decide⟩ rfl hone
  have hpairs : inlinePairs (value 77) ("cc = \"gcc\", ld = 1 \x7d".toList ++ rest) =
      some ([([], "cc", .string "gcc"), ([], "ld", .integer 1)], rest) := by
    rw [inlinePairs_more hcc (by simp), inlinePairs_last hld]
    rfl
  have hstart : dropSpaces (" cc = \"gcc\", ld = 1 \x7d".toList ++ rest) =
      "cc = \"gcc\", ld = 1 \x7d".toList ++ rest := rfl
  exact value_inline hstart (by simp) hpairs rfl

theorem Sample.parse?_nested : parse? nested = some nestedTable := by
  have htoolchains (rest : List Char) :
      value maxDepth ("[\x7b cc = \"gcc\", ld = 1 \x7d]".toList ++ '\n' :: rest) =
        some (.array [.table [("cc", .string "gcc"), ("ld", .integer 1)]], '\n' :: rest) := by
    have helements : arrayRest (value 78)
        ("\x7b cc = \"gcc\", ld = 1 \x7d".toList ++ ']' :: '\n' :: rest) =
          some ([.table [("cc", .string "gcc"), ("ld", .integer 1)]], '\n' :: rest) :=
      arrayRest_last rfl (show some '{' ≠ some ']' by decide) (value_nested (']' :: '\n' :: rest))
    rw [value.eq_def]
    exact congrArg (Option.map _) helements
  have hlines : List.Forall₂ Reads
      ["toolchains = [\x7b cc = \"gcc\", ld = 1 \x7d]", "[build]", "jobs = -1", "threads = 2"]
      [.pair [] "toolchains" (.array [.table [("cc", .string "gcc"), ("ld", .integer 1)]]),
        .table [] "build", .pair [] "jobs" (.integer (-1)), .pair [] "threads" (.integer 2)] :=
    .cons (reads_entry "toolchains" _ (by decide) ⟨'[', _, rfl, by decide⟩ htoolchains) <|
    .cons (reads_table "build" (by decide)) <|
    .cons (reads_entry "jobs" "-1" (by decide) ⟨'-', ['1'], rfl, by decide⟩ fun _ => rfl) <|
    .cons (reads_number "threads" (by decide) (show 2 ≤ 9223372036854775807 by decide)) .nil
  have htext : nested = ofLines
      ["toolchains = [\x7b cc = \"gcc\", ld = 1 \x7d]", "[build]", "jobs = -1", "threads = 2"] := by
    decide +kernel
  rw [htext, parse?_ofLines hlines]
  simp only [build?, leadingPairs, addSections]
  rfl

/-- Of faults at several depths the first one is reported, and not the least deep one. -/
theorem reported_fault_nested :
    parse? Sample.nested = some Sample.nestedTable ∧
    DocumentFaults Sample.nestedTable [0, 0, 1] (.unknownField "ld" ["cc", "cxx"]) ∧
    DocumentFaults Sample.nestedTable [0, 0, 3] (.missingField "cxx") ∧
    DocumentFaults Sample.nestedTable [1, 0] (.negative (-1)) ∧
    (∃ position fault, IsFirst (DocumentFaults Sample.nestedTable) position fault ∧
      Settings.ofText Sample.nested =
        .error ⟨["Failed to parse Eugene.toml"], .invalidConfig fault.message⟩) ∧
    Settings.ofText Sample.nested = .error ⟨["Failed to parse Eugene.toml"],
      .invalidConfig "unknown field `ld`, expected `cc` or `cxx`"⟩ := by
  have hunknown : EntryFaults toolchainSchema ("ld", .integer 1) [] _ := .unknown rfl
  have hgiven : ToolchainFaults (.table [("cc", .string "gcc"), ("ld", .integer 1)]) [1] _ :=
    .inl (.entries (.item rfl hunknown))
  have hlacking : ToolchainFaults (.table [("cc", .string "gcc"), ("ld", .integer 1)]) [2 + 1] _ :=
    .inr (.missing rfl (by simp))
  have hnegative : EntryFaults buildSchema ("jobs", .integer (-1)) [] _ :=
    .value rfl (.negative (by decide))
  have hfirst : DocumentFaults Sample.nestedTable [0, 0, 1] (.unknownField "ld" ["cc", "cxx"]) :=
    .item rfl (.value rfl (.elements (.item rfl hgiven)))
  have hmissing : DocumentFaults Sample.nestedTable [0, 0, 3] (.missingField "cxx") :=
    .item rfl (.value rfl (.elements (.item rfl hlacking)))
  have hcount : DocumentFaults Sample.nestedTable [1, 0] (.negative (-1)) :=
    .item rfl (.value rfl (.entries (.item rfl hnegative)))
  obtain ⟨-, hreported, -⟩ := (reported_fault Sample.nested).2.2.2 _ Sample.parse?_nested
  exact ⟨Sample.parse?_nested, hfirst, hmissing, hcount, hreported ⟨_, _, hfirst⟩,
    ofText_of_fault Sample.parse?_nested rfl⟩

/-- Lines that meet a table first on the way to another one. -/
def Sample.behind : String :=
  "[lint.x]\n[build]\nthreads = 2\n[lint]\n"

def Sample.behindNamed : Table :=
  [("lint", .table [("x", .table [])]), ("build", .table [("threads", .integer 2)])]

theorem Sample.behind_eq :
    behind = ofLines ["[lint.x]", "[build]", "threads = 2", "[lint]"] := by
  decide +kernel

theorem Sample.reads_behind : List.Forall₂ Reads ["[lint.x]", "[build]", "threads = 2", "[lint]"]
    [.table ["lint"] "x", .table [] "build", .pair [] "threads" (.integer 2), .table [] "lint"] :=
  .cons (reads_subtable "lint" "x" (by decide) (by decide)) <|
  .cons (reads_table "build" (by decide)) <|
  .cons (reads_number "threads" (by decide) (show 2 ≤ 9223372036854775807 by decide)) <|
  .cons (reads_table "lint" (by decide)) .nil

theorem Sample.statements_behind : statements behind.toList =
    some [.table ["lint"] "x", .table [] "build", .pair [] "threads" (.integer 2),
      .table [] "lint"] := by
  rw [behind_eq]
  exact statements_ofLines reads_behind

theorem Sample.parse?_behind : parse? behind = some behindNamed.reverse := by
  rw [behind_eq, parse?_ofLines reads_behind]
  simp only [build?, leadingPairs, addSections]
  rfl

theorem Sample.wellFormed_behindNamed : (Value.table behindNamed).WellFormed := by
  have hempty : (Value.table []).WellFormed := .table (by simp) (by simp)
  have hx : (Value.table [("x", .table [])]).WellFormed := .table (by simp) (by simpa using hempty)
  have hthreads : (Value.table [("threads", .integer 2)]).WellFormed :=
    .table (by simp) (by simpa using .integer rfl)
  exact .table (by decide) (by simpa [behindNamed] using ⟨hx, hthreads⟩)

def Sample.dated : String :=
  "build = 1979-05-27\n"

theorem Sample.parse?_dated : parse? dated = some [("build", .dateTime "1979-05-27")] := by
  have hlines : List.Forall₂ Reads ["build = 1979-05-27"]
      [.pair [] "build" (.dateTime "1979-05-27")] :=
    .cons (reads_entry "build" "1979-05-27" (by decide) ⟨'1', _, rfl, by decide⟩ fun _ => rfl) .nil
  have htext : dated = ofLines ["build = 1979-05-27"] := by decide +kernel
  rw [htext, parse?_ofLines hlines]
  simp only [build?, leadingPairs, addSections]
  rfl

/-- A table that is first met on the way to another one counts from its own header, so that a fault
below it may be the first that the lines come to and still not be reported; and a date is not
reported as a value of the wrong type where it stands for a table. -/
theorem reported_fault_unlike_lines :
    (∃ lines, statements Sample.behind.toList = some lines ∧
      ((mentions [] lines).map Mention.first).eraseDups = Sample.behindNamed.map (·.1)) ∧
    (∃ position, IsFirst (DocumentFaults Sample.behindNamed) position
      (.unknownField "x" ["format_dirs"])) ∧
    parse? Sample.behind = some Sample.behindNamed.reverse ∧
    Settings.ofText Sample.behind = .error ⟨["Failed to parse Eugene.toml"], .invalidConfig
      "unknown field `threads`, expected one of `dir`, `generator`, `jobs`, `log_file`"⟩ ∧
    Settings.ofText Sample.behind ≠ .error ⟨["Failed to parse Eugene.toml"],
      .invalidConfig (Fault.unknownField "x" ["format_dirs"]).message⟩ ∧
    parse? Sample.dated = some [("build", .dateTime "1979-05-27")] ∧
    Settings.ofText Sample.dated ≠ .error ⟨["Failed to parse Eugene.toml"],
      .invalidConfig (Fault.wrongType (.dateTime "1979-05-27") "struct BuildConfig").message⟩ := by
  have hfirst : ∃ position, IsFirst (DocumentFaults Sample.behindNamed) position
      (.unknownField "x" ["format_dirs"]) := by
    have hreports : Reports (DocumentFaults Sample.behindNamed)
        (.error (.unknownField "x" ["format_dirs"]) : Except Fault Settings) :=
      reports_ofTable Sample.wellFormed_behindNamed
    cases hreports with
    | error hfirst => exact ⟨_, hfirst⟩
  have hreported : Settings.ofText Sample.behind = .error ⟨["Failed to parse Eugene.toml"],
      .invalidConfig
        "unknown field `threads`, expected one of `dir`, `generator`, `jobs`, `log_file`"⟩ :=
    ofText_of_fault Sample.parse?_behind rfl
  refine ⟨⟨_, Sample.statements_behind, by decide⟩, hfirst, Sample.parse?_behind, hreported, ?_,
    Sample.parse?_dated, ?_⟩
  · rw [hreported]
    decide
  · rw [ofText_of_fault Sample.parse?_dated rfl]
    decide

end Conductor
