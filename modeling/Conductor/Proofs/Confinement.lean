import Conductor.Proofs.Cleaning
import Conductor.Proofs.Paths
import Conductor.Proofs.Rendering

/-!
# Where the build directory is

The settings may give any build directory that is not blank (`parse_onlyDir`). It is inside of the
project, wherever that is, exactly if it is confined (`build_dir_of_parse`).
-/

namespace Conductor

open Files.Path Toml

/-- The document that gives nothing but the build directory. -/
def onlyDir (dir : String) : String :=
  ofLines ["[build]", entry "dir" (quoted dir)]

/-- Any build directory that is not blank is accepted. -/
theorem parse_onlyDir {dir : String} (h : ∃ c ∈ dir.toList, Text.isBlank c = false) :
    Settings.parse (onlyDir dir) = .ok { dir } := by
  let build : Table := [("dir", .string dir)]
  have hreads : List.Forall₂ Reads ["[build]", entry "dir" (quoted dir)]
      (.table [] "build" :: (pairs build ++ [])) :=
    .cons (reads_table "build" (by decide)) <| .cons (reads_quoted "dir" (by decide) dir) .nil
  have hbuild : build? (.table [] "build" :: (pairs build ++ [])) =
      some [("build", .table .opened (leaves build))] := by
    have hsections : build? (.table [] "build" :: (pairs build ++ [])) =
        addSections [] (.table [] "build" :: (pairs build ++ [])) := rfl
    rw [hsections, addSections_table rfl (by simp [build]) rfl, addSections]
    rfl
  have hparse : parse? (onlyDir dir) = some [("build", .table build)] := by
    rw [onlyDir, parse?_ofLines hreads, hbuild]
    rfl
  have hdescribes : Describes (entryTree? [("build", .table build)]) { dir } := {
    known := (Decode.known_iff _ _).mpr (by simp)
    build := by
      refine ⟨_, .table ?_, rfl, rfl, rfl, rfl⟩
      exact (Decode.known_iff _ _).mpr (by simp [build])
    toolchains := rfl
    lint := ⟨_, .absent, rfl⟩ }
  refine (parse_eq_ok_iff_of_parse? hparse _).mpr ⟨hdescribes, ?_, ?_, h⟩
  · simp
  · simp

/-- What is removed is confined exactly if the directory in the settings is. All that is asked of it
is that it is not blank. -/
theorem build_dir_of_parse {text : String} {settings : Settings}
    (h : Settings.parse text = .ok settings) :
    (∀ forced kind place (world : World), ∃ events,
      ((perform settings (.clean forced kind)).run place world).2.events = world.events ++ events ∧
      (linesRun events).Sublist
        [⟨"rm", ["-rf", settings.dir]⟩, ⟨"rm", ["-f", settings.logFile]⟩]) ∧
    (∃ c ∈ settings.dir.toList, Text.isBlank c = false) ∧
    ((∀ project, IsInside project (buildPath project settings)) ↔ IsConfined settings.dir) ∧
    ∀ dir : String, (∃ c ∈ dir.toList, Text.isBlank c = false) →
      Settings.parse (onlyDir dir) = .ok { dir } := by
  refine ⟨fun forced kind place world => ?_, ?_, isInside_join_iff settings.dir,
    fun _ => parse_onlyDir⟩
  · obtain ⟨outcome, after, events, hrun, hevents, hcleaned⟩ :=
      run_clean place world settings (Command.asksFirst forced kind)
    have hafter : ((perform settings (.clean forced kind)).run place world).2 = after :=
      congrArg Prod.snd hrun
    rw [hafter]
    exact ⟨events, hevents, hcleaned.linesRun⟩
  · obtain ⟨table, hparse⟩ := exists_parse?_of_parse h
    exact ((parse_eq_ok_iff_of_parse? hparse settings).mp h).2.dir

/-- A directory in a directory of the project. -/
theorem build_dir_of_parse_nested :
    Settings.parse "[build]\ndir = \"out/debug\"\n" = .ok { dir := "out/debug" } ∧
      IsInside "/work/project" (buildPath "/work/project" { dir := "out/debug" }) := by
  have htext : onlyDir "out/debug" = "[build]\ndir = \"out/debug\"\n" := by decide +kernel
  have hparse : Settings.parse "[build]\ndir = \"out/debug\"\n" = .ok { dir := "out/debug" } := by
    rw [← htext]
    exact parse_onlyDir ⟨'o', by decide, by decide⟩
  have hnames : names "out/debug" = ["out", "debug"] := by decide
  have hconfined : IsConfined "out/debug" :=
    ⟨by decide, ["out", "debug"], by decide, by rw [hnames]; rfl⟩
  exact ⟨hparse, (build_dir_of_parse hparse).2.2.1.mpr hconfined "/work/project"⟩

/-- A directory beside the project is accepted, and is where the clean removes. -/
theorem parse_accepts_outer_dir :
    Settings.parse "[build]\ndir = \"../other\"\n" = .ok { dir := "../other" } ∧
      ¬ IsConfined "../other" ∧
      lexical (buildPath "/work/project" { dir := "../other" }) = ["work", "other"] ∧
      ¬ IsInside "/work/project" (buildPath "/work/project" { dir := "../other" }) := by
  have htext : onlyDir "../other" = "[build]\ndir = \"../other\"\n" := by decide +kernel
  have hproject : lexical "/work/project" = ["work", "project"] := by decide
  have hplace : lexical (buildPath "/work/project" { dir := "../other" }) = ["work", "other"] := by
    decide
  have hnames : names "../other" = ["..", "other"] := by decide
  refine ⟨?_, ?_, hplace, ?_⟩
  · rw [← htext]
    exact parse_onlyDir ⟨'.', by decide, by decide⟩
  · rintro ⟨-, below, -, hway⟩
    rw [hnames] at hway
    cases hway
  · rintro ⟨below, -, heq⟩
    rw [hplace, hproject] at heq
    simp at heq

end Conductor
