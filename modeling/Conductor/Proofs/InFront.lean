import Conductor.Options
import Mathlib.Data.List.Nodup

/-!
# Options in front of the command

An option is read as such only in front of the first word that is none. It may be given in more
than one way, but not twice; what is set is the same in whatever order the options stand, and the
words from the first that is no option on are taken as they are (`options_end_at_first_token`).
-/

namespace Conductor

/-- The ways to give an option that is set. -/
inductive Flag
  | short
  | verbose
  | noColor
  deriving DecidableEq, Repr

namespace Flag

def word : Flag → String
  | short => "-v"
  | verbose => "--verbose"
  | noColor => "--no-color"

def switch : Flag → Switch
  | short => .verbose
  | verbose => .verbose
  | noColor => .noColor

theorem ofString_word (flag : Flag) : Word.ofString flag.word = .options [flag.switch] := by
  cases flag <;> decide

theorem verbose_mem_iff (flags : List Flag) :
    Switch.verbose ∈ flags.map switch ↔ short ∈ flags ∨ verbose ∈ flags := by
  rw [List.mem_map]
  constructor
  · rintro ⟨flag, hmem, hswitch⟩
    cases flag with
    | short => exact .inl hmem
    | verbose => exact .inr hmem
    | noColor => cases hswitch
  · rintro (hmem | hmem)
    · exact ⟨short, hmem, rfl⟩
    · exact ⟨verbose, hmem, rfl⟩

theorem noColor_mem_iff (flags : List Flag) :
    Switch.noColor ∈ flags.map switch ↔ noColor ∈ flags := by
  rw [List.mem_map]
  constructor
  · rintro ⟨flag, hmem, hswitch⟩
    cases flag with
    | noColor => exact hmem
    | _ => cases hswitch
  · exact fun hmem => ⟨noColor, hmem, rfl⟩

end Flag

theorem ofString_of_head?_ne {word : String} (h : word.toList.head? ≠ some '-') :
    Word.ofString word = .token := by
  rw [Word.ofString]
  split <;> rename_i heq
  · rw [heq] at h
    exact absurd rfl h
  · rw [heq] at h
    exact absurd rfl h
  · rfl

namespace Options

def adding (options : Options) (switches : List Switch) : Options :=
  ⟨options.verbose || decide (.verbose ∈ switches), options.noColor || decide (.noColor ∈ switches)⟩

def lacks (options : Options) (switches : List Switch) : Prop :=
  (.verbose ∈ switches → options.verbose = false) ∧
    (.noColor ∈ switches → options.noColor = false)

theorem adding_nil (options : Options) : options.adding [] = options := by
  simp [adding]

theorem adding_cons (options : Options) (switch : Switch) (switches : List Switch) :
    (options.adding [switch]).adding switches = options.adding (switch :: switches) := by
  simp [adding, Bool.or_assoc]

theorem lacks_default (switches : List Switch) : ({} : Options).lacks switches :=
  ⟨fun _ => rfl, fun _ => rfl⟩

/-- An option that is not set yet is set, and no other one. -/
theorem set_switch {options : Options} {flag : Flag} {switches : List Switch}
    (h : options.lacks (flag.switch :: switches)) :
    options.set flag.switch = .ok (options.adding [flag.switch]) := by
  obtain ⟨hverbose, hcolor⟩ := h
  cases flag with
  | short => simp [Flag.switch, set, adding, hverbose (by simp [Flag.switch])]
  | verbose => simp [Flag.switch, set, adding, hverbose (by simp [Flag.switch])]
  | noColor => simp [Flag.switch, set, adding, hcolor (by simp [Flag.switch])]

theorem lacks_adding {options : Options} {switch : Switch} {switches : List Switch}
    (h : options.lacks (switch :: switches)) (hnew : switch ∉ switches) :
    (options.adding [switch]).lacks switches := by
  obtain ⟨hverbose, hcolor⟩ := h
  refine ⟨fun hmem => ?_, fun hmem => ?_⟩
  · have hne : Switch.verbose ≠ switch := fun heq => hnew (heq ▸ hmem)
    simp [adding, hne, hverbose (List.mem_cons_of_mem _ hmem)]
  · have hne : Switch.noColor ≠ switch := fun heq => hnew (heq ▸ hmem)
    simp [adding, hne, hcolor (List.mem_cons_of_mem _ hmem)]

/-- A word that is an option is set before the words after it are read. -/
theorem parseFrom_cons_of_switch {options next : Options} {word : String} {switch : Switch}
    (hword : Word.ofString word = .options [switch]) (hset : options.set switch = .ok next)
    (rest : List String) : options.parseFrom (word :: rest) = next.parseFrom rest := by
  have hfold : [switch].foldlM set options = .ok next := by
    rw [List.foldlM_cons, hset]
    rfl
  rw [parseFrom, hword]
  dsimp only
  rw [hfold]
  rfl

/-- The options in front of other words are set, each of them once. The induction is on the options
that are given, for all that leave room for them. -/
theorem parseFrom_append_of_flags {flags : List Flag} (hnodup : (flags.map Flag.switch).Nodup)
    (options : Options) (hnew : options.lacks (flags.map Flag.switch)) (rest : List String) :
    options.parseFrom (flags.map Flag.word ++ rest) =
      (options.adding (flags.map Flag.switch)).parseFrom rest := by
  induction flags generalizing options with
  | nil => rw [List.map_nil, List.map_nil, List.nil_append, adding_nil]
  | cons flag flags ih =>
    rw [List.map_cons] at hnodup hnew
    obtain ⟨hflag, hnodup⟩ := List.nodup_cons.mp hnodup
    have hrest := ih hnodup (options.adding [flag.switch]) (lacks_adding hnew hflag)
    rw [List.map_cons, List.cons_append,
      parseFrom_cons_of_switch flag.ofString_word (set_switch hnew), hrest, adding_cons,
      List.map_cons]

/-- Words without an option in front are taken as they are. -/
theorem parseFrom_of_tail {tail : List String}
    (htail : ∀ word ∈ tail.head?, word.toList.head? ≠ some '-') (options : Options) :
    options.parseFrom tail = .ok (options, tail) := by
  cases tail with
  | nil => rfl
  | cons word rest =>
    have hword : Word.ofString word = .token := ofString_of_head?_ne (htail word rfl)
    rw [parseFrom, hword]

end Options

/-- Options that are given at most once each are set, in whatever order and in whichever way they
are given, and the first word that does not begin with a dash ends them: it and all words after it
are taken as they are, also those that look like options. Without such a word there are none. -/
theorem options_end_at_first_token {flags : List Flag} (hnodup : (flags.map Flag.switch).Nodup) :
    let options : Options :=
      ⟨decide (Flag.short ∈ flags ∨ Flag.verbose ∈ flags), decide (Flag.noColor ∈ flags)⟩
    Options.parse (flags.map Flag.word) = .ok (options, []) ∧
      ∀ (token : String) (rest : List String), token.toList.head? ≠ some '-' →
        Options.parse (flags.map Flag.word ++ token :: rest) = .ok (options, token :: rest) := by
  intro options
  have hoptions : ({} : Options).adding (flags.map Flag.switch) = options := by
    simp only [Options.adding, Flag.verbose_mem_iff, Flag.noColor_mem_iff, Bool.false_or, options]
  have hparse (tail : List String) (htail : ∀ word ∈ tail.head?, word.toList.head? ≠ some '-') :
      Options.parse (flags.map Flag.word ++ tail) = .ok (options, tail) := by
    rw [Options.parse, Options.parseFrom_append_of_flags hnodup {} (Options.lacks_default _),
      hoptions, Options.parseFrom_of_tail htail]
  refine ⟨?_, fun token rest htoken => hparse (token :: rest) fun word hmem => ?_⟩
  · have hnone := hparse [] (by simp)
    rwa [List.append_nil] at hnone
  · obtain rfl : token = word := by simpa using hmem
    exact htoken

/-- Both options are set in front of a word after which they are taken as they are. -/
theorem options_end_at_first_token_clean :
    ([Flag.noColor, Flag.short].map Flag.switch).Nodup ∧ "clean".toList.head? ≠ some '-' ∧
      Options.parse ["--no-color", "-v", "clean", "--verbose", "-v", "--help", "--", "-x", ""] =
        .ok (⟨true, true⟩, ["clean", "--verbose", "-v", "--help", "--", "-x", ""]) := by
  have hnodup : ([Flag.noColor, Flag.short].map Flag.switch).Nodup := by decide
  have htoken : "clean".toList.head? ≠ some '-' := by decide
  exact ⟨hnodup, htoken, (options_end_at_first_token hnodup).2 "clean"
    ["--verbose", "-v", "--help", "--", "-x", ""] htoken⟩

end Conductor
