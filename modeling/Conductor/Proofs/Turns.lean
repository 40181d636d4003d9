import Conductor.Proofs.Passes
import Conductor.Transcript

/-!
# Colours that take turns

What the program shows on the output is made of spans. Some of them are items: the names of commands
in the usage, and all that is announced behind a pointer. The items get the colours of the palette
one after the other, and nothing else has one (`InTurn`). An act passes the turn on if this is so
for what it adds to the events and the palettes before and after it (`Act.PassesTurn`).
-/

namespace Conductor

namespace Span

/-- How announcements and offers begin. -/
def pointer : List Char := [' ', '>', ' ']

/-- Whether a span is announced, or is the name of a command. -/
def isItem (span : Span) : Bool :=
  pointer.isPrefixOf span.text.toList || registry.any (·.name = span.text)

/-- Whether a span has a colour of the palette, which is never bold. -/
def IsPainted (span : Span) : Prop :=
  ∃ color, span.style = some ⟨color, false⟩

theorem not_isPainted_plain (text : String) : ¬ (plain text).IsPainted := by
  rintro ⟨color, h⟩
  cases h

theorem not_isPainted_bold (color : Color) (text : String) : ¬ (bold color text).IsPainted := by
  rintro ⟨other, h⟩
  cases h

theorem isItem_pointed (style : Option Style) (text : String) :
    isItem ⟨style, " > " ++ text⟩ = true := by
  simp [isItem, pointer]

theorem isItem_of_mem {info : CommandInfo} (h : info ∈ registry) (style : Option Style) :
    isItem ⟨style, info.name⟩ = true := by
  have hany : registry.any (fun other => other.name = info.name) = true :=
    List.any_eq_true.mpr ⟨info, h, decide_eq_true rfl⟩
  rw [isItem, hany, Bool.or_true]

/-- The names of commands neither begin nor end with a character like these. -/
theorem ends_of_mem {info : CommandInfo} (h : info ∈ registry) {c : Char}
    (hc : c ∈ ['\n', ' ', '\t']) :
    info.name.toList.head? ≠ some c ∧ info.name.toList.getLast? ≠ some c := by
  have hall : (registry.all fun info => ['\n', ' ', '\t'].all fun c =>
      info.name.toList.head? ≠ some c ∧ info.name.toList.getLast? ≠ some c) = true := by decide
  have hinfo := List.all_eq_true.mp (List.all_eq_true.mp hall info h) c hc
  exact of_decide_eq_true hinfo

/-- Without a pointer in front, a text that begins or ends like no name is no item. -/
theorem isItem_eq_false {span : Span} (hpointer : ¬ pointer <+: span.text.toList) {c : Char}
    (hc : c ∈ ['\n', ' ', '\t'])
    (hends : span.text.toList.head? = some c ∨ span.text.toList.getLast? = some c) :
    span.isItem = false := by
  have hname : registry.any (fun info => info.name = span.text) = false := by
    refine List.any_eq_false.mpr fun info hmem hname => ?_
    have hinfo := ends_of_mem hmem hc
    rw [of_decide_eq_true hname] at hinfo
    rcases hends with h | h
    · exact hinfo.1 h
    · exact hinfo.2 h
  rw [isItem, hname, Bool.or_false, ← Bool.not_eq_true, List.isPrefixOf_iff_prefix]
  exact hpointer

theorem not_starts_with_pointer {cs : List Char} (h : cs.head? ≠ some ' ') : ¬ pointer <+: cs := by
  rintro ⟨rest, rfl⟩
  exact h rfl

/-- A line that does not begin with a space is no item. -/
theorem isItem_line {text : String} (h : text.toList.head? ≠ some ' ') :
    (plain (text ++ "\n")).isItem = false := by
  have hhead : (text ++ "\n").toList.head? ≠ some ' ' := by
    rw [String.toList_append, List.head?_append]
    cases hfirst : text.toList.head? with
    | none => decide
    | some c => simpa [hfirst] using h
  exact isItem_eq_false (not_starts_with_pointer hhead) (List.mem_cons_self ..)
    (.inr (by simp [plain, List.getLast?_append]))

end Span

/-- The spans that an event of the program itself shows on the output. -/
def Event.spans : Event → List Span
  | .wrote .out text => text
  | .asked question _ => question
  | _ => []

/-- The items among the spans have the colours of a palette, one after the other, and no other span
has one. What is left of the palette is the one given last. -/
inductive InTurn : Palette → List Span → Palette → Prop
  | nil {palette : Palette} : InTurn palette [] palette
  | item {palette after : Palette} {span : Span} {rest : List Span} (hitem : span.isItem = true)
      (hstyle : span.style = some ⟨palette.color, false⟩) (h : InTurn palette.advance rest after) :
      InTurn palette (span :: rest) after
  | other {palette after : Palette} {span : Span} {rest : List Span} (hitem : span.isItem = false)
      (hstyle : ¬ span.IsPainted) (h : InTurn palette rest after) :
      InTurn palette (span :: rest) after

namespace InTurn

variable {palette between after : Palette} {a b : List Span}

theorem append (h : InTurn palette a between) (h' : InTurn between b after) :
    InTurn palette (a ++ b) after := by
  induction h with
  | nil => exact h'
  | item hitem hstyle _ ih => exact .item hitem hstyle (ih h')
  | other hitem hstyle _ ih => exact .other hitem hstyle (ih h')

/-- Exactly the items have a colour. -/
theorem isItem_iff (h : InTurn palette a after) {span : Span} (hmem : span ∈ a) :
    span.isItem = true ↔ span.IsPainted := by
  induction h with
  | nil => cases hmem
  | item hitem hstyle _ ih =>
    rcases List.mem_cons.mp hmem with rfl | hmem
    · exact iff_of_true hitem ⟨_, hstyle⟩
    · exact ih hmem
  | other hitem hstyle _ ih =>
    rcases List.mem_cons.mp hmem with rfl | hmem
    · exact iff_of_false (by simp [hitem]) hstyle
    · exact ih hmem

/-- Each item has the colour whose turn it is after all items before it. -/
theorem style_eq (h : InTurn palette a after) {i : Nat} {span : Span}
    (hspan : (a.filter Span.isItem)[i]? = some span) :
    span.style = some ⟨(palette.after i).color, false⟩ := by
  induction h generalizing i with
  | nil => cases hspan
  | @item palette _ _ _ hitem hstyle _ ih =>
    rw [List.filter_cons_of_pos hitem] at hspan
    cases i with
    | zero =>
      cases hspan
      have hzero : palette.after 0 = palette := by simp [Palette.after]
      rw [hzero, hstyle]
    | succ i =>
      rw [← Palette.after_advance]
      exact ih hspan
  | other hitem _ _ ih =>
    rw [List.filter_cons_of_neg (by simp [hitem])] at hspan
    exact ih hspan

end InTurn

theorem inTurn_line {palette : Palette} (text : String) (h : text.toList.head? ≠ some ' ') :
    InTurn palette [.plain (text ++ "\n")] palette :=
  .other (Span.isItem_line h) (Span.not_isPainted_plain _) .nil

/-- The label of an information is bold, and its message no item. -/
theorem inTurn_info {palette : Palette} (message : String) :
    InTurn palette (StyledText.info message) palette := by
  have hmessage : (Span.plain (": " ++ message ++ "\n")).isItem = false :=
    Span.isItem_line (by simp)
  exact .other (by decide) (Span.not_isPainted_bold _ _) <|
    .other hmessage (Span.not_isPainted_plain _) .nil

/-- A span with nothing but the end of a line, or with two. -/
theorem inTurn_cons_blank {palette after : Palette} {rest : List Span} {text : String}
    (htext : text = "\n" ∨ text = "\n\n") (h : InTurn palette rest after) :
    InTurn palette (.plain text :: rest) after := by
  refine .other ?_ (Span.not_isPainted_plain _) h
  rcases htext with rfl | rfl <;> decide

theorem inTurn_banner (palette : Palette) (message : String) :
    InTurn palette (StyledText.banner palette.color message) palette.advance :=
  inTurn_cons_blank (.inl rfl) <| .item (Span.isItem_pointed _ _) rfl <|
    inTurn_cons_blank (.inr rfl) .nil

theorem inTurn_suggestion (palette : Palette) (name : String) :
    InTurn palette (StyledText.suggestion palette.color name) palette.advance := by
  have htext : " > Proceed with '" ++ name ++ "'? Y/n: " =
      " > " ++ ("Proceed with '" ++ name ++ "'? Y/n: ") := by
    have hsplit : " > Proceed with '" = " > " ++ "Proceed with '" := by decide
    rw [hsplit, String.append_assoc, String.append_assoc, String.append_assoc]
  refine inTurn_cons_blank (.inl rfl) (.item ?_ rfl .nil)
  rw [Span.colored, htext]
  exact Span.isItem_pointed _ _

/-- The usage names commands in turn. -/
theorem inTurn_usageLines (palette : Palette) {infos : List CommandInfo} (h : infos ⊆ registry) :
    InTurn palette (usageLines palette infos).1 (usageLines palette infos).2 := by
  induction infos generalizing palette with
  | nil => exact .nil
  | cons info rest ih =>
    obtain ⟨hinfo, hrest⟩ := List.cons_subset.mp h
    have hbullet : (Span.plain "\t• ").isItem = false := by decide
    have hpurpose : (Span.plain (" is used to " ++ info.purpose ++ "\n" ++
        String.join (info.options.map fun option => "\t\t - " ++ option ++ "\n"))).isItem =
        false :=
      Span.isItem_eq_false (by simp [Span.plain, Span.pointer]) (c := ' ') (by simp)
        (.inl (by simp [Span.plain]))
    exact .other hbullet (Span.not_isPainted_plain _) <|
      .item (Span.isItem_of_mem hinfo _) rfl <|
      .other hpurpose (Span.not_isPainted_plain _) (ih palette.advance hrest)

theorem inTurn_usage (palette : Palette) :
    InTurn palette ((usage palette).1 ++ [.plain "\n"]) (usage palette).2 := by
  have hheader : (Span.plain usageHeader).isItem = false := by decide
  have hlines := inTurn_usageLines palette (List.Subset.refl registry)
  exact .other hheader (Span.not_isPainted_plain _) <|
    hlines.append (inTurn_cons_blank (.inl rfl) .nil)

namespace Act

variable {α β : Type}

/-- Wherever the act is run, the items that it adds have the colours of the palette in turn. -/
def PassesTurn (act : Act α) : Prop :=
  ∀ place world, ∃ new, (act.run place world).2.events = world.events ++ new ∧
    InTurn world.palette (new.flatMap Event.spans) (act.run place world).2.palette

theorem passesTurn_of_silent {act : Act α}
    (h : ∀ place world, (act.run place world).2.events = world.events ∧
      (act.run place world).2.palette = world.palette) : act.PassesTurn := by
  intro place world
  obtain ⟨hevents, hpalette⟩ := h place world
  rw [hevents, hpalette]
  exact ⟨[], by simp, .nil⟩

theorem passesTurn_pure (value : α) : (pure value : Act α).PassesTurn :=
  passesTurn_of_silent fun _ _ => ⟨rfl, rfl⟩

theorem passesTurn_fail (failure : Failure) : (fail failure : Act α).PassesTurn :=
  passesTurn_of_silent fun _ _ => ⟨rfl, rfl⟩

theorem passesTurn_ofExcept (result : Except Cause α) : (ofExcept result).PassesTurn := by
  cases result with
  | ok value => exact passesTurn_pure value
  | error cause => exact passesTurn_fail _

theorem passesTurn_workspace : workspace.PassesTurn :=
  passesTurn_of_silent fun _ _ => ⟨rfl, rfl⟩

theorem passesTurn_world : Act.world.PassesTurn :=
  passesTurn_of_silent fun _ _ => ⟨rfl, rfl⟩

theorem PassesTurn.bind {act : Act α} {next : α → Act β} (h : act.PassesTurn)
    (hnext : ∀ value, (next value).PassesTurn) : (act >>= next).PassesTurn := by
  intro place world
  obtain ⟨new, hnew, hturn⟩ := h place world
  rcases hrun : act.run place world with ⟨value | failure | _, after⟩ <;> rw [hrun] at hnew hturn
  · obtain ⟨more, hmore, hmoreTurn⟩ := hnext value place after
    rw [run_bind_of_done _ _ hrun]
    refine ⟨new ++ more, by rw [hmore, hnew, List.append_assoc], ?_⟩
    rw [List.flatMap_append]
    exact hturn.append hmoreTurn
  · rw [run_bind_of_failed _ _ hrun]
    exact ⟨new, hnew, hturn⟩
  · rw [run_bind_of_broken _ _ hrun]
    exact ⟨new, hnew, hturn⟩

theorem PassesTurn.attempt {act : Act α} (h : act.PassesTurn) : act.attempt.PassesTurn := by
  intro place world
  rw [run_attempt]
  exact h place world

theorem passesTurn_write {text : StyledText} (h : ∀ palette, InTurn palette text palette) :
    (write .out text).PassesTurn :=
  fun _ world => ⟨[.wrote .out text], rfl, by
    rw [List.flatMap_singleton]
    exact h world.palette⟩

/-- What is told of an error is not on the output. -/
theorem passesTurn_write_err (text : StyledText) : (write .err text).PassesTurn :=
  fun _ _ => ⟨[.wrote .err text], rfl, .nil⟩

theorem passesTurn_line (text : String) (h : text.toList.head? ≠ some ' ') :
    (line text).PassesTurn :=
  passesTurn_write fun _ => inTurn_line text h

theorem passesTurn_ask {question : StyledText} (h : ∀ palette, InTurn palette question palette) :
    (ask question).PassesTurn := by
  intro place world
  rw [run_ask]
  refine ⟨_, rfl, ?_⟩
  rw [List.flatMap_singleton]
  exact h world.palette

theorem passesTurn_assign (key : Variable) (value : String) : (assign key value).PassesTurn := by
  intro place world
  rw [run_assign]
  split <;> exact ⟨_, rfl, .nil⟩

theorem passesTurn_launch (line : CommandLine) (output : Output) :
    (launch line output).PassesTurn := by
  intro place world
  rw [run_launch]
  exact ⟨_, rfl, .nil⟩

theorem passesTurn_banner (message : String) : (banner message).PassesTurn :=
  fun _ world => ⟨[.wrote .out (.banner world.palette.color message)], rfl, by
    rw [List.flatMap_singleton]
    exact inTurn_banner world.palette message⟩

theorem passesTurn_showUsage : showUsage.PassesTurn :=
  fun _ world => ⟨[.wrote .out ((usage world.palette).1 ++ [.plain "\n"])], rfl, by
    rw [List.flatMap_singleton]
    exact inTurn_usage world.palette⟩

end Act

end Conductor
