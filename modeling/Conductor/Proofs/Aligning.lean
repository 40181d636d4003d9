import Conductor.Main
import Conductor.Proofs.Building
import Conductor.Proofs.Obeying
import Mathlib.Data.List.DropRight
import Mathlib.Data.List.SplitBy
import Mathlib.Logic.Function.Iterate

/-!
# Answers in line with their questions

The input is cut after each line feed. One question after the other takes one of the pieces, whole
and whatever it holds, and nothing else takes any of the input. So the answer to a question is what
its own piece says, or that its piece is no text (`answers_stay_aligned`).
-/

namespace Conductor

/-! ## Pieces -/

/-- The pieces of the input, which is cut after each line feed. -/
def pieces (input : List UInt8) : List (List UInt8) :=
  input.splitBy fun b _ => b != 10

/-- The pieces make up the input, none of them is empty, all but the last end with a line feed, and
before its end none holds one. -/
structure IsCutInto (input : List UInt8) (parts : List (List UInt8)) : Prop where
  flatten_eq : parts.flatten = input
  nil_not_mem : [] ∉ parts
  getLast?_eq : ∀ part ∈ parts.dropLast, part.getLast? = some 10
  not_mem_dropLast : ∀ part ∈ parts, 10 ∉ part.dropLast

/-- What a chain asks of an element alone, holds of all but the last. -/
theorem forall_mem_dropLast_of_isChain {α : Type} {P : α → Prop} {parts : List α}
    (h : parts.IsChain fun part _ => P part) : ∀ part ∈ parts.dropLast, P part := by
  induction h with
  | nil => simp
  | singleton => simp
  | cons_cons hpart _ ih => simpa [hpart] using ih

theorem isCutInto_pieces (input : List UInt8) : IsCutInto input (pieces input) := by
  refine ⟨List.flatten_splitBy _ _, List.nil_notMem_splitBy _ _, ?_, fun part hmem hlineFeed => ?_⟩
  · refine forall_mem_dropLast_of_isChain (List.IsChain.imp (fun part next h => ?_)
      (List.isChain_getLast_head_splitBy (fun b _ => b != 10) input))
    obtain ⟨hne, -, hlast⟩ := h
    rw [List.getLast?_eq_some_getLast hne]
    simpa using hlast
  · have hchain : part.IsChain fun b _ => (b != 10) = true := List.isChain_of_mem_splitBy hmem
    have hb := forall_mem_dropLast_of_isChain hchain 10 hlineFeed
    cases hb

section

variable (bytes : List UInt8)

theorem cutLine_append : (cutLine bytes).1 ++ (cutLine bytes).2 = bytes := by
  induction bytes with
  | nil => rfl
  | cons b rest ih =>
    rw [cutLine]
    split
    · rfl
    · rw [List.cons_append, ih]

/-- A line goes on as long as there is no line feed. -/
theorem isChain_cutLine : (cutLine bytes).1.IsChain fun b _ => b != 10 := by
  induction bytes with
  | nil => exact .nil
  | cons b rest ih =>
    rw [cutLine]
    split
    · exact .singleton _
    · rename_i hb
      refine List.isChain_cons.mpr ⟨fun _ _ => ?_, ih⟩
      simpa using hb

/-- A line ends with a line feed, or with the input. -/
theorem getLast?_cutLine : (cutLine bytes).1.getLast? = some 10 ∨ (cutLine bytes).2 = [] := by
  induction bytes with
  | nil => exact .inr rfl
  | cons b rest ih =>
    rw [cutLine]
    split
    · rename_i hb
      exact .inl (by rw [hb]; rfl)
    · refine ih.imp_left fun hlast => ?_
      rw [List.getLast?_cons, hlast]
      rfl

variable {bytes}

/-- A line is the first of the pieces. -/
theorem pieces_eq_cons (h : bytes ≠ []) :
    pieces bytes = (cutLine bytes).1 :: pieces (cutLine bytes).2 := by
  have hne : (cutLine bytes).1 ≠ [] := by
    obtain ⟨b, rest, rfl⟩ := List.exists_cons_of_ne_nil h
    rw [cutLine]
    split <;> simp
  have hends : ∀ b ∈ (cutLine bytes).1.getLast?, ∀ next ∈ (cutLine bytes).2.head?,
      (b != 10) = false := by
    intro b hb next hnext
    rcases getLast?_cutLine bytes with hlast | hnil
    · obtain rfl : 10 = b := by simpa [hlast] using hb
      rfl
    · rw [hnil] at hnext
      cases hnext
  have hsplit := List.splitBy_append (r := fun b _ => b != 10) hends
  rwa [cutLine_append, List.splitBy_of_isChain hne (isChain_cutLine bytes)] at hsplit

theorem pieces_cutLine_snd (bytes : List UInt8) :
    pieces (cutLine bytes).2 = (pieces bytes).tail := by
  cases bytes with
  | nil => rfl
  | cons b rest => rw [pieces_eq_cons (List.cons_ne_nil b rest), List.tail_cons]

end

/-! ## Answers -/

/-- What is answered when a piece is read, or when none is left: the text of the piece without the
end of its line, or that it is no text. -/
inductive IsAnswerTo : Option (List UInt8) → Answer → Prop
  | nothing : IsAnswerTo none (.ok "")
  | text {text ending : String} (hending : ∀ c ∈ ending.toList, c = '\r' ∨ c = '\n')
      (htext : ∀ c ∈ text.toList.getLast?, ¬ (c = '\r' ∨ c = '\n')) :
      IsAnswerTo (some (text ++ ending).toUTF8.data.toList) (.ok text)
  | noText {piece : List UInt8} (h : ∀ text : String, text.toUTF8.data.toList ≠ piece) :
      IsAnswerTo (some piece)
        (.error ((Failure.ofCause (.system .notText)).within "Failed to read answer from stdin"))

theorem isLineEnd_iff (c : Char) : isLineEnd c = true ↔ c = '\r' ∨ c = '\n' := by
  simp [isLineEnd]

theorem fromUTF8?_eq_some_iff {piece : List UInt8} {text : String} :
    String.fromUTF8? ⟨piece.toArray⟩ = some text ↔ text.toUTF8.data.toList = piece := by
  constructor
  · intro h
    unfold String.fromUTF8? at h
    split at h
    · cases h
      rfl
    · cases h
  · rintro rfl
    have hvalid : text.toUTF8.IsValidUTF8 := text.isValidUTF8
    have hbytes : (⟨text.toUTF8.data.toList.toArray⟩ : ByteArray) = text.toUTF8 := rfl
    rw [hbytes, String.fromUTF8?, dif_pos hvalid]
    rfl

/-- The text of a line is read without the end of the line. -/
theorem isAnswerTo_answerOfLine (piece : List UInt8) :
    IsAnswerTo (some piece) (answerOfLine piece) := by
  unfold answerOfLine
  split
  · rename_i text htext
    have hsplit : text = String.ofList (text.toList.rdropWhile isLineEnd) ++
        String.ofList (text.toList.rtakeWhile isLineEnd) := by
      rw [← String.ofList_append, List.rdropWhile_append_rtakeWhile, String.ofList_toList]
    rw [← fromUTF8?_eq_some_iff.mp htext]
    nth_rewrite 1 [hsplit]
    refine .text (fun c hmem => ?_) fun c hmem => ?_
    · rw [String.toList_ofList] at hmem
      exact (isLineEnd_iff c).mp (List.mem_rtakeWhile_imp hmem)
    · rw [String.toList_ofList] at hmem
      obtain ⟨hne, rfl⟩ := List.mem_getLast?_eq_getLast hmem
      rw [← isLineEnd_iff]
      exact List.rdropWhile_last_not isLineEnd _ hne
  · rename_i hnone
    refine .noText fun text htext => ?_
    rw [fromUTF8?_eq_some_iff.mpr htext] at hnone
    cases hnone

theorem rdropWhile_append_of_forall {text ending : List Char} {p : Char → Bool}
    (hending : ∀ c ∈ ending, p c = true) (htext : ∀ c ∈ text.getLast?, ¬ p c = true) :
    (text ++ ending).rdropWhile p = text := by
  induction ending using List.reverseRecOn with
  | nil =>
    rw [List.append_nil, List.rdropWhile_eq_self_iff]
    exact fun hne => htext _ (List.getLast_mem_getLast? hne)
  | append_singleton ending c ih =>
    have hlast : p c = true := hending c (by simp)
    rw [← List.append_assoc, List.rdropWhile_concat_pos _ _ _ hlast]
    exact ih fun other hmem => hending other (List.mem_append_left _ hmem)

/-- A piece has one answer. -/
theorem IsAnswerTo.unique {piece : Option (List UInt8)} {answer other : Answer}
    (h : IsAnswerTo piece answer) (hother : IsAnswerTo piece other) : answer = other := by
  cases h with
  | nothing =>
    cases hother
    rfl
  | @text text ending hending htext =>
    generalize hpiece : (text ++ ending).toUTF8.data.toList = piece at hother
    cases hother with
    | @text text' ending' hending' htext' =>
      have hbytes : (text ++ ending).toUTF8 = (text' ++ ending').toUTF8 :=
        ByteArray.ext (Array.toList_inj.mp hpiece)
      have hchars : text.toList ++ ending.toList = text'.toList ++ ending'.toList := by
        rw [← String.toList_append, ← String.toList_append, String.toByteArray_inj.mp hbytes]
      have hstrip := rdropWhile_append_of_forall (p := isLineEnd)
        (fun c hmem => (isLineEnd_iff c).mpr (hending c hmem))
        (fun c hmem => (isLineEnd_iff c).not.mpr (htext c hmem))
      have hstrip' := rdropWhile_append_of_forall (p := isLineEnd)
        (fun c hmem => (isLineEnd_iff c).mpr (hending' c hmem))
        (fun c hmem => (isLineEnd_iff c).not.mpr (htext' c hmem))
      rw [hchars, hstrip'] at hstrip
      rw [String.toList_inj.mp hstrip]
    | noText hnone => exact absurd hpiece (hnone _)
  | noText hnone =>
    generalize hpiece : some _ = piece at hother
    cases hother with
    | nothing => cases hpiece
    | text hending htext => exact absurd (Option.some.inj hpiece).symm (hnone _)
    | noText => rfl

/-- A question is answered from the first of the pieces that are left. -/
theorem isAnswerTo_next (bytes : List UInt8) :
    IsAnswerTo (pieces bytes).head? (Answers.stream bytes).next.1 := by
  cases bytes with
  | nil =>
    have hnext : (Answers.stream []).next.1 = .ok "" := rfl
    rw [hnext]
    exact .nothing
  | cons b rest =>
    rw [pieces_eq_cons (List.cons_ne_nil b rest)]
    exact isAnswerTo_answerOfLine _

def Answers.after (answers : Answers) (count : Nat) : Answers :=
  (fun answers => answers.next.2)^[count] answers

theorem Answers.after_succ (answers : Answers) (count : Nat) :
    answers.after (count + 1) = (answers.after count).next.2 :=
  Function.iterate_succ_apply' _ count answers

theorem Answers.take_eq (answers : Answers) (count : Nat) :
    answers.take count = (List.range count).map fun i => (answers.after i).next.1 := by
  induction count generalizing answers with
  | zero => rfl
  | succ count ih =>
    rw [take, ih, List.range_succ_eq_map, List.map_cons, List.map_map]
    rfl

theorem Answers.take_succ (answers : Answers) (count : Nat) :
    answers.take (count + 1) = answers.take count ++ [(answers.after count).next.1] := by
  rw [take_eq, take_eq, List.range_succ, List.map_append, List.map_singleton]

theorem Answers.length_take (answers : Answers) (count : Nat) :
    (answers.take count).length = count := by
  rw [take_eq, List.length_map, List.length_range]

theorem Answers.eq_of_getElem?_take {answers : Answers} {count i : Nat} {answer : Answer}
    (h : (answers.take count)[i]? = some answer) : answer = (answers.after i).next.1 := by
  rw [take_eq] at h
  obtain ⟨_, rfl⟩ := List.getElem?_eq_some_iff.mp h
  rw [List.getElem_map, List.getElem_range]

/-- The bytes that are left after some questions are cut like the whole input. The induction is on
the questions, each of which takes the first of the pieces that are left. -/
theorem exists_pieces_after (input : List UInt8) (count : Nat) :
    ∃ bytes, (Answers.stream input).after count = .stream bytes ∧
      pieces bytes = (pieces input).drop count := by
  induction count with
  | zero => exact ⟨input, rfl, rfl⟩
  | succ count ih =>
    obtain ⟨bytes, hafter, hpieces⟩ := ih
    refine ⟨(cutLine bytes).2, ?_, ?_⟩
    · rw [Answers.after_succ, hafter]
      rfl
    · rw [pieces_cutLine_snd, hpieces, List.tail_drop]

theorem eq_flatten_of_pieces {bytes : List UInt8} {parts : List (List UInt8)}
    (h : pieces bytes = parts) : bytes = parts.flatten := by
  rw [← h, pieces, List.flatten_splitBy]

/-- So many questions take so many pieces and nothing else. -/
theorem after_eq (input : List UInt8) (count : Nat) :
    (Answers.stream input).after count = .stream ((pieces input).drop count).flatten := by
  obtain ⟨bytes, hafter, hpieces⟩ := exists_pieces_after input count
  rw [hafter, eq_flatten_of_pieces hpieces]

theorem isAnswerTo_after (input : List UInt8) (count : Nat) :
    IsAnswerTo (pieces input)[count]? ((Answers.stream input).after count).next.1 := by
  obtain ⟨bytes, hafter, hpieces⟩ := exists_pieces_after input count
  have hnext := isAnswerTo_next bytes
  rwa [hpieces, List.head?_drop, ← hafter] at hnext

/-! ## Runs of the program -/

def answersIn (events : List Event) : List Answer :=
  events.filterMap fun
    | .asked _ answer => some answer
    | _ => none

theorem answersIn_append (before new : List Event) :
    answersIn (before ++ new) = answersIn before ++ answersIn new := List.filterMap_append ..

/-- The questions so far have got the first answers of the source, one each, and the next question
gets the answer after them. -/
def World.IsServedBy (source : Answers) (world : World) : Prop :=
  ∃ count, answersIn world.events = source.take count ∧ world.answers = source.after count

variable {place : Workspace} {source : Answers} {a b : World}

/-- A question gets the next answer. -/
theorem World.IsServedBy.asked (h : a.IsServedBy source) (question : StyledText) :
    (a.asked question).IsServedBy source := by
  obtain ⟨count, hgiven, hleft⟩ := h
  refine ⟨count + 1, ?_, ?_⟩
  · rw [Answers.take_succ, ← hgiven, ← hleft, World.asked, answersIn_append]
    rfl
  · rw [Answers.after_succ, ← hleft]
    rfl

/-- Any other step leaves the answers where they are. -/
theorem Step.isServedBy {deed : Deed} (h : Step place a deed b) (ha : a.IsServedBy source) :
    b.IsServedBy source := by
  by_cases hdeed : deed = .ask
  · subst hdeed
    cases h with
    | ask question => exact ha.asked question
  · obtain ⟨count, hgiven, hleft⟩ := ha
    obtain ⟨new, hnew, hall⟩ := h.events_eq
    have hnone : answersIn new = [] := by
      refine List.filterMap_eq_nil_iff.mpr fun event hmem => ?_
      cases event with
      | asked question answer => exact absurd (hall _ hmem).1.symm hdeed
      | _ => rfl
    have hanswers : b.answers = a.answers :=
      (Steps.single h (List.mem_singleton_self deed)).answers_eq (by simpa using Ne.symm hdeed)
    refine ⟨count, ?_, hanswers.trans hleft⟩
    rw [hnew, answersIn_append, hnone, List.append_nil, hgiven]

theorem Steps.isServedBy {deeds : List Deed} (h : Steps place deeds a b)
    (ha : a.IsServedBy source) : b.IsServedBy source :=
  h.keeps (I := World.IsServedBy source) (fun _ _ _ _ hstep => hstep.isServedBy) ha

def Deed.all : List Deed := [.write, .ask, .assign, .launch, .make, .paint, .shut]

theorem takesOnly_obey (tokens : List String) : (obey tokens).TakesOnly Deed.all := by
  rw [obey]
  split
  · exact .bind (Act.takesOnly_showUsage (by decide) (by decide)) fun _ => Act.takesOnly_pure _
  · refine .bind ((takesOnly_resolve _).mono (by decide)) fun found => ?_
    cases found with
    | none => exact Act.takesOnly_pure _
    | some command =>
      refine .bind (takesOnly_settingsFor command) fun settings => ?_
      refine .bind ?_ fun _ => Act.takesOnly_pure _
      cases hconfigures : command.configures with
      | true => exact (takesOnly_perform_of_configures settings hconfigures).mono (by decide)
      | false => exact (takesOnly_perform_of_not_configures settings hconfigures).mono (by decide)

/-- Whatever a run of the program does, its questions get the answers of the input in turn. -/
theorem isServedBy_run {files : Files.Node} {input : List UInt8} {styled : Bool}
    {words : List String} {run : Run}
    (h : Program.run place files input styled words = .ok run) :
    run.world.IsServedBy (.stream input) := by
  cases hwords : Options.parse words with
  | error refusal =>
    rw [Program.run, hwords] at h
    cases h
  | ok parsed =>
    obtain ⟨options, tokens⟩ := parsed
    rw [run_eq place files input styled hwords] at h
    cases h
    have hsteps := takesOnly_obey tokens place { files := files, answers := .stream input }
    exact (steps_carryOut (by decide) hsteps).isServedBy ⟨0, rfl, rfl⟩

/-- The input is cut after each line feed, and the questions that are asked one after the other get
one piece each: a question takes its piece from what is left of the input, and nothing else. Its
answer is the text of the piece without the end of its line, or the failure of a piece that is no
text, or empty when no piece is left; it is the only answer that its piece has. It is so in every
run of the program, whatever else it does. -/
theorem answers_stay_aligned (input : List UInt8) :
    IsCutInto input (pieces input) ∧
      (∀ count : Nat, let source := (Answers.stream input).after count
        source = .stream ((pieces input).drop count).flatten ∧
          (∀ answer, IsAnswerTo (pieces input)[count]? answer ↔ answer = source.next.1) ∧
          source.next.2 = .stream ((pieces input).drop (count + 1)).flatten) ∧
      ∀ (place : Workspace) (files : Files.Node) (styled : Bool) (words : List String) (run : Run),
        Program.run place files input styled words = .ok run →
          let answers := answersIn run.world.events
          (∀ (i : Nat) (answer : Answer), answers[i]? = some answer →
              IsAnswerTo (pieces input)[i]? answer) ∧
            run.world.answers = .stream ((pieces input).drop answers.length).flatten := by
  refine ⟨isCutInto_pieces input, fun count => ⟨after_eq input count, fun answer => ?_, ?_⟩,
    fun place files styled words run hrun => ?_⟩
  · have hanswer := isAnswerTo_after input count
    exact ⟨fun h => h.unique hanswer, fun h => h ▸ hanswer⟩
  · rw [← Answers.after_succ, after_eq]
  · obtain ⟨count, hgiven, hleft⟩ := isServedBy_run hrun
    refine ⟨fun i answer hanswer => ?_, ?_⟩
    · rw [hgiven] at hanswer
      rw [Answers.eq_of_getElem?_take hanswer]
      exact isAnswerTo_after input i
    · rw [hgiven, Answers.length_take, hleft, after_eq]

/-- A line that is no text spoils only its own question, and the last line may stay open. -/
theorem answers_stay_aligned_spoilt :
    let input : List UInt8 := [255, 10, 121, 13, 10, 110]
    pieces input = [[255, 10], [121, 13, 10], [110]] ∧
      (∃ failure, (Answers.stream input).next.1 = .error failure) ∧
      ((Answers.stream input).after 1).next.1 = .ok "y" ∧
      ((Answers.stream input).after 2).next.1 = .ok "n" ∧
      ((Answers.stream input).after 3).next.1 = .ok "" := by
  intro input
  have hpieces : pieces input = [[255, 10], [121, 13, 10], [110]] := by decide
  have hanswer (count : Nat) (answer : Answer) (h : IsAnswerTo (pieces input)[count]? answer) :
      ((Answers.stream input).after count).next.1 = answer :=
    (((answers_stay_aligned input).2.1 count).2.1 answer).mp h |>.symm
  rw [hpieces] at hanswer
  refine ⟨hpieces, ⟨_, hanswer 0 _ (.noText fun text htext => ?_)⟩, hanswer 1 _ ?_, hanswer 2 _ ?_,
    hanswer 3 _ .nothing⟩
  · have hnone : String.fromUTF8? ⟨#[255, 10]⟩ = none := by decide
    rw [fromUTF8?_eq_some_iff.mpr htext] at hnone
    cases hnone
  · exact @IsAnswerTo.text "y" "\r\n" (by simp) (by simp)
  · exact @IsAnswerTo.text "n" "" (by simp) (by simp)

end Conductor
