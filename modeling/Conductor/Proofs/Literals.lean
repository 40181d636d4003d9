import Conductor.Toml.Grammar

/-!
# Writing strings and numbers

Strings between quotes and decimal numbers, and what is read where they stand (`value_quoted`,
`value_toDigits`).
-/

namespace Conductor.Toml

/-! ## Strings -/

/-- A character that is written as an escape with its code point. -/
def isControl (c : Char) : Bool :=
  c.toNat < 0x20 || (0x7f ≤ c.toNat && c.toNat < 0xa0)

def escaped (c : Char) : List Char :=
  if c = '"' then ['\\', '"']
  else if c = '\\' then ['\\', '\\']
  else if isControl c then
    ['\\', 'u', '0', '0', Nat.digitChar (c.toNat / 16), Nat.digitChar (c.toNat % 16)]
  else [c]

def quoted (text : String) : String :=
  "\"" ++ String.ofList (text.toList.flatMap escaped) ++ "\""

theorem digitValue?_digitChar {d : Nat} (h : d < 16) :
    digitValue? 16 (Nat.digitChar d) = some d := by
  have hall : ∀ d < 16, digitValue? 16 (Nat.digitChar d) = some d := by decide
  exact hall d h

theorem scalar?_digits (c : Char) (h : c.toNat < 256) :
    scalar? ['0', '0', Nat.digitChar (c.toNat / 16), Nat.digitChar (c.toNat % 16)] = some c := by
  have hzero : digitValue? 16 '0' = some 0 := by decide
  have hhigh := digitValue?_digitChar (show c.toNat / 16 < 16 by omega)
  have hlow := digitValue?_digitChar (show c.toNat % 16 < 16 by omega)
  have hnumber : number? 16 ['0', '0', Nat.digitChar (c.toNat / 16), Nat.digitChar (c.toNat % 16)] =
      some c.toNat := by
    simp [number?, hzero, hhigh, hlow, Nat.div_add_mod]
  have hvalid : c.toNat.isValidChar := c.valid
  simp only [scalar?, hnumber, if_pos hvalid, Char.ofNat_toNat]

theorem basicBody_simpleEscape {c d : Char} (h : simpleEscape? c = some d) (rest : List Char) :
    basicBody false .nothing ('\\' :: c :: rest) = consTo d (basicBody false .nothing rest) := by
  rw [basicBody.eq_def]
  simp [h]

theorem basicBody_scalarEscape {a b x y d : Char} (h : scalar? [a, b, x, y] = some d)
    (rest : List Char) :
    basicBody false .nothing ('\\' :: 'u' :: a :: b :: x :: y :: rest) =
      consTo d (basicBody false .nothing rest) := by
  rw [basicBody.eq_def]
  simp [h, simpleEscape?]

theorem basicBody_plain {c : Char} (hquote : c ≠ '"') (hslash : c ≠ '\\')
    (htext : isTextChar c = true) (rest : List Char) :
    basicBody false .nothing (c :: rest) = consTo c (basicBody false .nothing rest) := by
  rw [basicBody.eq_def]
  split
  case h_1 heq => cases heq
  case h_2 heq =>
    cases heq
    exact absurd rfl hquote
  case h_3 heq =>
    cases heq
    exact absurd rfl hslash
  case h_4 heq =>
    cases heq
    cases htext
  case h_5 heq =>
    cases heq
    cases htext
  case h_6 heq =>
    cases heq
    simp [htext]

theorem basicBody_escaped (c : Char) (rest : List Char) :
    basicBody false .nothing (escaped c ++ rest) = consTo c (basicBody false .nothing rest) := by
  rw [escaped]
  split
  case isTrue h =>
    subst h
    exact basicBody_simpleEscape rfl rest
  case isFalse hquote =>
    split
    case isTrue h =>
      subst h
      exact basicBody_simpleEscape rfl rest
    case isFalse hslash =>
      split
      case isTrue hcontrol =>
        have hc : c.toNat < 256 := by
          simp [isControl] at hcontrol
          omega
        exact basicBody_scalarEscape (scalar?_digits c hc) rest
      case isFalse hcontrol =>
        refine basicBody_plain hquote hslash ?_ rest
        simp [isControl, isTextChar] at hcontrol ⊢
        omega

theorem basicBody_quoted (cs rest : List Char) :
    basicBody false .nothing (cs.flatMap escaped ++ '"' :: rest) = some (cs, rest) := by
  induction cs with
  | nil =>
    rw [List.flatMap_nil, List.nil_append, basicBody.eq_def]
    rfl
  | cons c cs ih =>
    rw [List.flatMap_cons, List.append_assoc, basicBody_escaped, ih]
    rfl

theorem escaped_head (c : Char) : ∃ d rest, escaped c = d :: rest ∧ d ≠ '"' := by
  by_cases hquote : c = '"'
  · exact ⟨'\\', ['"'], by rw [escaped, if_pos hquote], by decide⟩
  by_cases hslash : c = '\\'
  · exact ⟨'\\', ['\\'], by rw [escaped, if_neg hquote, if_pos hslash], by decide⟩
  rw [escaped, if_neg hquote, if_neg hslash]
  split
  · exact ⟨_, _, rfl, by decide⟩
  · exact ⟨c, [], rfl, hquote⟩

theorem toList_quoted (text : String) :
    (quoted text).toList = '"' :: (text.toList.flatMap escaped ++ ['"']) := by
  simp [quoted]

/-- Two quotes in a row do not go on to open a block. -/
theorem anyString_quoted (text : String) {rest : List Char} (h : rest.head? ≠ some '"') :
    anyString ((quoted text).toList ++ rest) = some (text.toList, rest) := by
  have hopen (more : List Char) :
      text.toList.flatMap escaped ++ '"' :: rest ≠ '"' :: '"' :: more := by
    intro heq
    cases hcs : text.toList with
    | nil =>
      rw [hcs] at heq
      cases heq
      exact h rfl
    | cons c cs =>
      obtain ⟨d, ds, hescaped, hd⟩ := escaped_head c
      rw [hcs, List.flatMap_cons, hescaped] at heq
      exact hd (List.cons.inj heq).1
  rw [toList_quoted, List.cons_append, List.append_assoc, List.singleton_append, anyString.eq_def]
  split
  case h_1 more heq => exact absurd (List.cons.inj heq).2 (hopen more)
  case h_2 heq => cases heq
  case h_3 => exact basicBody_quoted text.toList rest

theorem value_quoted (depth : Nat) (text : String) {rest : List Char} (h : rest.head? ≠ some '"') :
    value depth ((quoted text).toList ++ rest) = some (.string text, rest) := by
  have hread := anyString_quoted text h
  rw [toList_quoted, List.cons_append] at hread ⊢
  rw [value.eq_def]
  change (anyString _).map _ = _
  rw [hread, Option.map_some]
  simp only [String.ofList_toList]

/-! ## Numbers -/

theorem digitValue?_of_isDigit {c : Char} (h : c.isDigit = true) :
    digitValue? 10 c = some (c.toNat - '0'.toNat) := by
  have hle : c.toNat ≤ 57 := by
    simp [Char.isDigit, UInt32.le_iff_toNat_le] at h
    exact h.2
  have hlt : c.toNat - '0'.toNat < 10 := by
    change c.toNat - 48 < 10
    omega
  rw [digitValue?, hexValue?, if_pos h]
  simpa using hlt

section

variable {digits : List Char} (hdigits : ∀ c ∈ digits, c.isDigit = true)

include hdigits

theorem digitGroup?_of_isDigit (hne : digits ≠ []) : digitGroup? 10 digits = some digits := by
  induction digits with
  | nil => exact absurd rfl hne
  | cons c rest ih =>
    obtain ⟨hc, hrest⟩ := List.forall_mem_cons.mp hdigits
    have hvalue : (digitValue? 10 c).isSome = true := by rw [digitValue?_of_isDigit hc]; rfl
    rw [digitGroup?.eq_def]
    split
    case h_1 heq => cases heq
    case h_2 heq =>
      cases heq
      rw [if_pos hvalue]
    case h_3 heq =>
      cases heq
      exact absurd (hrest '_' (by simp)) (by decide)
    case h_4 hsingle _ heq =>
      cases heq
      rw [if_pos hvalue, ih hrest hsingle]
      rfl

theorem number?_of_isDigit (hne : digits ≠ []) :
    number? 10 digits = some (Nat.ofDigitChars 10 digits 0) := by
  -- The digits before the rest count by what they have come to.
  have hfold (n : Nat) :
      digits.foldlM (fun n c => (digitValue? 10 c).map (10 * n + ·)) n =
        some (Nat.ofDigitChars 10 digits n) := by
    clear hne
    induction digits generalizing n with
    | nil => rfl
    | cons c rest ih =>
      obtain ⟨hc, hrest⟩ := List.forall_mem_cons.mp hdigits
      rw [List.foldlM_cons, digitValue?_of_isDigit hc, Nat.ofDigitChars_cons]
      exact ih hrest _
  cases digits with
  | nil => exact absurd rfl hne
  | cons c rest => exact hfold 0

theorem isDateTime_of_isDigit : isDateTime digits = false := by
  have hdash : '-' ∉ digits := fun h => absurd (hdigits _ h) (by decide)
  have hcolon : ':' ∉ digits := fun h => absurd (hdigits _ h) (by decide)
  have hdate : afterDate? digits = none := by
    rw [afterDate?.eq_def]
    split
    · simp at hdash
    · rfl
  have hminutes : afterMinutes? digits = none := by
    rw [afterMinutes?.eq_def]
    split
    · simp at hcolon
    · rfl
  rw [isDateTime, hdate, afterTime?, hminutes]
  rfl

theorem splitSign_of_isDigit : splitSign digits = (false, digits) := by
  rw [splitSign.eq_def]
  split
  · exact absurd (hdigits '-' (by simp)) (by decide)
  · exact absurd (hdigits '+' (by simp)) (by decide)
  · rfl

end

theorem head?_toDigits {n : Nat} (h : n ≠ 0) : (Nat.toDigits 10 n).head? ≠ some '0' := by
  induction n using Nat.strongRecOn with
  | _ n ih =>
    rw [Nat.toDigits_eq_if (by decide)]
    split
    case isTrue hlt =>
      have hdigit : ∀ d < 10, d ≠ 0 → Nat.digitChar d ≠ '0' := by decide
      simpa using hdigit n hlt h
    case isFalse hge =>
      have hhead := ih (n / 10) (by omega) (by omega)
      rw [List.head?_append]
      cases hfirst : (Nat.toDigits 10 (n / 10)).head? with
      | none => exact absurd (List.head?_eq_none_iff.mp hfirst) Nat.toDigits_ne_nil
      | some c =>
        rw [hfirst] at hhead
        exact hhead

theorem isDigit_toDigits (n : Nat) : ∀ c ∈ Nat.toDigits 10 n, c.isDigit = true :=
  fun _ => Nat.isDigit_of_mem_toDigits (by decide) (by decide)

theorem wholeGroup?_toDigits (n : Nat) :
    wholeGroup? (Nat.toDigits 10 n) = some (Nat.toDigits 10 n) := by
  by_cases h : n = 0
  · subst h
    rfl
  have hhead := head?_toDigits h
  rw [wholeGroup?.eq_def]
  split
  case h_1 heq => rw [heq]
  case h_2 heq => simp [heq] at hhead
  case h_3 => exact digitGroup?_of_isDigit (isDigit_toDigits n) Nat.toDigits_ne_nil

theorem magnitude?_toDigits (n : Nat) : magnitude? false (Nat.toDigits 10 n) = some n := by
  have hdigits := isDigit_toDigits n
  rw [magnitude?.eq_def]
  split
  case h_1 heq => exact absurd (hdigits 'x' (by simp [heq])) (by decide)
  case h_2 heq => exact absurd (hdigits 'o' (by simp [heq])) (by decide)
  case h_3 heq => exact absurd (hdigits 'b' (by simp [heq])) (by decide)
  case h_4 =>
    rw [wholeGroup?_toDigits, Option.bind_some, number?_of_isDigit hdigits Nat.toDigits_ne_nil,
      Nat.ofDigitChars_ten_toDigits]

theorem integer?_toDigits {n : Nat} (h : n ≤ 9223372036854775807) :
    integer? (Nat.toDigits 10 n) = some (n : Int) := by
  have hrange : inIntegerRange n = true := by
    simp [inIntegerRange]
    omega
  simp [integer?, splitSign_of_isDigit (isDigit_toDigits n), magnitude?_toDigits, signed, hrange]

theorem scalarValue?_toDigits {n : Nat} (h : n ≤ 9223372036854775807) :
    scalarValue? (Nat.toDigits 10 n) = some (.integer n) := by
  have hdigits := isDigit_toDigits n
  have htrue : Nat.toDigits 10 n ≠ ['t', 'r', 'u', 'e'] := fun heq =>
    absurd (hdigits 't' (by simp [heq])) (by decide)
  have hfalse : Nat.toDigits 10 n ≠ ['f', 'a', 'l', 's', 'e'] := fun heq =>
    absurd (hdigits 'f' (by simp [heq])) (by decide)
  rw [scalarValue?, if_neg htrue, if_neg hfalse, isDateTime_of_isDigit hdigits,
    integer?_toDigits h]
  rfl

theorem isScalarChar_of_isDigit {c : Char} (h : c.isDigit = true) : isScalarChar c = true := by
  simp [isScalarChar, isBareKeyChar, Char.isAlphanum, h]

/-- A number that ends with its line. -/
theorem value_toDigits (depth : Nat) {n : Nat} (h : n ≤ 9223372036854775807) (rest : List Char) :
    value depth (Nat.toDigits 10 n ++ '\n' :: rest) = some (.integer n, '\n' :: rest) := by
  have hdigits := isDigit_toDigits n
  have hscalar (c : Char) (hc : c ∈ Nat.toDigits 10 n) : isScalarChar c = true :=
    isScalarChar_of_isDigit (hdigits c hc)
  have hstop : isScalarChar '\n' = false := by decide
  have hread : scalar (Nat.toDigits 10 n ++ '\n' :: rest) = some (.integer n, '\n' :: rest) := by
    rw [scalar]
    simp [List.takeWhile_append_of_pos hscalar, List.dropWhile_append_of_pos hscalar, hstop,
      scalarValue?_toDigits h]
  obtain ⟨c, more, hcons⟩ := List.exists_cons_of_ne_nil (Nat.toDigits_ne_nil (n := n) (b := 10))
  rw [hcons, List.cons_append] at hread ⊢
  have hc : c.isDigit = true := hdigits c (by simp [hcons])
  -- No other kind of value begins with a digit.
  rw [value.eq_def]
  split
  case h_1 heq =>
    cases heq
    cases hc
  case h_2 heq =>
    cases heq
    cases hc
  case h_3 heq =>
    cases heq
    cases hc
  case h_4 heq =>
    cases heq
    cases hc
  case h_5 => exact hread

end Conductor.Toml
