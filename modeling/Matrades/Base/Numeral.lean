import Matrades.Base.Decimal

/-!
# Decimals as they are written

A finite decimal number has a sign, a coefficient and an exponent: `1.50` and `1.5` are two numbers of
one value. `text` writes a number, with an exponent where the positional text would be long. `read`
reads a text, and gives back the number that was written (`read_text`); the strict reader of values
gives its value (`parseDec_text`).
-/

namespace Matrades.Base

structure Written where
  negative : Bool
  coefficient : ℕ
  exponent : ℤ
  deriving DecidableEq

namespace Written

def value (d : Written) : ℚ := (if d.negative then -1 else 1) * (d.coefficient * 10 ^ d.exponent)

def digits (d : Written) : List Char := Nat.toDigits 10 d.coefficient

/-- How many digits are before the point. -/
def point (d : Written) : ℤ := d.exponent + d.digits.length

/-- The digits before and behind the point, and the exponent if one is written. -/
def parts (d : Written) : List Char × List Char × Option ℤ :=
  if d.exponent ≤ 0 ∧ -6 < d.point then
    if d.point ≤ 0 then (['0'], List.replicate (-d.point).toNat '0' ++ d.digits, none)
    else (d.digits.take d.point.toNat, d.digits.drop d.point.toNat, none)
  else (d.digits.take 1, d.digits.drop 1, some (d.point - 1))

def exponentText : Option ℤ → List Char
  | none => []
  | some e => 'E' :: (if e < 0 then '-' else '+') :: Nat.toDigits 10 e.natAbs

/-- The text of a sign, a whole part, a fraction and an exponent. -/
def assembled (negative : Bool) (whole fraction : List Char) (exponent : Option ℤ) : List Char :=
  (if negative then ['-'] else []) ++ (whole ++
    ((if fraction.isEmpty then [] else '.' :: fraction) ++ exponentText exponent))

/-- `str(d)` -/
def text (d : Written) : List Char :=
  assembled d.negative d.parts.1 d.parts.2.1 d.parts.2.2

def str (d : Written) : String := String.ofList d.text

/-- The number a text is. -/
def read (cs : List Char) : Option Written :=
  let (negative, r₁) := spanSign ((strip cs).filter (· ≠ '_'))
  let (whole, r₂) := spanDigits r₁
  let (fraction, r₃) := spanFraction r₂
  let (exponent, r₄) := spanExponent r₃
  if (whole.isEmpty && fraction.isEmpty) || !r₄.isEmpty then none
  else some ⟨negative, ofDigits (whole ++ fraction), exponent - fraction.length⟩

example : text ⟨true, 150, -2⟩ = "-1.50".toList := by decide
example : text ⟨false, 15, 3⟩ = "1.5E+4".toList := by decide
example : read "-1.50".toList = some ⟨true, 150, -2⟩ := by decide

/-! ## The parts of a text -/

theorem digits_isDigit (d : Written) : ∀ c ∈ d.digits, c.isDigit = true :=
  fun _ hc => Nat.isDigit_of_mem_toDigits (by decide) (by decide) hc

theorem digits_length_pos (d : Written) : 0 < d.digits.length :=
  List.length_pos_of_ne_nil Nat.toDigits_ne_nil

theorem ofDigits_digits (d : Written) : ofDigits (d.digits.map digitOf) = d.coefficient := by
  rw [ofDigits_map, digits, Nat.ofDigitChars_ten_toDigits]

theorem ofDigits_zeros (n : ℕ) (cs : List Char) :
    ofDigits ((List.replicate n '0' ++ cs).map digitOf) = ofDigits (cs.map digitOf) := by
  induction n with
  | zero => rfl
  | succ n ih => exact ih

/-- What the parts of a number are. -/
structure Parts (d : Written) (whole fraction : List Char) (exponent : Option ℤ) : Prop where
  whole_digits : ∀ c ∈ whole, c.isDigit = true
  whole_ne : whole ≠ []
  fraction_digits : ∀ c ∈ fraction, c.isDigit = true
  coefficient : ofDigits ((whole ++ fraction).map digitOf) = d.coefficient
  exponent : exponent.getD 0 - fraction.length = d.exponent

theorem parts_spec (d : Written) : d.Parts d.parts.1 d.parts.2.1 d.parts.2.2 := by
  have hpos := d.digits_length_pos
  have hdigit := d.digits_isDigit
  have hsplit : ∀ n, d.digits.take n ++ d.digits.drop n = d.digits := fun n => List.take_append_drop n _
  have hpoint : d.point = d.exponent + d.digits.length := rfl
  unfold parts
  split
  · rename_i hpositional
    split
    · rename_i hzero
      refine ⟨?_, List.cons_ne_nil _ _, ?_, ?_, ?_⟩
      · intro c hc
        rw [List.mem_singleton.1 hc]
        decide
      · intro c hc
        rcases List.mem_append.1 hc with hc | hc
        · rw [List.eq_of_mem_replicate hc]
          decide
        · exact hdigit c hc
      · exact (ofDigits_zeros _ d.digits).trans d.ofDigits_digits
      · rw [Option.getD_none, List.length_append, List.length_replicate]
        omega
    · rename_i hnot
      refine ⟨fun c hc => hdigit c (List.mem_of_mem_take hc), ?_,
        fun c hc => hdigit c (List.mem_of_mem_drop hc), ?_, ?_⟩
      · apply List.ne_nil_of_length_pos
        rw [List.length_take]
        omega
      · dsimp only
        rw [hsplit]
        exact d.ofDigits_digits
      · rw [Option.getD_none, List.length_drop]
        omega
  · refine ⟨fun c hc => hdigit c (List.mem_of_mem_take hc), ?_,
      fun c hc => hdigit c (List.mem_of_mem_drop hc), ?_, ?_⟩
    · apply List.ne_nil_of_length_pos
      rw [List.length_take]
      omega
    · dsimp only
      rw [hsplit]
      exact d.ofDigits_digits
    · rw [Option.getD_some, List.length_drop]
      omega

/-! ## Reading what is written -/

/-- A character of a number. -/
def writtenChar (c : Char) : Bool := decimalChar c || c = 'E' || c = '+'

theorem writtenChar_plain {c : Char} (h : writtenChar c = true) : c.isWhitespace = false ∧ c ≠ '_' := by
  simp only [writtenChar, Bool.or_eq_true, decide_eq_true_eq] at h
  rcases h with (h | rfl) | rfl
  · exact decimalChar_plain h
  · exact ⟨by decide, by decide⟩
  · exact ⟨by decide, by decide⟩

theorem writtenChar_digit {c : Char} (h : c.isDigit = true) : writtenChar c = true := by
  simp [writtenChar, decimalChar, h]

section
variable {negative : Bool} {whole fraction : List Char} {exponent : Option ℤ}

theorem exponentText_chars : ∀ c ∈ exponentText exponent, writtenChar c = true := by
  intro c hc
  cases exponent with
  | none => cases hc
  | some e =>
    rcases List.mem_cons.1 hc with rfl | hc
    · decide
    rcases List.mem_cons.1 hc with rfl | hc
    · split <;> decide
    · exact writtenChar_digit (Nat.isDigit_of_mem_toDigits (by decide) (by decide) hc)

theorem assembled_chars (hwhole : ∀ c ∈ whole, c.isDigit = true)
    (hfraction : ∀ c ∈ fraction, c.isDigit = true) :
    ∀ c ∈ assembled negative whole fraction exponent, writtenChar c = true := by
  intro c hc
  rcases List.mem_append.1 hc with hc | hc
  · split at hc
    · rw [List.mem_singleton.1 hc]
      decide
    · cases hc
  rcases List.mem_append.1 hc with hc | hc
  · exact writtenChar_digit (hwhole c hc)
  rcases List.mem_append.1 hc with hc | hc
  · split at hc
    · cases hc
    · rcases List.mem_cons.1 hc with rfl | hc
      · decide
      · exact writtenChar_digit (hfraction c hc)
  · exact exponentText_chars c hc

theorem spanSign_assembled (hwhole : ∀ c ∈ whole, c.isDigit = true) (hne : whole ≠ []) :
    spanSign (assembled negative whole fraction exponent) =
      (negative, whole ++ ((if fraction.isEmpty then [] else '.' :: fraction) ++
        exponentText exponent)) := by
  obtain ⟨d, ds, rfl⟩ := List.exists_cons_of_ne_nil hne
  cases negative with
  | true => rfl
  | false => exact spanSign_digits (hwhole d List.mem_cons_self)

theorem exponentText_head : ∀ c ∈ (exponentText exponent).head?, c.isDigit = false := by
  cases exponent with
  | none => exact fun c hc => by cases hc
  | some e =>
    intro c hc
    cases hc
    decide

theorem spanDigits_assembled (hwhole : ∀ c ∈ whole, c.isDigit = true) :
    spanDigits (whole ++ ((if fraction.isEmpty then [] else '.' :: fraction) ++
      exponentText exponent)) = (whole.map digitOf,
        (if fraction.isEmpty then [] else '.' :: fraction) ++ exponentText exponent) := by
  refine spanDigits_append hwhole ?_
  cases fraction with
  | nil => exact exponentText_head
  | cons c cs =>
    intro c hc
    cases hc
    decide

theorem spanFraction_assembled (hfraction : ∀ c ∈ fraction, c.isDigit = true) :
    spanFraction ((if fraction.isEmpty then [] else '.' :: fraction) ++ exponentText exponent) =
      (fraction.map digitOf, exponentText exponent) := by
  cases fraction with
  | nil => cases exponent <;> rfl
  | cons c cs => exact spanDigits_append hfraction exponentText_head

theorem spanExponent_text : spanExponent (exponentText exponent) = (exponent.getD 0, []) := by
  cases exponent with
  | none => rfl
  | some e =>
    have hdigits : spanDigits (Nat.toDigits 10 e.natAbs) =
        ((Nat.toDigits 10 e.natAbs).map digitOf, []) := by
      have h := @spanDigits_append (Nat.toDigits 10 e.natAbs) []
        (fun c hc => Nat.isDigit_of_mem_toDigits (by decide) (by decide) hc)
        (fun c hc => by cases hc)
      rw [List.append_nil] at h
      exact h
    have hvalue : ofDigits ((Nat.toDigits 10 e.natAbs).map digitOf) = e.natAbs := by
      rw [ofDigits_map, Nat.ofDigitChars_ten_toDigits]
    have hne : (Nat.toDigits 10 e.natAbs).map digitOf ≠ [] := by
      rw [ne_eq, List.map_eq_nil_iff]
      exact Nat.toDigits_ne_nil
    obtain ⟨x, xs, hxs⟩ := List.exists_cons_of_ne_nil hne
    rw [hxs] at hdigits hvalue
    by_cases he : e < 0
    · have hspan : spanSign ('-' :: Nat.toDigits 10 e.natAbs) = (true, Nat.toDigits 10 e.natAbs) := rfl
      unfold exponentText spanExponent
      simp only [he, if_true, or_true]
      rw [hspan]
      dsimp only
      rw [hdigits]
      dsimp only
      rw [hvalue, if_pos rfl, Option.getD_some, Int.ofNat_natAbs_of_nonpos he.le, neg_neg]
    · have hspan : spanSign ('+' :: Nat.toDigits 10 e.natAbs) = (false, Nat.toDigits 10 e.natAbs) := rfl
      unfold exponentText spanExponent
      simp only [he, if_false, or_true, if_true]
      rw [hspan]
      dsimp only
      rw [hdigits]
      dsimp only
      rw [hvalue, Option.getD_some]
      simp only [Bool.false_eq_true, if_false]
      congr 1
      omega

end

theorem text_plain (d : Written) : (strip d.text).filter (· ≠ '_') = d.text := by
  have hparts := d.parts_spec
  have hchars : ∀ c ∈ d.text, writtenChar c = true :=
    assembled_chars hparts.whole_digits hparts.fraction_digits
  rw [strip_plain fun c hc => (writtenChar_plain (hchars c hc)).1]
  exact List.filter_eq_self.2 fun c hc => decide_eq_true (writtenChar_plain (hchars c hc)).2

/-- **A number is read back as it was written.** -/
theorem read_text (d : Written) : read d.text = some d := by
  have hparts := d.parts_spec
  unfold read
  rw [text_plain, text, spanSign_assembled hparts.whole_digits hparts.whole_ne]
  dsimp only
  rw [spanDigits_assembled hparts.whole_digits]
  dsimp only
  rw [spanFraction_assembled hparts.fraction_digits]
  dsimp only
  rw [spanExponent_text]
  dsimp only
  have hne : (d.parts.1.map digitOf).isEmpty = false := by
    rw [List.isEmpty_map, List.isEmpty_eq_false_iff]
    exact hparts.whole_ne
  rw [hne, Bool.false_and, List.isEmpty_nil, Bool.not_true, Bool.or_false, if_neg Bool.false_ne_true,
    ← List.map_append, hparts.coefficient, List.length_map, hparts.exponent]

/-- **The text of a number denotes its value.** -/
theorem parseDec_text (d : Written) : parseDec d.text = some (.fin d.value) := by
  have hparts := d.parts_spec
  have hscan : scanNumber d.text = some (d.value, []) := by
    unfold scanNumber
    rw [text, spanSign_assembled hparts.whole_digits hparts.whole_ne]
    dsimp only
    rw [spanDigits_assembled hparts.whole_digits]
    dsimp only
    rw [spanFraction_assembled hparts.fraction_digits]
    dsimp only
    rw [spanExponent_text]
    dsimp only
    have hne : (d.parts.1.map digitOf).isEmpty = false := by
      rw [List.isEmpty_map, List.isEmpty_eq_false_iff]
      exact hparts.whole_ne
    have hscale : (d.coefficient : ℚ) / 10 ^ d.parts.2.1.length * 10 ^ d.parts.2.2.getD 0 =
        d.coefficient * 10 ^ d.exponent := by
      rw [← hparts.exponent, zpow_sub₀ (by norm_num), zpow_natCast]
      ring
    rw [hne, Bool.false_and, if_neg Bool.false_ne_true, ← List.map_append, hparts.coefficient,
      List.length_map, hscale, value]
    cases d.negative <;> simp
  unfold parseDec
  rw [text_plain]
  simp only [hscan]

theorem toList_str (d : Written) : d.str.toList = d.text := String.toList_ofList

theorem read_str (d : Written) : read d.str.toList = some d := by rw [toList_str, read_text]

/-- A number starts with a digit or a minus sign. -/
theorem text_head (d : Written) : ∃ c ∈ d.text.head?, c.isDigit = true ∨ c = '-' := by
  have hparts := d.parts_spec
  obtain ⟨c, cs, hwhole⟩ := List.exists_cons_of_ne_nil hparts.whole_ne
  unfold text assembled
  cases d.negative with
  | true => exact ⟨'-', rfl, .inr rfl⟩
  | false =>
    refine ⟨c, ?_, .inl (hparts.whole_digits c (by rw [hwhole]; exact List.mem_cons_self))⟩
    rw [hwhole]
    rfl

/-! ## Positional texts -/

/-- The digits before and behind the point of a positional text. -/
def fixedParts (d : Written) : List Char × List Char :=
  if d.coefficient = 0 ∧ 0 < d.exponent then (['0'], [])
  else if d.point ≤ 0 then (['0'], List.replicate (-d.point).toNat '0' ++ d.digits)
  else (d.digits.take d.point.toNat ++ List.replicate (d.point.toNat - d.digits.length) '0',
    d.digits.drop d.point.toNat)

/-- `format(d, "f")` -/
def fixed (d : Written) : List Char := signedDecimal d.negative d.fixedParts.1 d.fixedParts.2

example : fixed ⟨false, 15, 3⟩ = "15000".toList := by decide
example : fixed ⟨true, 15, -8⟩ = "-0.00000015".toList := by decide

theorem fixedParts_spec (d : Written) : (∀ c ∈ d.fixedParts.1, c.isDigit = true) ∧
    d.fixedParts.1 ≠ [] ∧ ∀ c ∈ d.fixedParts.2, c.isDigit = true := by
  have hpos := d.digits_length_pos
  have hdigit := d.digits_isDigit
  have hzero : ∀ c ∈ ['0'], c.isDigit = true := by
    intro c hc
    rw [List.mem_singleton.1 hc]
    decide
  have hzeros : ∀ n, ∀ c ∈ List.replicate n '0', c.isDigit = true := by
    intro n c hc
    rw [List.eq_of_mem_replicate hc]
    decide
  unfold fixedParts
  split
  · exact ⟨hzero, List.cons_ne_nil _ _, fun c hc => absurd hc List.not_mem_nil⟩
  split
  · refine ⟨hzero, List.cons_ne_nil _ _, ?_⟩
    intro c hc
    rcases List.mem_append.1 hc with hc | hc
    · exact hzeros _ c hc
    · exact hdigit c hc
  · refine ⟨?_, ?_, fun c hc => hdigit c (List.mem_of_mem_drop hc)⟩
    · intro c hc
      rcases List.mem_append.1 hc with hc | hc
      · exact hdigit c (List.mem_of_mem_take hc)
      · exact hzeros _ c hc
    · apply List.ne_nil_of_length_pos
      rw [List.length_append, List.length_take]
      omega

/-- A positional text denotes a finite number. -/
theorem parseDec_fixed (d : Written) : ∃ q, parseDec d.fixed = some (.fin q) := by
  obtain ⟨hwhole, hne, hfraction⟩ := d.fixedParts_spec
  refine ⟨_, parseDec_of_scanNumber ?_ (scanNumber_signedDecimal hwhole hne hfraction)⟩
  intro c hc
  rcases List.mem_append.1 hc with hc | hc
  · rcases List.mem_append.1 hc with hc | hc
    · split at hc
      · rw [List.mem_singleton.1 hc]
        decide
      · cases hc
    · simp [decimalChar, hwhole c hc]
  · split at hc
    · cases hc
    · rcases List.mem_cons.1 hc with rfl | hc
      · decide
      · simp [decimalChar, hfraction c hc]

end Written

end Matrades.Base
