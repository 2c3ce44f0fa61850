import Mathlib.Data.Rat.Floor
import Mathlib.Tactic.FieldSimp
import Mathlib.Tactic.Linarith
import Mathlib.Tactic.Positivity
import Mathlib.Tactic.Ring

/-!
# Decimals in exact arithmetic

`Dec` is the value set of a decimal number type with infinities and a quiet NaN, with exact
rationals for the finite values. An operation that signals (`∞ - ∞`, `0 * ∞`, an order comparison
with NaN) is `none`.

Numbers as text: `scanNumber` reads the longest numeral at the start of a text, `toDouble` is the
lenient reader built on it (0 where no numeral starts), `parseDec` the strict one (the whole text,
the special values included), `decText` writes a rational that has a finite decimal expansion, and is
read back exactly (`parseDec_decText`).
-/

namespace Matrades.Base

/-- A decimal value; only `fin` is a number. -/
inductive Dec
  | fin (q : ℚ)
  | inf (negative : Bool)
  | nan
  deriving DecidableEq

namespace Dec

def isFinite : Dec → Bool
  | fin _ => true
  | _ => false

def add : Dec → Dec → Option Dec
  | fin a, fin b => some (fin (a + b))
  | nan, _ => some nan
  | _, nan => some nan
  | inf s, inf t => if s = t then some (inf s) else none
  | inf s, fin _ => some (inf s)
  | fin _, inf t => some (inf t)

def neg : Dec → Dec
  | fin a => fin (-a)
  | inf s => inf (!s)
  | nan => nan

def sub (a b : Dec) : Option Dec := add a b.neg

/-- A rational times a decimal: `0 * ∞` signals. -/
def smul (w : ℚ) : Dec → Option Dec
  | fin a => some (fin (w * a))
  | inf s => if w = 0 then none else some (inf (if w < 0 then !s else s))
  | nan => some nan

/-- `a < b`; an order comparison with NaN signals. -/
def lt : Dec → Dec → Option Bool
  | nan, _ => none
  | _, nan => none
  | fin a, fin b => some (decide (a < b))
  | inf s, inf t => some (s && !t)
  | inf s, fin _ => some s
  | fin _, inf t => some (!t)

@[simp] theorem add_fin (a b : ℚ) : add (fin a) (fin b) = some (fin (a + b)) := rfl
@[simp] theorem sub_fin (a b : ℚ) : sub (fin a) (fin b) = some (fin (a - b)) := by
  simp [sub, neg, sub_eq_add_neg]
@[simp] theorem smul_fin (w a : ℚ) : smul w (fin a) = some (fin (w * a)) := rfl
@[simp] theorem lt_fin (a b : ℚ) : lt (fin a) (fin b) = some (decide (a < b)) := rfl
@[simp] theorem isFinite_fin (a : ℚ) : isFinite (fin a) = true := rfl
@[simp] theorem isFinite_inf (s : Bool) : isFinite (inf s) = false := rfl
@[simp] theorem isFinite_nan : isFinite nan = false := rfl

theorem isFinite_iff {d : Dec} : d.isFinite = true ↔ ∃ q, d = fin q := by
  cases d <;> simp

end Dec

/-! ## Rounding to a step -/

/-- The largest multiple of `step` towards zero from `x`. -/
def floorTo (x step : ℚ) : ℚ :=
  (if 0 ≤ x / step then ⌊x / step⌋ else ⌈x / step⌉ : ℤ) * step

theorem floorTo_le {x step : ℚ} (hx : 0 ≤ x) (hs : 0 < step) : floorTo x step ≤ x := by
  have hq : 0 ≤ x / step := div_nonneg hx hs.le
  have h := Int.floor_le (x / step)
  unfold floorTo
  rw [if_pos hq]
  calc (⌊x / step⌋ : ℚ) * step ≤ x / step * step := mul_le_mul_of_nonneg_right h hs.le
    _ = x := div_mul_cancel₀ x hs.ne'

theorem floorTo_nonneg {x step : ℚ} (hx : 0 ≤ x) (hs : 0 < step) : 0 ≤ floorTo x step := by
  have hq : 0 ≤ x / step := div_nonneg hx hs.le
  unfold floorTo
  rw [if_pos hq]
  exact mul_nonneg (by exact_mod_cast Int.floor_nonneg.2 hq) hs.le

/-- A multiple of the step below `x` is below the rounded value. -/
theorem le_floorTo {x step : ℚ} {n : ℤ} (hx : 0 ≤ x) (hs : 0 < step) (h : n * step ≤ x) :
    n * step ≤ floorTo x step := by
  have hq : 0 ≤ x / step := div_nonneg hx hs.le
  have hn : n ≤ ⌊x / step⌋ := Int.le_floor.2 ((le_div_iff₀ hs).2 h)
  unfold floorTo
  rw [if_pos hq]
  exact mul_le_mul_of_nonneg_right (by exact_mod_cast hn) hs.le

/-- A rounded value is a whole number of steps. -/
theorem floorTo_steps {x step : ℚ} (hx : 0 ≤ x) (hs : 0 < step) :
    ∃ n : ℕ, floorTo x step = n * step := by
  have hq : 0 ≤ x / step := div_nonneg hx hs.le
  obtain ⟨n, hn⟩ := Int.eq_ofNat_of_zero_le (Int.floor_nonneg.2 hq)
  refine ⟨n, ?_⟩
  rw [floorTo, if_pos hq, hn, Int.cast_natCast]

/-! ## Numbers as text -/

def digitOf (c : Char) : Nat := c.toNat - '0'.toNat

/-- The leading digits and the rest. -/
def spanDigits : List Char → List Nat × List Char
  | [] => ([], [])
  | c :: cs =>
    if c.isDigit then (digitOf c :: (spanDigits cs).1, (spanDigits cs).2) else ([], c :: cs)

def ofDigits (ds : List Nat) : Nat := ds.foldl (fun n d => 10 * n + d) 0

/-- A leading sign (`true` for minus) and the rest. -/
def spanSign : List Char → Bool × List Char
  | '-' :: cs => (true, cs)
  | '+' :: cs => (false, cs)
  | cs => (false, cs)

/-- The exponent part, if one starts here; `0` and the same text otherwise. -/
def spanExponent (cs : List Char) : Int × List Char :=
  match cs with
  | e :: rest =>
    if e = 'e' ∨ e = 'E' then
      let (negative, rest) := spanSign rest
      match spanDigits rest with
      | ([], _) => (0, cs)
      | (ds, rest) => (if negative then -(ofDigits ds : Int) else ofDigits ds, rest)
    else (0, cs)
  | [] => (0, cs)

/-- The fraction's digits after a point, if a point is next. -/
def spanFraction : List Char → List Nat × List Char
  | '.' :: cs => spanDigits cs
  | cs => ([], cs)

/-- The longest numeral at the start of the text, and the rest. -/
def scanNumber (cs : List Char) : Option (ℚ × List Char) :=
  let (negative, r₁) := spanSign cs
  let (whole, r₂) := spanDigits r₁
  let (fraction, r₃) := spanFraction r₂
  if whole.isEmpty && fraction.isEmpty then none
  else
    let (exponent, r₄) := spanExponent r₃
    let magnitude : ℚ := ofDigits (whole ++ fraction) / 10 ^ fraction.length * 10 ^ exponent
    some (if negative then -magnitude else magnitude, r₄)

/-- The lenient reader: leading blanks skipped, 0 where no numeral starts, the rest ignored. -/
def toDouble (cs : List Char) : ℚ :=
  match scanNumber (cs.dropWhile Char.isWhitespace) with
  | some (q, _) => q
  | none => 0

def strip (cs : List Char) : List Char :=
  ((cs.dropWhile Char.isWhitespace).reverse.dropWhile Char.isWhitespace).reverse

/-- The strict reader: the whole text is a numeral or a special value, underscores aside. -/
def parseDec (cs : List Char) : Option Dec :=
  let t := (strip cs).filter (· ≠ '_')
  match scanNumber t with
  | some (q, []) => some (.fin q)
  | _ =>
    let (negative, r) := spanSign t
    let word := String.ofList (r.map Char.toLower)
    if word = "inf" ∨ word = "infinity" then some (.inf negative)
    else if word = "nan" then some .nan
    else none

/-- The digits of `r / d` after the point, at most `fuel` of them (`r < d`). -/
def fractionDigits : Nat → Nat → Nat → List Char
  | 0, _, _ => []
  | fuel + 1, r, d =>
    if r = 0 then [] else Nat.digitChar (10 * r / d) :: fractionDigits fuel (10 * r % d) d

/-- The shortest positional text of a rational with a finite decimal expansion. -/
def decText (q : ℚ) : List Char :=
  let n := q.num.natAbs
  let fraction := fractionDigits q.den (n % q.den) q.den
  (if q.num < 0 then ['-'] else []) ++ Nat.toDigits 10 (n / q.den) ++
    (if fraction.isEmpty then [] else '.' :: fraction)

example : decText (-5 / 4) = "-1.25".toList := by decide +kernel
example : parseDec "-1.25".toList = some (.fin (-5 / 4)) := by decide +kernel
example : toDouble "2.5e1,x".toList = 25 := by decide +kernel

/-! ## Reading back what is written -/

/-- Digits are read up to the first character that is none. -/
theorem spanDigits_append {ds rest : List Char} (hds : ∀ c ∈ ds, c.isDigit = true)
    (hrest : ∀ c ∈ rest.head?, c.isDigit = false) :
    spanDigits (ds ++ rest) = (ds.map digitOf, rest) := by
  induction ds with
  | nil =>
    cases rest with
    | nil => rfl
    | cons c cs => simp [spanDigits, hrest c rfl]
  | cons d ds ih =>
    have hd : d.isDigit = true := hds d (by simp)
    simp [spanDigits, hd, ih fun c hc => hds c (by simp [hc])]

theorem not_sign_of_isDigit {c : Char} (h : c.isDigit = true) : c ≠ '-' ∧ c ≠ '+' := by
  constructor <;> rintro rfl <;> exact absurd h (by decide)

theorem spanSign_digits {c : Char} {cs : List Char} (h : c.isDigit = true) :
    spanSign (c :: cs) = (false, c :: cs) := by
  obtain ⟨hminus, hplus⟩ := not_sign_of_isDigit h
  unfold spanSign
  split
  · rename_i heq; cases heq; exact absurd rfl hminus
  · rename_i heq; cases heq; exact absurd rfl hplus
  · rfl

/-- The text of a sign, a whole part and a fraction. -/
def signedDecimal (negative : Bool) (whole fraction : List Char) : List Char :=
  (if negative then ['-'] else []) ++ whole ++ (if fraction.isEmpty then [] else '.' :: fraction)

theorem scanNumber_signedDecimal {negative : Bool} {whole fraction : List Char}
    (hwhole : ∀ c ∈ whole, c.isDigit = true) (hne : whole ≠ [])
    (hfraction : ∀ c ∈ fraction, c.isDigit = true) :
    scanNumber (signedDecimal negative whole fraction) =
      some ((if negative then -1 else 1) *
        ((ofDigits ((whole ++ fraction).map digitOf) : ℚ) / 10 ^ fraction.length), []) := by
  obtain ⟨d, ds, rfl⟩ := List.exists_cons_of_ne_nil hne
  have hsign : spanSign (signedDecimal negative (d :: ds) fraction) =
      (negative, (d :: ds) ++ (if fraction.isEmpty then [] else '.' :: fraction)) := by
    cases negative with
    | true => rfl
    | false => exact spanSign_digits (hwhole d (by simp))
  have hrest : ∀ c ∈ (if fraction.isEmpty then [] else '.' :: fraction).head?, c.isDigit = false := by
    cases fraction with
    | nil => nofun
    | cons c cs => rintro _ ⟨⟩; decide
  have hspan := spanDigits_append hwhole hrest
  have hfrac : spanFraction (if fraction.isEmpty then [] else '.' :: fraction) =
      (fraction.map digitOf, []) := by
    cases fraction with
    | nil => rfl
    | cons c cs =>
      have h : spanDigits ((c :: cs) ++ []) = ((c :: cs).map digitOf, []) :=
        spanDigits_append hfraction nofun
      rw [List.append_nil] at h
      exact h
  unfold scanNumber
  rw [hsign]
  dsimp only
  rw [hspan]
  dsimp only
  rw [hfrac]
  cases negative <;> simp [spanExponent]

/-- The characters of a written decimal. -/
def decimalChar (c : Char) : Bool := c.isDigit || c = '-' || c = '.'

theorem decimalChar_plain {c : Char} (h : decimalChar c = true) :
    c.isWhitespace = false ∧ c ≠ '_' := by
  simp only [decimalChar, Bool.or_eq_true, decide_eq_true_eq] at h
  rcases h with (h | rfl) | rfl
  · refine ⟨?_, fun hc => absurd (hc ▸ h) (by decide)⟩
    rw [Char.isDigit, Bool.and_eq_true, decide_eq_true_eq, decide_eq_true_eq] at h
    simp only [Char.isWhitespace, Bool.or_eq_false_iff, decide_eq_false_iff_not]
    refine ⟨⟨⟨?_, ?_⟩, ?_⟩, ?_⟩ <;> rintro rfl <;> exact absurd h.1 (by decide)
  · exact ⟨by decide, by decide⟩
  · exact ⟨by decide, by decide⟩

theorem dropWhile_plain {cs : List Char} (h : ∀ c ∈ cs, c.isWhitespace = false) :
    cs.dropWhile Char.isWhitespace = cs := by
  cases cs with
  | nil => rfl
  | cons c cs => simp [h c (by simp)]

theorem strip_plain {cs : List Char} (h : ∀ c ∈ cs, c.isWhitespace = false) : strip cs = cs := by
  unfold strip
  rw [dropWhile_plain h, dropWhile_plain fun c hc => h c (List.mem_reverse.1 hc), List.reverse_reverse]

/-- A text that is one numeral denotes it. -/
theorem parseDec_of_scanNumber {cs : List Char} {q : ℚ} (hplain : ∀ c ∈ cs, decimalChar c = true)
    (hscan : scanNumber cs = some (q, [])) : parseDec cs = some (.fin q) := by
  have hstrip : strip cs = cs := strip_plain fun c hc => (decimalChar_plain (hplain c hc)).1
  have hfilter : cs.filter (· ≠ '_') = cs :=
    List.filter_eq_self.2 fun c hc => by simpa using (decimalChar_plain (hplain c hc)).2
  unfold parseDec
  rw [hstrip, hfilter]
  simp only [hscan]

theorem fractionDigits_isDigit {fuel r d : Nat} (hr : r < d) :
    ∀ c ∈ fractionDigits fuel r d, c.isDigit = true := by
  induction fuel generalizing r with
  | zero => nofun
  | succ fuel ih =>
    unfold fractionDigits
    split
    · nofun
    · intro c hc
      rcases List.mem_cons.1 hc with rfl | hc
      · have hdigit : 10 * r / d < 10 := Nat.div_lt_of_lt_mul (by omega)
        simp [hdigit]
      · exact ih (Nat.mod_lt _ (by omega)) c hc

theorem ofDigits_map (cs : List Char) : ofDigits (cs.map digitOf) = Nat.ofDigitChars 10 cs 0 :=
  List.foldl_map

/-- The digits of a fraction that ends within the fuel. -/
theorem fractionDigits_value {fuel r d : Nat} (hr : r < d) (hends : d ∣ 10 ^ fuel * r) :
    (Nat.ofDigitChars 10 (fractionDigits fuel r d) 0 : ℚ) / 10 ^ (fractionDigits fuel r d).length =
      r / d := by
  have hd : (d : ℚ) ≠ 0 := by exact_mod_cast (by omega : d ≠ 0)
  induction fuel generalizing r with
  | zero =>
    have hzero : r = 0 := Nat.eq_zero_of_dvd_of_lt (by simpa using hends) hr
    simp [fractionDigits, hzero]
  | succ fuel ih =>
    unfold fractionDigits
    split
    · rename_i hzero
      simp [hzero]
    · have hdigit : 10 * r / d < 10 := Nat.div_lt_of_lt_mul (by omega)
      have hnext : d ∣ 10 ^ fuel * (10 * r % d) := by
        have hsplit : 10 ^ fuel * (10 * r) = 10 ^ fuel * (10 * r % d) + 10 ^ fuel * (10 * r / d) * d := by
          calc 10 ^ fuel * (10 * r) = 10 ^ fuel * (10 * r % d + d * (10 * r / d)) := by
                rw [Nat.mod_add_div]
            _ = _ := by ring
        have hdvd : d ∣ 10 ^ fuel * (10 * r) := by
          have : 10 ^ (fuel + 1) * r = 10 ^ fuel * (10 * r) := by ring
          rwa [this] at hends
        rw [hsplit] at hdvd
        exact (Nat.dvd_add_left (Dvd.intro_left _ rfl)).1 hdvd
      have hrest := ih (Nat.mod_lt (10 * r) (by omega)) hnext
      have hdiv : ((10 * r / d : ℕ) : ℚ) * d + ((10 * r % d : ℕ) : ℚ) = 10 * r := by
        exact_mod_cast Nat.div_add_mod' (10 * r) d
      rw [Nat.ofDigitChars_cons_digitChar_of_lt_ten hdigit, Nat.ofDigitChars_eq_ofDigitChars_zero,
        List.length_cons]
      push_cast
      rw [pow_succ, add_div, zero_add]
      have hpow : (10 : ℚ) ^ (fractionDigits fuel (10 * r % d) d).length ≠ 0 := by positivity
      rw [← div_div, ← div_div, mul_div_cancel_left₀ _ hpow, hrest]
      field_simp
      linarith

/-- A rational that has a finite decimal expansion. -/
def IsDecimal (q : ℚ) : Prop := q.den ∣ 10 ^ q.den

theorem decText_eq (q : ℚ) : decText q = signedDecimal (decide (q.num < 0))
    (Nat.toDigits 10 (q.num.natAbs / q.den)) (fractionDigits q.den (q.num.natAbs % q.den) q.den) := by
  simp [decText, signedDecimal]

theorem decText_chars (q : ℚ) : ∀ c ∈ decText q, decimalChar c = true := by
  have hfraction : ∀ c ∈ fractionDigits q.den (q.num.natAbs % q.den) q.den, c.isDigit = true :=
    fractionDigits_isDigit (Nat.mod_lt q.num.natAbs q.pos)
  intro c hc
  rw [decText_eq, signedDecimal, List.mem_append, List.mem_append] at hc
  rcases hc with (hc | hc) | hc
  · split at hc
    · rw [List.mem_singleton.1 hc]; decide
    · cases hc
  · simp [decimalChar, Nat.isDigit_of_mem_toDigits (by decide) (by decide) hc]
  · split at hc
    · cases hc
    · rcases List.mem_cons.1 hc with rfl | hc
      · decide
      · simp [decimalChar, hfraction c hc]

theorem scanNumber_decText (q : ℚ) : scanNumber (decText q) = some ((if q.num < 0 then -1 else 1) *
    ((ofDigits ((Nat.toDigits 10 (q.num.natAbs / q.den) ++
      fractionDigits q.den (q.num.natAbs % q.den) q.den).map digitOf) : ℚ) /
        10 ^ (fractionDigits q.den (q.num.natAbs % q.den) q.den).length), []) := by
  rw [decText_eq, scanNumber_signedDecimal
    (fun c hc => Nat.isDigit_of_mem_toDigits (by decide) (by decide) hc) Nat.toDigits_ne_nil
    (fractionDigits_isDigit (Nat.mod_lt _ q.pos))]
  simp

/-- Every written decimal is read as a number. -/
theorem parseDec_decText_isFinite (q : ℚ) : ∃ r, parseDec (decText q) = some (.fin r) :=
  ⟨_, parseDec_of_scanNumber (decText_chars q) (scanNumber_decText q)⟩

/-- **A decimal is read back as written.** -/
theorem parseDec_decText {q : ℚ} (h : IsDecimal q) : parseDec (decText q) = some (.fin q) := by
  rw [parseDec_of_scanNumber (decText_chars q) (scanNumber_decText q)]
  have hends : q.den ∣ 10 ^ q.den * (q.num.natAbs % q.den) := Dvd.dvd.mul_right h _
  have hfraction := fractionDigits_value (Nat.mod_lt q.num.natAbs q.pos) hends
  have hden : (q.den : ℚ) ≠ 0 := by exact_mod_cast q.pos.ne'
  have habs : ((q.num.natAbs / q.den : ℕ) : ℚ) + ((q.num.natAbs % q.den : ℕ) : ℚ) / q.den =
      (q.num.natAbs : ℚ) / q.den := by
    have hdiv : ((q.num.natAbs / q.den : ℕ) : ℚ) * q.den + ((q.num.natAbs % q.den : ℕ) : ℚ) =
        q.num.natAbs := by exact_mod_cast Nat.div_add_mod' _ _
    field_simp
    exact hdiv
  have hvalue : (ofDigits ((Nat.toDigits 10 (q.num.natAbs / q.den) ++
      fractionDigits q.den (q.num.natAbs % q.den) q.den).map digitOf) : ℚ) /
        10 ^ (fractionDigits q.den (q.num.natAbs % q.den) q.den).length = (q.num.natAbs : ℚ) / q.den := by
    rw [ofDigits_map, Nat.ofDigitChars_append, Nat.ofDigitChars_ten_toDigits,
      Nat.ofDigitChars_eq_ofDigitChars_zero]
    push_cast
    rw [add_div, mul_div_cancel_left₀ _ (by positivity), hfraction, habs]
  rw [hvalue]
  congr 2
  rcases lt_or_ge q.num 0 with hneg | hpos
  · rw [if_pos hneg]
    have hcast : ((q.num.natAbs : ℕ) : ℚ) = -(q.num : ℚ) := by
      rw [Nat.cast_natAbs, abs_of_neg hneg, Int.cast_neg]
    rw [hcast, neg_div, neg_one_mul, neg_neg, Rat.num_div_den]
  · rw [if_neg (not_lt.2 hpos)]
    have hcast : ((q.num.natAbs : ℕ) : ℚ) = (q.num : ℚ) := by
      rw [Nat.cast_natAbs, abs_of_nonneg hpos]
    rw [hcast, one_mul, Rat.num_div_den]

end Matrades.Base
