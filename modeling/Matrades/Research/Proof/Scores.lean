import Matrades.Base.Result
import Matrades.Research.Workflow

/-!
# Scores are between 0 and 100

Every measure of an eligible candidate is between 0 and 1 (`measure_within`), so its score is between 0
and 100 (`measured_within`), and the adjustments of the agents keep it there (`Scored.adjust`). So the
models of fingerprints and candidates accept what a lane builds.
-/

namespace Matrades

open Base

/-! ## Measures -/

def UnitInterval (x : ℚ) : Prop := 0 ≤ x ∧ x ≤ 1

theorem clampUnit_unit (x : ℚ) : UnitInterval (clampUnit x) :=
  ⟨le_max_left _ _, max_le (by norm_num) (min_le_left _ _)⟩

theorem half_unit : UnitInterval (1 / 2) := by
  constructor <;> norm_num

theorem UnitInterval.complement {x : ℚ} (h : UnitInterval x) : UnitInterval (1 - x) := by
  obtain ⟨h0, h1⟩ := h
  constructor <;> linarith

theorem abs_sum_le (xs : List ℚ) : |xs.sum| ≤ (xs.map abs).sum := by
  induction xs with
  | nil => simp
  | cons x xs ih =>
    rw [List.map_cons, List.sum_cons, List.sum_cons]
    exact (abs_add_le x xs.sum).trans (by linarith)

theorem efficiency_unit (xs : List ℚ) : UnitInterval (|xs.sum| / (xs.map abs).sum) := by
  have hle := abs_sum_le xs
  have hnonneg : 0 ≤ (xs.map abs).sum := (abs_nonneg _).trans hle
  exact ⟨div_nonneg (abs_nonneg _) hnonneg, div_le_one_of_le₀ hle hnonneg⟩

theorem foldr_min_le (x : ℚ) (xs : List ℚ) : xs.foldr min x ≤ x := by
  induction xs with
  | nil => exact le_refl _
  | cons y ys ih => exact (min_le_right _ _).trans ih

theorem le_foldr_max (x : ℚ) (xs : List ℚ) : x ≤ xs.foldr max x := by
  induction xs with
  | nil => exact le_refl _
  | cons y ys ih => exact ih.trans (le_max_right _ _)

/-- The place of a value in a range that contains it. -/
theorem rangePosition_unit {low high x : ℚ} (hlow : low ≤ x) (hhigh : x ≤ high) :
    UnitInterval (if low < high then (x - low) / (high - low) else 1 / 2) := by
  split
  · have hpos : 0 < high - low := by linarith
    exact ⟨div_nonneg (by linarith) hpos.le, div_le_one_of_le₀ (by linarith) hpos.le⟩
  · exact half_unit

/-- The event risk of a valid snapshot. -/
theorem event_unit {s : TypedResearchSnapshot} (h : s.valid = true) :
    UnitInterval ((s.eventRisk.bind PyFloat.finite?).elim (1 / 2) (1 - ·)) := by
  have hrisk : (s.eventRisk.all fun x => x.atLeast 0 && x.atMost 1) = true := by
    simp only [TypedResearchSnapshot.valid, Bool.and_eq_true] at h
    exact h.2
  cases hr : s.eventRisk with
  | none => exact half_unit
  | some x =>
    rw [hr, Option.all_some, Bool.and_eq_true] at hrisk
    cases x with
    | finite q =>
      simp only [PyFloat.atLeast, PyFloat.atMost, decide_eq_true_eq] at hrisk
      exact UnitInterval.complement hrisk
    | posInf => exact half_unit
    | negInf => exact half_unit
    | nan => exact half_unit

structure Measures.Within (m : Measures) : Prop where
  efficiency : UnitInterval m.efficiency
  structure_ : UnitInterval m.structure_
  volatilitySuitability : UnitInterval m.volatilitySuitability
  cost : UnitInterval m.cost
  alignment : UnitInterval m.alignment
  event : UnitInterval m.event

theorem measure_within {s : TypedResearchSnapshot} (h : s.valid = true) (q : EligibleQuote) :
    (measure s q).Within := by
  have hplace := rangePosition_unit (foldr_min_le (q.prices.getLastD 0) (lastOf 20 q.prices))
    (le_foldr_max (q.prices.getLastD 0) (lastOf 20 q.prices))
  constructor <;> dsimp only [measure]
  · exact efficiency_unit _
  · split
    · exact hplace
    · exact hplace.complement
  · exact clampUnit_unit _
  · split
    · exact clampUnit_unit _
    · exact half_unit
  · split
    · exact half_unit
    split
    · constructor <;> norm_num
    · constructor <;> norm_num
  · exact event_unit h

/-! ## Scores -/

def Score (x : ℚ) : Prop := 0 ≤ x ∧ x ≤ 100

theorem Score.roundTo {x : ℚ} (h : Score x) (places : ℕ) : Score (Base.roundTo places x) := by
  have hround := roundTo_mem places (a := 0) (b := 100) (by exact_mod_cast h.1)
    (by exact_mod_cast h.2)
  exact_mod_cast hround

theorem Measures.Within.score {m : Measures} (h : m.Within) : Score m.score := by
  obtain ⟨⟨e0, e1⟩, ⟨s0, s1⟩, ⟨v0, v1⟩, ⟨c0, c1⟩, ⟨a0, a1⟩, ⟨n0, n1⟩⟩ := h
  constructor
  · unfold Measures.score
    linarith
  · unfold Measures.score
    linarith

theorem quality_unit (s : TypedResearchSnapshot) : UnitInterval (qualityOf s) := by
  unfold qualityOf
  split_ifs <;> constructor <;> norm_num

/-- **What is measured has a score between 0 and 100, and a quality between 0 and 1.** -/
theorem measured_within {zones : ZoneDatabase} {s : TypedResearchSnapshot} {now : ℤ}
    {m : MeasuredCandidate} (hs : s.valid = true) (h : typedFingerprint zones s now = .ok m) :
    Score m.score ∧ m.fingerprint.valid = true := by
  unfold typedFingerprint at h
  obtain ⟨q, -, h⟩ := ok_of_bind h
  obtain ⟨_, -, h⟩ := ok_of_bind h
  cases h
  refine ⟨(measure_within hs q).score.roundTo 6, ?_⟩
  have hquality := quality_unit s
  have hround := roundTo_mem 6 (a := 0) (b := 1) (by exact_mod_cast hquality.1)
    (by exact_mod_cast hquality.2)
  simp only [TypedMarketFingerprint.valid, Bool.and_eq_true, decide_eq_true_eq]
  exact_mod_cast hround

/-! ## Adjustments -/

/-- All scores are between 0 and 100. -/
def AllScores (d : Dict String ℚ) : Prop := ∀ symbol x, d.get? symbol = some x → Score x

/-- The scores stay scores, and the scored symbols scored. -/
def Scored (base d : Dict String ℚ) : Prop :=
  AllScores d ∧ ∀ symbol, (base.get? symbol).isSome = true → (d.get? symbol).isSome = true

theorem adjusted_score {b x : ℚ} (hb : Score b) :
    Score (max (max 0 (b - 15)) (min (min 100 (b + 15)) x)) := by
  obtain ⟨-, hb⟩ := hb
  constructor
  · exact (le_max_left _ _).trans (le_max_left _ _)
  · apply max_le
    · exact max_le (by norm_num) (by linarith)
    · exact (min_le_left _ _).trans (min_le_left _ _)

/-- **The agents keep the scores between 0 and 100.** -/
theorem Scored.adjust {base adjusted : Dict String ℚ} (hbase : AllScores base)
    (h : Scored base adjusted) (adjustments : Dict String ℚ) :
    Scored base (adjustScores base adjusted adjustments) := by
  unfold adjustScores
  induction adjustments.entries generalizing adjusted with
  | nil => exact h
  | cons e es ih =>
    apply ih
    dsimp only
    split
    · exact h
    rename_i score hscore
    constructor
    · intro symbol x hx
      by_cases heq : symbol = e.1
      · subst heq
        rw [Dict.get?_set_self] at hx
        cases hx
        apply adjusted_score
        cases hb : base.get? e.1 with
        | none => exact ⟨le_refl _, by norm_num⟩
        | some b => exact hbase e.1 b hb
      · rw [Dict.get?_set_ne _ _ heq] at hx
        exact h.1 symbol x hx
    · intro symbol hsymbol
      by_cases heq : symbol = e.1
      · subst heq
        rw [Dict.get?_set_self]
        rfl
      · rw [Dict.get?_set_ne _ _ heq]
        exact h.2 symbol hsymbol

end Matrades
