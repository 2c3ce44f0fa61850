import Matrades.Risk.Proof.Monotone

/-!
# Exposures and reserved risk

The exposures of the categories sum up to the risk of all positions (`categories_sum`). Reserved risk
counts a loss of zero as nothing, the exposures count it as unbounded: the two agree exactly where no
remaining loss is zero (`exposure_agrees_iff`).
-/

namespace Matrades

open Base

/-- Is the group a category? -/
def isCategory (group : String) : Bool := "category:".toList.isPrefixOf group.toList

theorem isCategory_category (category : String) : isCategory (categoryGroup category) = true := by
  unfold isCategory categoryGroup
  rw [String.toList_append]
  exact List.isPrefixOf_iff_prefix.2 (List.prefix_append _ _)

theorem not_isCategory_underlying (u : Uuid) : isCategory (underlyingGroup u) = false := by
  unfold isCategory underlyingGroup
  rw [String.toList_append]
  rfl

theorem not_isCategory_currency (currency : String) : isCategory (currencyGroup currency) = false := by
  unfold isCategory currencyGroup
  rw [String.toList_append]
  rfl

/-- A position adds its risk to one category. -/
theorem contributions_category {own : String} {underlying : Option Uuid} {currencies : Dict String ℚ}
    {risk : Exposure} {xs : List (String × Exposure)}
    (h : contributions own underlying currencies risk = .ok xs) :
    ((xs.filter fun e => isCategory e.1).map Prod.snd).sum = risk := by
  obtain ⟨weights, hweights, h⟩ := ok_of_bind h
  cases h
  have hrest : ((underlying.toList.map fun u => (underlyingGroup u, risk)) ++ weights).filter
      (fun e => isCategory e.1) = [] := by
    refine List.filter_eq_nil_iff.2 fun e he => ?_
    rw [Bool.not_eq_true]
    rcases List.mem_append.1 he with he | he
    · obtain ⟨u, -, rfl⟩ := List.mem_map.1 he
      exact not_isCategory_underlying u
    · obtain ⟨currency, -, hcurrency⟩ := ok_mem_of_mapM hweights he
      obtain ⟨x, -, hx⟩ := ok_of_bind hcurrency
      cases hx
      exact not_isCategory_currency currency.1
  rw [Dict.sumOver_cons, hrest, if_pos (isCategory_category own), List.map_nil, List.sum_nil, add_zero]

/-- **The categories share the risk of all positions out.** -/
theorem categories_sum {positions : List OpenPositionRisk} {held : Dict String Exposure}
    (h : aggregateExposure positions none = .ok held) :
    held.sumOver isCategory = (positions.map OpenPositionRisk.risk).sum := by
  obtain ⟨added, hadded, h⟩ := ok_of_bind h
  cases h
  rw [List.append_nil, Dict.sumOver_foldl_addTo]
  have hempty : (Dict.empty : Dict String Exposure).sumOver isCategory = 0 := rfl
  rw [hempty, zero_add]
  have hall := ok_of_mapM hadded
  clear hadded h
  induction hall with
  | nil => rfl
  | @cons p xs positions added hp _ ih =>
    rw [List.flatten_cons, List.filter_append, List.map_append, List.sum_append, ih,
      contributions_category hp, List.map_cons, List.sum_cons]

/-- Every position has a remaining loss, and none is negative. -/
def LossBounded (positions : List OpenPositionRisk) : Prop :=
  ∀ p ∈ positions, ∃ loss, p.remainingLossToStop = some loss ∧ 0 ≤ loss

/-- The exposures are reported, and those of the categories sum up to the reserved risk. -/
def ExposureAgrees (positions : List OpenPositionRisk) : Prop :=
  ∃ held total, aggregateExposure positions none = .ok held ∧
    reservedRisk positions false = .ok total ∧ held.sumOver isCategory = (total : Exposure)

theorem risk_sum {positions : List OpenPositionRisk} (h : LossBounded positions)
    (hne : ∀ p ∈ positions, p.remainingLossToStop ≠ some 0) :
    (positions.map OpenPositionRisk.risk).sum =
      (((positions.map fun p => max 0 (p.remainingLossToStop.getD 0)).sum : ℚ) : Exposure) := by
  induction positions with
  | nil => rfl
  | cons p positions ih =>
    obtain ⟨⟨loss, hloss, hnonneg⟩, hrest⟩ := List.forall_mem_cons.1 h
    obtain ⟨hp, hpositions⟩ := List.forall_mem_cons.1 hne
    have hpos : loss ≠ 0 := by
      rintro rfl
      exact hp hloss
    have hrisk : p.risk = (loss : Exposure) := by
      unfold OpenPositionRisk.risk
      rw [hloss]
      exact if_neg hpos
    rw [List.map_cons, List.sum_cons, ih hrest hpositions, hrisk, List.map_cons, List.sum_cons, hloss,
      Option.getD_some, max_eq_right hnonneg, WithTop.coe_add]

/-- **Exposures agree with reserved risk exactly where no remaining loss is zero.** -/
theorem exposure_agrees_iff {positions : List OpenPositionRisk} (h : LossBounded positions) :
    ExposureAgrees positions ↔ ∀ p ∈ positions, p.remainingLossToStop ≠ some 0 := by
  have hsome : ∀ p ∈ positions, p.remainingLossToStop.isSome = true := by
    intro p hp
    obtain ⟨loss, hloss, -⟩ := h p hp
    rw [hloss]
    rfl
  constructor
  · rintro ⟨held, total, hheld, -, hsum⟩ p hp hzero
    rw [categories_sum hheld] at hsum
    have hfinite : (positions.map OpenPositionRisk.risk).sum ≠ ⊤ := by
      rw [hsum]
      exact WithTop.coe_ne_top
    obtain ⟨loss, hloss, hne⟩ := (risk_ne_top_iff p).1
      (ne_top_of_sum hfinite _ (List.mem_map_of_mem hp))
    rw [hzero] at hloss
    exact hne (Option.some.inj hloss).symm
  · intro hne
    have hrisks : ∀ p ∈ positions, p.risk ≠ ⊤ := by
      intro p hp
      obtain ⟨loss, hloss, -⟩ := h p hp
      refine (risk_ne_top_iff p).2 ⟨loss, hloss, ?_⟩
      rintro rfl
      exact hne p hp hloss
    obtain ⟨held, hheld, -⟩ := aggregateExposure_finite hrisks none
    exact ⟨held, _, hheld, reservedRisk_ok_iff.2 ⟨hsome, rfl⟩, by rw [categories_sum hheld, risk_sum h hne]⟩

/-- A metals position with a remaining loss. -/
def metalsPosition (loss : ℚ) : OpenPositionRisk where
  instrument := "XAUUSD"
  marketCategory := "METALS"
  currencyExposures := Dict.ofList [("USD", 1)]
  remainingLossToStop := some loss
  unrealizedPnl := 0

theorem exposure_agrees_metals : ExposureAgrees [metalsPosition 30, metalsPosition 12] := by
  refine (exposure_agrees_iff ?_).2 ?_
  · intro p hp
    simp only [List.mem_cons, List.not_mem_nil, or_false] at hp
    rcases hp with rfl | rfl
    · exact ⟨30, rfl, by decide +kernel⟩
    · exact ⟨12, rfl, by decide +kernel⟩
  · intro p hp
    simp only [List.mem_cons, List.not_mem_nil, or_false] at hp
    rcases hp with rfl | rfl <;> decide +kernel

/-- **A stop at the entry is read as an unbounded loss.** -/
theorem zero_loss_unbounded :
    reservedRisk [metalsPosition 30, metalsPosition 0] false = .ok 30 ∧
    (∃ held, aggregateExposure [metalsPosition 30, metalsPosition 0] none = .ok held ∧
      held.sumOver isCategory = ⊤) ∧
    ¬∀ positions : List OpenPositionRisk, LossBounded positions → ExposureAgrees positions := by
  have hbounded : LossBounded [metalsPosition 30, metalsPosition 0] := by
    intro p hp
    simp only [List.mem_cons, List.not_mem_nil, or_false] at hp
    rcases hp with rfl | rfl
    · exact ⟨30, rfl, by decide +kernel⟩
    · exact ⟨0, rfl, le_refl 0⟩
  have hheld : ∃ held, aggregateExposure [metalsPosition 30, metalsPosition 0] none = .ok held :=
    ⟨_, rfl⟩
  obtain ⟨held, hheld⟩ := hheld
  have hsum : held.sumOver isCategory = ⊤ := by
    rw [categories_sum hheld]
    decide +kernel
  refine ⟨by decide +kernel, ⟨held, hheld, hsum⟩, fun hall => ?_⟩
  obtain ⟨held', total, hheld', -, hagrees⟩ := hall _ hbounded
  rw [hheld] at hheld'
  cases hheld'
  rw [hsum] at hagrees
  exact WithTop.top_ne_coe hagrees

end Matrades
