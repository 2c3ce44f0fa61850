import Matrades.Base.Result
import Matrades.Risk.Models

/-!
# Aggregated exposure

`modules/risk/exposure.py`: the exposure of each group (`category:…`, `underlying:…`,
`currency:…`), summed over the open positions and, where given, the candidate. A position without a
remaining loss, or with one of zero, counts as infinite.

The total of a category is the sum of the losses of its positions (`total_category`), whatever the
other groups are: the prefixes keep the keys of the three kinds apart.
-/

namespace Matrades

open Base

def categoryGroup (category : String) : String := "category:" ++ category
def underlyingGroup (underlying : Uuid) : String := "underlying:" ++ underlying.str
def currencyGroup (currency : String) : String := "currency:" ++ currency

/-- `remaining_loss_to_stop or Decimal("Infinity")`. -/
def OpenPositionRisk.risk (p : OpenPositionRisk) : Exposure :=
  match p.remainingLossToStop with
  | some loss => if loss = 0 then ⊤ else (loss : ℚ)
  | none => ⊤

/-- `abs(weight) * risk`; `0 * Infinity` signals. -/
def weighted (weight : ℚ) : Exposure → Except RiskError Exposure
  | some risk => .ok ((|weight| * risk : ℚ) : Exposure)
  | none => if weight = 0 then .error .invalidOperation else .ok ⊤

/-- What a position or a candidate of the given risk adds, in the order of the source. -/
def contributions (category : String) (underlying : Option Uuid) (currencies : Dict String ℚ)
    (risk : Exposure) : Except RiskError (List (String × Exposure)) := do
  let weights ← currencies.entries.mapM fun e => do return (currencyGroup e.1, ← weighted e.2 risk)
  return (categoryGroup category, risk) ::
    ((underlying.toList.map fun u => (underlyingGroup u, risk)) ++ weights)

def positionContributions (p : OpenPositionRisk) : Except RiskError (List (String × Exposure)) :=
  contributions p.marketCategory p.underlyingId p.currencyExposures p.risk

def candidateContributions : Option (CandidateTrade × ℚ) →
    Except RiskError (List (String × Exposure))
  | some (c, risk) =>
    contributions c.marketCategory c.underlyingId c.currencyExposures (risk : Exposure)
  | none => .ok []

/-- `aggregate_exposure`. -/
def aggregateExposure (positions : List OpenPositionRisk) (candidate : Option (CandidateTrade × ℚ)) :
    Except RiskError (Dict String Exposure) := do
  let held ← positions.mapM positionContributions
  let added ← candidateContributions candidate
  return (held.flatten ++ added).foldl (fun d e => d.addTo e.1 e.2) Dict.empty

/-! ## The total of a category -/

theorem categoryGroup_inj {c d : String} (h : categoryGroup c = categoryGroup d) : c = d := by
  have hchars := congrArg String.toList h
  simp only [categoryGroup, String.toList_append, List.append_cancel_left_eq] at hchars
  exact String.toList_inj.1 hchars

theorem categoryGroup_ne_underlying (c : String) (u : Uuid) :
    underlyingGroup u ≠ categoryGroup c := by
  intro h
  have hchars := congrArg String.toList h
  simp [categoryGroup, underlyingGroup] at hchars

theorem categoryGroup_ne_currency (c d : String) : currencyGroup d ≠ categoryGroup c := by
  intro h
  have hchars := congrArg String.toList h
  simp [categoryGroup, currencyGroup] at hchars

/-- A position or candidate adds its risk to its own category only. -/
theorem contribution_category {own : String} {underlying : Option Uuid}
    {currencies : Dict String ℚ} {risk : Exposure} {xs : List (String × Exposure)}
    (h : contributions own underlying currencies risk = .ok xs) (c : String) :
    Dict.contribution xs (categoryGroup c) = if own = c then risk else 0 := by
  obtain ⟨weights, hweights, h⟩ := ok_of_bind h
  cases h
  have hrest : categoryGroup c ∉
      ((underlying.toList.map fun u => (underlyingGroup u, risk)) ++ weights).map Prod.fst := by
    intro hmem
    obtain ⟨e, he, hkey⟩ := List.mem_map.1 hmem
    rcases List.mem_append.1 he with he | he
    · obtain ⟨u, _, rfl⟩ := List.mem_map.1 he
      exact categoryGroup_ne_underlying c u hkey
    · obtain ⟨currency, _, hcurrency⟩ := ok_mem_of_mapM hweights he
      obtain ⟨x, _, hx⟩ := ok_of_bind hcurrency
      cases hx
      exact categoryGroup_ne_currency c currency.1 hkey
  rw [Dict.contribution_cons, Dict.contribution_eq_zero hrest, add_zero]
  by_cases hown : own = c
  · rw [hown, if_pos rfl, if_pos rfl]
  · rw [if_neg hown, if_neg fun hkey => hown (categoryGroup_inj hkey).symm]

/-- The risk of the positions in a category. -/
def categoryRisk (positions : List OpenPositionRisk) (c : String) : Exposure :=
  ((positions.filter (·.marketCategory = c)).map (·.risk)).sum

/-- **The exposure of a category** is the risk of its positions. -/
theorem total_category {positions : List OpenPositionRisk} {held : Dict String Exposure}
    (h : aggregateExposure positions none = .ok held) (c : String) :
    held.total (categoryGroup c) = categoryRisk positions c := by
  obtain ⟨added, hadded, h⟩ := ok_of_bind h
  cases h
  rw [List.append_nil, Dict.total_foldl_addTo, Dict.total_empty, zero_add]
  have hall := ok_of_mapM hadded
  clear hadded h
  induction hall with
  | nil => rfl
  | @cons p xs positions added hp _ ih =>
    rw [List.flatten_cons, Dict.contribution_append, ih, contribution_category hp]
    unfold categoryRisk
    by_cases hc : p.marketCategory = c <;> simp [hc]

/-! ## Finite exposures -/

theorem risk_ne_top_iff (p : OpenPositionRisk) :
    p.risk ≠ ⊤ ↔ ∃ loss, p.remainingLossToStop = some loss ∧ loss ≠ 0 := by
  unfold OpenPositionRisk.risk
  cases hloss : p.remainingLossToStop with
  | none => simp
  | some loss => by_cases hzero : loss = 0 <;> simp [hzero]

theorem ne_top_of_sum {xs : List Exposure} (h : xs.sum ≠ ⊤) : ∀ x ∈ xs, x ≠ ⊤ := by
  induction xs with
  | nil => simp
  | cons x xs ih =>
    rw [List.sum_cons, WithTop.add_ne_top] at h
    exact List.forall_mem_cons.2 ⟨h.1, ih h.2⟩

/-- Where all exposures are finite, so is the risk of every position. -/
theorem risk_ne_top_of_finite {positions : List OpenPositionRisk} {held : Dict String Exposure}
    (h : aggregateExposure positions none = .ok held) (hfinite : ∀ e ∈ held.entries, e.2 ≠ ⊤) :
    ∀ p ∈ positions, p.risk ≠ ⊤ := by
  intro p hp
  have htotal : held.total (categoryGroup p.marketCategory) ≠ ⊤ := by
    rcases Dict.total_mem held (categoryGroup p.marketCategory) with hzero | hentry
    · rw [hzero]
      exact WithTop.zero_ne_top
    · exact hfinite _ hentry
  rw [total_category h] at htotal
  exact ne_top_of_sum htotal _ (List.mem_map_of_mem (List.mem_filter.2 ⟨hp, by simp⟩))

theorem contributions_finite {own : String} {underlying : Option Uuid} {currencies : Dict String ℚ}
    {risk : Exposure} (hrisk : risk ≠ ⊤) : ∃ xs, contributions own underlying currencies risk = .ok xs ∧
      ∀ x ∈ xs, x.2 ≠ ⊤ := by
  obtain ⟨q, rfl⟩ := WithTop.ne_top_iff_exists.1 hrisk
  obtain ⟨weights, hweights, hfinite⟩ : ∃ weights, (currencies.entries.mapM fun e => do
      return (currencyGroup e.1, ← weighted e.2 (q : Exposure))) = .ok weights ∧
      ∀ x ∈ weights, x.2 ≠ (⊤ : Exposure) := exists_mapM_ok fun e _ =>
    ⟨(currencyGroup e.1, ((|e.2| * q : ℚ) : Exposure)), rfl, WithTop.coe_ne_top⟩
  refine ⟨_, bind_ok_eq hweights _, fun x hx => ?_⟩
  rcases List.mem_cons.1 hx with rfl | hx
  · exact WithTop.coe_ne_top
  rcases List.mem_append.1 hx with hx | hx
  · obtain ⟨u, _, rfl⟩ := List.mem_map.1 hx
    exact WithTop.coe_ne_top
  · exact hfinite x hx

/-- Positions of finite risk have finite exposures, with a candidate or without. -/
theorem aggregateExposure_finite {positions : List OpenPositionRisk}
    (h : ∀ p ∈ positions, p.risk ≠ ⊤) (candidate : Option (CandidateTrade × ℚ)) :
    ∃ held, aggregateExposure positions candidate = .ok held ∧ ∀ e ∈ held.entries, e.2 ≠ ⊤ := by
  obtain ⟨added, hadded, hfinite⟩ := exists_mapM_ok (f := positionContributions)
    (P := fun xs => ∀ x ∈ xs, x.2 ≠ (⊤ : Exposure)) fun p hp => contributions_finite (h p hp)
  have hcandidate : ∃ xs, candidateContributions candidate = .ok xs ∧ ∀ x ∈ xs, x.2 ≠ ⊤ := by
    cases candidate with
    | none => exact ⟨[], rfl, by simp⟩
    | some c => exact contributions_finite WithTop.coe_ne_top
  obtain ⟨more, hmore, hmoreFinite⟩ := hcandidate
  refine ⟨_, by rw [aggregateExposure, bind_ok_eq hadded, bind_ok_eq hmore]; rfl, ?_⟩
  refine Dict.foldl_addTo_forall (P := (· ≠ ⊤)) WithTop.zero_ne_top
    (fun a b ha hb => WithTop.add_ne_top.2 ⟨ha, hb⟩) (fun x hx => ?_) (by simp [Dict.empty])
  rcases List.mem_append.1 hx with hx | hx
  · obtain ⟨xs, hxs, hx⟩ := List.mem_flatten.1 hx
    exact hfinite xs hxs x hx
  · exact hmoreFinite x hx

end Matrades
