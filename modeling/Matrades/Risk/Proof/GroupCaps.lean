import Mathlib.Data.Finset.Max
import Matrades.Risk.Proof.FailClosed

/-!
# Caps of exposure groups

The room left in each capped group bounds the risk of a candidate, but the candidate adds its weighted
risk to the groups of its currencies. A group stays within its cap exactly where the weight of the
currency, times the least room of all capped groups, fits the group's own room (`caps_respected_iff`).
A group that is beyond its cap already blocks every candidate.
-/

namespace Matrades

open Base

/-! ## The weights of a trade -/

/-- The groups a trade adds to, each with its share of the risk. -/
def tradeWeights (c : CandidateTrade) : List (String × ℚ) :=
  (categoryGroup c.marketCategory, 1) :: ((c.underlyingId.toList.map fun u => (underlyingGroup u, 1)) ++
    c.currencyExposures.entries.map fun e => (currencyGroup e.1, |e.2|))

/-- The share of a trade's risk that a group takes. -/
def groupWeight (c : CandidateTrade) (group : String) : ℚ :=
  Dict.contribution (tradeWeights c) group

theorem currencyGroup_inj {a b : String} (h : currencyGroup a = currencyGroup b) : a = b := by
  have hchars := congrArg String.toList h
  simp only [currencyGroup, String.toList_append, List.append_cancel_left_eq] at hchars
  exact String.toList_inj.1 hchars

theorem underlyingGroup_ne_currency (u : Uuid) (currency : String) :
    underlyingGroup u ≠ currencyGroup currency := by
  intro h
  have hchars := congrArg String.toList h
  simp [currencyGroup, underlyingGroup] at hchars

/-- No group is named twice. -/
theorem tradeWeights_nodup (c : CandidateTrade) : ((tradeWeights c).map Prod.fst).Nodup := by
  have hcurrencies :
      ((c.currencyExposures.entries.map fun e => (currencyGroup e.1, |e.2|)).map Prod.fst).Nodup := by
    have h := c.currencyExposures.nodup.map (f := currencyGroup) fun _ _ => currencyGroup_inj
    rw [List.map_map] at h ⊢
    exact h
  rw [tradeWeights, List.map_cons, List.nodup_cons, List.map_append, List.nodup_append]
  refine ⟨fun hmem => ?_, ?_, hcurrencies, ?_⟩
  · rcases List.mem_append.1 hmem with hmem | hmem
    · obtain ⟨e, he, hkey⟩ := List.mem_map.1 hmem
      obtain ⟨u, -, rfl⟩ := List.mem_map.1 he
      exact categoryGroup_ne_underlying _ u hkey
    · obtain ⟨e, he, hkey⟩ := List.mem_map.1 hmem
      obtain ⟨currency, -, rfl⟩ := List.mem_map.1 he
      exact categoryGroup_ne_currency _ currency.1 hkey
  · cases c.underlyingId <;> simp
  · rintro a ha b hb rfl
    obtain ⟨e, he, hkey⟩ := List.mem_map.1 ha
    obtain ⟨u, -, rfl⟩ := List.mem_map.1 he
    obtain ⟨e', he', hkey'⟩ := List.mem_map.1 hb
    obtain ⟨currency, -, rfl⟩ := List.mem_map.1 he'
    exact underlyingGroup_ne_currency u currency.1 (hkey.trans hkey'.symm)

/-- A group takes at most the whole risk, or it is a currency's and takes that weight. -/
theorem groupWeight_cases (c : CandidateTrade) (group : String) :
    groupWeight c group ≤ 1 ∨ ∃ e ∈ c.currencyExposures.entries,
      currencyGroup e.1 = group ∧ groupWeight c group = |e.2| := by
  have hweight : groupWeight c group = ((tradeWeights c).lookup group).getD 0 :=
    Dict.contribution_eq_lookup (tradeWeights_nodup c) group
  rw [hweight]
  cases hlookup : (tradeWeights c).lookup group with
  | none => exact .inl zero_le_one
  | some weight =>
    rw [Option.getD_some]
    rcases List.mem_cons.1 (Dict.mem_of_lookup hlookup) with heq | hmem
    · exact .inl (congrArg Prod.snd heq).le
    rcases List.mem_append.1 hmem with hmem | hmem
    · obtain ⟨u, -, heq⟩ := List.mem_map.1 hmem
      exact .inl (congrArg Prod.snd heq).ge
    · obtain ⟨e, he, heq⟩ := List.mem_map.1 hmem
      exact .inr ⟨e, he, congrArg Prod.fst heq, (congrArg Prod.snd heq).symm⟩

theorem groupWeight_currency (c : CandidateTrade) {e : String × ℚ}
    (he : e ∈ c.currencyExposures.entries) : groupWeight c (currencyGroup e.1) = |e.2| := by
  have hmem : (currencyGroup e.1, |e.2|) ∈ tradeWeights c :=
    List.mem_cons_of_mem _ (List.mem_append_right _ (List.mem_map.2 ⟨e, he, rfl⟩))
  rw [groupWeight, Dict.contribution_eq_lookup (tradeWeights_nodup c),
    Dict.lookup_of_mem (tradeWeights_nodup c) hmem, Option.getD_some]

/-! ## Exposures with a trade -/

theorem contribution_scaled (xs : List (String × ℚ)) (risk : ℚ) (group : String) :
    Dict.contribution (xs.map fun e => (e.1, ((e.2 * risk : ℚ) : Exposure))) group =
      ((Dict.contribution xs group * risk : ℚ) : Exposure) := by
  induction xs with
  | nil => simp [Dict.contribution]
  | cons e xs ih =>
    rw [List.map_cons, Dict.contribution_cons, Dict.contribution_cons, ih]
    by_cases hgroup : group = e.1
    · rw [if_pos hgroup, if_pos hgroup, add_mul, WithTop.coe_add]
    · rw [if_neg hgroup, if_neg hgroup, zero_add, zero_add]

theorem contributions_weighted (c : CandidateTrade) (risk : ℚ) :
    contributions c.marketCategory c.underlyingId c.currencyExposures (risk : Exposure) =
      .ok ((tradeWeights c).map fun e => (e.1, ((e.2 * risk : ℚ) : Exposure))) := by
  have hweights : (c.currencyExposures.entries.mapM fun e => do
      return (currencyGroup e.1, ← weighted e.2 (risk : Exposure))) =
      (.ok (c.currencyExposures.entries.map fun e =>
        (currencyGroup e.1, ((|e.2| * risk : ℚ) : Exposure))) : Except RiskError _) :=
    mapM_eq_ok fun _ _ => rfl
  unfold contributions
  rw [bind_ok_eq hweights]
  simp only [tradeWeights, List.map_cons, List.map_append, List.map_map, Function.comp_def, one_mul]
  rfl

/-- A trade adds its share of the risk to each group. -/
theorem total_with {positions : List OpenPositionRisk} {held : Dict String Exposure}
    (h : aggregateExposure positions none = .ok held) (c : CandidateTrade) (risk : ℚ) :
    ∃ all, aggregateExposure positions (some (c, risk)) = .ok all ∧
      ∀ group, all.total group = held.total group + ((groupWeight c group * risk : ℚ) : Exposure) := by
  obtain ⟨added, hadded, h⟩ := ok_of_bind h
  cases h
  have hcandidate : candidateContributions (some (c, risk)) =
      .ok ((tradeWeights c).map fun e => (e.1, ((e.2 * risk : ℚ) : Exposure))) :=
    contributions_weighted c risk
  refine ⟨_, by rw [aggregateExposure, bind_ok_eq hadded, bind_ok_eq hcandidate]; rfl, fun group => ?_⟩
  rw [List.append_nil, Dict.total_foldl_addTo, Dict.total_foldl_addTo, Dict.contribution_append,
    contribution_scaled, add_assoc]
  rfl

/-! ## Caps -/

/-- Whatever is approved keeps each capped group within its cap, and nothing is approved where a group
is beyond its cap already. -/
structure CapsRespected (context : RiskContext) (c : CandidateTrade) : Prop where
  within : ∀ result held, evaluate context c = .ok result → result.decision ≠ .hardBlock →
    aggregateExposure context.positions none = .ok held →
    ∀ e ∈ context.correlationCaps.entries, held.total e.1 ≤ (e.2 : Exposure) →
      ∃ all, aggregateExposure context.positions
          (some (c, result.snapshot.candidateTradeRisk)) = .ok all ∧
        all.total e.1 ≤ (e.2 : Exposure)
  blocked : ∀ result held, evaluate context c = .ok result →
    aggregateExposure context.positions none = .ok held →
    (∃ e ∈ context.correlationCaps.entries, (e.2 : Exposure) < held.total e.1) →
    result.decision = .hardBlock ∧ result.approvedSize = 0

/-- What the currencies of a trade may take of their groups, given what the positions leave. -/
def RoomInGroups (positions : List OpenPositionRisk) (caps currencies : Dict String ℚ) : Prop :=
  ∀ held, aggregateExposure positions none = .ok held → (∀ e ∈ held.entries, e.2 ≠ ⊤) →
    ∀ e ∈ currencies.entries, ∀ cap, (currencyGroup e.1, cap) ∈ caps.entries →
      ∃ other ∈ caps.entries, |e.2| * remainingCap other.2 (held.total other.1) ≤
        remainingCap cap (held.total (currencyGroup e.1))

theorem remainingCap_nonneg (cap : ℚ) (exposure : Exposure) : 0 ≤ remainingCap cap exposure := by
  cases exposure with
  | none => exact le_refl 0
  | some x => exact le_max_left _ _

/-- Weights up to one always fit. -/
theorem roomInGroups_of_le_one {positions : List OpenPositionRisk} {caps currencies : Dict String ℚ}
    (h : ∀ e ∈ currencies.entries, currencyGroup e.1 ∈ caps.keys → |e.2| ≤ 1) :
    RoomInGroups positions caps currencies := by
  intro held hheld hfinite e he cap hcap
  refine ⟨_, hcap, ?_⟩
  have hroom := remainingCap_nonneg cap (held.total (currencyGroup e.1))
  calc |e.2| * remainingCap cap (held.total (currencyGroup e.1))
      ≤ 1 * remainingCap cap (held.total (currencyGroup e.1)) :=
        mul_le_mul_of_nonneg_right (h e he (List.mem_map_of_mem hcap)) hroom
    _ = remainingCap cap (held.total (currencyGroup e.1)) := one_mul _

/-- Where the currencies have room, the caps are respected. -/
theorem capsRespected_of_room {context : RiskContext} {c : CandidateTrade}
    (hroom : RoomInGroups context.positions context.correlationCaps c.currencyExposures) :
    CapsRespected context c := by
  constructor
  · intro result held hresult hdecision hheld e he hunder
    obtain ⟨limits, existing, held', happroved⟩ := evaluate_approved hresult hdecision
    obtain rfl : held = held' := Except.ok.inj (hheld.symm.trans happroved.aggregated)
    have hfits : ∀ other ∈ context.correlationCaps.entries,
        result.snapshot.candidateTradeRisk ≤ remainingCap other.2 (held.total other.1) := by
      intro other hother
      refine happroved.fits _ (List.mem_cons_of_mem _ (List.mem_cons_of_mem _ (List.mem_cons_of_mem _
        (List.mem_append_right _ ?_))))
      exact List.mem_map.2 ⟨other, hother, rfl⟩
    obtain ⟨all, hall, htotal⟩ := total_with hheld c result.snapshot.candidateTradeRisk
    refine ⟨all, hall, ?_⟩
    have hrisk := happroved.risk_pos
    obtain ⟨x, hx, -⟩ := le_of_le_remainingCap hrisk (hfits e he)
    have hshare : groupWeight c e.1 * result.snapshot.candidateTradeRisk ≤
        remainingCap e.2 (held.total e.1) := by
      rcases groupWeight_cases c e.1 with hone | ⟨currency, hcurrency, hkey, hweight⟩
      · calc groupWeight c e.1 * result.snapshot.candidateTradeRisk
            ≤ 1 * result.snapshot.candidateTradeRisk := mul_le_mul_of_nonneg_right hone hrisk.le
          _ ≤ remainingCap e.2 (held.total e.1) := by rw [one_mul]; exact hfits e he
      · obtain ⟨other, hother, hle⟩ :=
          hroom held hheld happroved.bounded currency hcurrency e.2 (by rw [hkey]; exact he)
        rw [hkey] at hle
        rw [hweight]
        exact (mul_le_mul_of_nonneg_left (hfits other hother) (abs_nonneg _)).trans hle
    rw [htotal, hx, ← WithTop.coe_add, WithTop.coe_le_coe]
    rw [hx] at hshare hunder
    have hclamp : remainingCap e.2 (x : Exposure) = max 0 (e.2 - x) := rfl
    rw [hclamp, max_eq_right (sub_nonneg.2 (WithTop.coe_le_coe.1 hunder))] at hshare
    linarith
  · rintro result held hresult hheld ⟨e, he, hover⟩
    have hblock : result.decision = .hardBlock := by
      by_contra hdecision
      obtain ⟨limits, existing, held', happroved⟩ := evaluate_approved hresult hdecision
      obtain rfl : held = held' := Except.ok.inj (hheld.symm.trans happroved.aggregated)
      have hfit := happroved.fits (remainingCap e.2 (held.total e.1)) (List.mem_cons_of_mem _
        (List.mem_cons_of_mem _ (List.mem_cons_of_mem _ (List.mem_append_right _
          (List.mem_map.2 ⟨e, he, rfl⟩)))))
      obtain ⟨x, hx, hle⟩ := le_of_le_remainingCap happroved.risk_pos hfit
      rw [hx, WithTop.coe_lt_coe] at hover
      have hpos := happroved.risk_pos
      linarith
    exact ⟨hblock, approvedSize_of_hardBlock hresult hblock⟩

/-! ## Using up the room -/

def roomLimit (kind : ConstraintKind) (value : ℚ) : EffectiveConstraint where
  kind := kind
  value := value
  source := "prop"
  sourceVersion := "1"

/-- A context whose limits leave the given room beside the positions. -/
def roomContext (positions : List OpenPositionRisk) (caps : Dict String ℚ) (existing room : ℚ) :
    RiskContext :=
  { pretradeContext with
    constraints := [roomLimit .maxTotalDrawdown (11000 + room), roomLimit .maxDailyLoss (2100 + room),
      roomLimit .maxPortfolioRisk (existing + room)]
    positions := positions
    correlationCaps := caps
    staticMaxConcurrentTrades := positions.length + 1 }

/-- A candidate that risks the given room. -/
def roomCandidate (currencies : Dict String ℚ) (room : ℚ) (h : 0 < room) : CandidateTrade :=
  { pretradeCandidate 1 one_pos with
    riskPerUnit := room
    sizeIncrement := 1
    currencyExposures := currencies
    riskPerUnit_pos := h
    sizeIncrement_pos := one_pos }

section
variable {positions : List OpenPositionRisk} {caps currencies : Dict String ℚ} {room : ℚ}
  {held : Dict String Exposure}

/-- A risk that fits every capped group passes where the account leaves room for it. -/
theorem room_evaluate (hfinite : ∀ p ∈ positions, p.risk ≠ ⊤) (hroom : 0 < room)
    (hheld : aggregateExposure positions none = .ok held)
    (hfits : ∀ e ∈ caps.entries, room ≤ remainingCap e.2 (held.total e.1)) :
    ∃ context result, context.positions = positions ∧ context.correlationCaps = caps ∧
      evaluate context (roomCandidate currencies room hroom) = .ok result ∧
      result.decision = .pass ∧ result.snapshot.candidateTradeRisk = room := by
  obtain ⟨existing, hexisting⟩ :=
    @existingRisk_of_finite { pretradeContext with positions := positions } hfinite
  have hlimits : requiredLimits (roomContext positions caps existing room) =
      some ⟨roomLimit .maxTotalDrawdown (11000 + room), roomLimit .maxDailyLoss (2100 + room),
        roomLimit .maxPortfolioRisk (existing + room)⟩ := by
    have hdrawdown : strictestApplicable (roomContext positions caps existing room).constraints
        .maxTotalDrawdown = some (roomLimit .maxTotalDrawdown (11000 + room)) :=
      strictestApplicable_of_filter rfl
    have hdaily : strictestApplicable (roomContext positions caps existing room).constraints
        .maxDailyLoss = some (roomLimit .maxDailyLoss (2100 + room)) :=
      strictestApplicable_of_filter rfl
    have hportfolio : strictestApplicable (roomContext positions caps existing room).constraints
        .maxPortfolioRisk = some (roomLimit .maxPortfolioRisk (existing + room)) :=
      strictestApplicable_of_filter rfl
    unfold requiredLimits
    dsimp only
    rw [hdrawdown, hdaily, hportfolio]
  have hdrawdown : remainingDrawdown (roomContext positions caps existing room)
      ⟨roomLimit .maxTotalDrawdown (11000 + room), roomLimit .maxDailyLoss (2100 + room),
        roomLimit .maxPortfolioRisk (existing + room)⟩ = room := by
    have hused : totalDrawdown pretradeContext.account.startingBalance
        pretradeContext.account.currentEquity = 11000 := by decide +kernel
    unfold remainingDrawdown roomContext roomLimit
    dsimp only
    rw [hused, add_sub_cancel_left, max_eq_right hroom.le]
  have hdaily : remainingDaily (roomContext positions caps existing room)
      ⟨roomLimit .maxTotalDrawdown (11000 + room), roomLimit .maxDailyLoss (2100 + room),
        roomLimit .maxPortfolioRisk (existing + room)⟩ = room := by
    have hused : dailyLoss pretradeContext.account.realizedDailyPnl
        pretradeContext.account.floatingPnl = 2100 := by decide +kernel
    unfold remainingDaily roomContext roomLimit
    dsimp only
    rw [hused, add_sub_cancel_left, max_eq_right hroom.le]
  have hperTrade : strictestApplicable (roomContext positions caps existing room).constraints
      .maxRiskPerTrade = none := rfl
  have hrisk : (roomCandidate currencies room hroom).requestedSize *
      (roomCandidate currencies room hroom).riskPerUnit +
      (roomCandidate currencies room hroom).financingCost = room := by
    change 1 * room + 0 = room
    rw [one_mul, add_zero]
  have hexisting' : existingRisk (roomContext positions caps existing room) = .ok existing := hexisting
  have hfit : ∀ cap ∈ capacities (roomContext positions caps existing room)
      ⟨roomLimit .maxTotalDrawdown (11000 + room), roomLimit .maxDailyLoss (2100 + room),
        roomLimit .maxPortfolioRisk (existing + room)⟩ existing held, room ≤ cap := by
    intro cap hcap
    unfold capacities at hcap
    rw [hdrawdown, hdaily, hperTrade] at hcap
    simp only [List.mem_cons, Option.toList_none, List.map_nil, List.nil_append] at hcap
    rcases hcap with rfl | rfl | rfl | hcap
    · exact le_refl _
    · exact le_refl _
    · refine le_trans ?_ (le_max_right _ _)
      change room ≤ existing + room - existing
      rw [add_sub_cancel_left]
    · obtain ⟨e, he, rfl⟩ := List.mem_map.1 hcap
      exact hfits e he
  have hdigits : room < (10 ^ decimalDigits : ℕ) * room := by
    have hone : (1 : ℚ) < (10 ^ decimalDigits : ℕ) := by
      rw [decimalDigits]
      norm_num
    exact lt_mul_of_one_lt_left hroom hone
  obtain ⟨result, hresult, hpass, -, happroved⟩ := @evaluate_fits
    (roomContext positions caps existing room) (roomCandidate currencies room hroom) _ _ _ _ 1 rfl rfl
    one_pos hlimits hexisting' hfinite hheld
    (by simp [roomCandidate, pretradeCandidate]) (Nat.lt_succ_self _)
    (fun cap hcap => by rw [hrisk]; exact hfit cap hcap)
    ⟨room, by rw [capacities, hdrawdown]; exact List.mem_cons_self, by rw [hrisk]; exact hdigits⟩
  exact ⟨_, result, rfl, rfl, hresult, hpass, happroved.trans hrisk⟩

end

/-! ## The condition -/

/-- **When the groups stay within their caps**: beside these positions every approved candidate with
these currency weights keeps each group within its cap exactly if the weights have room. -/
theorem caps_respected_iff (positions : List OpenPositionRisk) (caps currencies : Dict String ℚ) :
    (∀ context c, context.positions = positions → context.correlationCaps = caps →
      c.currencyExposures = currencies → CapsRespected context c) ↔
    RoomInGroups positions caps currencies := by
  constructor
  · intro hall held hheld hbounded e he cap hcap
    by_contra hnone
    push Not at hnone
    have hentries : (caps.entries : Multiset (String × ℚ)) ≠ 0 := by
      intro hempty
      rw [Multiset.coe_eq_zero] at hempty
      rw [hempty] at hcap
      cases hcap
    obtain ⟨least, hleast, hmin⟩ := Multiset.exists_min_image
      (fun other : String × ℚ => remainingCap other.2 (held.total other.1)) hentries
    have hown := hnone least hleast
    have hpos : 0 < remainingCap least.2 (held.total least.1) := by
      refine lt_of_le_of_ne (remainingCap_nonneg _ _) fun hzero => ?_
      rw [← hzero, mul_zero] at hown
      exact absurd hown (not_lt.2 (remainingCap_nonneg _ _))
    obtain ⟨context, result, hpositions, hcaps, hresult, hpass, hrisk⟩ :=
      @room_evaluate _ _ currencies _ _ (risk_ne_top_of_finite hheld hbounded) hpos hheld hmin
    have hrespected := hall context (roomCandidate currencies _ hpos) hpositions hcaps rfl
    subst hpositions hcaps
    obtain ⟨x, hx, hfree⟩ := le_of_le_remainingCap hpos (hmin _ hcap)
    obtain ⟨all, hwith, hwithin⟩ := hrespected.within result held hresult (by rw [hpass]; decide) hheld
      _ hcap (by rw [hx, WithTop.coe_le_coe]; linarith)
    obtain ⟨all', hwith', htotal⟩ := total_with hheld (roomCandidate currencies _ hpos)
      result.snapshot.candidateTradeRisk
    obtain rfl : all' = all := Except.ok.inj (hwith'.symm.trans hwith)
    have hweight : groupWeight (roomCandidate currencies _ hpos) (currencyGroup e.1) = |e.2| :=
      groupWeight_currency (roomCandidate currencies _ hpos) he
    rw [htotal, hweight, hrisk, hx, ← WithTop.coe_add, WithTop.coe_le_coe] at hwithin
    rw [hx] at hown
    have hclamp : cap - x ≤ remainingCap cap (x : Exposure) := le_max_right _ _
    linarith
  · rintro hroom context c rfl rfl rfl
    exact capsRespected_of_room hroom

/-- A candidate with a currency weight of two. -/
def doubledCandidate : CandidateTrade :=
  { pretradeCandidate 10 tenUnits_pos with currencyExposures := Dict.ofList [("USD", 2)] }

def dollarContext : RiskContext :=
  { pretradeContext with correlationCaps := Dict.ofList [("currency:USD", 1500)] }

/-- **A weight above one exceeds the cap**: a risk of 1500 is approved under a cap of 1500, and the
group of the currency takes 3000. -/
theorem doubled_weight_exceeds_cap :
    (evaluate dollarContext doubledCandidate).toOption.map
      (fun r => (r.decision, r.snapshot.candidateTradeRisk)) = some (.reduceSize, 1500) ∧
    (aggregateExposure [] (some (doubledCandidate, 1500))).toOption.map
      (fun all => all.total "currency:USD") = some ((3000 : ℚ) : Exposure) ∧
    ¬CapsRespected dollarContext doubledCandidate := by
  have hrun : (evaluate dollarContext doubledCandidate).toOption.map
      (fun r => (r.decision, r.snapshot.candidateTradeRisk)) = some (.reduceSize, 1500) := by
    decide +kernel
  have hwith : (aggregateExposure [] (some (doubledCandidate, 1500))).toOption.map
      (fun all => all.total "currency:USD") = some ((3000 : ℚ) : Exposure) := by decide +kernel
  refine ⟨hrun, hwith, fun hrespected => ?_⟩
  cases hresult : evaluate dollarContext doubledCandidate with
  | error e =>
    rw [hresult] at hrun
    cases hrun
  | ok result =>
    rw [hresult] at hrun
    simp only [Except.toOption, Option.map_some, Option.some.injEq, Prod.mk.injEq] at hrun
    obtain ⟨hdecision, hrisk⟩ := hrun
    obtain ⟨all, hall, hwithin⟩ := hrespected.within result Dict.empty hresult
      (by rw [hdecision]; decide) rfl ("currency:USD", 1500) (by decide +kernel) (by decide +kernel)
    have hsame : aggregateExposure [] (some (doubledCandidate, 1500)) = .ok all := by
      rw [← hrisk]
      exact hall
    have htotal : all.total "currency:USD" = ((3000 : ℚ) : Exposure) := by
      rw [hsame] at hwith
      exact Option.some.inj hwith
    have hle : all.total "currency:USD" ≤ ((1500 : ℚ) : Exposure) := hwithin
    rw [htotal, WithTop.coe_le_coe] at hle
    norm_num at hle

end Matrades
