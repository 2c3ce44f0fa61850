import Matrades.Backtesting.Protection
import Matrades.Base.Rounding

/-!
# Chronological robustness

`modules/backtesting/robustness.py`: the simulator on later parts of a history, with the rules as they
are, with perturbed rules and with doubled costs. A part is simulated with the forty candles before it as
warm-up, and only bars of the part may be entered. The marks of the parts are products of the number of
candles with doubles, cut off.
-/

namespace Matrades

open Base

/-! ## Parts of a history -/

def sevenTenths : Double := ⟨3152519739159347, 52⟩

def twoFifths : Double := ⟨3602879701896397, 53⟩

def oneThird : Double := ⟨6004799503160661, 54⟩

def twoThirds : Double := ⟨6004799503160661, 53⟩

-- The double below 0.7 makes a mark of 62, not 63.
example : sevenTenths.part 90 = 62 ∧ twoFifths.part 90 = 36 := by decide +kernel

section
variable (candles : List BacktestCandle) (validationStartAfter : Option AwareTime)

/-- The number of the first candle behind `validation_start_after`. -/
def unseen : ℕ :=
  match validationStartAfter with
  | none => 0
  | some after => candles.findIdx fun c => after.instant < c.observedAt.instant

def cut : ℕ := max (max 2 (sevenTenths.part candles.length)) (unseen candles validationStartAfter)

def forwardStart : ℕ := max (twoFifths.part candles.length) (unseen candles validationStartAfter)

def boundaries : List ℕ :=
  let start := forwardStart candles validationStartAfter
  let length := candles.length - start
  [start, start + oneThird.part length, start + twoThirds.part length, start + length]

/-- The folds, each from its first bar to the one behind its last. -/
def folds : List (ℕ × ℕ) :=
  (boundaries candles validationStartAfter).zip (boundaries candles validationStartAfter).tail

def holdout : ℕ × ℕ := (cut candles validationStartAfter, candles.length)

/-- The number of the first warm-up candle of a part. -/
def warmupStart (start : ℕ) : ℕ := start - 40

/-- The candles a part is simulated on. -/
def partCandles (part : ℕ × ℕ) : List BacktestCandle := slice candles (warmupStart part.1) part.2

end

/-! ## Perturbed rules and costs -/

/-- The rules with all distances scaled; the stop stays within its bound. -/
def TradeRules.perturbed (rules : TradeRules) (multiplier : ℚ) (hpos : 0 < multiplier) : TradeRules where
  direction := rules.direction
  stopVolatilityMultiple := min 10 (rules.stopVolatilityMultiple * multiplier)
  takeProfitRMultiples := rules.takeProfitRMultiples.map (· * multiplier)
  stop_pos := lt_min (by norm_num) (mul_pos rules.stop_pos hpos)
  stop_le := min_le_left _ _
  targets_nonempty := by
    rw [ne_eq, List.map_eq_nil_iff]
    exact rules.targets_nonempty
  targets_length := by
    rw [List.length_map]
    exact rules.targets_length
  targets_pos := by
    intro target htarget
    obtain ⟨multiple, hmultiple, rfl⟩ := List.mem_map.1 htarget
    exact mul_pos (rules.targets_pos multiple hmultiple) hpos
  targets_increasing := by
    rw [List.pairwise_map]
    exact rules.targets_increasing.imp fun hlt => mul_lt_mul_of_pos_right hlt hpos

def BacktestConfiguration.stressed (configuration : BacktestConfiguration) : BacktestConfiguration :=
  { configuration with
    spread := configuration.spread * 2
    commission := configuration.commission * 2
    slippage := configuration.slippage * 2
    costs_nonneg := by
      obtain ⟨hspread, hcommission, hslippage⟩ := configuration.costs_nonneg
      exact ⟨by positivity, by positivity, by positivity⟩ }

/-! ## The evaluation -/

section
variable (library : TechnicalLibrary) (zones : ZoneInfo) (candles : List BacktestCandle)
  (calendar : Option (List CalendarEvent))

/-- The bars of a part that may be entered. -/
def partEntries (spec : StrategySpecification) (part : ℕ × ℕ) : List AwareTime :=
  ((slice candles part.1 part.2).filter fun c =>
    (entryContextReason zones spec c.observedAt calendar).isNone).map BacktestCandle.observedAt

/-- `evaluate`: the simulation of a part. It is not given the calendar, only the entry times. -/
def evaluateRange (spec : StrategySpecification) (configuration : BacktestConfiguration)
    (part : ℕ × ℕ) : Except String Simulation :=
  simulateProtectedTrades library zones spec (partCandles candles part) configuration
    { allowedEntryTimes := some (partEntries zones candles calendar spec part) }

end

structure Robustness where
  holdoutStartAt : Option AwareTime
  researchSelectionCutAt : Option AwareTime
  outOfSample : Simulation
  walkForward : List Simulation
  parameterSensitivity : List Simulation
  doubleCostStress : Simulation

/-- `passed`: two trades and a positive average. -/
def Simulation.screened (s : Simulation) : Bool :=
  2 ≤ s.trades.length && 0 < average (s.trades.map fun t => t.pnl / t.risk)

namespace Robustness

def outOfSamplePassed (r : Robustness) : Bool := r.outOfSample.screened

def walkForwardPassed (r : Robustness) : Bool := r.walkForward.all Simulation.screened

def parameterSensitivityPassed (r : Robustness) : Bool :=
  r.parameterSensitivity.all Simulation.screened

def costStressPassed (r : Robustness) : Bool := r.doubleCostStress.screened

end Robustness

theorem four_fifths_pos : (0 : ℚ) < 4 / 5 := by norm_num

theorem six_fifths_pos : (0 : ℚ) < 6 / 5 := by norm_num

/-- `chronological_robustness`; it is not available without protection rules. -/
def chronologicalRobustness (library : TechnicalLibrary) (zones : ZoneInfo)
    (spec : StrategySpecification) (candles : List BacktestCandle)
    (configuration : BacktestConfiguration) (calendar : Option (List CalendarEvent))
    (validationStartAfter : Option AwareTime) : Except String (Option Robustness) :=
  match spec.tradeRules with
  | none => .ok none
  | some rules => do
    let part := holdout candles validationStartAfter
    let outOfSample ← evaluateRange library zones candles calendar spec configuration part
    let walkForward ← (folds candles validationStartAfter).mapM
      (evaluateRange library zones candles calendar spec configuration)
    let parameterSensitivity ←
      [rules.perturbed (4 / 5) four_fifths_pos, rules.perturbed (6 / 5) six_fifths_pos].mapM
        fun perturbed => evaluateRange library zones candles calendar
          { spec with tradeRules := some perturbed } configuration part
    let doubleCostStress ←
      evaluateRange library zones candles calendar spec configuration.stressed part
    return some
      { holdoutStartAt := candles[part.1]?.map BacktestCandle.observedAt
        researchSelectionCutAt := validationStartAfter
        outOfSample, walkForward, parameterSensitivity, doubleCostStress }

end Matrades
