import Matrades.Base.Codec
import Matrades.Base.Result
import Matrades.Strategies.Schema

/-!
# Stored specifications

`packages/strategy_sdk/schema.py` in full, with the texts the specifications are stored as
(`model_dump(mode="json")`) and read back from (`model_validate`), and the hash of a compiled strategy
(`modules/strategies/compiler.py`). `specification` is what a simulation reads of a document.
-/

namespace Matrades.Schema

open Base

theorem isOk_iff {t : Except String Unit} : t.isOk = true ↔ t = .ok () := by
  cases t with
  | error e => exact ⟨fun h => (by cases h), fun h => (by cases h)⟩
  | ok u => exact ⟨fun _ => rfl, fun _ => rfl⟩

/-! ## Enumerations -/

inductive StrategyOrigin
  | aiGenerated | aiAssisted
  deriving DecidableEq, Repr

def StrategyOrigin.value : StrategyOrigin → String
  | aiGenerated => "AI_GENERATED"
  | aiAssisted => "AI_ASSISTED"

inductive StrategyFamily
  | trend | momentum | pullback | range | liquiditySweep | meanReversion | breakout | liquidity | event
  deriving DecidableEq, Repr

def StrategyFamily.value : StrategyFamily → String
  | trend => "TREND"
  | momentum => "MOMENTUM"
  | pullback => "PULLBACK"
  | range => "RANGE"
  | liquiditySweep => "LIQUIDITY_SWEEP"
  | meanReversion => "MEAN_REVERSION"
  | breakout => "BREAKOUT"
  | liquidity => "LIQUIDITY"
  | event => "EVENT"

inductive Horizon
  | intraday | swing | position
  deriving DecidableEq, Repr

def Horizon.value : Horizon → String
  | intraday => "INTRADAY"
  | swing => "SWING"
  | position => "POSITION"

def operatorText : Operator → String
  | .gt => ">"
  | .ge => ">="
  | .lt => "<"
  | .le => "<="
  | .eq => "=="

def directionText : TradeDirection → String
  | .long => "LONG"
  | .short => "SHORT"

def origin : Codec StrategyOrigin :=
  .named [.aiGenerated, .aiAssisted] StrategyOrigin.value (by intro a; cases a <;> decide)

def family : Codec StrategyFamily :=
  .named [.trend, .momentum, .pullback, .range, .liquiditySweep, .meanReversion, .breakout, .liquidity,
    .event] StrategyFamily.value (by intro a; cases a <;> decide)

def horizon : Codec Horizon :=
  .named [.intraday, .swing, .position] Horizon.value (by intro a; cases a <;> decide)

def operator : Codec Operator :=
  .named [.gt, .ge, .lt, .le, .eq] operatorText (by intro a; cases a <;> decide)

def direction : Codec TradeDirection :=
  .named [.long, .short] directionText (by intro a; cases a <;> decide)

def assetClass : Codec AssetClass :=
  .named [.forex, .metals, .cryptocurrency, .stocks] AssetClass.value (by intro a; cases a <;> decide)

def instrumentType : Codec InstrumentType :=
  .named [.spot, .cfd, .futures] InstrumentType.value (by intro a; cases a <;> decide)

def quantityUnit : Codec QuantityUnit :=
  .named [.units, .shares, .lots, .contracts] QuantityUnit.value (by intro a; cases a <;> decide)

instance : assetClass.Exact := inferInstanceAs (Codec.named _ _ _).Exact
instance : instrumentType.Exact := inferInstanceAs (Codec.named _ _ _).Exact
instance : quantityUnit.Exact := inferInstanceAs (Codec.named _ _ _).Exact

/-! ## Conditions -/

/-- `Decimal | str` -/
inductive ConditionValue
  | decimal (d : Written)
  | text (s : String)
  deriving DecidableEq

/-- A text stays a text: a decimal is read back as the text it was stored as. -/
def ConditionValue.back : ConditionValue → ConditionValue
  | decimal d => text d.str
  | text s => text s

def ConditionValue.codec : Codec ConditionValue where
  dump
    | .decimal d => .str d.str
    | .text s => .str s
  load
    | .str s => some (.text s)
    | .num n => (Written.read n.text).map .decimal
    | _ => none
  back := back
  load_dump := by intro a; cases a <;> rfl
  dump_back := by intro a; cases a <;> rfl

structure Condition where
  feature : String
  operator : Operator
  value : ConditionValue
  deriving DecidableEq

def Condition.record : Record Condition :=
  ((Record.field "feature" .text).both <| (Record.field "operator" Schema.operator).both <|
    Record.field "value" ConditionValue.codec).as
  { toFun := fun (feature, operator, value) => { feature, operator, value }
    invFun := fun c => (c.feature, c.operator, c.value)
    left_inv := fun _ => rfl
    right_inv := fun _ => rfl }

def Condition.codec : Codec Condition := Condition.record.object (by decide)

/-- The condition that is read back. -/
def Condition.back (c : Condition) : Condition := { c with value := c.value.back }

/-! ## Trade rules -/

structure TradeRulesFields where
  direction : TradeDirection
  stopVolatilityMultiple : Written
  takeProfitRMultiples : List Written
  deriving DecidableEq

/-- The constraints of the single fields. -/
def TradeRulesFields.fieldsValid (r : TradeRulesFields) : Bool :=
  0 < r.stopVolatilityMultiple.value && r.stopVolatilityMultiple.value ≤ 10 &&
    1 ≤ r.takeProfitRMultiples.length && r.takeProfitRMultiples.length ≤ 5

/-- `ordered_targets` -/
def TradeRulesFields.orderedTargets (r : TradeRulesFields) : Except String Unit :=
  let targets := r.takeProfitRMultiples.map Written.value
  if targets.any (· ≤ 0) then .error "take-profit multiples must be finite and positive"
  else if ¬targets.Pairwise (· < ·) then .error "take-profit multiples must be strictly increasing"
  else .ok ()

def TradeRulesFields.accepted (r : TradeRulesFields) : Bool :=
  r.fieldsValid && r.orderedTargets.isOk

/-- The only entry method. -/
def entryMethod : Codec Unit := .named [()] (fun _ => "NEXT_BAR_OPEN") (fun _ => rfl)

def TradeRulesFields.record : Record TradeRulesFields :=
  ((Record.field "direction" Schema.direction).both <|
    (Record.field "entry_method" entryMethod (some ())).both <|
    (Record.field "stop_volatility_multiple" .decimal).both <|
    Record.field "take_profit_r_multiples" (.list .decimal)).as
  { toFun := fun (direction, _, stopVolatilityMultiple, takeProfitRMultiples) =>
      { direction, stopVolatilityMultiple, takeProfitRMultiples }
    invFun := fun r => (r.direction, (), r.stopVolatilityMultiple, r.takeProfitRMultiples)
    left_inv := fun _ => rfl
    right_inv := fun _ => rfl }

theorem TradeRulesFields.record_back (r : TradeRulesFields) : record.back r = r := by
  show { r with takeProfitRMultiples := r.takeProfitRMultiples.map id } = r
  rw [List.map_id]

/-- Trade rules that the schema accepts. -/
abbrev TradeRules := {r : TradeRulesFields // r.accepted = true}

def TradeRules.codec : Codec TradeRules :=
  (TradeRulesFields.record.object (by decide)).checked TradeRulesFields.accepted
    fun r => congrArg TradeRulesFields.accepted r.record_back

theorem TradeRules.codec_back (r : TradeRules) : codec.back r = r :=
  Subtype.ext r.1.record_back

/-! ## Specifications -/

/-- `Decimal | str | bool` -/
inductive PositionValue
  | decimal (d : Written)
  | text (s : String)
  | flag (b : Bool)
  deriving DecidableEq

def PositionValue.back : PositionValue → PositionValue
  | decimal d => text d.str
  | text s => text s
  | flag b => flag b

def PositionValue.codec : Codec PositionValue where
  dump
    | .decimal d => .str d.str
    | .text s => .str s
    | .flag b => .bool b
  load
    | .str s => some (.text s)
    | .bool b => some (.flag b)
    | .num n => (Written.read n.text).map .decimal
    | _ => none
  back := back
  load_dump := by intro a; cases a <;> rfl
  dump_back := by intro a; cases a <;> rfl

/-- `bool(value)` -/
def PositionValue.truthy : PositionValue → Bool
  | decimal d => d.coefficient ≠ 0
  | text s => s ≠ ""
  | flag b => b

structure SpecificationFields where
  name : String
  origin : StrategyOrigin
  family : StrategyFamily
  horizon : Horizon
  instruments : List String
  regimes : List String := []
  dataDependencies : List String := []
  entry : List Condition
  confirmations : List Condition := []
  filters : List Condition := []
  exit : List Condition
  invalidation : List Condition := []
  stopLoss : Condition
  takeProfit : List Condition := []
  positionManagement : Dict String PositionValue := Dict.empty
  sessions : List String := []
  eventRules : List String := []
  riskPerTrade : Written
  parameters : Dict String Written := Dict.empty
  author : Option String := none
  parentVersionId : Option String := none
  acceptedSuggestionIds : List String := []
  dataVersion : Option String := none
  evaluatorVersion : String := "strategy-evaluator-v1"
  assetClass : Option AssetClass := none
  instrumentType : Option InstrumentType := none
  quantityUnit : Option QuantityUnit := none
  venueInstrumentId : Option String := none
  specificationVersionId : Option String := none
  futuresContractId : Option String := none
  tradeRules : Option TradeRules := none

namespace SpecificationFields

variable (f : SpecificationFields)

/-- The constraints of the single fields. -/
def fieldsValid : Bool :=
  1 ≤ f.instruments.length && 1 ≤ f.entry.length && 1 ≤ f.exit.length && 0 < f.riskPerTrade.value

/-- A parameter that is a whole number between 2 and a maximum. -/
def checkParameter (key : String) (maximum : ℕ) : Except String Unit :=
  match f.parameters.get? key with
  | none => .ok ()
  | some d =>
    if d.value.isInt && 2 ≤ d.value && d.value ≤ maximum then .ok ()
    else .error s!"{key} must be an integer between 2 and {maximum}"

/-- Is the text missing or empty? -/
def missing (value : Option String) : Bool := value.getD "" = ""

/-- The references of a typed strategy. -/
def checkReferences : Except String Unit :=
  match f.instrumentType with
  | none => .ok ()
  | some type =>
    if missing f.venueInstrumentId || missing f.specificationVersionId then
      .error "typed strategy requires listing and specification references"
    else if type = .futures && missing f.futuresContractId then
      .error "futures strategy requires a dated contract reference"
    else .ok ()

/-- `bounds` -/
def bounds : Except String Unit := do
  f.checkParameter "structure_window" 200
  f.checkParameter "atr_period" 100
  if 100 < f.riskPerTrade.value then .error "risk per trade exceeds 100 percent"
  else if 5 < f.takeProfit.length then .error "at most five take-profit rules are supported"
  else f.checkReferences

def accepted : Bool := f.fieldsValid && f.bounds.isOk

def conditions : Codec (List Condition) := .list Condition.codec

def texts : Codec (List String) := .list .text

def maybeText : Codec (Option String) := .optional .text (fun _ h => by cases h)

def record : Record SpecificationFields :=
  ((Record.field "name" .text).both <|
    (Record.field "origin" Schema.origin).both <|
    (Record.field "family" Schema.family).both <|
    (Record.field "horizon" Schema.horizon).both <|
    (Record.field "instruments" texts).both <|
    (Record.field "regimes" texts (some [])).both <|
    (Record.field "data_dependencies" texts (some [])).both <|
    (Record.field "entry" conditions).both <|
    (Record.field "confirmations" conditions (some [])).both <|
    (Record.field "filters" conditions (some [])).both <|
    (Record.field "exit" conditions).both <|
    (Record.field "invalidation" conditions (some [])).both <|
    (Record.field "stop_loss" Condition.codec).both <|
    (Record.field "take_profit" conditions (some [])).both <|
    (Record.field "position_management" (.dict PositionValue.codec) (some Dict.empty)).both <|
    (Record.field "sessions" texts (some [])).both <|
    (Record.field "event_rules" texts (some [])).both <|
    (Record.field "risk_per_trade" .decimal).both <|
    (Record.field "parameters" (.dict .decimal) (some Dict.empty)).both <|
    (Record.field "author" maybeText (some none)).both <|
    (Record.field "parent_version_id" maybeText (some none)).both <|
    (Record.field "accepted_suggestion_ids" texts (some [])).both <|
    (Record.field "data_version" maybeText (some none)).both <|
    (Record.field "evaluator_version" .text (some "strategy-evaluator-v1")).both <|
    (Record.field "asset_class" (.optional Schema.assetClass (fun _ h => by cases h)) (some none)).both <|
    (Record.field "instrument_type" (.optional Schema.instrumentType (fun _ h => by cases h))
      (some none)).both <|
    (Record.field "quantity_unit" (.optional Schema.quantityUnit (fun _ h => by cases h))
      (some none)).both <|
    (Record.field "venue_instrument_id" maybeText (some none)).both <|
    (Record.field "specification_version_id" maybeText (some none)).both <|
    (Record.field "futures_contract_id" maybeText (some none)).both <|
    Record.field "trade_rules" (.optional TradeRules.codec (fun _ h => by cases h)) (some none)).as
  { toFun := fun (name, origin, family, horizon, instruments, regimes, dataDependencies, entry,
        confirmations, filters, exit, invalidation, stopLoss, takeProfit, positionManagement, sessions,
        eventRules, riskPerTrade, parameters, author, parentVersionId, acceptedSuggestionIds,
        dataVersion, evaluatorVersion, assetClass, instrumentType, quantityUnit, venueInstrumentId,
        specificationVersionId, futuresContractId, tradeRules) =>
      { name, origin, family, horizon, instruments, regimes, dataDependencies, entry, confirmations,
        filters, exit, invalidation, stopLoss, takeProfit, positionManagement, sessions, eventRules,
        riskPerTrade, parameters, author, parentVersionId, acceptedSuggestionIds, dataVersion,
        evaluatorVersion, assetClass, instrumentType, quantityUnit, venueInstrumentId,
        specificationVersionId, futuresContractId, tradeRules }
    invFun := fun f => (f.name, f.origin, f.family, f.horizon, f.instruments, f.regimes,
      f.dataDependencies, f.entry, f.confirmations, f.filters, f.exit, f.invalidation, f.stopLoss,
      f.takeProfit, f.positionManagement, f.sessions, f.eventRules, f.riskPerTrade, f.parameters,
      f.author, f.parentVersionId, f.acceptedSuggestionIds, f.dataVersion, f.evaluatorVersion,
      f.assetClass, f.instrumentType, f.quantityUnit, f.venueInstrumentId, f.specificationVersionId,
      f.futuresContractId, f.tradeRules)
    left_inv := fun _ => rfl
    right_inv := fun _ => rfl }

/-- The fields that are read back. -/
def back : SpecificationFields :=
  { f with
    entry := f.entry.map Condition.back
    confirmations := f.confirmations.map Condition.back
    filters := f.filters.map Condition.back
    exit := f.exit.map Condition.back
    invalidation := f.invalidation.map Condition.back
    stopLoss := f.stopLoss.back
    takeProfit := f.takeProfit.map Condition.back
    positionManagement := f.positionManagement.map PositionValue.back }

theorem record_back : record.back f = f.back := by
  have htexts : ∀ xs : List String, xs.map id = xs := List.map_id
  have hoption : ∀ {α : Type} (o : Option α), o.map id = o := fun o => by cases o <;> rfl
  have hparameters : f.parameters.map id = f.parameters := Dict.ext (List.map_id _)
  have hrules : f.tradeRules.map TradeRules.codec.back = f.tradeRules := by
    rw [show TradeRules.codec.back = id from funext TradeRules.codec_back, hoption]
  show ({ f.back with
    instruments := f.instruments.map id
    regimes := f.regimes.map id
    dataDependencies := f.dataDependencies.map id
    sessions := f.sessions.map id
    eventRules := f.eventRules.map id
    parameters := f.parameters.map id
    author := f.author.map id
    parentVersionId := f.parentVersionId.map id
    acceptedSuggestionIds := f.acceptedSuggestionIds.map id
    dataVersion := f.dataVersion.map id
    assetClass := f.assetClass.map id
    instrumentType := f.instrumentType.map id
    quantityUnit := f.quantityUnit.map id
    venueInstrumentId := f.venueInstrumentId.map id
    specificationVersionId := f.specificationVersionId.map id
    futuresContractId := f.futuresContractId.map id
    tradeRules := f.tradeRules.map TradeRules.codec.back } : SpecificationFields) = f.back
  simp only [htexts, hoption, hparameters, hrules]
  rfl

/-- The checks read nothing that comes back as another value. -/
theorem accepted_back : f.back.accepted = f.accepted := by
  have hvalid : f.back.fieldsValid = f.fieldsValid := by
    unfold fieldsValid back
    simp only [List.length_map]
  have hbounds : f.back.bounds = f.bounds := by
    unfold bounds
    rw [show f.back.takeProfit = f.takeProfit.map Condition.back from rfl, List.length_map]
    rfl
  unfold accepted
  rw [hvalid, hbounds]

end SpecificationFields

/-- A specification that the schema accepts. -/
abbrev StrategySpecification := {f : SpecificationFields // f.accepted = true}

namespace StrategySpecification

def codec : Codec StrategySpecification :=
  (SpecificationFields.record.object (by decide)).checked SpecificationFields.accepted fun f => by
    show (SpecificationFields.record.back f).accepted = f.accepted
    rw [f.record_back, f.accepted_back]

/-- `model_dump(mode="json")` -/
def modelDump (s : StrategySpecification) : Json := codec.dump s

/-- `StrategySpecification.model_validate` -/
def modelValidate (document : Json) : Option StrategySpecification := codec.load document

/-- The specification that is read back. -/
def reloaded (s : StrategySpecification) : StrategySpecification :=
  ⟨s.1.back, s.1.accepted_back.trans s.2⟩

theorem codec_back (s : StrategySpecification) : codec.back s = s.reloaded :=
  Subtype.ext s.1.record_back

theorem modelValidate_modelDump (s : StrategySpecification) :
    modelValidate s.modelDump = some s.reloaded := by
  rw [← codec_back]
  exact codec.load_dump s

theorem modelDump_reloaded (s : StrategySpecification) : s.reloaded.modelDump = s.modelDump := by
  rw [← codec_back]
  exact codec.dump_back s

/-- The hash of `compile_strategy`. -/
def artifactHash (sha256 : List Char → String) (s : StrategySpecification) : String :=
  sha256 s.modelDump.sortedText

end StrategySpecification

structure CompiledStrategy where
  artifactHash : String
  specification : StrategySpecification

/-- `compile_strategy` -/
def compileStrategy (sha256 : List Char → String) (spec : StrategySpecification) :
    CompiledStrategy where
  artifactHash := sha256 spec.modelDump.sortedText
  specification := spec

/-! ## What a simulation reads -/

def ConditionValue.read : ConditionValue → Operand
  | decimal d => .number d.value
  | text s => .name s

def Condition.read (c : Condition) : Matrades.Condition := ⟨c.feature, c.operator, c.value.read⟩

theorem TradeRulesFields.accepted_iff {r : TradeRulesFields} :
    r.accepted = true ↔ r.fieldsValid = true ∧ r.orderedTargets = .ok () := by
  unfold accepted
  rw [Bool.and_eq_true, isOk_iff]

theorem TradeRulesFields.fieldsValid_iff {r : TradeRulesFields} :
    r.fieldsValid = true ↔ 0 < r.stopVolatilityMultiple.value ∧ r.stopVolatilityMultiple.value ≤ 10 ∧
      0 < r.takeProfitRMultiples.length ∧ r.takeProfitRMultiples.length ≤ 5 := by
  simp only [fieldsValid, Bool.and_eq_true, decide_eq_true_eq, and_assoc, Nat.succ_le_iff]

def TradeRules.read (r : TradeRules) : Matrades.TradeRules :=
  have hr := TradeRulesFields.accepted_iff.1 r.2
  have hfields := TradeRulesFields.fieldsValid_iff.1 hr.1
  { direction := r.1.direction
    stopVolatilityMultiple := r.1.stopVolatilityMultiple.value
    takeProfitRMultiples := r.1.takeProfitRMultiples.map Written.value
    stop_pos := hfields.1
    stop_le := hfields.2.1
    targets_nonempty := by
      rw [ne_eq, List.map_eq_nil_iff]
      exact List.ne_nil_of_length_pos hfields.2.2.1
    targets_length := by
      rw [List.length_map]
      exact hfields.2.2.2
    targets_pos := by
      intro multiple hmultiple
      by_contra hnot
      exact (ok_of_guard hr.2).1
        (List.any_eq_true.2 ⟨multiple, hmultiple, decide_eq_true (not_lt.1 hnot)⟩)
    targets_increasing := by
      by_contra hnot
      exact (ok_of_guard (ok_of_guard hr.2).2).1 hnot }

namespace SpecificationFields

variable {f : SpecificationFields}

theorem accepted_iff : f.accepted = true ↔ f.fieldsValid = true ∧ f.bounds = .ok () := by
  unfold accepted
  rw [Bool.and_eq_true, isOk_iff]

theorem fieldsValid_iff : f.fieldsValid = true ↔
    0 < f.instruments.length ∧ 0 < f.entry.length ∧ 0 < f.exit.length ∧ 0 < f.riskPerTrade.value := by
  simp only [fieldsValid, Bool.and_eq_true, decide_eq_true_eq, and_assoc, Nat.succ_le_iff]

theorem bounds_ok (h : f.bounds = .ok ()) :
    f.checkParameter "structure_window" 200 = .ok () ∧ f.checkParameter "atr_period" 100 = .ok () ∧
      f.riskPerTrade.value ≤ 100 := by
  obtain ⟨_, hwindow, h⟩ := ok_of_bind h
  obtain ⟨_, hperiod, h⟩ := ok_of_bind h
  exact ⟨hwindow, hperiod, not_lt.1 (ok_of_guard h).1⟩

/-- `int(value)` -/
def whole (d : Written) : ℕ := ⌊d.value⌋.toNat

theorem whole_bounds {key : String} {maximum : ℕ} {d : Written}
    (h : f.checkParameter key maximum = .ok ()) (hd : f.parameters.get? key = some d) :
    2 ≤ whole d ∧ whole d ≤ maximum := by
  have hcheck : d.value.isInt = true ∧ 2 ≤ d.value ∧ d.value ≤ maximum := by
    unfold checkParameter at h
    rw [hd] at h
    dsimp only at h
    split at h
    · rename_i hc
      simpa only [Bool.and_eq_true, decide_eq_true_eq, and_assoc] using hc
    · cases h
  have hlow : 2 ≤ ⌊d.value⌋ := Int.le_floor.2 (by exact_mod_cast hcheck.2.1)
  have hhigh : ⌊d.value⌋ ≤ maximum := by
    have hle : (⌊d.value⌋ : ℚ) ≤ maximum := (Int.floor_le _).trans hcheck.2.2
    exact_mod_cast hle
  unfold whole
  omega

end SpecificationFields

namespace StrategySpecification

variable (s : StrategySpecification)

def parameters : Parameters :=
  have hbounds := SpecificationFields.bounds_ok (SpecificationFields.accepted_iff.1 s.2).2
  { structureWindow := (s.1.parameters.get? "structure_window").elim 20 SpecificationFields.whole
    atrPeriod := (s.1.parameters.get? "atr_period").map SpecificationFields.whole
    window_bounds := by
      cases h : s.1.parameters.get? "structure_window" with
      | none => decide
      | some d => exact SpecificationFields.whole_bounds hbounds.1 h
    period_bounds := by
      intro period hperiod
      obtain ⟨d, hd, rfl⟩ := Option.mem_map.1 hperiod
      exact SpecificationFields.whole_bounds hbounds.2.1 hd }

/-- `position_management.get(key)`, as a condition -/
def switch (key : String) : Bool := ((s.1.positionManagement.get? key).map PositionValue.truthy).getD false

def read : Matrades.StrategySpecification :=
  have haccepted := SpecificationFields.accepted_iff.1 s.2
  have hfields := SpecificationFields.fieldsValid_iff.1 haccepted.1
  { instrument := s.1.instruments.head (List.ne_nil_of_length_pos hfields.1)
    regimes := s.1.regimes
    entry := s.1.entry.map Condition.read
    confirmations := s.1.confirmations.map Condition.read
    filters := s.1.filters.map Condition.read
    exit := s.1.exit.map Condition.read
    invalidation := s.1.invalidation.map Condition.read
    stopLoss := s.1.stopLoss.read
    takeProfit := s.1.takeProfit.map Condition.read
    positionManagement := ⟨s.switch "move_to_break_even", s.switch "trailing_stop"⟩
    sessions := s.1.sessions
    eventRules := s.1.eventRules
    riskPerTrade := s.1.riskPerTrade.value
    parameters := s.parameters
    assetClass := s.1.assetClass
    tradeRules := s.1.tradeRules.map TradeRules.read
    entry_nonempty := by
      rw [ne_eq, List.map_eq_nil_iff]
      exact List.ne_nil_of_length_pos hfields.2.1
    exit_nonempty := by
      rw [ne_eq, List.map_eq_nil_iff]
      exact List.ne_nil_of_length_pos hfields.2.2.1
    risk_pos := hfields.2.2.2
    risk_le := (SpecificationFields.bounds_ok haccepted.2).2.2 }

end StrategySpecification

end Matrades.Schema
