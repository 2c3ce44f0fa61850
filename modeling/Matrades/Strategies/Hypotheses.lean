import Matrades.Strategies.Signals
import Matrades.Strategies.Storage

/-!
# Hypotheses of the strategy agent

`allowed_condition_values` and `generate_hypotheses` of `modules/strategies/ai_workflow.py`. The evidence
pack is a JSON object and the agent's response any JSON value. A dictionary that is merged from others is
the list of their fields, the last one first: the first field of a key counts.
-/

namespace Matrades

open Base Schema

/-! ## Vocabulary -/

/-- `SUPPORTED_FEATURES` -/
def supportedFeatures : List String :=
  ["open", "high", "low", "close", "momentum", "moving_average", "volatility", "volume", "prior_high",
    "prior_low", "slow_average", "trend_efficiency", "trend_direction", "relative_volatility",
    "news_regime"] ++ technicalNames

/-- `SUPPORTED_OPERATORS` -/
def supportedOperators : List String := [">", ">=", "<", "<=", "=="]

/-- The numbers of `BASE_CONDITION_VALUES`. -/
def baseNumbers : List String :=
  ["-1", "0", "1", "10", "20", "25", "30", "50", "70", "75", "80", "90", "100"]

/-- `BASE_CONDITION_VALUES` -/
def baseConditionValues : List String := supportedFeatures ++ baseNumbers

/-! ## Values of any kind -/

/-- `bool(value)`; a missing field is false. -/
def truthy : Option Json → Bool
  | none => false
  | some .null => false
  | some (.bool b) => b
  | some (.num n) => n.value ≠ 0
  | some (.str s) => s ≠ ""
  | some (.arr items) => !items.isEmpty
  | some (.obj fields) => !fields.isEmpty

/-- The items of a value in a `for`. -/
def iterate : Json → Except String (List Json)
  | .arr items => .ok items
  | .obj fields => .ok (fields.map fun field => .str field.1)
  | .str s => .ok (s.toList.map fun c => .str c.toString)
  | _ => .error "TypeError"

/-- `str.isspace` of a character -/
def isSpace (c : Char) : Bool :=
  let n := c.toNat
  (9 ≤ n && n ≤ 13) || (28 ≤ n && n ≤ 32) || n = 133 || n = 160 || n = 5760 ||
    (8192 ≤ n && n ≤ 8202) || n = 8232 || n = 8233 || n = 8239 || n = 8287 || n = 12288

/-- `text.strip()` -/
def stripSpace (text : String) : String :=
  String.ofList ((text.toList.dropWhile isSpace).reverse.dropWhile isSpace).reverse

/-- The value of a key, where it is not null. -/
def given (fields : List (String × Json)) (key : String) : Option Json :=
  if Json.absent (fields.lookup key) then none else fields.lookup key

/-- Arithmetic of decimals in the running context; none where it raises. -/
structure DecimalContext where
  subtract : Written → Written → Option Written
  /-- `sum(values, Decimal(0)) / len(values)` -/
  mean : List Written → Option Written

structure GenerationSettings where
  context : DecimalContext
  /-- `str(value)` of a value that is not a text -/
  repr : Json → String
  /-- `strategy_research_simulation_risk_percent` -/
  simulationRiskPercent : Written

/-- `str(value)` -/
def GenerationSettings.str (settings : GenerationSettings) : Json → String
  | .str s => s
  | value => settings.repr value

/-- `str(value or "")` -/
def GenerationSettings.strOrEmpty (settings : GenerationSettings) (value : Option Json) : String :=
  if truthy value then settings.str (value.getD .null) else ""

/-! ## Allowed condition values -/

structure DiscoveryPoint where
  openPrice : Written
  high : Written
  low : Written
  close : Written
  volume : Written

section
variable (settings : GenerationSettings)

/-- `Decimal(str(candle[field]))`, where it is finite -/
def candleNumber (candle : List (String × Json)) (field : String) : Option Written :=
  (candle.lookup field).bind fun value => Written.read (settings.str value).toList

/-- A candle that is not of five finite numbers is left out. -/
def discoveryPoint : Json → Option DiscoveryPoint
  | .obj candle => do
    let openPrice ← candleNumber settings candle "open"
    let high ← candleNumber settings candle "high"
    let low ← candleNumber settings candle "low"
    let close ← candleNumber settings candle "close"
    let volume ← candleNumber settings candle "volume"
    return { openPrice, high, low, close, volume }
  | _ => none

/-- `add_quantiles` -/
def quantiles (numbers : List Written) : List String :=
  let sorted := numbers.insertionSort fun a b => a.value ≤ b.value
  let n := sorted.length
  ([n / 4, n / 2, 3 * n / 4].filterMap fun position => sorted[position]?).filterMap fun number =>
    if number.fixed.length ≤ 32 then some (String.ofList number.fixed) else none

/-- The means of the last five numbers. -/
def rollingMeans (numbers : List Written) : Option (List Written) :=
  (List.range numbers.length).mapM fun index =>
    settings.context.mean (slice numbers (index - 4) (index + 1))

/-- The literals of the discovery candles. -/
def discoveryLiterals (values : List DiscoveryPoint) : Option (List String) := do
  let ranges ← values.mapM fun point => settings.context.subtract point.high point.low
  let moves ← (values.zip values.tail).mapM fun (previous, point) =>
    settings.context.subtract point.close previous.close
  let averages ← rollingMeans settings (values.map DiscoveryPoint.close)
  let volatilities ← rollingMeans settings ranges
  return [values.map DiscoveryPoint.openPrice, values.map DiscoveryPoint.high,
    values.map DiscoveryPoint.low, values.map DiscoveryPoint.close, values.map DiscoveryPoint.volume,
    moves, averages, volatilities].flatMap quantiles

/-- `allowed_condition_values` -/
def allowedConditionValues (evidencePack : List (String × Json)) : Except String (List String) :=
  match (evidencePack.lookup "historical_discovery").getD (.obj []) with
  | .obj discovery =>
    match (discovery.lookup "recent_candles").getD (.arr []) with
    | .arr candles =>
      match discoveryLiterals settings (candles.filterMap (discoveryPoint settings)) with
      | some literals => .ok (baseConditionValues ++ literals)
      | none => .error "ArithmeticError"
    | _ => .ok baseConditionValues
  | _ => .error "AttributeError"

/-! ## The evidence pack -/

/-- The reference id of an item of the pack. -/
def referenceId : Json → Option String
  | .obj item => if truthy (item.lookup "id") then some (settings.strOrEmpty (item.lookup "id")) else none
  | _ => none

def packReferences (evidencePack : List (String × Json)) : Except String (List String) := do
  let items ← iterate ((evidencePack.lookup "references").getD (.arr []))
  return items.filterMap (referenceId settings)

def identityKeys : List String :=
  ["asset_class", "instrument_type", "quantity_unit", "venue_instrument_id", "specification_version_id",
    "futures_contract_id"]

/-- The keys of `typed_fields` with their values in the pack. -/
def typedFields (evidencePack : List (String × Json)) : List (String × Json) :=
  identityKeys.filterMap fun key => (given evidencePack key).map fun value => (key, value)

/-! ## Hypotheses -/

structure StrategyHypothesis where
  hypothesisId : String
  specification : Schema.StrategySpecification
  rationale : String
  breakdown : List String
  evidenceRefs : List String
  agentId : String
  rationale_nonempty : rationale ≠ ""
  breakdown_length : 3 ≤ breakdown.length
  refs_nonempty : evidenceRefs ≠ []

/-- `StrategyHypothesis(..)` -/
def strategyHypothesis (hypothesisId : String) (specification : Schema.StrategySpecification)
    (rationale : String) (breakdown : Option (List String)) (evidenceRefs : List String)
    (agentId : String) : Except String StrategyHypothesis :=
  match breakdown with
  | none => .error "ValidationError"
  | some breakdown =>
    if h : rationale ≠ "" ∧ 3 ≤ breakdown.length ∧ evidenceRefs ≠ [] then
      .ok { hypothesisId, specification, rationale, breakdown, evidenceRefs, agentId
            rationale_nonempty := h.1, breakdown_length := h.2.1, refs_nonempty := h.2.2 }
    else .error "ValidationError"

/-- The rule groups of a specification. -/
def ruleGroups (f : SpecificationFields) : List (String × List Schema.Condition) :=
  [("entry", f.entry), ("confirmations", f.confirmations), ("filters", f.filters), ("exit", f.exit),
    ("invalidation", f.invalidation), ("stop_loss", [f.stopLoss]), ("take_profit", f.takeProfit)]

/-- `str(condition.value)` -/
def ConditionValue.str : ConditionValue → String
  | .decimal d => d.str
  | .text s => s

/-- One condition of a group of the hypothesis with this number. -/
def checkCondition (conditionValues : List String) (number : ℕ) (group : String) (index : ℕ)
    (condition : Schema.Condition) : Except String Unit :=
  if ¬supportedFeatures.contains condition.feature ∨
      ¬supportedOperators.contains (operatorText condition.operator) then
    .error s!"hypothesis {number} {group}[{index}] uses an unsupported evaluator rule"
  else if ¬conditionValues.contains (ConditionValue.str condition.value) then
    .error s!"hypothesis {number} {group}[{index}] uses an unsupported condition value"
  else .ok ()

def checkRules (conditionValues : List String) (number : ℕ) (f : SpecificationFields) :
    Except String Unit :=
  (ruleGroups f).forM fun (group, conditions) =>
    conditions.zipIdx.forM fun (condition, index) =>
      checkCondition conditionValues number group index condition

/-- What the application says about every strategy. -/
def applicationFields (origin : StrategyOrigin) : List (String × Json) :=
  [("risk_per_trade", .str settings.simulationRiskPercent.str), ("origin", .str origin.value),
    ("evaluator_version", .str "strategy-evaluator-v2")]

/-- The document of a strategy: the response's own fields behind those of the application. -/
def strategyDocument (origin : StrategyOrigin) (evidencePack strategy : List (String × Json)) : Json :=
  .obj (applicationFields settings origin ++ (typedFields evidencePack ++ strategy))

/-- The first of the references that are not known. -/
def unknownReference (references evidenceRefs : List String) : Option String :=
  ((evidenceRefs.filter fun ref => !references.contains ref).insertionSort (· ≤ ·)).head?

/-- What one run of the loop reads from the pack and the settings. -/
structure GenerationContext where
  origin : StrategyOrigin
  evidencePack : List (String × Json)
  instrument : String
  references : List String
  conditionValues : List String
  role : String

/-- The hypothesis of one item of the response. -/
def hypothesisOf (g : GenerationContext) (number : ℕ) (identifier : String)
    (raw strategy : List (String × Json)) : Except String StrategyHypothesis := do
  let items ← iterate ((raw.lookup "evidence_refs").getD (.arr []))
  let evidenceRefs := items.map settings.str
  match unknownReference g.references evidenceRefs with
  | some ref => .error s!"unknown evidence reference: {ref}"
  | none =>
    let specification ← orError
      (StrategySpecification.modelValidate (strategyDocument settings g.origin g.evidencePack strategy))
      "ValidationError"
    if specification.1.instruments ≠ [g.instrument] then
      .error "strategy hypothesis must use only the approved instrument"
    else if specification.1.tradeRules.isNone then
      .error "strategy hypothesis requires explicit price protection rules"
    else
      checkRules g.conditionValues number specification.1
      strategyHypothesis identifier specification (settings.strOrEmpty (raw.lookup "rationale"))
        (SpecificationFields.texts.load ((raw.lookup "breakdown").getD (.arr []))) evidenceRefs g.role

/-- The body of the loop over the response; `seen_ids` are the ids of the hypotheses so far. -/
def acceptHypothesis (g : GenerationContext) (hypotheses : List StrategyHypothesis)
    (entry : Json × ℕ) : Except String (List StrategyHypothesis) :=
  match entry.1 with
  | .obj raw =>
    match raw.lookup "strategy" with
    | some (.obj strategy) => do
      let identifier := stripSpace (settings.strOrEmpty (raw.lookup "hypothesis_id"))
      if identifier = "" ∨ identifier ∈ hypotheses.map StrategyHypothesis.hypothesisId then
        .error "strategy hypothesis identifiers must be unique"
      else
        let hypothesis ← hypothesisOf settings g (entry.2 + 1) identifier raw strategy
        return hypotheses ++ [hypothesis]
    | _ => .error "strategy agent returned an invalid hypothesis"
  | _ => .error "strategy agent returned an invalid hypothesis"

/-- The agent's role. -/
def roleOf : StrategyOrigin → String
  | .aiGenerated => "strategy_researcher"
  | .aiAssisted => "strategy_assistant"

/-- The checks of the description and the pack. -/
def generationContext (origin : StrategyOrigin) (evidencePack : List (String × Json))
    (description : Option String) : Except String GenerationContext := do
  let prompt := stripSpace (description.getD "")
  if origin = .aiAssisted ∧ prompt = "" then
    .error "AI-assisted strategy generation requires a human description"
  else
    let instrument := settings.strOrEmpty (evidencePack.lookup "instrument")
    let selectionId := settings.strOrEmpty (evidencePack.lookup "selection_id")
    let references ← packReferences settings evidencePack
    if instrument = "" ∨ selectionId = "" ∨ references = [] then
      .error "an immutable approved-market evidence pack is required"
    else if truthy (evidencePack.lookup "instrument_type") ∧
        (¬truthy (evidencePack.lookup "venue_instrument_id") ∨
          ¬truthy (evidencePack.lookup "specification_version_id")) then
      .error "typed strategy evidence requires listing and specification references"
    else
      let conditionValues ← allowedConditionValues settings evidencePack
      return { origin, evidencePack, instrument, references, conditionValues, role := roleOf origin }

/-- `generate_hypotheses`; `invoke` is the agent's response to a role. -/
def generateHypotheses (origin : StrategyOrigin) (evidencePack : List (String × Json))
    (description : Option String) (invoke : String → Except String Json) :
    Except String (List StrategyHypothesis) := do
  let g ← generationContext settings origin evidencePack description
  match ← invoke g.role with
  | .obj response =>
    match response.lookup "hypotheses" with
    | some (.arr raws) =>
      if raws.length ≠ 3 then .error "strategy agent must return exactly three hypotheses"
      else raws.zipIdx.foldlM (acceptHypothesis settings g) []
    | _ => .error "strategy agent must return exactly three hypotheses"
  | _ => .error "AttributeError"

end

example : stripSpace " H1\n" = "H1" := by decide

end Matrades
