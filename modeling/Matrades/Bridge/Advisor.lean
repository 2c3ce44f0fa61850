import Mathlib.Data.List.MinMax
import Mathlib.Data.List.TakeWhile
import Matrades.Base.Text
import Matrades.Bridge.Commands

/-!
# The expert advisor

`PollCommands` of `bridges/mt5/MatradesMT5BridgeEA.mq5` and what it calls. The advisor reads a
command out of the response's text: from the marker of its id to the next closing brace, field by
field, with 0 and the empty text where a field is missing. A command turns into at most one order
request (`requestFor`); what the terminal and the broker answer is the advisor's environment.

`Advisor.advance` is `PollCommands` cut into the steps between which the terminal can crash: the
order request, the record of the command id, the receipt.
-/

namespace Matrades

open Base

/-! ## Field readers -/

/-- `JsonString`. -/
def jsonString (body : List Char) (key : String) : List Char :=
  match after ('"' :: key.toList ++ "\":\"".toList) body with
  | some rest => if rest.contains '"' then upTo (· = '"') rest else []
  | none => []

/-- `JsonNumber`. -/
def jsonNumber (body : List Char) (key : String) : ℚ :=
  match after ('"' :: key.toList ++ "\":".toList) body with
  | some ('"' :: rest) => toDouble (upTo (· = '"') rest)
  | some rest => toDouble (upTo (fun c => c = ',' || c = '}' || c = ']') rest)
  | none => 0

/-- `(long)value`. -/
def toLong (value : ℚ) : Int := if 0 ≤ value then ⌊value⌋ else ⌈value⌉

/-! ## The terminal -/

structure OpenPosition where
  ticket : Nat
  identifier : Nat
  symbol : List Char
  isBuy : Bool
  volume : ℚ
  priceOpen : ℚ
  stopLoss : ℚ
  takeProfit : ℚ
  profit : ℚ
  deriving DecidableEq

/-- `IntegerToString(POSITION_IDENTIFIER)`, the position id of a snapshot. -/
def OpenPosition.positionId (p : OpenPosition) : String := String.ofList (Nat.toDigits 10 p.identifier)

/-- The open positions, one per ticket, and the market as the terminal sees it. -/
structure Terminal where
  positions : List OpenPosition
  nodup : (positions.map OpenPosition.ticket).Nodup
  symbolSelect : List Char → Bool
  bid : List Char → ℚ
  ask : List Char → ℚ
  point : List Char → ℚ
  /-- `OrderCalcProfit`: symbol, sell side, volume, opening and closing price. -/
  orderCalcProfit : List Char → Bool → ℚ → ℚ → ℚ → Option ℚ

/-- The order requests the advisor builds. -/
inductive TradeRequest
  | entry (symbol : List Char) (volume : ℚ) (sell : Bool) (price stopLoss takeProfit : ℚ)
  | close (position : Nat) (symbol : List Char) (volume : ℚ) (sell : Bool) (price : ℚ)
  | protect (position : Nat) (symbol : List Char) (stopLoss takeProfit : ℚ)
  | remove (order : Nat)
  deriving DecidableEq

/-- The deviation of a deal request, in points. -/
def deviation : ℚ := 20

/-- `ExecutePlaceOrder` up to `OrderSend`: the request, or the error code. -/
def placeOrderRequest (t : Terminal) (command : List Char) : Except String TradeRequest :=
  let symbol := jsonString command "instrument"
  let volume := jsonNumber command "quantity"
  if symbol = [] ∨ volume ≤ 0 then .error "invalid_order_payload"
  else if t.symbolSelect symbol = false then .error "symbol_unavailable"
  else
    let sell : Bool := jsonString command "direction" = "SELL".toList
    let price := if sell then t.bid symbol else t.ask symbol
    let stopLoss := jsonNumber command "stop_loss"
    let takeProfit := jsonNumber command "take_profit"
    let maxLoss := jsonNumber command "max_loss_account_currency"
    let worstPrice := price + (if sell then -1 else 1) * deviation * t.point symbol
    if maxLoss ≤ 0 ∨ stopLoss ≤ 0 ∨ takeProfit ≤ 0 then
      .error "broker_stop_risk_exceeds_authorized_limit"
    else match t.orderCalcProfit symbol sell volume worstPrice stopLoss with
      | some stopResult =>
        if 0 ≤ stopResult ∨ maxLoss < -stopResult then
          .error "broker_stop_risk_exceeds_authorized_limit"
        else .ok (.entry symbol volume sell price stopLoss takeProfit)
      | none => .error "broker_stop_risk_exceeds_authorized_limit"

/-- `PositionSelectByTicket`. -/
def positionByTicket (t : Terminal) (ticket : Int) : Option OpenPosition :=
  t.positions.find? fun p => (p.ticket : Int) = ticket

/-- `PositionSelect`: of several positions of the symbol, the one with the lowest ticket. -/
def positionBySymbol (t : Terminal) (symbol : List Char) : Option OpenPosition :=
  (t.positions.filter fun p => p.symbol = symbol).argmin OpenPosition.ticket

/-- `SelectCommandPosition`. -/
def selectCommandPosition (t : Terminal) (command symbol : List Char) : Option OpenPosition :=
  let supplied := toLong (jsonNumber command "position_id")
  let byTicket := if 0 < supplied then positionByTicket t supplied else none
  byTicket.or (if symbol = [] then none else positionBySymbol t symbol)

/-- `ExecuteClose` up to `OrderSend`. -/
def closeRequest (t : Terminal) (command : List Char) : Except String TradeRequest :=
  match selectCommandPosition t command (jsonString command "instrument") with
  | none => .error "position_unavailable"
  | some p =>
    let requested := jsonNumber command "quantity"
    let volume := if requested ≤ 0 ∨ p.volume < requested then p.volume else requested
    .ok (.close p.ticket p.symbol volume p.isBuy (if p.isBuy then t.bid p.symbol else t.ask p.symbol))

/-- `ExecuteProtection` up to `OrderSend`. -/
def protectionRequest (t : Terminal) (command : List Char) : Except String TradeRequest :=
  match selectCommandPosition t command (jsonString command "instrument") with
  | none => .error "position_unavailable"
  | some p =>
    .ok (.protect p.ticket p.symbol (jsonNumber command "stop_loss")
      (jsonNumber command "take_profit"))

/-- `ExecuteCancel` up to `OrderSend`. -/
def cancelRequest (command : List Char) : Except String TradeRequest :=
  let order := toLong (jsonNumber command "order_id") % 2 ^ 64
  if order = 0 then .error "order_id_required" else .ok (.remove order.toNat)

/-- What the advisor executes for an action text. -/
inductive AdvisorAction
  | place | close | protect | cancel | unsupported
  deriving DecidableEq

def advisorAction (command : List Char) : AdvisorAction :=
  let action := jsonString command "action"
  if action = "PLACE_ORDER".toList then .place
  else if action = "PARTIAL_CLOSE".toList ∨ action = "FULL_EXIT".toList then .close
  else if action = "SET_OR_CHANGE_STOP_LOSS".toList ∨
      action = "SET_OR_CHANGE_TAKE_PROFIT".toList then .protect
  else if action = "CANCEL_ORDER".toList then .cancel
  else .unsupported

/-- The order request of a command, or the error code. -/
def requestFor (t : Terminal) (command : List Char) : Except String TradeRequest :=
  match advisorAction command with
  | .place => placeOrderRequest t command
  | .close => closeRequest t command
  | .protect => protectionRequest t command
  | .cancel => cancelRequest command
  | .unsupported => .error "unsupported_action"

/-- What `OrderSend` answers. -/
structure SendResult where
  returned : Bool
  retcode : Nat
  order : Nat
  lastError : Nat

def retcodePlaced : Nat := 10008
def retcodeDone : Nat := 10009

/-- Does the answer count as a success of the request? -/
def SendResult.succeeds (r : SendResult) : TradeRequest → Bool
  | .entry .. => r.returned && (r.retcode = retcodeDone || r.retcode = retcodePlaced)
  | .close .. => r.returned && (r.retcode = retcodeDone || r.retcode = retcodePlaced)
  | _ => r.returned && r.retcode = retcodeDone

/-- The broker order id a successful request reports. -/
def SendResult.orderId (r : SendResult) : TradeRequest → Nat
  | .remove order => order
  | _ => r.order

/-! ## The receipt -/

/-- A receipt as the advisor posts it. -/
structure AdvisorReceipt where
  commandId : List Char
  idempotencyKey : List Char
  state : String
  certainty : String
  brokerOrderId : String := ""
  errorCode : String := ""

/-- The receipt of an executed command. -/
def receiptFor (commandId key : List Char) (request : Except String TradeRequest)
    (answer : SendResult) : AdvisorReceipt :=
  match request with
  | .error code => ⟨commandId, key, "REJECTED", "NONE", "", code⟩
  | .ok request =>
    if answer.succeeds request then
      ⟨commandId, key, "ACKNOWLEDGED", "CONFIRMED",
        String.ofList (Nat.toDigits 10 (answer.orderId request)), ""⟩
    else
      ⟨commandId, key, "REJECTED", "NONE", "", String.ofList (Nat.toDigits 10
        (if 0 < answer.retcode then answer.retcode else answer.lastError))⟩

/-! ## Polling -/

def commandMarker : List Char := "\"command_id\":\"".toList

/-- The next command of the response: its text, to the next closing brace, and what follows. -/
def nextCommand (response : List Char) : Option (List Char × List Char) :=
  match seek commandMarker response with
  | none => none
  | some rest =>
    if rest.contains '}' then
      some (upTo (· = '}') rest ++ ['}'], (rest.dropWhile (· ≠ '}')).tail)
    else none

theorem nextCommand_length_lt {response command rest : List Char}
    (h : nextCommand response = some (command, rest)) : rest.length < response.length := by
  unfold nextCommand at h
  split at h
  · cases h
  · rename_i found hseek
    split at h
    · rename_i hbrace
      cases h
      have hle := seek_length_le hseek
      have hdrop : (found.dropWhile (· ≠ '}')).length ≤ found.length :=
        (List.dropWhile_suffix _).length_le
      have hne : found.dropWhile (· ≠ '}') ≠ [] := by
        intro hnil
        rw [List.dropWhile_eq_nil_iff] at hnil
        have hmem := hnil '}' (by simpa using hbrace)
        simp at hmem
      have htail := List.length_tail (l := found.dropWhile (· ≠ '}'))
      have hpos := List.length_pos_iff.2 hne
      omega
    · cases h

/-- The texts of the commands in a response, read with `fuel` steps. -/
def scanTexts : Nat → List Char → List (List Char)
  | 0, _ => []
  | fuel + 1, response =>
    match nextCommand response with
    | none => []
    | some (command, rest) => command :: scanTexts fuel rest

/-- The texts of the commands in a response. -/
def commandTexts (response : List Char) : List (List Char) := scanTexts (response.length + 1) response

/-- Enough fuel reads the whole response. -/
theorem scanTexts_of_lt {fuel : Nat} {response : List Char} (h : response.length < fuel) :
    scanTexts fuel response = commandTexts response := by
  have key : ∀ n fuel fuel' (response : List Char), response.length ≤ n → n < fuel → n < fuel' →
      scanTexts fuel response = scanTexts fuel' response := by
    intro n
    induction n with
    | zero =>
      intro fuel fuel' response hlen hf hf'
      obtain ⟨fuel, rfl⟩ := Nat.exists_eq_succ_of_ne_zero (Nat.ne_of_gt hf)
      obtain ⟨fuel', rfl⟩ := Nat.exists_eq_succ_of_ne_zero (Nat.ne_of_gt hf')
      unfold scanTexts
      split
      · rfl
      · rename_i hnext
        have := nextCommand_length_lt hnext
        omega
    | succ n ih =>
      intro fuel fuel' response hlen hf hf'
      obtain ⟨fuel, rfl⟩ := Nat.exists_eq_succ_of_ne_zero (Nat.ne_of_gt (Nat.zero_lt_of_lt hf))
      obtain ⟨fuel', rfl⟩ := Nat.exists_eq_succ_of_ne_zero (Nat.ne_of_gt (Nat.zero_lt_of_lt hf'))
      unfold scanTexts
      split
      · rfl
      · rename_i hnext
        have hlt := nextCommand_length_lt hnext
        rw [ih fuel fuel' _ (by omega) (by omega) (by omega)]
  exact key response.length fuel (response.length + 1) response le_rfl h (Nat.lt_succ_self _)

/-- Where `PollCommands` is. -/
inductive AdvisorPhase
  | idle
  /-- The response from the cursor on. -/
  | scanning (rest : List Char)
  /-- Refused for its scope: the receipt is posted, the id not yet remembered. -/
  | refused (commandId rest : List Char)
  /-- Executed: `sent` says whether `OrderSend` was invoked. The id is not yet remembered. -/
  | executed (commandId : List Char) (sent : Bool) (receipt : AdvisorReceipt) (rest : List Char)
  /-- Remembered: the receipt is not yet posted. -/
  | remembered (receipt : AdvisorReceipt) (rest : List Char)

structure Advisor where
  accountId : List Char
  /-- The command ids with a terminal global variable; they survive a restart. -/
  globals : List (List Char)
  /-- `g_processed_command_ids`, lost in a restart. -/
  processed : List (List Char)
  phase : AdvisorPhase

namespace Advisor

/-- A global variable's name has at most 63 characters, 12 of them the prefix. -/
def maxIdLength : Nat := 51

def wasProcessed (a : Advisor) (commandId : List Char) : Bool :=
  a.globals.contains commandId || a.processed.contains commandId

def rememberProcessed (a : Advisor) (commandId : List Char) : Advisor :=
  if commandId = [] ∨ a.wasProcessed commandId = true then a
  else { a with
    processed := a.processed ++ [commandId]
    globals := if commandId.length ≤ maxIdLength then a.globals ++ [commandId] else a.globals }

def inPhase (a : Advisor) (phase : AdvisorPhase) : Advisor := { a with phase }

@[simp] theorem inPhase_phase (a : Advisor) (phase : AdvisorPhase) :
    (a.inPhase phase).phase = phase := rfl
@[simp] theorem inPhase_globals (a : Advisor) (phase : AdvisorPhase) :
    (a.inPhase phase).globals = a.globals := rfl
@[simp] theorem inPhase_wasProcessed (a : Advisor) (phase : AdvisorPhase) (id : List Char) :
    (a.inPhase phase).wasProcessed id = a.wasProcessed id := rfl

/-- Is the command of this account, with an authorization digest? -/
def inScope (a : Advisor) (command : List Char) : Bool :=
  jsonString command "account_id" = a.accountId && !(jsonString command "authorization_digest").isEmpty

/-- The order request the advisor sends for a command text, if it sends one. -/
def sendsFor (a : Advisor) (t : Terminal) (command : List Char) : Option TradeRequest :=
  if a.inScope command = true ∧ a.wasProcessed (jsonString command "command_id") = false then
    (requestFor t command).toOption
  else none

/-- What one step of the advisor does outside: the order request sent, the receipt posted. -/
structure Effect where
  sent : Option (List Char × TradeRequest) := none
  posted : Option AdvisorReceipt := none

/-- One step of `PollCommands`, from one crash point to the next. -/
def advance (a : Advisor) (t : Terminal) (answer : SendResult) : Advisor × Effect :=
  match a.phase with
  | .idle => (a, {})
  | .scanning rest =>
    match nextCommand rest with
    | none => (a.inPhase .idle, {})
    | some (command, rest) =>
      let commandId := jsonString command "command_id"
      let key := jsonString command "idempotency_key"
      if a.inScope command = false then
        (a.inPhase (.refused commandId rest),
          { posted := some ⟨commandId, key, "REJECTED", "NONE", "", "invalid_safety_scope"⟩ })
      else if a.wasProcessed commandId then
        (a.inPhase (.scanning rest),
          { posted := some ⟨commandId, key, "OUTCOME_UNKNOWN", "UNCERTAIN", "",
            "duplicate_after_restart"⟩ })
      else
        let request := requestFor t command
        let receipt := receiptFor commandId key request answer
        (a.inPhase (.executed commandId request.toOption.isSome receipt rest),
          { sent := request.toOption.map fun r => (commandId, r) })
  | .refused commandId rest => ((a.rememberProcessed commandId).inPhase (.scanning rest), {})
  | .executed commandId _ receipt rest =>
    ((a.rememberProcessed commandId).inPhase (.remembered receipt rest), {})
  | .remembered receipt rest => (a.inPhase (.scanning rest), { posted := some receipt })

/-- A step that reads a command sends what `sendsFor` says. -/
theorem advance_sent {a : Advisor} {t : Terminal} {answer : SendResult}
    {rest command rest' : List Char} (hphase : a.phase = .scanning rest)
    (hnext : nextCommand rest = some (command, rest')) :
    (a.advance t answer).2.sent =
      (a.sendsFor t command).map fun r => (jsonString command "command_id", r) := by
  unfold advance sendsFor
  rw [hphase]
  dsimp only
  rw [hnext]
  cases hscope : a.inScope command with
  | false => simp [hscope]
  | true =>
    cases hproc : a.wasProcessed (jsonString command "command_id") <;> simp [hscope, hproc]

/-- The terminal restarts: only the global variables are left. -/
def restart (a : Advisor) : Advisor := { a with processed := [], phase := .idle }

end Advisor

end Matrades
