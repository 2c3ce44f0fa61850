import Matrades.Bridge.Delivery
import Matrades.Broker.Mt5Bridge

/-!
# What a management command acts on

A management command is queued with the id of its target position; the bridge is told its requested
postcondition only. What the advisor then sends follows from the field readers on the command's
text: the position comes from a `position_id` the text may carry, or else is the symbol's position
with the lowest ticket, and every level or volume is the number read, 0 where there is none.

`OnlyTarget` is what the command is meant to do at most. `HitsTarget` is the exact condition on the
readers' values for it (`sends_only_target_iff`).
-/

namespace Matrades

open Base

/-- The management actions with a target position. -/
inductive ManagementKind
  | stopChange | targetChange | partialClose | fullExit
  deriving DecidableEq, Repr

def ManagementKind.action : ManagementKind → ExecutionAction
  | stopChange => .setOrChangeStopLoss
  | targetChange => .setOrChangeTakeProfit
  | partialClose => .partialClose
  | fullExit => .fullExit

/-- The quantity a postcondition requests. -/
def requestedQuantity (postcondition : Dict String Json) : Option ℚ :=
  match postcondition.get? "quantity" with
  | some (.str s) =>
    match parseDec s.toList with
    | some (.fin q) => some q
    | _ => none
  | some (.num n) => some n.value
  | _ => none

/-- The request concerns the target position only, and only the attribute the command is about. -/
def OnlyTarget (kind : ManagementKind) (target : String) (quantity : Option ℚ) (t : Terminal)
    (request : TradeRequest) : Prop :=
  ∃ p ∈ t.positions, p.positionId = target ∧
    match kind, request with
    | .stopChange, .protect ticket _ _ takeProfit => ticket = p.ticket ∧ takeProfit = p.takeProfit
    | .targetChange, .protect ticket _ stopLoss _ => ticket = p.ticket ∧ stopLoss = p.stopLoss
    | .partialClose, .close ticket _ volume _ _ => ticket = p.ticket ∧ quantity = some volume
    | .fullExit, .close ticket _ volume _ _ => ticket = p.ticket ∧ volume = p.volume
    | _, _ => False

/-! ## The position a text selects -/

/-- The text names an open position's ticket, or no open one and `p` is the symbol's position with
the lowest ticket. -/
def Selects (t : Terminal) (command : List Char) (p : OpenPosition) : Prop :=
  p ∈ t.positions ∧
  ((0 < p.ticket ∧ toLong (jsonNumber command "position_id") = p.ticket) ∨
    ((∀ q ∈ t.positions, ¬(0 < q.ticket ∧ toLong (jsonNumber command "position_id") = q.ticket)) ∧
      jsonString command "instrument" ≠ [] ∧ p.symbol = jsonString command "instrument" ∧
      ∀ q ∈ t.positions, q.symbol = p.symbol → p.ticket ≤ q.ticket))

theorem ticket_inj {t : Terminal} {p q : OpenPosition} (hp : p ∈ t.positions)
    (hq : q ∈ t.positions) (h : p.ticket = q.ticket) : p = q :=
  List.inj_on_of_nodup_map t.nodup hp hq h

theorem positionByTicket_iff {t : Terminal} {ticket : Int} {p : OpenPosition} :
    positionByTicket t ticket = some p ↔ p ∈ t.positions ∧ (p.ticket : Int) = ticket := by
  constructor
  · intro h
    exact ⟨List.mem_of_find?_eq_some h, by simpa using List.find?_some h⟩
  · rintro ⟨hp, ht⟩
    cases hfind : positionByTicket t ticket with
    | none =>
      have := List.find?_eq_none.1 hfind p hp
      simp [ht] at this
    | some q =>
      have hq := List.mem_of_find?_eq_some hfind
      have htq : (q.ticket : Int) = ticket := by simpa using List.find?_some hfind
      rw [ticket_inj hq hp (by omega)]

theorem positionBySymbol_iff {t : Terminal} {symbol : List Char} {p : OpenPosition} :
    positionBySymbol t symbol = some p ↔
      p ∈ t.positions ∧ p.symbol = symbol ∧
        ∀ q ∈ t.positions, q.symbol = symbol → p.ticket ≤ q.ticket := by
  unfold positionBySymbol
  constructor
  · intro h
    have hmem := List.argmin_mem (Option.mem_def.2 h)
    rw [List.mem_filter, decide_eq_true_eq] at hmem
    refine ⟨hmem.1, hmem.2, fun q hq hs => ?_⟩
    exact List.le_of_mem_argmin (List.mem_filter.2 ⟨hq, by simpa using hs⟩) (Option.mem_def.2 h)
  · rintro ⟨hp, hs, hleast⟩
    have hpf : p ∈ t.positions.filter fun p => p.symbol = symbol :=
      List.mem_filter.2 ⟨hp, by simpa using hs⟩
    cases hmin : (t.positions.filter fun p => p.symbol = symbol).argmin OpenPosition.ticket with
    | none =>
      rw [List.argmin_eq_none.1 hmin] at hpf
      cases hpf
    | some q =>
      have hq := List.argmin_mem (Option.mem_def.2 hmin)
      rw [List.mem_filter, decide_eq_true_eq] at hq
      have hle := List.le_of_mem_argmin hpf (Option.mem_def.2 hmin)
      have hge := hleast q hq.1 hq.2
      rw [ticket_inj hq.1 hp (le_antisymm hle hge)]

theorem selectCommandPosition_iff {t : Terminal} {command : List Char} {p : OpenPosition} :
    selectCommandPosition t command (jsonString command "instrument") = some p ↔
      Selects t command p := by
  unfold selectCommandPosition Selects
  dsimp only
  by_cases hnamed : ∃ q ∈ t.positions,
      0 < q.ticket ∧ toLong (jsonNumber command "position_id") = q.ticket
  · obtain ⟨q, hq, hpos, hticket⟩ := hnamed
    have hby : positionByTicket t (toLong (jsonNumber command "position_id")) = some q :=
      positionByTicket_iff.2 ⟨hq, hticket.symm⟩
    rw [if_pos (by omega), hby, Option.some_or, Option.some.injEq]
    constructor
    · rintro rfl
      exact ⟨hq, .inl ⟨hpos, hticket⟩⟩
    · rintro ⟨hp, ⟨_, ht⟩ | ⟨hnone, _⟩⟩
      · exact ticket_inj hq hp (by omega)
      · exact absurd ⟨hpos, hticket⟩ (hnone q hq)
  · have hnone : ∀ q ∈ t.positions,
        ¬(0 < q.ticket ∧ toLong (jsonNumber command "position_id") = q.ticket) :=
      fun q hq h => hnamed ⟨q, hq, h⟩
    have hby : (if 0 < toLong (jsonNumber command "position_id") then
        positionByTicket t (toLong (jsonNumber command "position_id")) else none) = none := by
      split
      · rename_i hpos
        rw [Option.eq_none_iff_forall_not_mem]
        intro q hmem
        obtain ⟨hq, ht⟩ := positionByTicket_iff.1 (Option.mem_def.1 hmem)
        exact hnone q hq ⟨by omega, ht.symm⟩
      · rfl
    rw [hby, Option.none_or]
    by_cases hsymbol : jsonString command "instrument" = []
    · rw [if_pos hsymbol]
      refine ⟨nofun, ?_⟩
      rintro ⟨hp, hticket | ⟨_, hsym, _⟩⟩
      · exact absurd hticket (hnone p hp)
      · exact absurd hsymbol hsym
    · rw [if_neg hsymbol, positionBySymbol_iff]
      constructor
      · rintro ⟨hp, hs, hleast⟩
        exact ⟨hp, .inr ⟨hnone, hsymbol, hs, fun q hq h => hleast q hq (h.trans hs)⟩⟩
      · rintro ⟨hp, hticket | ⟨_, _, hs, hleast⟩⟩
        · exact absurd hticket (hnone p hp)
        · exact ⟨hp, hs, fun q hq h => hleast q hq (h.trans hs.symm)⟩

/-! ## The condition on the readers' values -/

/-- The levels a protection request would change are those the command is about. -/
def KeepsLevel (kind : ManagementKind) (command : List Char) (p : OpenPosition) : Prop :=
  match kind with
  | .stopChange => jsonNumber command "take_profit" = p.takeProfit
  | .targetChange => jsonNumber command "stop_loss" = p.stopLoss
  | _ => False

/-- The volume a close request would close is the one the command is about. -/
def ClosesExactly (kind : ManagementKind) (quantity : Option ℚ) (command : List Char)
    (p : OpenPosition) : Prop :=
  let read := jsonNumber command "quantity"
  match kind with
  | .partialClose => ∃ q, quantity = some q ∧
      ((read = q ∧ 0 < q ∧ q ≤ p.volume) ∨ (q = p.volume ∧ (read ≤ 0 ∨ p.volume < read)))
  | .fullExit => read ≤ 0 ∨ p.volume ≤ read
  | _ => False

/-- What the readers make of the command's text keeps it on its target. -/
def HitsTarget (kind : ManagementKind) (target : String) (quantity : Option ℚ) (t : Terminal)
    (command : List Char) : Prop :=
  match advisorAction command with
  | .protect => ∀ p, Selects t command p → p.positionId = target ∧ KeepsLevel kind command p
  | .close => ∀ p, Selects t command p →
      p.positionId = target ∧ ClosesExactly kind quantity command p
  | .place => ∃ code, placeOrderRequest t command = .error code
  | .cancel => toLong (jsonNumber command "order_id") % 2 ^ 64 = 0
  | .unsupported => True

/-- A request for the position with the ticket of `p` is one for `p`. -/
theorem onlyTarget_iff {kind : ManagementKind} {target : String} {quantity : Option ℚ}
    {t : Terminal} {request : TradeRequest} {p : OpenPosition} {Q : OpenPosition → Prop}
    (hp : p ∈ t.positions)
    (hreq : ∀ q, (match kind, request with
      | .stopChange, .protect ticket _ _ takeProfit => ticket = q.ticket ∧ takeProfit = q.takeProfit
      | .targetChange, .protect ticket _ stopLoss _ => ticket = q.ticket ∧ stopLoss = q.stopLoss
      | .partialClose, .close ticket _ volume _ _ => ticket = q.ticket ∧ quantity = some volume
      | .fullExit, .close ticket _ volume _ _ => ticket = q.ticket ∧ volume = q.volume
      | _, _ => False) ↔ p.ticket = q.ticket ∧ Q q) :
    OnlyTarget kind target quantity t request ↔ p.positionId = target ∧ Q p := by
  unfold OnlyTarget
  constructor
  · rintro ⟨q, hq, hid, h⟩
    obtain ⟨hticket, hQ⟩ := (hreq q).1 h
    obtain rfl := ticket_inj hp hq hticket
    exact ⟨hid, hQ⟩
  · rintro ⟨hid, hQ⟩
    exact ⟨p, hp, hid, (hreq p).2 ⟨rfl, hQ⟩⟩

theorem onlyTarget_protect_iff {kind : ManagementKind} {target : String} {quantity : Option ℚ}
    {t : Terminal} {command : List Char} {p : OpenPosition} (hp : p ∈ t.positions) :
    OnlyTarget kind target quantity t (.protect p.ticket p.symbol (jsonNumber command "stop_loss")
      (jsonNumber command "take_profit")) ↔ p.positionId = target ∧ KeepsLevel kind command p := by
  refine onlyTarget_iff hp fun q => ?_
  cases kind <;> simp [KeepsLevel]

/-- The volume a close request carries for a position. -/
def closeVolume (read : ℚ) (p : OpenPosition) : ℚ :=
  if read ≤ 0 ∨ p.volume < read then p.volume else read

theorem onlyTarget_close_iff {kind : ManagementKind} {target : String} {quantity : Option ℚ}
    {t : Terminal} {command : List Char} {p : OpenPosition} {price : ℚ} (hp : p ∈ t.positions) :
    OnlyTarget kind target quantity t (.close p.ticket p.symbol
      (closeVolume (jsonNumber command "quantity") p) p.isBuy price) ↔
      p.positionId = target ∧ ClosesExactly kind quantity command p := by
  rw [onlyTarget_iff (Q := fun q => match kind with
    | .partialClose => quantity = some (closeVolume (jsonNumber command "quantity") p)
    | .fullExit => closeVolume (jsonNumber command "quantity") p = q.volume
    | _ => False) hp fun q => by cases kind <;> simp]
  refine and_congr_right fun _ => ?_
  unfold ClosesExactly closeVolume
  cases kind with
  | stopChange => rfl
  | targetChange => rfl
  | partialClose =>
    dsimp only
    by_cases hall : jsonNumber command "quantity" ≤ 0 ∨ p.volume < jsonNumber command "quantity"
    · rw [if_pos hall]
      constructor
      · exact fun h => ⟨p.volume, h, .inr ⟨rfl, hall⟩⟩
      · rintro ⟨q, hq, ⟨rfl, hpos, hle⟩ | ⟨rfl, _⟩⟩
        · rcases hall with h | h
          · exact absurd hpos (not_lt.2 h)
          · exact absurd h (not_lt.2 hle)
        · exact hq
    · rw [if_neg hall]
      rw [not_or, not_le, not_lt] at hall
      constructor
      · exact fun h => ⟨_, h, .inl ⟨rfl, hall.1, hall.2⟩⟩
      · rintro ⟨q, hq, ⟨rfl, _⟩ | ⟨_, h | h⟩⟩
        · exact hq
        · exact absurd hall.1 (not_lt.2 h)
        · exact absurd h (not_lt.2 hall.2)
  | fullExit =>
    dsimp only
    by_cases hall : jsonNumber command "quantity" ≤ 0 ∨ p.volume < jsonNumber command "quantity"
    · rw [if_pos hall]
      exact ⟨fun _ => hall.imp_right le_of_lt, fun _ => rfl⟩
    · rw [if_neg hall]
      rw [not_or, not_le, not_lt] at hall
      constructor
      · exact fun h => .inr h.ge
      · rintro (h | h)
        · exact absurd hall.1 (not_lt.2 h)
        · exact le_antisymm hall.2 h

theorem placeOrderRequest_entry {t : Terminal} {command : List Char} {request : TradeRequest}
    (h : placeOrderRequest t command = .ok request) :
    ∃ symbol volume sell price stopLoss takeProfit,
      request = .entry symbol volume sell price stopLoss takeProfit := by
  unfold placeOrderRequest at h
  dsimp only at h
  split at h
  · cases h
  split at h
  · cases h
  split at h
  · cases h
  split at h
  · split at h
    · cases h
    · cases h
      exact ⟨_, _, _, _, _, _, rfl⟩
  · cases h

/-- The request of a command text stays on the target exactly if the readers' values do. -/
theorem request_onlyTarget_iff (kind : ManagementKind) (target : String) (quantity : Option ℚ)
    (t : Terminal) (command : List Char) :
    (∀ request, requestFor t command = .ok request → OnlyTarget kind target quantity t request) ↔
      HitsTarget kind target quantity t command := by
  unfold requestFor HitsTarget
  cases advisorAction command with
  | place =>
    dsimp only
    cases hplace : placeOrderRequest t command with
    | error code => exact ⟨fun _ => ⟨code, rfl⟩, fun _ _ h => nomatch h⟩
    | ok request =>
      refine ⟨fun h => ?_, fun ⟨_, h⟩ => nomatch h⟩
      obtain ⟨_, _, _, _, _, _, rfl⟩ := placeOrderRequest_entry hplace
      obtain ⟨_, _, _, hfalse⟩ := h _ rfl
      cases kind <;> exact hfalse.elim
  | close =>
    dsimp only
    unfold closeRequest
    constructor
    · intro h p hp
      rw [selectCommandPosition_iff.2 hp] at h
      exact (onlyTarget_close_iff hp.1).1 (h _ rfl)
    · intro h request hreq
      split at hreq
      · cases hreq
      · rename_i p hsel
        have hp := selectCommandPosition_iff.1 hsel
        cases hreq
        exact (onlyTarget_close_iff hp.1).2 (h p hp)
  | protect =>
    dsimp only
    unfold protectionRequest
    constructor
    · intro h p hp
      rw [selectCommandPosition_iff.2 hp] at h
      exact (onlyTarget_protect_iff hp.1).1 (h _ rfl)
    · intro h request hreq
      split at hreq
      · cases hreq
      · rename_i p hsel
        have hp := selectCommandPosition_iff.1 hsel
        cases hreq
        exact (onlyTarget_protect_iff hp.1).2 (h p hp)
  | cancel =>
    dsimp only
    unfold cancelRequest
    dsimp only
    constructor
    · intro h
      by_contra horder
      rw [if_neg horder] at h
      obtain ⟨_, _, _, hfalse⟩ := h _ rfl
      cases kind <;> exact hfalse.elim
    · intro horder request hreq
      rw [if_pos horder] at hreq
      cases hreq
  | unsupported => exact ⟨fun _ => trivial, fun _ _ h => nomatch h⟩

/-! ## The pipeline -/

/-- The text of a polled command: the object of the bridge's command for `c`, leased. -/
def polledText (c : ExecutionCommand) (authorization : ExecutionAuthorization) (deadline : Time) :
    List Char :=
  Delivery.responseText [flatten (BridgeCommandQueue.leased deadline
    (bridgeCommand c authorization))]

/-- What the advisor of the account reads after the command was queued and polled. -/
theorem polledText_scanned {c : ExecutionCommand} {authorization : ExecutionAuthorization}
    {now : Time} (hdigest : authorization.authorizationDigest ≠ "") :
    (run Delivery.step (.start c.accountId .empty [])
      [.enqueue (bridgeCommand c authorization), .poll now true]).advisor.phase =
        .scanning (polledText c authorization (BridgeCommandQueue.empty.leaseEnd now)) := by
  have hauth : (bridgeCommand c authorization).isAuthorized = true := by
    simpa [bridgeCommand, BridgeCommand.isAuthorized] using hdigest
  have hqueued : enqueueCommand .empty (bridgeCommand c authorization) =
      .ok (⟨Dict.empty.set c.id (bridgeCommand c authorization), .empty, 30⟩,
        bridgeCommand c authorization) := by
    unfold enqueueCommand
    rw [if_neg (by simp [hauth])]
    rfl
  have havail : BridgeCommandQueue.available now c.accountId (bridgeCommand c authorization) =
      true := by
    simp [BridgeCommandQueue.available, bridgeCommand]
  have hpolled : (pollCommands ⟨Dict.empty.set c.id (bridgeCommand c authorization), .empty, 30⟩ now
      c.accountId Delivery.pollLimit).2 = [flatten (BridgeCommandQueue.leased
        (BridgeCommandQueue.empty.leaseEnd now) (bridgeCommand c authorization))] := by
    simp only [pollCommands, BridgeCommandQueue.poll, Dict.set, Dict.empty, Dict.setEntries,
      BridgeCommandQueue.pollEntries, havail, if_true]
    split <;> rfl
  rw [run_cons, run_cons, run_nil]
  simp only [Delivery.step, Delivery.start, hqueued, hpolled, if_true, polledText]

/-! ## A stop change on the wrong position -/

def openAt (ticket : Nat) (takeProfit : ℚ) : OpenPosition where
  ticket := ticket
  identifier := ticket
  symbol := "EURUSD".toList
  isBuy := true
  volume := 1
  priceOpen := 11 / 10
  stopLoss := 1
  takeProfit := takeProfit
  profit := 0

/-- Two positions of one symbol. -/
def twoPositions : Terminal where
  positions := [openAt 5 (12 / 10), openAt 7 (13 / 10)]
  nodup := by decide
  symbolSelect := fun _ => true
  bid := fun _ => 11 / 10
  ask := fun _ => 11 / 10
  point := fun _ => 1 / 100000
  orderCalcProfit := fun _ _ _ _ _ => some (-1)

/-- Move the stop of position 7. -/
def stopChangeCommand : ExecutionCommand where
  id := .ofNat 31
  accountId := .ofNat 1
  action := ManagementKind.stopChange.action
  idempotencyKey := "management:31"
  requestedPostcondition := .ofList [("instrument", .str "EURUSD"), ("stop_loss", .str "1.05")]
  targetPositionId := some "7"

def managementAuthorization : ExecutionAuthorization :=
  ⟨.ofNat 41, .ofNat 1, .setOrChangeStopLoss, 1, 0, 0, "d2", 1000 * second⟩

def freshAdvisor : Advisor := ⟨(Uuid.ofNat 1).chars, [], [], .idle⟩

end Matrades
