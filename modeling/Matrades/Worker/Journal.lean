import Mathlib.Data.Prod.Lex
import Matrades.Base.Json
import Matrades.Shared.DomainTypes

/-!
# The trade journal

`_project_journal` and `_project_pending_journal_events` of `tasks/operations.py`. A projection makes a
journal entry of an audit event, and a summary of a trade that the event closes. The recovery looks at the
oldest material events, leaves out those that have an entry, and projects the rest. The id of an entry is
the `uuid5` of a name; here it is the name.
-/

namespace Matrades

open Base

/-- `MATERIAL_TRADE_AGGREGATES` -/
def materialTradeAggregates : List String :=
  ["active_trade", "trade_plan", "execution_command", "broker_order", "broker_fill", "broker_position"]

structure AuditEvent where
  ownerId : Uuid
  eventType : String
  aggregateType : String
  aggregateId : Option Uuid
  evidence : List (String × Json)
  createdAt : Time
  /-- The column holds 160 characters, and no event is written without a type. -/
  named : 1 ≤ eventType.length ∧ eventType.length ≤ 160

def AuditEvent.material (event : AuditEvent) : Bool := materialTradeAggregates.contains event.aggregateType

inductive JournalEntryKind
  | system | tradePlan | execution | positionUpdate | postTrade
  deriving DecidableEq, Repr

/-- The name that an entry's id is made of: `journal:{event}` or `journal-terminal:{trade}`. -/
inductive JournalId
  | observation (event : Uuid)
  | terminal (trade : Uuid)
  deriving DecidableEq, Repr

inductive JournalFacts
  | observation (eventType aggregateType : String) (aggregateId : Option Uuid)
    (evidence : List (String × Json))
  | inference (terminalEvent : String) (eventRange : List Uuid) (terminalEvidence : List (String × Json))

structure JournalEntry where
  ownerId : Uuid
  tradeId : Option Uuid
  tradePlanId : Option Uuid
  kind : JournalEntryKind
  text : String
  facts : JournalFacts
  sourceEventId : Option Uuid
  recordedAt : Time
  /-- `Field(min_length=1, max_length=20_000)` -/
  text_bounds : 1 ≤ text.length ∧ text.length ≤ 20000

/-- A stored entry, with the time of its row. -/
structure JournalRecord where
  entry : JournalEntry
  createdAt : Time

structure JournalState where
  log : Dict Uuid AuditEvent
  entries : Dict JournalId JournalRecord
  /-- The requests to index an entry, by the entry, with their owner. -/
  indexRequests : Dict JournalId Uuid

namespace JournalState

def empty : JournalState := ⟨.empty, .empty, .empty⟩

/-- `store.create("journal_entry", …)` and `_queue_journal_index` -/
def addEntry (s : JournalState) (id : JournalId) (record : JournalRecord) : JournalState where
  log := s.log
  entries := s.entries.set id record
  indexRequests := s.indexRequests.setDefault id record.entry.ownerId

end JournalState

/-- The kind of the entry of an event. -/
def observationKind (event : AuditEvent) : JournalEntryKind :=
  if "execution.".toList.isPrefixOf event.eventType.toList then .execution
  else if event.aggregateType = "trade_plan" then .tradePlan
  else if event.aggregateType = "active_trade" ∨ event.aggregateType = "broker_position" then
    .positionUpdate
  else .system

def observationEntry (id : Uuid) (event : AuditEvent) : JournalEntry where
  ownerId := event.ownerId
  tradeId := if event.aggregateType = "active_trade" then event.aggregateId else none
  tradePlanId := if event.aggregateType = "trade_plan" then event.aggregateId else none
  kind := observationKind event
  text := event.eventType
  facts := .observation event.eventType event.aggregateType event.aggregateId event.evidence
  sourceEventId := some id
  recordedAt := event.createdAt
  text_bounds := ⟨event.named.1, event.named.2.trans (by decide)⟩

/-- The trade that the event closes. -/
def closedTrade (event : AuditEvent) : Option Uuid :=
  if event.aggregateType = "active_trade" then
    match event.evidence.lookup "state" with
    | some (.str "CLOSED") => event.aggregateId
    | _ => none
  else none

/-- The events of a trade's entries, in the order of their rows; `idText` is the text of an entry's id. -/
def eventRange (idText : JournalId → String) (entries : Dict JournalId JournalRecord) (trade : Uuid) :
    List Uuid :=
  ((entries.entries.filter fun e => e.2.entry.tradeId = some trade).mergeSort fun a b =>
    a.2.createdAt < b.2.createdAt ∨ (a.2.createdAt = b.2.createdAt ∧ ¬idText b.1 < idText a.1)).filterMap
      (·.2.entry.sourceEventId)

theorem terminal_text_bounds (event : AuditEvent) :
    1 ≤ ("Terminal trade outcome: " ++ event.eventType).length ∧
      ("Terminal trade outcome: " ++ event.eventType).length ≤ 20000 := by
  have hprefix : "Terminal trade outcome: ".length = 24 := by decide
  have hnamed := event.named
  rw [String.length_append, hprefix]
  omega

def terminalSummary (idText : JournalId → String) (entries : Dict JournalId JournalRecord) (id : Uuid)
    (event : AuditEvent) (trade : Uuid) : JournalEntry where
  ownerId := event.ownerId
  tradeId := some trade
  tradePlanId := none
  kind := .postTrade
  text := "Terminal trade outcome: " ++ event.eventType
  facts := .inference event.eventType (eventRange idText entries trade) event.evidence
  sourceEventId := some id
  recordedAt := event.createdAt
  text_bounds := terminal_text_bounds event

/-- What a projection answers. -/
inductive Projection
  | idempotent
  | projected (terminalSummary : Option JournalId)
  deriving DecidableEq, Repr

/-- The summary of the trade that the event closes, unless there is one. -/
def projectTerminal (idText : JournalId → String) (now : Time) (id : Uuid) (event : AuditEvent)
    (s : JournalState) : JournalState :=
  match closedTrade event with
  | none => s
  | some trade =>
    match s.entries.get? (.terminal trade) with
    | some _ => s
    | none => s.addEntry (.terminal trade) ⟨terminalSummary idText s.entries id event trade, now⟩

/-- `_project_journal`, in a transaction of its own. -/
def projectJournal (idText : JournalId → String) (now : Time) (id : Uuid) (s : JournalState) :
    Except String (JournalState × Projection) :=
  match s.log.get? id with
  | none => .error "audit event not found"
  | some event =>
    match s.entries.get? (.observation id) with
    | some _ => .ok (s, .idempotent)
    | none =>
      .ok (projectTerminal idText now id event
          (s.addEntry (.observation id) ⟨observationEntry id event, now⟩),
        .projected ((closedTrade event).map .terminal))

/-- The projections one after the other, up to the first that raises. -/
def projectAll (idText : JournalId → String) (clock : Uuid → Time) :
    List Uuid → JournalState → JournalState × Option String
  | [], s => (s, none)
  | id :: ids, s =>
    match projectJournal idText (clock id) id s with
    | .ok (s', _) => projectAll idText clock ids s'
    | .error e => (s, some e)

namespace JournalState

/-- The material events of the log. -/
def material (s : JournalState) : List (Uuid × AuditEvent) := s.log.entries.filter fun e => e.2.material

/-- By age; `rank` is the order in which the database gives events of one time. -/
def age (rank : Uuid → ℕ) (e : Uuid × AuditEvent) : ℕ ×ₗ ℕ ×ₗ ℕ :=
  toLex (e.2.createdAt, toLex (rank e.1, e.1.bits.toNat))

/-- The events that the recovery looks at. -/
def window (s : JournalState) (limit : ℕ) (rank : Uuid → ℕ) : List (Uuid × AuditEvent) :=
  (s.material.mergeSort fun a b => age rank a ≤ age rank b).take (limit * 4)

/-- The events that some entry is made of. -/
def projectedIds (s : JournalState) : List Uuid := s.entries.values.filterMap (·.entry.sourceEventId)

def pending (s : JournalState) (limit : ℕ) (rank : Uuid → ℕ) : List Uuid :=
  (((s.window limit rank).map Prod.fst).filter (· ∉ s.projectedIds)).take limit

/-- `_project_pending_journal_events`: the state it leaves, and its answer. -/
def projectPending (idText : JournalId → String) (clock : Uuid → Time) (limit : ℕ) (rank : Uuid → ℕ)
    (s : JournalState) : JournalState × Except String ℕ :=
  match projectAll idText clock (s.pending limit rank) s with
  | (s', none) => (s', .ok (s.pending limit rank).length)
  | (s', some e) => (s', .error e)

end JournalState

inductive JournalLabel
  /-- An audit event is committed. -/
  | audit (id : Uuid) (event : AuditEvent)
  /-- `project_journal` -/
  | project (now : Time) (id : Uuid)
  /-- `project_pending_journal_events` -/
  | recover (clock : Uuid → Time) (limit : ℕ) (rank : Uuid → ℕ)

/-- One step. A projection that raises leaves the journal as it is. -/
def JournalState.step (idText : JournalId → String) (s : JournalState) : JournalLabel → JournalState
  | .audit id event => { s with log := s.log.setDefault id event }
  | .project now id =>
    match projectJournal idText now id s with
    | .ok (s', _) => s'
    | .error _ => s
  | .recover clock limit rank => (s.projectPending idText clock limit rank).1

end Matrades
