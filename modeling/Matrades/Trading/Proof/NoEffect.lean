import Matrades.Bridge.Proof.Envelope
import Matrades.Routes.Proof.Acceptance
import Matrades.Routes.Proof.EntryRecognition
import Matrades.Trading.EntryFlow
import Matrades.Worker.Proof.SubmitOnce

/-!
# When "no effect" is sound

An ingestion concludes that an entry had no effect from the absence of the entry in the snapshot,
whenever the snapshot was taken. Once an entry is concluded, no task sends it again (`Sealed`), so it
stays off the broker if it is off it now and nothing of it is on its way (`Quiet`). A run in which
every unseen entry is settled concludes soundly at every step (`no_effect_sound`); a snapshot taken
before the command was sent and ingested after it concludes, and then the order goes live
(`early_snapshot_concludes`).
-/

namespace Matrades

open Base

/-! ## The command table -/

/-- One row for each id, and each row has the command of its id. -/
structure Keyed (db : Database) : Prop where
  unique : (db.commands.map (·.id)).Nodup
  same : ∀ row ∈ db.commands, row.data.command.id = row.id

/-- The rows stay, and stay keyed. -/
structure KeepsRows (db db' : Database) : Prop where
  ids : db'.commands.map (·.id) = db.commands.map (·.id)
  keyed : Keyed db → Keyed db'

theorem KeepsRows.refl (db : Database) : KeepsRows db db := ⟨rfl, id⟩

theorem KeepsRows.trans {a b c : Database} (h : KeepsRows a b) (h' : KeepsRows b c) :
    KeepsRows a c := ⟨h'.ids.trans h.ids, fun hk => h'.keyed (h.keyed hk)⟩

theorem keepsRows_of_commands {db db' : Database} (h : db'.commands = db.commands) :
    KeepsRows db db' :=
  ⟨by rw [h], fun hk => ⟨h ▸ hk.unique, h ▸ hk.same⟩⟩

theorem keepsRows_update (db : Database) {row : Row Uuid CommandState CommandData}
    {data : CommandData} (state : CommandState) (eventType : String) (now : Time)
    (hid : data.command.id = row.id) :
    KeepsRows db (db.updateCommand row data state eventType now) := by
  have hids : (db.updateCommand row data state eventType now).commands.map (·.id) =
      db.commands.map (·.id) := Table.ids_revise _ _ _ _ _
  refine ⟨hids, fun hk => ⟨hids ▸ hk.unique, fun r hr => ?_⟩⟩
  rcases Table.mem_revise hr with ⟨hr, _⟩ | ⟨hr, _, hdata⟩
  · exact hk.same r hr
  · rw [hdata, hr, hid]

theorem keepsRows_order {db : Database} (hk : Keyed db) (ownerId : Uuid)
    (snapshot : BrokerSnapshot) : CommandOrder (IngestWrite db ownerId snapshot) KeepsRows where
  refl := .refl
  trans := .trans
  frame := keepsRows_of_commands
  settle eventType now hwrite :=
    keepsRows_update _ _ eventType now (hwrite.same.trans (hk.same _ hwrite.listed))

/-- The outcome is about the command that was sent. -/
structure SameCommand (command outcome : ExecutionCommand) : Prop where
  id : outcome.id = command.id
  action : outcome.action = command.action
  plan : outcome.tradePlanId = command.tradePlanId
  key : outcome.idempotencyKey = command.idempotencyKey

theorem finishDispatch_same {command outcome : ExecutionCommand} {answer : AdapterAnswer}
    (h : finishDispatch command answer = .ok outcome) : SameCommand command outcome := by
  cases answer with
  | responds response =>
    cases h
    unfold afterResponse
    dsimp only
    split <;> exact ⟨rfl, rfl, rfl, rfl⟩
  | raises exception =>
    cases h
    exact ⟨rfl, rfl, rfl, rfl⟩
  | dies => cases h

theorem keepsRows_dispatch {db : Database} (hk : Keyed db) (env : TaskEnv) (answer : AdapterAnswer)
    (ownerId commandId : Uuid) : KeepsRows db (dispatchTask env answer ownerId commandId db).state := by
  rcases dispatchTask_cases env answer ownerId commandId db with hstate |
    ⟨row, plan, authorization, outcome, hready, hfinish, _, hstate⟩
  · rw [hstate]
    exact .refl db
  · have hid : row.data.command.id = row.id := hk.same row (Table.get?_spec hready.found).1
    have hleased : KeepsRows db (db.leaseRow env row) := keepsRows_update _ _ _ _ hid
    have houtcome : outcome.id = row.id := (finishDispatch_same hfinish).id.trans hid
    rw [hstate]
    refine hleased.trans (KeepsRows.trans ?_ (keepsRows_of_commands (settled_commands _ _ _ _ _)))
    exact keepsRows_update _ _ _ _ houtcome

theorem keepsRows_lease {db : Database} (hk : Keyed db) (env : TaskEnv) (ownerId commandId : Uuid) :
    KeepsRows db (leaseTask env ownerId commandId db).state := by
  rcases (leaseTask_cases env db ownerId commandId).2 with hstate | ⟨row, hrow, hstate⟩
  · exact keepsRows_of_commands (congrArg Database.commands hstate)
  · rw [hstate]
    exact keepsRows_update _ _ _ _ (hk.same row hrow)

/-- A command is stored under a new id, or not at all. -/
theorem persist_cases (env : Env) (db : Database) (ownerId : Uuid) (command : ExecutionCommand) :
    (Tx.unitOfWork (persistCommand env ownerId command) db).state = db ∨
      ((∀ row ∈ db.commands, row.id ≠ command.id) ∧
        (Tx.unitOfWork (persistCommand env ownerId command) db).state =
          db.addCommand env ownerId command) := by
  have hcases : (∃ r, persistCommand env ownerId command db = ⟨r, db, []⟩) ∨
      ((∀ row ∈ db.commands, row.id ≠ command.id) ∧
        persistCommand env ownerId command db = ⟨.ok (), db.addCommand env ownerId command, []⟩) := by
    have hcheck (c : Prop) [Decidable c] (e : TaskError) :
        ∃ r, (Tx.require c e : Session Unit) db = ⟨r, db, []⟩ := by
      by_cases hc : c
      · exact ⟨_, Tx.require_pos hc _ _⟩
      · exact ⟨_, Tx.require_neg hc _ _⟩
    rw [persistCommand, Tx.get_bind]
    cases Table.get? db.commands command.id ownerId with
    | some existing => exact .inl (hcheck _ _)
    | none =>
      dsimp only
      generalize (listedCommands db ownerId).find? _ = found
      rcases found with _ | item
      case some => exact .inl (hcheck _ _)
      by_cases hfresh : ∀ row ∈ db.commands, row.id ≠ command.id
      · exact .inr ⟨hfresh, Tx.require_bind_pos hfresh _ _ _⟩
      · exact .inl ⟨_, Tx.require_bind_neg hfresh _ _ _⟩
  rcases hcases with ⟨r, hrun⟩ | ⟨hfresh, hrun⟩
  · cases r with
    | ok => exact .inl (by rw [Tx.unitOfWork_of_ok hrun])
    | error => exact .inl (by rw [Tx.unitOfWork_of_error hrun])
  · exact .inr ⟨hfresh, by rw [Tx.unitOfWork_of_ok hrun]⟩

theorem keyed_addCommand {db : Database} (hk : Keyed db) (env : Env) (ownerId : Uuid)
    {command : ExecutionCommand} (hfresh : ∀ row ∈ db.commands, row.id ≠ command.id) :
    Keyed (db.addCommand env ownerId command) where
  unique := by
    have hids : (db.addCommand env ownerId command).commands.map (·.id) =
        db.commands.map (·.id) ++ [command.id] := List.map_append
    rw [hids, List.nodup_append]
    refine ⟨hk.unique, List.nodup_singleton _, fun a ha b hb => ?_⟩
    obtain ⟨row, hrow, rfl⟩ := List.mem_map.1 ha
    rw [List.mem_singleton.1 hb]
    exact hfresh row hrow
  same row hrow := by
    rcases List.mem_append.1 hrow with hrow | hrow
    · exact hk.same row hrow
    · rw [List.mem_singleton.1 hrow]
      rfl

theorem execute_db (s : EntryFlow) (commandId : Uuid) (placed : Bool) :
    (s.execute commandId placed).db = s.db := by
  unfold EntryFlow.execute
  split <;> rfl

theorem receipt_db (s : EntryFlow) (r : BridgeReceipt) : (s.receipt r).db = s.db := by
  unfold EntryFlow.receipt
  split <;> rfl

/-- Every step but the storing of a command keeps the rows. -/
theorem keepsRows_step {s : EntryFlow} (hk : Keyed s.db) {l : EntryFlow.Label}
    (hl : ∀ env ownerId command, l ≠ .persist env ownerId command) : KeepsRows s.db (s.step l).db := by
  cases l with
  | persist env ownerId command => exact absurd rfl (hl env ownerId command)
  | lease env ownerId commandId => exact keepsRows_lease hk env ownerId commandId
  | dispatch env answer delivered ownerId commandId =>
    exact keepsRows_dispatch hk env answer ownerId commandId
  | ingest env ownerId index =>
    rw [EntryFlow.step, EntryFlow.ingest]
    split
    · exact (ingest_within (keepsRows_order hk ownerId _) env).1
    · exact .refl _
  | execute commandId placed => exact keepsRows_of_commands (by rw [EntryFlow.step, execute_db])
  | receipt r => exact keepsRows_of_commands (by rw [EntryFlow.step, receipt_db])
  | poll | close | capture => exact .refl _

theorem keyed_step {s : EntryFlow} (hk : Keyed s.db) (l : EntryFlow.Label) :
    Keyed (s.step l).db := by
  cases l with
  | persist env ownerId command =>
    rw [EntryFlow.step]
    rcases persist_cases env s.db ownerId command with hstate | ⟨hfresh, hstate⟩
    · rw [hstate]
      exact hk
    · rw [hstate]
      exact keyed_addCommand hk env ownerId hfresh
  | _ => exact (keepsRows_step hk (by intros; exact nofun)).keyed hk

/-! ## What an ingestion concludes from -/

/-- Where no position was kept, none fits. -/
theorem not_fits {snapshot : BrokerSnapshot} {command : ExecutionCommand}
    {positions : List TypedPosition}
    (htyped : snapshot.positions.mapM (typedPosition snapshot.sequence) = .ok positions)
    (hnone : fittingPositions command.requestedPostcondition positions = .ok [])
    {item : BrokerPosition} (hitem : item ∈ snapshot.positions) :
    EntryFlow.fits snapshot.sequence command item = false := by
  obtain ⟨typed, hmem, hitem⟩ := ok_of_mem_mapM htyped hitem
  obtain ⟨fits, hfits, hkept⟩ := mem_fittingPositions hnone hmem
  have hno : fits = false := by
    by_contra hyes
    cases hkept (Bool.eq_true_of_not_eq_false hyes)
  rw [EntryFlow.fits, hitem]
  dsimp only
  rw [hfits, hno]
  rfl

/-- Only orders of its own and fitting positions keep a command from "no effect". -/
theorem shown_of_confirmsNoEffect {snapshot : BrokerSnapshot} {command : ExecutionCommand}
    (h : ConfirmsNoEffect snapshot command) : EntryFlow.shown snapshot command = false := by
  obtain ⟨positions, found, htyped, hfound, hstate⟩ := h
  rcases reconcileRow_cases hfound with ⟨_, _, _, _, _, hmatched, _⟩ |
    ⟨hrelevant, _, matching, hmatching, hresult⟩ | ⟨_, hambiguous, _⟩
  · rw [hmatched] at hstate
    cases hstate
  · have hnone : matching = [] := by
      rw [hresult] at hstate
      rcases matching with _ | ⟨first, _ | ⟨second, rest⟩⟩
      · rfl
      · cases hstate
      · cases hstate
    subst hnone
    have hpositions : snapshot.positions.any (EntryFlow.fits snapshot.sequence command) = false :=
      List.any_eq_false.2 fun item hitem => by simp [not_fits htyped hmatching hitem]
    rw [EntryFlow.shown, hrelevant, hpositions]
    rfl
  · rw [hambiguous] at hstate
    cases hstate

/-- A row in the state "no effect" was in it before, or the ingestion confirms it. -/
def NoEffectFrom (db₀ : Database) (ownerId : Uuid) (snapshot : BrokerSnapshot)
    (db db' : Database) : Prop :=
  ∀ row' ∈ db'.commands, row'.state = .noEffectConfirmed →
    (∃ row ∈ db.commands, row.id = row'.id ∧ row.state = .noEffectConfirmed) ∨
      ∃ row ∈ db₀.commands, row.id = row'.id ∧ row.ownerId = ownerId ∧
        ConfirmsNoEffect snapshot row.data.command

theorem noEffectFrom_ingest (db : Database) (env : Env) (ownerId : Uuid)
    (snapshot : BrokerSnapshot) :
    NoEffectFrom db ownerId snapshot db (ingestBrokerSnapshot env ownerId snapshot db).state := by
  intro row' hrow' hnoEffect
  rcases settledFrom_ingest db env ownerId snapshot row' hrow' with
    ⟨row, hrow, hid, hstate⟩ | ⟨row, hrow, hid, command, hwrite, hstate⟩
  · exact .inl ⟨row, hrow, hid, hstate.trans hnoEffect⟩
  · exact .inr ⟨row, hrow, hid, hwrite.owned, hwrite.noEffect (hstate.symm.trans hnoEffect)⟩

/-- A snapshot that is not taken up changes nothing. -/
theorem ingest_idle {db : Database} {ownerId : Uuid} {snapshot : BrokerSnapshot} (env : Env)
    (h : EntryFlow.takesUp db ownerId snapshot = false) :
    (ingestBrokerSnapshot env ownerId snapshot db).state = db := by
  refine Tx.unitOfWork_same ?_
  rw [Tx.get_bind]
  split
  · rfl
  · rename_i hnew
    have hold : ¬outOfOrder snapshot (accountSnapshots db ownerId snapshot.accountId) = false := by
      intro horder
      simp [EntryFlow.takesUp, horder] at h
      exact hnew (by simpa using h)
    rw [Tx.require_bind_neg hold]

/-! ## The bridge's queue -/

theorem waiting_eq_false {q : BridgeCommandQueue} {commandId : Uuid} :
    q.waiting commandId = false ↔ ∀ c ∈ q.pending.values, c.waitsAs commandId = false := by
  simp [BridgeCommandQueue.waiting]

theorem not_waitsAs_of_ne {c : BridgeCommand} {commandId : Uuid} (h : c.commandId ≠ commandId) :
    c.waitsAs commandId = false := by
  simp [BridgeCommand.waitsAs, h]

/-- A poll takes only commands that wait. -/
theorem waitsAs_of_available {now : Time} {accountId : Uuid} {c : BridgeCommand}
    (h : BridgeCommandQueue.available now accountId c = true) : c.waitsAs c.commandId = true := by
  unfold BridgeCommandQueue.available at h
  rw [Bool.and_eq_true, Bool.and_eq_true] at h
  rw [BridgeCommand.waitsAs, h.1.2, decide_eq_true rfl]
  rfl

/-- The delivery of another command. -/
theorem waiting_deliver {queue : BridgeCommandQueue} {call : BrokerCall} {commandId : Uuid}
    (hcall : call.command.id ≠ commandId) (hq : queue.waiting commandId = false) :
    (EntryFlow.deliver queue call).waiting commandId = false := by
  unfold EntryFlow.deliver
  split
  · exact hq
  rename_i command hcommand
  unfold dispatchCommand at hcommand
  split at hcommand
  · cases hcommand
  cases hcommand
  split
  · rename_i queue' _ hqueue
    refine waiting_eq_false.2 fun c hc => ?_
    rcases (enqueueCommand_values hqueue).2 c hc with rfl | hc
    · exact not_waitsAs_of_ne hcall
    · exact waiting_eq_false.1 hq c hc
  · exact hq

theorem waiting_poll {q : BridgeCommandQueue} {commandId : Uuid} (hq : q.waiting commandId = false)
    (now : Time) (accountId : Uuid) (limit : Int) :
    (q.poll now accountId limit).1.waiting commandId = false ∧
      commandId ∉ (q.poll now accountId limit).2.map (·.commandId) := by
  have hold := waiting_eq_false.1 hq
  constructor
  · refine waiting_eq_false.2 fun c hc => ?_
    obtain ⟨⟨id, c⟩, hmem, rfl⟩ := List.mem_map.1 hc
    obtain ⟨c₀, hc₀, hsame⟩ := pollEntries_values hmem
    have hno : c₀.waitsAs commandId = false := hold c₀ (List.mem_map_of_mem (f := Prod.snd) hc₀)
    dsimp only at hsame
    rcases hsame with rfl | ⟨havail, rfl⟩
    · exact hno
    · by_cases hid : c₀.commandId = commandId
      · rw [← hid, waitsAs_of_available havail] at hno
        cases hno
      · exact not_waitsAs_of_ne (c := BridgeCommandQueue.leased _ c₀) hid
  · intro hmem
    obtain ⟨c, hc, hid⟩ := List.mem_map.1 hmem
    obtain ⟨c₀, hc₀, rfl⟩ := List.mem_map.1 hc
    obtain ⟨id, hentry, havail⟩ := pollEntries_selected hc₀
    have hno : c₀.waitsAs commandId = false := hold c₀ (List.mem_map_of_mem (f := Prod.snd) hentry)
    have hid' : c₀.commandId = commandId := hid
    rw [← hid', waitsAs_of_available havail] at hno
    cases hno

theorem waiting_receipt {q : BridgeCommandQueue} {commandId : Uuid} {r : BridgeReceipt}
    (hstate : r.state ∈ EntryFlow.receiptStates) (hq : q.waiting commandId = false) :
    (q.receipt r).1.waiting commandId = false := by
  unfold BridgeCommandQueue.receipt
  split
  · exact hq
  · refine waiting_eq_false.2 fun c hc => ?_
    rcases Dict.mem_values_modify hc with hc | ⟨c₀, _, rfl⟩
    · exact waiting_eq_false.1 hq c hc
    · have hdone : (decide (r.state = "QUEUED") || decide (r.state = "LEASED")) = false := by
        simp only [EntryFlow.receiptStates, List.mem_cons, List.not_mem_nil, or_false] at hstate
        rcases hstate with h | h | h <;> rw [h] <;> decide
      unfold BridgeCommand.waitsAs
      dsimp only
      rw [hdone, Bool.and_false]

/-! ## What is quiet stays quiet -/

/-- Nothing of the command is live or on its way, and no task can send it again. -/
structure Quiet (commandId : Uuid) (s : EntryFlow) : Prop where
  stored : commandId ∈ s.db.commands.map (·.id)
  unsendable : Sealed s.db commandId
  gone : commandId ∉ s.live
  ended : commandId ∈ s.processed ∨ (commandId ∉ s.inHand ∧ s.queue.waiting commandId = false)

section
variable {commandId : Uuid} {s : EntryFlow} (hk : Keyed s.db) (hq : Quiet commandId s)
include hq

/-- A step that keeps the rows and touches neither the bridge nor the broker. -/
theorem Quiet.of_db {db : Database} (hkeeps : KeepsRows s.db db)
    (hsealed : Sealed s.db commandId → Sealed db commandId) : Quiet commandId { s with db } where
  stored := hkeeps.ids ▸ hq.stored
  unsendable := hsealed hq.unsendable
  gone := hq.gone
  ended := hq.ended

theorem quiet_persist (env : Env) (ownerId : Uuid) (command : ExecutionCommand) :
    Quiet commandId (s.step (.persist env ownerId command)) := by
  rw [EntryFlow.step]
  rcases persist_cases env s.db ownerId command with hstate | ⟨hfresh, hstate⟩
  · rw [hstate]
    exact hq
  · rw [hstate]
    have hrows : (s.db.addCommand env ownerId command).commands =
        s.db.commands ++ [commandRow env ownerId command] := rfl
    refine ⟨?_, fun row hrow hid => ?_, hq.gone, hq.ended⟩
    · rw [hrows, List.map_append]
      exact List.mem_append_left _ hq.stored
    · rw [hrows] at hrow
      rcases List.mem_append.1 hrow with hrow | hrow
      · exact hq.unsendable row hrow hid
      · obtain ⟨row', hrow', hid'⟩ := List.mem_map.1 hq.stored
        rw [List.mem_singleton.1 hrow] at hid
        exact absurd (hid'.trans hid.symm) (hfresh row' hrow')

include hk in
/-- A dispatch sends another command, or none. -/
theorem dispatch_calls (env : TaskEnv) (answer : AdapterAnswer) (ownerId id : Uuid) :
    ∀ call ∈ (dispatchTask env answer ownerId id s.db).emitted, call.command.id ≠ commandId := by
  intro call hcall hid
  by_cases hready : ∃ row plan authorization, Dispatchable env s.db ownerId id row plan authorization
  · obtain ⟨row, plan, authorization, hready⟩ := hready
    obtain ⟨hrow, _, _⟩ := Table.get?_spec hready.found
    rw [(dispatchTask_sends answer hready).1, List.mem_singleton] at hcall
    have hrowId : row.id = commandId := by
      rw [← hk.same row hrow, ← hid, hcall]
      rfl
    exact hq.unsendable row hrow hrowId hready.leasable
  · rw [(dispatchTask_unready answer hready).1] at hcall
    cases hcall

include hk in
theorem quiet_dispatch (env : TaskEnv) (answer : AdapterAnswer) (delivered : Bool)
    (ownerId id : Uuid) : Quiet commandId (s.dispatch env answer delivered ownerId id) := by
  have hcalls := dispatch_calls hk hq env answer ownerId id
  refine ⟨(keepsRows_dispatch hk env answer ownerId id).ids ▸ hq.stored,
    sealed_dispatch hq.unsendable, hq.gone, hq.ended.imp_right fun ⟨hhand, hqueue⟩ => ⟨hhand, ?_⟩⟩
  have hfold : ∀ (calls : List BrokerCall) (queue : BridgeCommandQueue),
      (∀ call ∈ calls, call.command.id ≠ commandId) → queue.waiting commandId = false →
      (calls.foldl EntryFlow.deliver queue).waiting commandId = false := by
    intro calls
    induction calls with
    | nil => exact fun _ _ h => h
    | cons call calls ih =>
      intro queue hall hqueue
      exact ih _ (fun c hc => hall c (List.mem_cons_of_mem _ hc))
        (waiting_deliver (hall call List.mem_cons_self) hqueue)
  unfold EntryFlow.dispatch
  dsimp only
  split
  · exact hfold _ _ hcalls hqueue
  · exact hqueue

theorem quiet_poll (now : Time) (accountId : Uuid) (limit : Int) (delivered : Bool) :
    Quiet commandId (s.poll now accountId limit delivered) := by
  refine ⟨hq.stored, hq.unsendable, hq.gone, hq.ended.imp_right fun ⟨hhand, hqueue⟩ => ?_⟩
  obtain ⟨hafter, htaken⟩ := waiting_poll hqueue now accountId limit
  refine ⟨fun hmem => ?_, hafter⟩
  unfold EntryFlow.poll at hmem
  rcases List.mem_append.1 hmem with hmem | hmem
  · exact hhand hmem
  · cases delivered with
    | true => exact htaken hmem
    | false => cases hmem

theorem quiet_execute (id : Uuid) (placed : Bool) : Quiet commandId (s.execute id placed) := by
  unfold EntryFlow.execute
  split
  · rename_i hhand
    refine ⟨hq.stored, hq.unsendable, ?_, ?_⟩
    · dsimp only
      split
      · rename_i hplaced
        intro hlive
        rcases List.mem_cons.1 hlive with rfl | hlive
        · exact hq.ended.elim hplaced.2 fun hover => hover.1 hhand
        · exact hq.gone hlive
      · exact hq.gone
    · refine hq.ended.imp (List.mem_cons_of_mem _) fun ⟨hnot, hqueue⟩ => ⟨fun hmem => ?_, hqueue⟩
      exact hnot (List.mem_of_mem_erase hmem)
  · exact hq

theorem quiet_receipt (r : BridgeReceipt) : Quiet commandId (s.receipt r) := by
  unfold EntryFlow.receipt
  split
  · rename_i hstate
    exact ⟨hq.stored, hq.unsendable, hq.gone,
      hq.ended.imp_right fun ⟨hhand, hqueue⟩ => ⟨hhand, waiting_receipt hstate hqueue⟩⟩
  · exact hq

include hk in
theorem quiet_ingest (env : Env) (ownerId : Uuid) (index : Nat) :
    Quiet commandId (s.ingest env ownerId index) := by
  unfold EntryFlow.ingest
  split
  · rename_i k _
    exact hq.of_db (ingest_within (keepsRows_order hk ownerId k.snapshot) env).1
      (ingest_within (sealed_order s.db ownerId k.snapshot commandId) env).1
  · exact hq

include hk in
/-- Every step keeps a quiet command quiet. -/
theorem quiet_step (l : EntryFlow.Label) : Quiet commandId (s.step l) := by
  cases l with
  | persist env ownerId command => exact quiet_persist hq env ownerId command
  | lease env ownerId id =>
    refine hq.of_db (keepsRows_lease hk env ownerId id) fun h => ?_
    rcases (leaseTask_cases env s.db ownerId id).2 with hstate | ⟨row, _, hstate⟩
    · exact sealed_of_commands (congrArg Database.commands hstate) h
    · exact sealed_of_commands (congrArg Database.commands hstate) (sealed_update (by decide) h)
  | dispatch env answer delivered ownerId id =>
    exact quiet_dispatch hk hq env answer delivered ownerId id
  | poll now accountId limit delivered => exact quiet_poll hq now accountId limit delivered
  | execute id placed => exact quiet_execute hq id placed
  | receipt r => exact quiet_receipt hq r
  | close id => exact ⟨hq.stored, hq.unsendable, fun h => hq.gone (List.mem_filter.1 h).1, hq.ended⟩
  | capture snapshot => exact ⟨hq.stored, hq.unsendable, hq.gone, hq.ended⟩
  | ingest env ownerId index => exact quiet_ingest hk hq env ownerId index

include hk in
/-- The order of a quiet command never goes live. -/
theorem Quiet.neverLive : s.NeverLive commandId := by
  intro ls
  have hinv : Keyed (run EntryFlow.step s ls).db ∧ Quiet commandId (run EntryFlow.step s ls) :=
    run_inv_of_step (I := fun s : EntryFlow => Keyed s.db ∧ Quiet commandId s)
      (fun _ l ⟨hk, hq⟩ => ⟨keyed_step hk l, quiet_step hk hq l⟩) ⟨hk, hq⟩ ls
  exact hinv.2.gone

end

/-! ## Conclusions -/

/-- A keyed table has one row for an id. -/
theorem Keyed.row_unique {db : Database} (hk : Keyed db)
    {row row' : Row Uuid CommandState CommandData} (hrow : row ∈ db.commands)
    (hrow' : row' ∈ db.commands) (hid : row.id = row'.id) : row = row' :=
  List.inj_on_of_nodup_map hk.unique hrow hrow' hid

theorem not_noEffect_of_pending {snapshot : BrokerSnapshot}
    {row : Row Uuid CommandState CommandData} (h : isPending snapshot row = true) :
    row.state ≠ .noEffectConfirmed := by
  intro hstate
  simp [isPending, hstate, pendingStates] at h

section
variable {s : EntryFlow} {env : Env} {ownerId : Uuid} {index : Nat} {k : Capture}
  {row : Row Uuid CommandState CommandData} (hk : Keyed s.db)
  (hc : s.Concludes env ownerId index k row)
include hk hc

/-- What an ingestion that concludes has done: it took the snapshot up, and the snapshot does not show
the entry. -/
theorem concludes_from : EntryFlow.takesUp s.db ownerId k.snapshot = true ∧
    row.ownerId = ownerId ∧ EntryFlow.shown k.snapshot row.data.command = false := by
  obtain ⟨row', hrow', hid, hstate⟩ := hc.moved
  rw [EntryFlow.step, EntryFlow.ingest, hc.captured] at hrow'
  dsimp only at hrow'
  have hfresh : ∀ r ∈ s.db.commands, r.id = row'.id → r.state ≠ .noEffectConfirmed := by
    intro r hr hrid
    rw [hk.row_unique hr hc.listed (hrid.trans hid)]
    exact not_noEffect_of_pending hc.pending
  constructor
  · by_contra hidle
    rw [ingest_idle env (Bool.eq_false_of_not_eq_true hidle)] at hrow'
    exact hfresh row' hrow' rfl hstate
  · rcases noEffectFrom_ingest s.db env ownerId k.snapshot row' hrow' hstate with
      ⟨r, hr, hrid, hrstate⟩ | ⟨r, hr, hrid, howner, hconfirms⟩
    · exact absurd hrstate (hfresh r hr hrid)
    · obtain rfl : r = row := hk.row_unique hr hc.listed (hrid.trans hid)
      exact ⟨howner, shown_of_confirmsNoEffect hconfirms⟩

/-- The concluded entry cannot be sent again. -/
theorem sealed_of_concludes : row.id ∈ (s.ingest env ownerId index).db.commands.map (·.id) ∧
    Sealed (s.ingest env ownerId index).db row.id := by
  obtain ⟨row', hrow', hid, hstate⟩ := hc.moved
  have hk' : Keyed (s.ingest env ownerId index).db := keyed_step hk (.ingest env ownerId index)
  refine ⟨List.mem_map.2 ⟨row', hrow', hid⟩, fun r hr hrid => ?_⟩
  rw [hk'.row_unique hr hrow' (hrid.trans hid.symm), hstate]
  decide

end

theorem ingest_rest (s : EntryFlow) (env : Env) (ownerId : Uuid) (index : Nat) :
    (s.ingest env ownerId index).live = s.live ∧
      (s.ingest env ownerId index).processed = s.processed ∧
      (s.ingest env ownerId index).inHand = s.inHand ∧
      (s.ingest env ownerId index).queue = s.queue := by
  unfold EntryFlow.ingest
  split <;> exact ⟨rfl, rfl, rfl, rfl⟩

/-- A settled ingestion concludes soundly. -/
theorem sound_of_settled {s : EntryFlow} (hk : Keyed s.db) {l : EntryFlow.Label}
    (h : s.Settled l) : s.Sound l := by
  cases l with
  | ingest env ownerId index =>
    intro k row hc
    obtain ⟨htaken, howner, hshown⟩ := concludes_from hk hc
    obtain ⟨hcaptured, hgone, hover⟩ :=
      h k hc.captured htaken row hc.listed howner hc.pending hc.entry hshown
    obtain ⟨hstored, hsealed⟩ := sealed_of_concludes hk hc
    obtain ⟨hlive, hprocessed, hhand, hqueue⟩ := ingest_rest s env ownerId index
    have hquiet : Quiet row.id (s.ingest env ownerId index) :=
      ⟨hstored, hsealed, hlive ▸ hgone, hprocessed ▸ hhand ▸ hqueue ▸ hover⟩
    exact ⟨hquiet.neverLive (keyed_step hk (.ingest env ownerId index)), hcaptured⟩
  | _ => trivial

/-- **When "no effect" is sound in time**: in every run, if each unseen entry of a snapshot taken up is
settled, then every conclusion is about an order that is not live and never will be, from a snapshot
taken after the command was sent and out of the bridge's queue. -/
theorem no_effect_sound (db : Database) (ls : List EntryFlow.Label)
    (h : Along EntryFlow.step EntryFlow.Settled (.start db) ls) :
    Along EntryFlow.step EntryFlow.Sound (.start db) ls :=
  along_of_inv (I := fun s : EntryFlow => Keyed s.db) (fun _ l hk _ => keyed_step hk l)
    (fun _ _ hk => sound_of_settled hk) ⟨List.nodup_nil, by simp [EntryFlow.start]⟩ h

/-! ## Two runs -/

/-- A published snapshot of a terminal without positions. -/
def emptySnapshot (now : Time) : BrokerSnapshot :=
  publishedSnapshot (.ofNat 1) (.ofNat 72) 1 now ⟨1000, 1000, 0, "USD"⟩
    { filledTerminal with positions := [], nodup := List.nodup_nil }

/-- The entry is stored and sent; the bridge answers. -/
def sendEntry : List EntryFlow.Label := [
  .persist ⟨100 * second, .ofNat⟩ (.ofNat 9) lotEntry,
  .dispatch lotEnv (.responds {}) true (.ofNat 9) (.ofNat 30)]

/-- The advisor takes the entry up, and the broker refuses it or places its order. -/
def takeUp (placed : Bool) : List EntryFlow.Label := [
  .poll (111 * second) (.ofNat 1) 20 true, .execute (.ofNat 30) placed]

/-- The refused entry: its receipt, and then a snapshot. -/
def refusedEntry : List EntryFlow.Label := sendEntry ++ takeUp false ++ [
  .receipt ⟨.ofNat 30, .ofNat 1, "entry:20", "REJECTED", "CONFIRMED", none, none⟩,
  .capture (emptySnapshot (120 * second)),
  .ingest ⟨121 * second, .ofNat⟩ (.ofNat 9) 0]

/-- The states of the stored commands. -/
def EntryFlow.states (s : EntryFlow) : List CommandState := s.db.commands.map (·.state)

theorem no_effect_sound_refused :
    (run EntryFlow.step (.start lotEntryDatabase) refusedEntry).states = [.noEffectConfirmed] ∧
      Along EntryFlow.step EntryFlow.Sound (.start lotEntryDatabase) refusedEntry :=
  ⟨by decide +kernel, no_effect_sound lotEntryDatabase refusedEntry (by decide +kernel)⟩

/-- A snapshot is taken before the entry is sent. -/
def earlySnapshot : List EntryFlow.Label := .capture (emptySnapshot (105 * second)) :: sendEntry

def lateIngestion : EntryFlow.Label := .ingest ⟨121 * second, .ofNat⟩ (.ofNat 9) 0

/-- **An early snapshot concludes**: ingested after the entry was sent, it confirms that the entry had
no effect; then the advisor polls the entry, and its order goes live. -/
theorem early_snapshot_concludes :
    let concluded := run EntryFlow.step (.start lotEntryDatabase) (earlySnapshot ++ [lateIngestion])
    concluded.states = [.noEffectConfirmed] ∧
      .ofNat 30 ∈ (run EntryFlow.step concluded (takeUp true)).live ∧
      ¬Along EntryFlow.step EntryFlow.Sound (.start lotEntryDatabase)
        (earlySnapshot ++ [lateIngestion]) := by
  have hstates : (run EntryFlow.step (.start lotEntryDatabase)
      (earlySnapshot ++ [lateIngestion])).states = [.noEffectConfirmed] := by decide +kernel
  have hlive : .ofNat 30 ∈ (run EntryFlow.step (run EntryFlow.step (.start lotEntryDatabase)
      (earlySnapshot ++ [lateIngestion])) (takeUp true)).live := by decide +kernel
  refine ⟨hstates, hlive, fun h => ?_⟩
  have hsound := (along_append.1 h).2.1
  have hconcludes : let s := run EntryFlow.step (.start lotEntryDatabase) earlySnapshot
      ∃ k ∈ s.captures[0]?, ∃ row ∈ s.db.commands, (isPending k.snapshot row = true ∧
        row.data.command.action = .placeOrder ∧ ∃ row' ∈ (s.step lateIngestion).db.commands,
          row'.id = row.id ∧ row'.state = .noEffectConfirmed) ∧ row.id = .ofNat 30 := by
    decide +kernel
  obtain ⟨k, hk, row, hrow, ⟨hpending, hentry, hmoved⟩, hid⟩ := hconcludes
  have hnever := (hsound k row ⟨hk, hrow, hpending, hentry, hmoved⟩).1 (takeUp true)
  rw [hid] at hnever
  rw [run_append] at hlive
  exact hnever hlive

end Matrades
