import Mathlib.Data.List.Find
import Matrades.Base.Run
import Matrades.Bridge.Proof.Finality

/-!
# Accounts on one queue

The queue keys its commands by idempotency key and by command id, for all accounts together. What
the polls of one account return depends on the calls for the others only through a common key or id:
along every run in which no call for another account stores a command under a key or an id of one of
the account's commands, and none settles such an id, the account's polls return what they return in
the run of its own calls (`polls_isolated`). A common key hides a command, a common id replaces it, a
foreign receipt closes it (`foreign_key_hides`).
-/

namespace Matrades

open Base

/-- A call on the queue. -/
inductive QueueCall
  | enqueue (c : BridgeCommand)
  | poll (now : Time) (accountId : Uuid) (limit : Int)
  | receipt (r : BridgeReceipt)

namespace QueueCall

/-- The account the call is made for. -/
def accountId : QueueCall → Uuid
  | enqueue c => c.accountId
  | poll _ accountId _ => accountId
  | receipt r => r.accountId

def step (q : BridgeCommandQueue) : QueueCall → BridgeCommandQueue
  | enqueue c => QueueRun.enqueue q c
  | poll now accountId limit => (q.poll now accountId limit).1
  | receipt r => (q.receipt r).1

/-- Is the call made for the account? -/
def own (account : Uuid) (call : QueueCall) : Bool := call.accountId = account

/-- What a poll for the account returns. -/
def answer (account : Uuid) (q : BridgeCommandQueue) : QueueCall → Option (List BridgeCommand)
  | poll now accountId limit =>
    if accountId = account then some (q.poll now accountId limit).2 else none
  | _ => none

/-- What the account's polls return in a run on a fresh queue. -/
def answers (account : Uuid) (leaseSeconds : Nat) (calls : List QueueCall) :
    List (List BridgeCommand) :=
  outputs step (answer account) { BridgeCommandQueue.empty with leaseSeconds } calls

/-- The commands that are enqueued for the account. -/
def commandsOf (account : Uuid) (calls : List QueueCall) : List BridgeCommand :=
  calls.filterMap fun call =>
    match call with
    | enqueue c => if c.accountId = account then some c else none
    | _ => none

/-- The call is the account's own, or what it stores or settles has no key or id of `commands`. -/
def Apart (account : Uuid) (commands : List BridgeCommand) (q : BridgeCommandQueue) :
    QueueCall → Prop
  | enqueue c => c.accountId ≠ account → q.withKey c.idempotencyKey = none →
      ∀ d ∈ commands, d.idempotencyKey ≠ c.idempotencyKey ∧ d.commandId ≠ c.commandId
  | poll .. => True
  | receipt r => r.accountId ≠ account → q.receipts.get? r.commandId = none →
      ∀ d ∈ commands, d.commandId ≠ r.commandId

end QueueCall

/-! ## What an account sees of the queue -/

/-- Is this an entry of the account? -/
def entryOf (account : Uuid) (e : Uuid × BridgeCommand) : Bool := e.2.accountId = account

/-- The queue `q` shows the account what `own`, the queue of its own calls, holds; nothing foreign
carries a key or an id of `commands`. -/
structure Shows (account : Uuid) (commands : List BridgeCommand) (q own : BridgeCommandQueue) :
    Prop where
  entries : q.pending.entries.filter (entryOf account) = own.pending.entries
  apart : ∀ e ∈ q.pending.entries, e.2.accountId ≠ account → ∀ d ∈ commands,
    d.idempotencyKey ≠ e.2.idempotencyKey ∧ d.commandId ≠ e.1
  known : ∀ e ∈ own.pending.entries, ∃ d ∈ commands, d.commandId = e.1
  receipts : ∀ d ∈ commands, q.receipts.get? d.commandId = own.receipts.get? d.commandId
  leaseSeconds : q.leaseSeconds = own.leaseSeconds

/-! ## Entries of one account -/

section
variable {account : Uuid}

/-- A poll for the account goes through its own entries only. -/
theorem pollEntries_own (now deadline : Time) (limit : Int) (taken : Nat)
    (es : List (Uuid × BridgeCommand)) :
    (BridgeCommandQueue.pollEntries now deadline account limit taken es).1.filter (entryOf account) =
      (BridgeCommandQueue.pollEntries now deadline account limit taken
        (es.filter (entryOf account))).1 ∧
    (BridgeCommandQueue.pollEntries now deadline account limit taken es).2 =
      (BridgeCommandQueue.pollEntries now deadline account limit taken
        (es.filter (entryOf account))).2 := by
  induction es generalizing taken with
  | nil => exact ⟨rfl, rfl⟩
  | cons e es ih =>
    obtain ⟨id, c⟩ := e
    by_cases hmine : c.accountId = account
    · have hkeep : entryOf account (id, c) = true := by simpa [entryOf] using hmine
      have hleased : entryOf account (id, BridgeCommandQueue.leased deadline c) = true := hkeep
      rw [List.filter_cons_of_pos hkeep]
      unfold BridgeCommandQueue.pollEntries
      by_cases havail : BridgeCommandQueue.available now account c = true
      · by_cases hlimit : limit ≤ taken + 1
        · simp [havail, hlimit, hleased]
        · simp [havail, hlimit, hleased, ih]
      · simp [havail, hkeep, ih]
    · have hdrop : entryOf account (id, c) = false := by simpa [entryOf] using hmine
      have havail : BridgeCommandQueue.available now account c = false := by
        simp [BridgeCommandQueue.available, hmine]
      have hskip : BridgeCommandQueue.pollEntries now deadline account limit taken ((id, c) :: es) =
          ((id, c) :: (BridgeCommandQueue.pollEntries now deadline account limit taken es).1,
            (BridgeCommandQueue.pollEntries now deadline account limit taken es).2) := by
        simp [BridgeCommandQueue.pollEntries, havail]
      rw [List.filter_cons_of_neg (by simp [hdrop]), hskip, List.filter_cons_of_neg (by simp [hdrop])]
      exact ih taken

/-- A poll for another account leaves the account's entries alone. -/
theorem pollEntries_foreign {other : Uuid} (hother : other ≠ account) (now deadline : Time)
    (limit : Int) (taken : Nat) (es : List (Uuid × BridgeCommand)) :
    (BridgeCommandQueue.pollEntries now deadline other limit taken es).1.filter (entryOf account) =
      es.filter (entryOf account) := by
  induction es generalizing taken with
  | nil => rfl
  | cons e es ih =>
    obtain ⟨id, c⟩ := e
    unfold BridgeCommandQueue.pollEntries
    by_cases havail : BridgeCommandQueue.available now other c = true
    · have hacc : c.accountId ≠ account := by
        simp only [BridgeCommandQueue.available, Bool.and_eq_true, decide_eq_true_eq] at havail
        exact fun h => hother (havail.1.1.symm.trans h)
      have hdrop : entryOf account (id, c) = false := by simpa [entryOf] using hacc
      have hleased : entryOf account (id, BridgeCommandQueue.leased deadline c) = false := hdrop
      by_cases hlimit : limit ≤ taken + 1
      · simp [havail, hlimit, hdrop, hleased]
      · simp [havail, hlimit, hdrop, hleased, ih]
    · simp [havail, List.filter_cons, ih]

theorem setEntries_own {id : Uuid} {c : BridgeCommand} {es : List (Uuid × BridgeCommand)}
    (hc : c.accountId = account) (hid : ∀ e ∈ es, e.2.accountId ≠ account → e.1 ≠ id) :
    (Dict.setEntries id c es).filter (entryOf account) =
      Dict.setEntries id c (es.filter (entryOf account)) := by
  have hkeep : entryOf account (id, c) = true := by simpa [entryOf] using hc
  induction es with
  | nil => simp [Dict.setEntries, hkeep]
  | cons e es ih =>
    obtain ⟨id', d⟩ := e
    have hrest := ih fun e he => hid e (List.mem_cons_of_mem _ he)
    by_cases hmine : d.accountId = account
    · have hd : entryOf account (id', d) = true := by simpa [entryOf] using hmine
      rw [List.filter_cons_of_pos hd]
      unfold Dict.setEntries
      by_cases hsame : id' = id
      · simp [hsame, hkeep]
      · simp [hsame, hd, hrest]
    · have hd : entryOf account (id', d) = false := by simpa [entryOf] using hmine
      have hsame : id' ≠ id := hid (id', d) List.mem_cons_self hmine
      rw [List.filter_cons_of_neg (by simp [hd]), Dict.setEntries, if_neg hsame,
        List.filter_cons_of_neg (by simp [hd]), hrest]

theorem setEntries_foreign {id : Uuid} {c : BridgeCommand} {es : List (Uuid × BridgeCommand)}
    (hc : c.accountId ≠ account) (hid : ∀ e ∈ es, e.2.accountId = account → e.1 ≠ id) :
    (Dict.setEntries id c es).filter (entryOf account) = es.filter (entryOf account) := by
  have hdrop : entryOf account (id, c) = false := by simpa [entryOf] using hc
  induction es with
  | nil => simp [Dict.setEntries, hdrop]
  | cons e es ih =>
    obtain ⟨id', d⟩ := e
    have hrest := ih fun e he => hid e (List.mem_cons_of_mem _ he)
    unfold Dict.setEntries
    by_cases hsame : id' = id
    · have hacc : d.accountId ≠ account := fun h => hid (id', d) List.mem_cons_self h hsame
      have hd : entryOf account (id', d) = false := by simpa [entryOf] using hacc
      rw [if_pos hsame, List.filter_cons_of_neg (by simp [hdrop]),
        List.filter_cons_of_neg (by simp [hd])]
    · rw [if_neg hsame, List.filter_cons, List.filter_cons, hrest]

end

/-! ## Every call keeps what the account sees -/

section
variable {account : Uuid} {commands : List BridgeCommand} {q own : BridgeCommandQueue}

theorem shows_start (account : Uuid) (commands : List BridgeCommand) (leaseSeconds : Nat) :
    Shows account commands { BridgeCommandQueue.empty with leaseSeconds }
      { BridgeCommandQueue.empty with leaseSeconds } := by
  constructor <;> simp [BridgeCommandQueue.empty, Dict.empty]

/-- The account's entries are found under its own keys alone. -/
theorem withKey_own (h : Shows account commands q own) {c : BridgeCommand} (hc : c ∈ commands) :
    q.withKey c.idempotencyKey = own.withKey c.idempotencyKey := by
  unfold BridgeCommandQueue.withKey Dict.values
  rw [← h.entries, List.find?_map, List.find?_map, List.find?_filter]
  congr 1
  refine List.find?_congr fun e he => ?_
  by_cases hmine : e.2.accountId = account
  · simp [entryOf, hmine]
  · have hkey := (h.apart e he hmine c hc).1
    simp [Ne.symm hkey]

/-- What is foreign stays apart over a poll. -/
theorem Shows.apart_poll (h : Shows account commands q own) (now : Time) (other : Uuid) (limit : Int) :
    ∀ e ∈ (q.poll now other limit).1.pending.entries, e.2.accountId ≠ account → ∀ d ∈ commands,
      d.idempotencyKey ≠ e.2.idempotencyKey ∧ d.commandId ≠ e.1 := by
  intro e he hforeign d hd
  obtain ⟨c, hmem, hsame⟩ := pollEntries_values he
  have hkept : e.2.accountId = c.accountId ∧ e.2.idempotencyKey = c.idempotencyKey := by
    rcases hsame with hsame | ⟨_, hleased⟩
    · rw [hsame]
      exact ⟨rfl, rfl⟩
    · rw [hleased]
      exact ⟨rfl, rfl⟩
  rw [hkept.2]
  exact h.apart (e.1, c) hmem (hkept.1 ▸ hforeign) d hd

theorem Shows.poll (h : Shows account commands q own) (now : Time) (limit : Int) :
    Shows account commands (q.poll now account limit).1 (own.poll now account limit).1 ∧
      (q.poll now account limit).2 = (own.poll now account limit).2 := by
  have hend : q.leaseEnd now = own.leaseEnd now := by
    unfold BridgeCommandQueue.leaseEnd
    rw [h.leaseSeconds]
  have hloop := @pollEntries_own account now (own.leaseEnd now) limit 0 q.pending.entries
  rw [h.entries] at hloop
  constructor
  · constructor
    · simp only [BridgeCommandQueue.poll, hend]
      exact hloop.1
    · exact h.apart_poll now account limit
    · intro e he
      obtain ⟨c, hmem, _⟩ := pollEntries_values he
      exact h.known (e.1, c) hmem
    · exact h.receipts
    · exact h.leaseSeconds
  · simp only [BridgeCommandQueue.poll, hend]
    rw [hloop.2]

theorem Shows.pollForeign (h : Shows account commands q own) {other : Uuid} (hother : other ≠ account)
    (now : Time) (limit : Int) : Shows account commands (q.poll now other limit).1 own := by
  constructor
  · simp only [BridgeCommandQueue.poll]
    rw [pollEntries_foreign hother]
    exact h.entries
  · exact h.apart_poll now other limit
  · exact h.known
  · exact h.receipts
  · exact h.leaseSeconds

theorem Shows.enqueue (h : Shows account commands q own) {c : BridgeCommand} (hc : c ∈ commands)
    (hmine : c.accountId = account) :
    Shows account commands (QueueRun.enqueue q c) (QueueRun.enqueue own c) := by
  have hkey := withKey_own h hc
  unfold QueueRun.enqueue BridgeCommandQueue.enqueue
  rw [hkey]
  cases own.withKey c.idempotencyKey with
  | some existing =>
    by_cases hdiffers : Json.eqvDict existing.payload c.payload = false ∨ existing.action ≠ c.action
    · simpa [hdiffers] using h
    · simpa [hdiffers] using h
  | none =>
    constructor
    · show (Dict.setEntries c.commandId c q.pending.entries).filter (entryOf account) =
        Dict.setEntries c.commandId c own.pending.entries
      rw [setEntries_own hmine fun e he hforeign => ((h.apart e he hforeign c hc).2).symm, h.entries]
    · intro e he hforeign
      rcases Dict.mem_setEntries he with rfl | he
      · exact absurd hmine hforeign
      · exact h.apart e he hforeign
    · intro e he
      rcases Dict.mem_setEntries he with rfl | he
      · exact ⟨c, hc, rfl⟩
      · exact h.known e he
    · exact h.receipts
    · exact h.leaseSeconds

/-- The account's entries in the whole queue carry ids of its commands. -/
theorem Shows.mine (h : Shows account commands q own) {e : Uuid × BridgeCommand}
    (he : e ∈ q.pending.entries) (hmine : e.2.accountId = account) :
    ∃ d ∈ commands, d.commandId = e.1 := by
  refine h.known e ?_
  rw [← h.entries]
  exact List.mem_filter.2 ⟨he, by simpa [entryOf] using hmine⟩

theorem Shows.enqueueForeign (h : Shows account commands q own) {c : BridgeCommand}
    (hforeign : c.accountId ≠ account)
    (hapart : q.withKey c.idempotencyKey = none →
      ∀ d ∈ commands, d.idempotencyKey ≠ c.idempotencyKey ∧ d.commandId ≠ c.commandId) :
    Shows account commands (QueueRun.enqueue q c) own := by
  rcases QueueRun.enqueue_cases q c with hsame | ⟨hnew, hset⟩
  · rw [hsame]
    exact h
  rw [hset]
  constructor
  · show (Dict.setEntries c.commandId c q.pending.entries).filter (entryOf account) = _
    rw [setEntries_foreign hforeign fun e he hmine hid => ?_, h.entries]
    obtain ⟨d, hd, hde⟩ := h.mine he hmine
    exact (hapart hnew d hd).2 (hde.trans hid)
  · intro e he hother
    rcases Dict.mem_setEntries he with rfl | he
    · exact hapart hnew
    · exact h.apart e he hother
  · exact h.known
  · exact h.receipts
  · exact h.leaseSeconds

/-- The queue after the first receipt of an id. -/
def settledQueue (q : BridgeCommandQueue) (r : BridgeReceipt) : BridgeCommandQueue :=
  { q with
    receipts := q.receipts.set r.commandId r
    pending := q.pending.modify r.commandId fun c =>
      { c with state := r.state, leaseExpiresAt := none } }

theorem queue_receipt (q : BridgeCommandQueue) (r : BridgeReceipt) :
    (q.receipt r).1 =
      match q.receipts.get? r.commandId with
      | some _ => q
      | none => settledQueue q r := by
  unfold BridgeCommandQueue.receipt settledQueue
  cases q.receipts.get? r.commandId <;> rfl

/-- An entry after a receipt, by its account, key and id. -/
theorem mem_settled {r : BridgeReceipt} {e : Uuid × BridgeCommand}
    (he : e ∈ (settledQueue q r).pending.entries) :
    ∃ old ∈ q.pending.entries, old.1 = e.1 ∧ old.2.accountId = e.2.accountId ∧
      old.2.idempotencyKey = e.2.idempotencyKey := by
  obtain ⟨old, hold, rfl⟩ := List.mem_map.1 he
  refine ⟨old, hold, ?_⟩
  split <;> exact ⟨rfl, rfl, rfl⟩

theorem Shows.apart_settled (h : Shows account commands q own) (r : BridgeReceipt) :
    ∀ e ∈ (settledQueue q r).pending.entries, e.2.accountId ≠ account → ∀ d ∈ commands,
      d.idempotencyKey ≠ e.2.idempotencyKey ∧ d.commandId ≠ e.1 := by
  intro e he hforeign
  obtain ⟨old, hold, hid, hacc, hkey⟩ := mem_settled he
  rw [← hid, ← hkey]
  exact h.apart old hold (hacc ▸ hforeign)

/-- Settling commutes with looking at one account. -/
theorem settled_entries (q : BridgeCommandQueue) (r : BridgeReceipt) (account : Uuid) :
    (settledQueue q r).pending.entries.filter (entryOf account) =
      (q.pending.entries.filter (entryOf account)).map fun e =>
        if e.1 = r.commandId then (e.1, { e.2 with state := r.state, leaseExpiresAt := none })
        else e := by
  show (q.pending.entries.map _).filter _ = _
  rw [List.filter_map]
  congr 1
  refine List.filter_congr fun e _ => ?_
  dsimp only [Function.comp]
  split <;> rfl

/-- Settling an id of no own command changes nothing the account sees. -/
theorem Shows.settleAside (h : Shows account commands q own) {r : BridgeReceipt}
    (hr : ∀ d ∈ commands, d.commandId ≠ r.commandId) :
    Shows account commands (settledQueue q r) own := by
  constructor
  · rw [settled_entries, h.entries]
    refine (List.map_congr_left fun e he => ?_).trans (List.map_id _)
    obtain ⟨d, hd, hid⟩ := h.known e he
    exact if_neg fun hsame => hr d hd (hid.trans hsame)
  · exact h.apart_settled r
  · exact h.known
  · intro d hd
    rw [← h.receipts d hd]
    exact Dict.get?_set_ne _ _ (hr d hd)
  · exact h.leaseSeconds

/-- The same on the queue of the account's own calls. -/
theorem Shows.settleOwnAside (h : Shows account commands q own) {r : BridgeReceipt}
    (hr : ∀ d ∈ commands, d.commandId ≠ r.commandId) :
    Shows account commands q (settledQueue own r) := by
  have hsame : (settledQueue own r).pending.entries = own.pending.entries := by
    show own.pending.entries.map _ = _
    refine (List.map_congr_left fun e he => ?_).trans (List.map_id _)
    obtain ⟨d, hd, hid⟩ := h.known e he
    exact if_neg fun hsame => hr d hd (hid.trans hsame)
  constructor
  · rw [hsame]
    exact h.entries
  · exact h.apart
  · rw [hsame]
    exact h.known
  · intro d hd
    rw [h.receipts d hd]
    exact (Dict.get?_set_ne _ _ (hr d hd)).symm
  · exact h.leaseSeconds

/-- Settling an id in both queues. -/
theorem Shows.settleBoth (h : Shows account commands q own) (r : BridgeReceipt) :
    Shows account commands (settledQueue q r) (settledQueue own r) := by
  constructor
  · rw [settled_entries, h.entries]
    rfl
  · exact h.apart_settled r
  · intro e he
    obtain ⟨old, hold, hid, _⟩ := mem_settled he
    rw [← hid]
    exact h.known old hold
  · intro d hd
    show (q.receipts.set r.commandId r).get? d.commandId =
      (own.receipts.set r.commandId r).get? d.commandId
    rw [Dict.get?_set, Dict.get?_set, h.receipts d hd]
  · exact h.leaseSeconds

theorem Shows.receiptAside (h : Shows account commands q own) {r : BridgeReceipt}
    (hr : q.receipts.get? r.commandId = none → ∀ d ∈ commands, d.commandId ≠ r.commandId) :
    Shows account commands (q.receipt r).1 own := by
  rw [queue_receipt]
  cases hfirst : q.receipts.get? r.commandId with
  | some _ => exact h
  | none => exact h.settleAside (hr hfirst)

theorem Shows.receipt (h : Shows account commands q own) (r : BridgeReceipt) :
    Shows account commands (q.receipt r).1 (own.receipt r).1 := by
  by_cases hr : ∀ d ∈ commands, d.commandId ≠ r.commandId
  · have haside := h.receiptAside fun _ => hr
    rw [queue_receipt own]
    cases own.receipts.get? r.commandId with
    | some _ => exact haside
    | none => exact haside.settleOwnAside hr
  · -- a command of the account: both queues know its receipt, or neither does
    obtain ⟨d, hd⟩ := not_forall.1 hr
    obtain ⟨hmem, hid⟩ := Classical.not_imp.1 hd
    have hsame := h.receipts d hmem
    rw [not_not.1 hid] at hsame
    rw [queue_receipt, queue_receipt, hsame]
    cases own.receipts.get? r.commandId with
    | some _ => exact h
    | none => exact h.settleBoth r

end

/-! ## Runs -/

namespace QueueCall

variable {account : Uuid} {commands : List BridgeCommand} {q own' : BridgeCommandQueue}
  {call : QueueCall}

theorem mem_commandsOf {calls : List QueueCall} {c : BridgeCommand} (h : enqueue c ∈ calls)
    (hmine : c.accountId = account) : c ∈ commandsOf account calls :=
  List.mem_filterMap.2 ⟨enqueue c, h, by simp [hmine]⟩

theorem shows_own (h : Shows account commands q own') (hmine : own account call = true)
    (hmem : ∀ c, call = enqueue c → c.accountId = account → c ∈ commands) :
    Shows account commands (step q call) (step own' call) ∧
      answer account q call = answer account own' call := by
  have hacc : call.accountId = account := by simpa [own] using hmine
  cases call with
  | enqueue c => exact ⟨h.enqueue (hmem c rfl hacc) hacc, rfl⟩
  | poll now other limit =>
    obtain rfl : other = account := hacc
    obtain ⟨hshows, hsame⟩ := h.poll now limit
    refine ⟨hshows, ?_⟩
    simp only [answer, if_true]
    rw [hsame]
  | receipt r => exact ⟨h.receipt r, rfl⟩

theorem shows_foreign (h : Shows account commands q own') (hforeign : own account call = false)
    (hapart : call.Apart account commands q) :
    Shows account commands (step q call) own' ∧ answer account q call = none := by
  have hacc : call.accountId ≠ account := by simpa [own] using hforeign
  cases call with
  | enqueue c => exact ⟨h.enqueueForeign hacc (hapart hacc), rfl⟩
  | poll now other limit => exact ⟨h.pollForeign hacc now limit, if_neg hacc⟩
  | receipt r => exact ⟨h.receiptAside (hapart hacc), rfl⟩

/-- No call for another account stores or settles what carries a key or an id of a command of
`account`. -/
def Separate (account : Uuid) (leaseSeconds : Nat) (calls : List QueueCall) : Prop :=
  Along step (fun q call => call.Apart account (commandsOf account calls) q)
    { BridgeCommandQueue.empty with leaseSeconds } calls

/-- The account's polls return what they return in the run of its own calls. -/
theorem polls_isolated {leaseSeconds : Nat} {calls : List QueueCall}
    (h : Separate account leaseSeconds calls) :
    answers account leaseSeconds calls = answers account leaseSeconds (calls.filter (own account)) := by
  have hmem : Along step (fun _ call => call ∈ calls)
      { BridgeCommandQueue.empty with leaseSeconds } calls := along_of_mem (fun _ hl => hl) _
  refine outputs_filter (R := Shows account (commandsOf account calls)) ?_ ?_
    (shows_start account _ leaseSeconds) (along_and h hmem)
  · rintro q own' call hshows hmine ⟨_, hcall⟩
    refine shows_own hshows hmine fun c hc hacc => mem_commandsOf ?_ hacc
    exact hc ▸ hcall
  · rintro q own' call hshows hforeign ⟨hapart, _⟩
    exact shows_foreign hshows hforeign hapart

/-- **Account isolation**: two runs on a fresh queue that contain the same calls for an account, and
arbitrary calls for others that store nothing under a key or an id of its commands and settle none of
them, return the same commands in every poll for the account. -/
theorem accounts_isolated {leaseSeconds : Nat} {calls calls' : List QueueCall}
    (hsame : calls.filter (own account) = calls'.filter (own account))
    (h : Separate account leaseSeconds calls) (h' : Separate account leaseSeconds calls') :
    answers account leaseSeconds calls = answers account leaseSeconds calls' := by
  rw [polls_isolated h, polls_isolated h', hsame]

end QueueCall

/-- An order of an account under a command id and a key. -/
def accountOrder (account commandId : Nat) (idempotencyKey : String) : BridgeCommand :=
  { queuedEntry idempotencyKey with commandId := .ofNat commandId, accountId := .ofNat account }

/-- Account 2 queues an order and polls. -/
def ownCalls : List QueueCall :=
  [.enqueue (accountOrder 2 30 "entry-0001"), .poll 0 (.ofNat 2) 20]

instance (account : Uuid) (commands : List BridgeCommand) (q : BridgeCommandQueue) :
    (call : QueueCall) → Decidable (call.Apart account commands q)
  | .enqueue c => inferInstanceAs (Decidable (c.accountId ≠ account →
      q.withKey c.idempotencyKey = none → ∀ d ∈ commands, _))
  | .poll .. => .isTrue trivial
  | .receipt r => inferInstanceAs (Decidable (r.accountId ≠ account →
      q.receipts.get? r.commandId = none → ∀ d ∈ commands, _))

/-- Orders of another account under their own keys and ids change nothing. -/
theorem accounts_isolated_apart :
    QueueCall.answers (.ofNat 2) 30 ownCalls =
      QueueCall.answers (.ofNat 2) 30
        (.enqueue (accountOrder 1 31 "entry-0002") :: .poll 0 (.ofNat 1) 20 :: ownCalls) :=
  QueueCall.accounts_isolated rfl (by unfold QueueCall.Separate; decide +kernel)
    (by unfold QueueCall.Separate; decide +kernel)

/-- What account 2 sees, by command and account. -/
def seen (calls : List QueueCall) : List (List (Uuid × Uuid)) :=
  (QueueCall.answers (.ofNat 2) 30 calls).map fun polled =>
    polled.map fun c => (c.commandId, c.accountId)

/-- **A foreign key hides a command**: once account 1 has queued an order under the key, the order of
account 2 is taken for a duplicate and never polled. -/
theorem foreign_key_hides :
    let calls := QueueCall.enqueue (accountOrder 1 31 "entry-0001") :: ownCalls
    calls.filter (QueueCall.own (.ofNat 2)) = ownCalls.filter (QueueCall.own (.ofNat 2)) ∧
      QueueCall.answers (.ofNat 2) 30 calls ≠ QueueCall.answers (.ofNat 2) 30 ownCalls := by
  refine ⟨rfl, fun hsame => ?_⟩
  have hseen : seen (.enqueue (accountOrder 1 31 "entry-0001") :: ownCalls) = seen ownCalls := by
    unfold seen
    rw [hsame]
  exact absurd hseen (by decide +kernel)

/-- A foreign receipt closes a command, a foreign id replaces it. -/
example : seen ownCalls = [[(.ofNat 30, .ofNat 2)]] ∧
    seen (ownCalls.insertIdx 1 (.receipt (entryReceipt "entry-0001" "REJECTED"))) = [[]] ∧
    seen (ownCalls.insertIdx 1 (.enqueue (accountOrder 1 30 "entry-0002"))) = [[]] := by
  decide

end Matrades
