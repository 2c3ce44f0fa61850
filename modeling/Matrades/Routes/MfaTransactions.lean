import Matrades.Base.Consumption
import Matrades.Routes.Auth

/-!
# MFA checks side by side

The transactions of `verify_mfa_challenge` and `verify_step_up` of one user, interleaved under READ
COMMITTED. A challenge token is read for update, so a second transaction with the same challenge
waits; the session of a step-up and the user are read without a lock. The user's recovery code hashes
are the row of a `RowSystem`: read with the user, written by the flush if the check changed them. The
rest of the user's row stays as it is.
-/

namespace Matrades

open Base

inductive MfaRequest
  | challenge (challengeId : Uuid)
  | stepUp (cookie actionScope : String)
  deriving DecidableEq, Repr

/-- A transaction, with the code that it brings. -/
structure MfaTransaction where
  number : ℕ
  request : MfaRequest
  code : String
  deriving DecidableEq, Repr

inductive MfaProgress
  | started | identified | verified | ended
  deriving DecidableEq, Repr

structure MfaSystem where
  /-- The committed tokens and sessions. -/
  store : AuthStore
  hashes : RowSystem MfaTransaction (List String)
  progress : MfaTransaction → MfaProgress
  /-- The transaction that has read a challenge token for update. -/
  tokenLock : Uuid → Option MfaTransaction
  /-- The transactions that have committed, the last one first. -/
  committed : List MfaTransaction

inductive MfaLabel
  /-- The lookup of the challenge token or of the session. -/
  | identify (t : MfaTransaction) (env : AuthEnv)
  /-- The read of the user and `_verify_mfa`. -/
  | verify (t : MfaTransaction) (now : Time)
  | flush (t : MfaTransaction)
  | commit (t : MfaTransaction) (env : AuthEnv)
  | abort (t : MfaTransaction)

namespace MfaSystem

def start (store : AuthStore) (hashes : List String) : MfaSystem :=
  ⟨store, RowSystem.start hashes, fun _ => .started, fun _ => none, []⟩

section
variable (crypto : Cryptography) (userId : Uuid) (user : UserRecord)

/-- The user with the hashes that a transaction reads. -/
def readUser (hashes : List String) : UserRecord := { user with recoveryCodeHashes := hashes }

/-- What `_verify_mfa` makes of the hashes, if it changes them. -/
def make (asked : MfaTransaction × Time) (hashes : List String) : Option (List String) :=
  match verifyMfa crypto userId (readUser user hashes) asked.1.code asked.2 with
  | .ok (some checked) =>
    if checked.recoveryCodeHashes = hashes then none else some checked.recoveryCodeHashes
  | _ => none

/-- The transaction goes on to `p`. -/
def advance (s : MfaSystem) (t : MfaTransaction) (p : MfaProgress) : MfaSystem :=
  { s with progress := Function.update s.progress t p }

/-- The end of a transaction, which gives back its locks. -/
def finish (s : MfaSystem) (t : MfaTransaction) : MfaSystem :=
  { s.advance t .ended with
    tokenLock := fun id => if s.tokenLock id = some t then none else s.tokenLock id }

/-- The end of a transaction that raises. -/
def abort (s : MfaSystem) (t : MfaTransaction) : MfaSystem :=
  { s.finish t with hashes := s.hashes.step (make crypto userId user) (.abort t) }

def identify (s : MfaSystem) (t : MfaTransaction) (env : AuthEnv) : MfaSystem :=
  if s.progress t ≠ .started then s
  else
    match t.request with
    | .challenge challengeId =>
      if s.tokenLock challengeId ≠ none then s
      else
        match tokenUser crypto env s.store (.id challengeId) .loginMfa with
        | .ok ((_, item), _) =>
          if item.userId = userId then
            { s.advance t .identified with
              tokenLock := Function.update s.tokenLock challengeId (some t) }
          else s.finish t
        | .error _ => s.finish t
    | .stepUp cookie _ =>
      match liveSession crypto env s.store (some cookie) with
      | .ok (_, session) => if session.userId = userId then s.advance t .identified else s.finish t
      | .error _ => s.finish t

def verify (s : MfaSystem) (t : MfaTransaction) (now : Time) : MfaSystem :=
  if s.progress t ≠ .identified then s
  else
    match verifyMfa crypto userId (readUser user s.hashes.committed) t.code now with
    | .ok (some _) =>
      { s.advance t .verified with
        hashes := s.hashes.step (make crypto userId user) (.read t (t, now) false) }
    | _ => s.finish t

/-- The rows that a verified transaction writes beside the user's. -/
def effects (s : MfaSystem) (t : MfaTransaction) (env : AuthEnv) : Except HttpException AuthStore :=
  match t.request with
  | .challenge challengeId => do
    let item ← orError (s.store.tokens.get? challengeId) internalError
    issueSession crypto env (s.store.useToken challengeId item env.now) userId
  | .stepUp cookie actionScope => do
    let (id, session) ← orError (s.store.findSession (·.tokenHash = crypto.digest cookie))
      internalError
    let store := s.store.setSession id { session with stepUpAt := some env.now }
    store.addToken env.draws.tokenId
      (newToken env userId .stepUp (some (crypto.digest env.draws.raw)) (10 * minute)
        (some ⟨actionScope, id⟩))

def commit (s : MfaSystem) (t : MfaTransaction) (env : AuthEnv) : MfaSystem :=
  if s.progress t ≠ .verified then s
  else
    match s.hashes.phase t with
    | .decided _ _ => s
    | _ =>
      match effects crypto userId s t env with
      | .ok store =>
        { s.finish t with
          store, committed := t :: s.committed
          hashes := s.hashes.step (make crypto userId user) (.commit t) }
      | .error _ => s.abort crypto userId user t

/-- One step; a step that has to wait, or that is not the transaction's next, does nothing. -/
def step (s : MfaSystem) : MfaLabel → MfaSystem
  | .identify t env => s.identify crypto userId t env
  | .verify t now => s.verify crypto userId user t now
  | .flush t =>
    if s.progress t = .verified then
      { s with hashes := s.hashes.step (make crypto userId user) (.write t) }
    else s
  | .commit t env => s.commit crypto userId user t env
  | .abort t => if s.progress t = .ended then s else s.abort crypto userId user t

end

/-- The hash of the recovery code that a transaction brings. -/
def codeHash (crypto : Cryptography) (t : MfaTransaction) : String := crypto.digest t.code

/-- The committed transactions that took a recovery code. -/
def accepting (s : MfaSystem) : List MfaTransaction := s.hashes.writers

/-- **Recovery codes are single-use**: no two committed transactions took the same code, and no code
that was taken is among the user's. -/
def SingleUse (crypto : Cryptography) (s : MfaSystem) : Prop :=
  (s.accepting.map (codeHash crypto)).Nodup ∧
    ∀ t ∈ s.accepting, codeHash crypto t ∉ s.hashes.committed

/-- A commit that writes the hashes finds the hashes that its transaction has read. -/
def Unchanged (crypto : Cryptography) (userId : Uuid) (s : MfaSystem) : MfaLabel → Prop
  | .commit t env => s.progress t = .verified → (effects crypto userId s t env).toBool = true →
    ∀ seen next, s.hashes.phase t = .written seen next → s.hashes.committed = seen
  | _ => True

end MfaSystem

end Matrades
