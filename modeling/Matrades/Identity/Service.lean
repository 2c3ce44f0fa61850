import Matrades.Base.Decimal
import Matrades.Base.Dict
import Matrades.Shared.Http

/-!
# Authentication: records and primitives

The tables of `modules/identity/persistence.py`, each keyed by its `id`: users, the signup gate,
sessions, and the one-time tokens of all purposes. The unique columns are checked by the operations
that insert.

`modules/identity/service.py` and the checks of `routes/auth.py` that work on one user. The primitives
(SHA-256, scrypt, the one-time password of a secret at a time, AES-GCM with the user's id as
associated data) are parameters; so are the drawn secrets.
-/

namespace Matrades

open Base

/-! ## Authentication records -/

/-- The `kind` of a token. -/
inductive AuthTokenKind
  | emailVerification | mfaBootstrap | mfaEnrollment | loginMfa | stepUp | passwordRecovery
  deriving DecidableEq, Repr

structure UserRecord where
  email : String
  passwordHash : String
  emailVerified : Bool := false
  mfaEnabled : Bool := false
  mfaSecret : Option String := none
  recoveryCodeHashes : List String := []
  deriving DecidableEq, Repr

structure SessionRecord where
  userId : Uuid
  tokenHash : String
  expiresAt : Time
  revokedAt : Option Time := none
  stepUpAt : Option Time := none
  deriving DecidableEq, Repr

/-- The `payload` of a step-up grant. -/
structure GrantPayload where
  scope : String
  sessionId : Uuid
  deriving DecidableEq, Repr

structure AuthTokenRecord where
  userId : Uuid
  kind : AuthTokenKind
  tokenHash : Option String := none
  payload : Option GrantPayload := none
  expiresAt : Time
  usedAt : Option Time := none
  createdAt : Time
  deriving DecidableEq, Repr

/-- The authentication tables. -/
structure AuthStore where
  users : Dict Uuid UserRecord
  /-- The user of the signup gate's single row. -/
  signupGate : Option Uuid
  tokens : Dict Uuid AuthTokenRecord
  sessions : Dict Uuid SessionRecord
  deriving DecidableEq

namespace AuthStore

def empty : AuthStore := ⟨.empty, none, .empty, .empty⟩

/-- The first user that meets a condition. -/
def findUser (s : AuthStore) (p : UserRecord → Bool) : Option (Uuid × UserRecord) :=
  s.users.entries.find? fun e => p e.2

/-- The first token that meets a condition. -/
def findToken (s : AuthStore) (p : Uuid → AuthTokenRecord → Bool) :
    Option (Uuid × AuthTokenRecord) :=
  s.tokens.entries.find? fun e => p e.1 e.2

/-- The first session that meets a condition. -/
def findSession (s : AuthStore) (p : SessionRecord → Bool) : Option (Uuid × SessionRecord) :=
  s.sessions.entries.find? fun e => p e.2

/-- An insert fails on a token with the same `id` or the same hash. -/
def addToken (s : AuthStore) (id : Uuid) (token : AuthTokenRecord) :
    Except HttpException AuthStore :=
  if (s.tokens.get? id).isSome ∨
      (token.tokenHash.isSome ∧ ∃ other ∈ s.tokens.values, other.tokenHash = token.tokenHash) then
    .error internalError
  else .ok { s with tokens := s.tokens.set id token }

/-- An insert fails on a session with the same `id` or the same hash. -/
def addSession (s : AuthStore) (id : Uuid) (session : SessionRecord) :
    Except HttpException AuthStore :=
  if (s.sessions.get? id).isSome ∨
      ∃ other ∈ s.sessions.values, other.tokenHash = session.tokenHash then
    .error internalError
  else .ok { s with sessions := s.sessions.set id session }

def setUser (s : AuthStore) (id : Uuid) (user : UserRecord) : AuthStore :=
  { s with users := s.users.set id user }

def setSession (s : AuthStore) (id : Uuid) (session : SessionRecord) : AuthStore :=
  { s with sessions := s.sessions.set id session }

/-- `token.used_at = utc_now()`. -/
def useToken (s : AuthStore) (id : Uuid) (token : AuthTokenRecord) (now : Time) : AuthStore :=
  { s with tokens := s.tokens.set id { token with usedAt := some now } }

/-- Revoke the user's sessions that are not revoked. -/
def revokeSessions (s : AuthStore) (userId : Uuid) (now : Time) : AuthStore :=
  { s with sessions := s.sessions.map fun session =>
      if session.userId = userId ∧ session.revokedAt = none then
        { session with revokedAt := some now }
      else session }

end AuthStore

/-! ## Passwords, authenticator codes and recovery codes -/

/-- The cryptographic primitives. -/
structure Cryptography where
  /-- `_digest`. -/
  digest : String → String
  /-- `hash_password` with its salt. -/
  hashPassword : String → String → String
  verifyPassword : String → String → Bool
  /-- `totp` of a secret at a second. -/
  totp : String → ℤ → String
  /-- `_encrypt` of a value, with its associated id and nonce. -/
  encrypt : String → Uuid → String → String
  /-- `_decrypt`, which raises on a value that was not encrypted for the id. -/
  decrypt : String → Uuid → Option String

/-- What an operation draws at random. -/
structure Draws where
  userId : Uuid
  tokenId : Uuid
  sessionId : Uuid
  /-- The text of a token, or of a grant. -/
  raw : String
  /-- The text of a session cookie. -/
  cookie : String
  salt : String
  nonce : String
  /-- The secret of an authenticator, in base 32. -/
  secret : String
  codes : Fin 8 → String

section
variable (crypto : Cryptography)

/-- `enroll`: the hashes of the recovery codes that are drawn. -/
def recoveryHashes (draws : Draws) : List String :=
  List.ofFn fun i => crypto.digest (draws.codes i)

/-- The user's authenticator secret in plain text, empty without one. -/
def plainSecret (userId : Uuid) (user : UserRecord) : Except HttpException String :=
  match user.mfaSecret with
  | none => .ok ""
  | some stored =>
    if stored = "" then .ok "" else orError (crypto.decrypt stored userId) internalError

/-- Does the authenticator show the code, within one period? -/
def authenticatorAccepts (secret code : String) (now : Time) : Bool :=
  secret ≠ "" && [-30, 0, 30].any fun (offset : ℤ) =>
    crypto.totp secret ((now / second : ℕ) + offset) = code

/-- The codes without the one that is presented, if that is one of them. -/
def consumeCode (code : String) (hashes : List String) : Option (List String) :=
  if crypto.digest code ∈ hashes then some (hashes.filter (· ≠ crypto.digest code)) else none

/-- `_verify_mfa`: the user as the check leaves it, if it accepts the code. -/
def verifyMfa (userId : Uuid) (user : UserRecord) (code : String) (now : Time) :
    Except HttpException (Option UserRecord) := do
  let secret ← plainSecret crypto userId user
  if authenticatorAccepts crypto secret code now then return some user
  return (consumeCode crypto code user.recoveryCodeHashes).map fun hashes =>
    { user with recoveryCodeHashes := hashes }

end

end Matrades
