import Matrades.Identity.Service

/-!
# The authentication routes

The operations of `apps/api/app/routes/auth.py`, each one transaction: an operation that raises leaves
the tables as they were. `AuthOp` carries what a request brings, the clock and the outcomes of the
draws, of email delivery and of the start of the desktop runtime.
-/

namespace Matrades

open Base

inductive DeliveryMode
  | developmentToken | smtp
  deriving DecidableEq, Repr

structure AuthSettings where
  env : String
  authEmailVerificationEnabled : Bool
  ownerSetupSecret : Option String
  /-- `delivery_mode()`, `none` where it raises. -/
  deliveryMode : Option DeliveryMode
  deriving DecidableEq, Repr

/-- `security_state`. -/
structure SecurityState where
  id : Uuid
  email : String
  emailVerified : Bool
  mfaEnabled : Bool
  deriving DecidableEq, Repr

def UserRecord.securityState (user : UserRecord) (id : Uuid) : SecurityState :=
  ⟨id, user.email, user.emailVerified, user.mfaEnabled⟩

/-- The body of a response, with the session cookie that is set. -/
inductive AuthResponse
  /-- The state of a user, with the tokens that the browser is shown. -/
  | state (user : SecurityState) (enrollmentToken verificationToken cookie : Option String)
  | accepted (token : Option String)
  | enrollment (enrollmentId : Uuid) (setupUri secret : String) (recoveryCodes : List String)
  | enrollmentToken (raw : String)
  | challenge (challengeId : Uuid) (expiresAt : Time)
  | current (user : SecurityState) (emailVerificationRequired : Bool)
  | grant (grantId actionScope : String) (expiresAt : Time)
  | passwordUpdated
  | noContent
  deriving DecidableEq, Repr

/-- What the world answers during one operation: the clock, the draws, whether an email is sent, and
whether the desktop runtime starts. -/
structure AuthEnv where
  now : Time
  draws : Draws
  emailSent : Bool
  mt5Started : Bool

/-- `value.lower().strip()`. -/
def lowerStripped (value : String) : String :=
  String.ofList (strip (value.toList.map Char.toLower))

/-- `_normalized_email`. -/
def normalizedEmail (value : String) : Except HttpException String :=
  let email := lowerStripped value
  let domain := (email.toList.dropWhile (· ≠ '@')).drop 1
  if email.length > 320 ∨ email.toList.count '@' ≠ 1 ∨
      email.toList.any (fun c => c.isWhitespace || c.toNat < 32) = true ∨ '.' ∉ domain then
    .error ⟨422, "valid email required"⟩
  else .ok email

section
variable (crypto : Cryptography) (settings : AuthSettings) (env : AuthEnv)

/-- `_require_email_delivery`. -/
def requireEmailDelivery : Except HttpException DeliveryMode :=
  orError settings.deliveryMode ⟨503, "authentication email is unavailable"⟩

/-- `deliver_auth_link`: a development token is returned, any other is sent; `none` where the email is
unavailable. -/
def deliverAuthLink (raw : String) : Option (Option String) :=
  match settings.deliveryMode with
  | none => none
  | some .developmentToken => some (some raw)
  | some .smtp => if env.emailSent then some none else none

/-- `_check_owner_setup_code`. -/
def checkOwnerSetupCode (code : Option String) : Except HttpException Unit :=
  if settings.env ≠ "production" ∨ settings.authEmailVerificationEnabled = true then .ok ()
  else
    match settings.ownerSetupSecret with
    | none => .error ⟨503, "owner setup code is not configured"⟩
    | some secret =>
      if secret.length < 32 then .error ⟨503, "owner setup code is not configured"⟩
      else
        match code with
        | none => .error ⟨403, "invalid owner setup code"⟩
        | some code =>
          if code = "" ∨ code ≠ secret then .error ⟨403, "invalid owner setup code"⟩ else .ok ()

/-- What `signup` checks of the installation. -/
def checkSignup (setupCode : Option String) : Except HttpException Unit :=
  if settings.authEmailVerificationEnabled then (requireEmailDelivery settings).map fun _ => ()
  else checkOwnerSetupCode settings setupCode

/-- `_signup_available`. -/
def signupAvailable (s : AuthStore) : Bool :=
  s.users.entries.isEmpty && s.signupGate.isNone

/-- A token of the given kind that is issued now. -/
def newToken (userId : Uuid) (kind : AuthTokenKind) (tokenHash : Option String) (lifetime : Time)
    (payload : Option GrantPayload := none) : AuthTokenRecord where
  userId := userId
  kind := kind
  tokenHash := tokenHash
  payload := payload
  expiresAt := env.now + lifetime
  createdAt := env.now

/-- `_issue_mfa_bootstrap`. -/
def issueMfaBootstrap (s : AuthStore) (userId : Uuid) : Except HttpException AuthStore :=
  s.addToken env.draws.tokenId
    (newToken env userId .mfaBootstrap (some (crypto.digest env.draws.raw)) (30 * minute))

/-- `_issue_session`. -/
def issueSession (s : AuthStore) (userId : Uuid) : Except HttpException AuthStore :=
  if env.mt5Started = false then
    .error ⟨503, "MT5 desktop runtime could not be started; session was not created"⟩
  else
    s.addSession env.draws.sessionId
      { userId, tokenHash := crypto.digest env.draws.cookie, expiresAt := env.now + 8 * 60 * minute }

/-- The token that is presented, by its text or by its id. -/
inductive TokenRef
  | raw (token : String)
  | id (tokenId : Uuid)
  deriving DecidableEq, Repr

/-- Does the reference name this token? -/
def TokenRef.matches (crypto : Cryptography) (id : Uuid) (token : AuthTokenRecord) :
    TokenRef → Bool
  | .raw text => token.tokenHash = some (crypto.digest text)
  | .id tokenId => id = tokenId

/-- The token is of this kind, unused and unexpired. -/
def AuthTokenRecord.usable (token : AuthTokenRecord) (kind : AuthTokenKind) (now : Time) : Bool :=
  token.kind = kind && token.usedAt.isNone && decide (now < token.expiresAt)

/-- `_token_user`. -/
def tokenUser (s : AuthStore) (ref : TokenRef) (kind : AuthTokenKind) :
    Except HttpException ((Uuid × AuthTokenRecord) × UserRecord) := do
  let item ← orError
    (s.findToken fun id token => ref.matches crypto id token && token.usable kind env.now)
    ⟨401, "invalid or expired token"⟩
  let user ← orError (s.users.get? item.2.userId) ⟨401, "user no longer exists"⟩
  return (item, user)

/-- When the latest token of the kind was issued to the user. -/
def latestIssue (s : AuthStore) (userId : Uuid) (kind : AuthTokenKind) : Option Time :=
  ((s.tokens.values.filter fun t => t.userId = userId && t.kind = kind).map (·.createdAt)).max?

/-- Was a token of the kind issued to the user within a minute? -/
def issuedRecently (s : AuthStore) (userId : Uuid) (kind : AuthTokenKind) : Bool :=
  match latestIssue s userId kind with
  | none => false
  | some issuedAt => env.now < issuedAt + 60 * second

/-- Issue a token whose text is sent by email; an email that is unavailable takes the token back. -/
def sendToken (s : AuthStore) (userId : Uuid) (kind : AuthTokenKind) (lifetime : Time) :
    Except HttpException (AuthStore × AuthResponse) := do
  let issued ← s.addToken env.draws.tokenId
    (newToken env userId kind (some (crypto.digest env.draws.raw)) lifetime)
  match deliverAuthLink settings env env.draws.raw with
  | none => return (s, .accepted none)
  | some shown => return (issued, .accepted shown)

/-- `signup`. -/
def signup (s : AuthStore) (email password : String) (setupCode : Option String) :
    Except HttpException (AuthStore × AuthResponse) := do
  let email ← normalizedEmail email
  raiseIf (signupAvailable s = false) ⟨409, "signup is closed for this installation"⟩
  checkSignup settings setupCode
  let userId := env.draws.userId
  let user : UserRecord := { email, passwordHash := crypto.hashPassword password env.draws.salt }
  let s := { s.setUser userId user with signupGate := some userId }
  if settings.authEmailVerificationEnabled = false then do
    let s ← issueMfaBootstrap crypto env s userId
    return (s, .state (user.securityState userId) (some env.draws.raw) none none)
  else do
    let s ← s.addToken env.draws.tokenId (newToken env userId .emailVerification
      (some (crypto.digest env.draws.raw)) (24 * 60 * minute))
    let shown ← orError (deliverAuthLink settings env env.draws.raw)
      ⟨503, "verification email could not be sent; retry signup"⟩
    return (s, .state (user.securityState userId) none shown none)

/-- `resend_email_verification`. -/
def resendEmailVerification (s : AuthStore) (email : String) :
    Except HttpException (AuthStore × AuthResponse) := do
  let _ ← requireEmailDelivery settings
  let email ← normalizedEmail email
  match s.findUser (·.email = email) with
  | none => return (s, .accepted none)
  | some (userId, user) =>
    if user.mfaEnabled || issuedRecently env s userId .emailVerification then
      return (s, .accepted none)
    else sendToken crypto settings env s userId .emailVerification (24 * 60 * minute)

/-- `verify_email`. -/
def verifyEmail (s : AuthStore) (token : String) :
    Except HttpException (AuthStore × AuthResponse) := do
  let ((id, item), user) ← tokenUser crypto env s (.raw token) .emailVerification
  let user := { user with emailVerified := true }
  let s := (s.useToken id item env.now).setUser item.userId user
  let s ← issueMfaBootstrap crypto env s item.userId
  return (s, .state (user.securityState item.userId) (some env.draws.raw) none none)

/-- `create_mfa_enrollment`. -/
def createMfaEnrollment (s : AuthStore) (enrollmentToken : Option String) :
    Except HttpException (AuthStore × AuthResponse) := do
  let token ← orError (enrollmentToken.filter (· ≠ "")) ⟨401, "enrollment token required"⟩
  let ((id, item), user) ← tokenUser crypto env s (.raw token) .mfaBootstrap
  let secret := env.draws.secret
  let user := { user with
    mfaSecret := some (crypto.encrypt secret item.userId env.draws.nonce)
    recoveryCodeHashes := recoveryHashes crypto env.draws }
  let s := (s.useToken id item env.now).setUser item.userId user
  let s ← s.addToken env.draws.tokenId (newToken env item.userId .mfaEnrollment none (15 * minute))
  let uri := "otpauth://totp/Matrades:" ++ user.email ++ "?secret=" ++ secret ++ "&issuer=Matrades"
  return (s, .enrollment env.draws.tokenId uri secret (List.ofFn env.draws.codes))

/-- `confirm_mfa_enrollment`. -/
def confirmMfaEnrollment (s : AuthStore) (enrollmentId : Uuid) (code : String) :
    Except HttpException (AuthStore × AuthResponse) := do
  let ((id, item), user) ← tokenUser crypto env s (.id enrollmentId) .mfaEnrollment
  let secret ← plainSecret crypto item.userId user
  raiseIf (user.mfaSecret.getD "" = "" ∨ crypto.totp secret (env.now / second : ℕ) ≠ code)
    ⟨401, "invalid authenticator code"⟩
  let user := { user with mfaEnabled := true }
  let s := (s.useToken id item env.now).setUser item.userId user
  let s ← issueSession crypto env s item.userId
  return (s, .state (user.securityState item.userId) none none (some env.draws.cookie))

/-- `begin_session`. -/
def beginSession (s : AuthStore) (email password : String) :
    Except HttpException (AuthStore × AuthResponse) := do
  let (userId, user) ← orError (s.findUser (·.email = lowerStripped email))
    ⟨401, "invalid credentials"⟩
  raiseIf (crypto.verifyPassword password user.passwordHash = false) ⟨401, "invalid credentials"⟩
  raiseIf (settings.authEmailVerificationEnabled = true ∧ user.emailVerified = false)
    ⟨403, "email verification and MFA are required"⟩
  if user.mfaEnabled = false then do
    raiseIf (settings.authEmailVerificationEnabled = true)
      ⟨403, "email verification and MFA are required"⟩
    let s ← issueMfaBootstrap crypto env s userId
    return (s, .enrollmentToken env.draws.raw)
  else do
    let challenge := newToken env userId .loginMfa none (5 * minute)
    let s ← s.addToken env.draws.tokenId challenge
    return (s, .challenge env.draws.tokenId challenge.expiresAt)

/-- `verify_mfa_challenge`. -/
def verifyMfaChallenge (s : AuthStore) (challengeId : Uuid) (code : String) :
    Except HttpException (AuthStore × AuthResponse) := do
  let ((id, item), user) ← tokenUser crypto env s (.id challengeId) .loginMfa
  let verified ← verifyMfa crypto item.userId user code env.now
  let user ← orError verified ⟨401, "invalid MFA or recovery code"⟩
  let s := (s.useToken id item env.now).setUser item.userId user
  let s ← issueSession crypto env s item.userId
  return (s, .state (user.securityState item.userId) none none (some env.draws.cookie))

/-- The session of a cookie, if it is live. Every authenticated route looks it up in this way
(`current_actor`). -/
def liveSession (s : AuthStore) (cookie : Option String) :
    Except HttpException (Uuid × SessionRecord) := do
  let cookie ← orError (cookie.filter (· ≠ "")) ⟨401, "session required"⟩
  orError (s.findSession fun session => session.tokenHash = crypto.digest cookie &&
    session.revokedAt.isNone && decide (env.now < session.expiresAt)) ⟨401, "session expired"⟩

/-- `verify_step_up`. -/
def verifyStepUp (s : AuthStore) (actionScope code : String) (cookie : Option String) :
    Except HttpException (AuthStore × AuthResponse) := do
  let (id, session) ← liveSession crypto env s cookie
  let user ← orError (s.users.get? session.userId) ⟨401, "invalid MFA or recovery code"⟩
  let verified ← verifyMfa crypto session.userId user code env.now
  let user ← orError verified ⟨401, "invalid MFA or recovery code"⟩
  let s := (s.setUser session.userId user).setSession id { session with stepUpAt := some env.now }
  let grant := newToken env session.userId .stepUp (some (crypto.digest env.draws.raw)) (10 * minute)
    (some ⟨actionScope, id⟩)
  let s ← s.addToken env.draws.tokenId grant
  return (s, .grant env.draws.raw actionScope grant.expiresAt)

/-- `me`. -/
def me (s : AuthStore) (cookie : Option String) :
    Except HttpException (AuthStore × AuthResponse) := do
  let (_, session) ← liveSession crypto env s cookie
  let user ← orError (s.users.get? session.userId) ⟨401, "user unavailable"⟩
  return (s, .current (user.securityState session.userId) settings.authEmailVerificationEnabled)

/-- `revoke_session`. -/
def revokeSession (s : AuthStore) (cookie : Option String) :
    Except HttpException (AuthStore × AuthResponse) :=
  match cookie.filter (· ≠ "") with
  | none => .ok (s, .noContent)
  | some cookie =>
    match s.findSession (·.tokenHash = crypto.digest cookie) with
    | none => .ok (s, .noContent)
    | some (id, session) =>
      .ok (s.setSession id { session with revokedAt := some env.now }, .noContent)

/-- `start_password_recovery`. -/
def startPasswordRecovery (s : AuthStore) (email : String) :
    Except HttpException (AuthStore × AuthResponse) := do
  let _ ← requireEmailDelivery settings
  let email ← normalizedEmail email
  match s.findUser (·.email = email) with
  | none => return (s, .accepted none)
  | some (userId, _) =>
    if issuedRecently env s userId .passwordRecovery then return (s, .accepted none)
    else sendToken crypto settings env s userId .passwordRecovery (30 * minute)

/-- `complete_password_recovery`. -/
def completePasswordRecovery (s : AuthStore) (token newPassword : String) :
    Except HttpException (AuthStore × AuthResponse) := do
  let ((id, item), user) ← tokenUser crypto env s (.raw token) .passwordRecovery
  let user := { user with passwordHash := crypto.hashPassword newPassword env.draws.salt }
  let s := (s.useToken id item env.now).setUser item.userId user
  return (s.revokeSessions item.userId env.now, .passwordUpdated)

/-- A request to the authentication routes. -/
inductive AuthRequest
  | signup (email password : String) (setupCode : Option String)
  | resendEmailVerification (email : String)
  | verifyEmail (token : String)
  | createMfaEnrollment (enrollmentToken : Option String)
  | confirmMfaEnrollment (enrollmentId : Uuid) (code : String)
  | beginSession (email password : String)
  | verifyMfaChallenge (challengeId : Uuid) (code : String)
  | verifyStepUp (actionScope code : String) (cookie : Option String)
  | me (cookie : Option String)
  | revokeSession (cookie : Option String)
  | startPasswordRecovery (email : String)
  | completePasswordRecovery (token newPassword : String)
  deriving DecidableEq, Repr

/-- The operation of a request. -/
def respond (s : AuthStore) : AuthRequest → Except HttpException (AuthStore × AuthResponse)
  | .signup email password setupCode => signup crypto settings env s email password setupCode
  | .resendEmailVerification email => resendEmailVerification crypto settings env s email
  | .verifyEmail token => verifyEmail crypto env s token
  | .createMfaEnrollment enrollmentToken => createMfaEnrollment crypto env s enrollmentToken
  | .confirmMfaEnrollment enrollmentId code => confirmMfaEnrollment crypto env s enrollmentId code
  | .beginSession email password => beginSession crypto settings env s email password
  | .verifyMfaChallenge challengeId code => verifyMfaChallenge crypto env s challengeId code
  | .verifyStepUp actionScope code cookie => verifyStepUp crypto env s actionScope code cookie
  | .me cookie => me crypto settings env s cookie
  | .revokeSession cookie => revokeSession crypto env s cookie
  | .startPasswordRecovery email => startPasswordRecovery crypto settings env s email
  | .completePasswordRecovery token newPassword =>
    completePasswordRecovery crypto env s token newPassword

end

/-- A request with what the world answers while it is served. -/
structure AuthOp where
  request : AuthRequest
  env : AuthEnv

/-- One operation; one that raises is rolled back. -/
def authStep (crypto : Cryptography) (settings : AuthSettings) (s : AuthStore) (op : AuthOp) :
    AuthStore :=
  match respond crypto settings op.env s op.request with
  | .ok (s', _) => s'
  | .error _ => s

end Matrades
