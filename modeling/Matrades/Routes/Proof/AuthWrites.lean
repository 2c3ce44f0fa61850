import Matrades.Routes.Auth

/-!
# What the authentication operations write

`Writes s s'`: the rows that were there stay, tokens change only in that they are used and
sessions that are revoked stay so. Every operation writes like that (`authStep_writes`). A token that
an operation accepts is usable (`tokenUser_ok`), and so is a session (`liveSession_ok`). An operation
either redeems a token (`Redeems`), or steps a session up, or creates the first user, or writes no user
(`KeepsUsers`).
-/

namespace Matrades

open Base

/-! ## Rows stay -/

/-- What an operation may do to the tokens and sessions that are there. -/
structure Writes (s s' : AuthStore) : Prop where
  tokens : ∀ id token, s.tokens.get? id = some token → ∃ usedAt,
    s'.tokens.get? id = some { token with usedAt } ∧ (token.usedAt.isSome → usedAt.isSome)
  sessions : ∀ id session, s.sessions.get? id = some session → ∃ session',
    s'.sessions.get? id = some session' ∧ session'.userId = session.userId ∧
      (session.revokedAt.isSome → session'.revokedAt.isSome)

theorem Writes.refl (s : AuthStore) : Writes s s where
  tokens _ token h := ⟨token.usedAt, h, id⟩
  sessions _ session h := ⟨session, h, rfl, id⟩

theorem Writes.trans {s s' s'' : AuthStore} (h : Writes s s') (h' : Writes s' s'') :
    Writes s s'' where
  tokens id token hget := by
    obtain ⟨usedAt, hget', hused⟩ := h.tokens id token hget
    obtain ⟨usedAt', hget'', hused'⟩ := h'.tokens id _ hget'
    exact ⟨usedAt', hget'', fun hsome => hused' (hused hsome)⟩
  sessions id session hget := by
    obtain ⟨session', hget', huser, hrevoked⟩ := h.sessions id session hget
    obtain ⟨session'', hget'', huser', hrevoked'⟩ := h'.sessions id session' hget'
    exact ⟨session'', hget'', huser'.trans huser, fun hsome => hrevoked' (hrevoked hsome)⟩

section
variable {s s' : AuthStore}

/-- Writing users changes no token and no session. -/
theorem writes_of_eq (htokens : s'.tokens = s.tokens) (hsessions : s'.sessions = s.sessions) :
    Writes s s' where
  tokens _ token h := ⟨token.usedAt, by rw [htokens]; exact h, id⟩
  sessions _ session h := ⟨session, by rw [hsessions]; exact h, rfl, id⟩

theorem addToken_ok {tokenId : Uuid} {token : AuthTokenRecord}
    (h : s.addToken tokenId token = .ok s') :
    s.tokens.get? tokenId = none ∧ s' = { s with tokens := s.tokens.set tokenId token } := by
  obtain ⟨hnew, h⟩ := ok_of_guard h
  rw [not_or, Option.not_isSome_iff_eq_none] at hnew
  cases h
  exact ⟨hnew.1, rfl⟩

/-- A row that is there stays when another one is inserted. -/
theorem get?_set_of_new {α : Type} {d : Dict Uuid α} {new : Uuid} (row : α)
    (hnew : d.get? new = none) {other : Uuid} {row' : α} (hget : d.get? other = some row') :
    (d.set new row).get? other = some row' := by
  have hne : other ≠ new := by
    rintro rfl
    rw [hnew] at hget
    cases hget
  rw [Dict.get?_set_ne _ _ hne]
  exact hget

theorem addToken_writes {tokenId : Uuid} {token : AuthTokenRecord}
    (h : s.addToken tokenId token = .ok s') : Writes s s' := by
  obtain ⟨hnew, rfl⟩ := addToken_ok h
  exact ⟨fun _ token' hget => ⟨token'.usedAt, get?_set_of_new token hnew hget, id⟩,
    fun _ session hget => ⟨session, hget, rfl, id⟩⟩

theorem addSession_ok {sessionId : Uuid} {session : SessionRecord}
    (h : s.addSession sessionId session = .ok s') :
    s.sessions.get? sessionId = none ∧
      s' = { s with sessions := s.sessions.set sessionId session } := by
  obtain ⟨hnew, h⟩ := ok_of_guard h
  rw [not_or, Option.not_isSome_iff_eq_none] at hnew
  cases h
  exact ⟨hnew.1, rfl⟩

theorem addSession_writes {sessionId : Uuid} {session : SessionRecord}
    (h : s.addSession sessionId session = .ok s') : Writes s s' := by
  obtain ⟨hnew, rfl⟩ := addSession_ok h
  exact ⟨fun _ token hget => ⟨token.usedAt, hget, id⟩,
    fun _ session' hget => ⟨session', get?_set_of_new session hnew hget, rfl, id⟩⟩

theorem setUser_writes (userId : Uuid) (user : UserRecord) : Writes s (s.setUser userId user) :=
  writes_of_eq rfl rfl

theorem useToken_writes {tokenId : Uuid} {token : AuthTokenRecord}
    (h : s.tokens.get? tokenId = some token) (now : Time) :
    Writes s (s.useToken tokenId token now) := by
  refine ⟨fun other token' hget => ?_, fun _ session hget => ⟨session, hget, rfl, id⟩⟩
  show ∃ usedAt, (s.tokens.set tokenId { token with usedAt := some now }).get? other = _ ∧ _
  by_cases heq : other = tokenId
  · subst heq
    rw [h] at hget
    cases hget
    exact ⟨some now, Dict.get?_set_self .., fun _ => rfl⟩
  · exact ⟨token'.usedAt, by rw [Dict.get?_set_ne _ _ heq]; exact hget, id⟩

theorem setSession_writes {sessionId : Uuid} {session session' : SessionRecord}
    (h : s.sessions.get? sessionId = some session) (huser : session'.userId = session.userId)
    (hrevoked : session.revokedAt.isSome → session'.revokedAt.isSome) :
    Writes s (s.setSession sessionId session') := by
  refine ⟨fun _ token hget => ⟨token.usedAt, hget, id⟩, fun other other' hget => ?_⟩
  show ∃ session'', (s.sessions.set sessionId session').get? other = some session'' ∧ _
  by_cases heq : other = sessionId
  · subst heq
    rw [h] at hget
    cases hget
    exact ⟨session', Dict.get?_set_self .., huser, hrevoked⟩
  · exact ⟨other', by rw [Dict.get?_set_ne _ _ heq]; exact hget, rfl, id⟩

theorem revokeSessions_writes (userId : Uuid) (now : Time) :
    Writes s (s.revokeSessions userId now) := by
  refine ⟨fun _ token hget => ⟨token.usedAt, hget, id⟩, fun other session hget => ?_⟩
  refine ⟨_, by rw [AuthStore.revokeSessions, Dict.get?_map, hget]; rfl, ?_⟩
  dsimp only
  split
  · exact ⟨rfl, fun _ => rfl⟩
  · exact ⟨rfl, id⟩

end

/-! ## What an operation accepts -/

section
variable {crypto : Cryptography} {settings : AuthSettings} {env : AuthEnv} {s s' : AuthStore}

theorem usable_iff {token : AuthTokenRecord} {kind : AuthTokenKind} {now : Time} :
    token.usable kind now = true ↔
      token.kind = kind ∧ token.usedAt = none ∧ now < token.expiresAt := by
  simp [AuthTokenRecord.usable, and_assoc]

/-- The token that is accepted is there, unused and unexpired, and its user is there. -/
theorem tokenUser_ok {ref : TokenRef} {kind : AuthTokenKind} {id : Uuid} {item : AuthTokenRecord}
    {user : UserRecord} (h : tokenUser crypto env s ref kind = .ok ((id, item), user)) :
    s.tokens.get? id = some item ∧ ref.matches crypto id item = true ∧
      item.usable kind env.now = true ∧ s.users.get? item.userId = some user := by
  obtain ⟨⟨id', item'⟩, hfind, h⟩ := ok_of_bind h
  obtain ⟨user', huser, h⟩ := ok_of_bind h
  cases h
  rw [orError_eq_ok] at hfind huser
  have hmatch := List.find?_some hfind
  rw [Bool.and_eq_true] at hmatch
  exact ⟨Dict.get?_of_mem (List.mem_of_find?_eq_some hfind), hmatch.1, hmatch.2, huser⟩

/-- A challenge or an enrolment is looked up by its id. -/
theorem tokenUser_id {tokenId : Uuid} {kind : AuthTokenKind} {id : Uuid} {item : AuthTokenRecord}
    {user : UserRecord} (h : tokenUser crypto env s (.id tokenId) kind = .ok ((id, item), user)) :
    id = tokenId := by
  simpa [TokenRef.matches] using (tokenUser_ok h).2.1

/-- The session that is accepted is there, not revoked and unexpired. -/
theorem liveSession_ok {cookie : Option String} {id : Uuid} {session : SessionRecord}
    (h : liveSession crypto env s cookie = .ok (id, session)) :
    s.sessions.get? id = some session ∧ session.revokedAt = none ∧ env.now < session.expiresAt := by
  obtain ⟨text, -, h⟩ := ok_of_bind h
  rw [orError_eq_ok] at h
  have hlive := List.find?_some h
  simp only [Bool.and_eq_true, decide_eq_true_eq, Option.isNone_iff_eq_none] at hlive
  exact ⟨Dict.get?_of_mem (List.mem_of_find?_eq_some h), hlive.1.2, hlive.2⟩

theorem issueSession_writes {userId : Uuid} (h : issueSession crypto env s userId = .ok s') :
    Writes s s' := addSession_writes (ok_of_guard h).2

/-- The issue of a session writes no user. -/
theorem issueSession_users {userId : Uuid} (h : issueSession crypto env s userId = .ok s') :
    s'.users = s.users := by
  obtain ⟨-, rfl⟩ := addSession_ok (ok_of_guard h).2
  rfl

theorem addToken_users {tokenId : Uuid} {token : AuthTokenRecord}
    (h : s.addToken tokenId token = .ok s') : s'.users = s.users := by
  obtain ⟨-, rfl⟩ := addToken_ok h
  rfl

theorem sendToken_ok {userId : Uuid} {kind : AuthTokenKind} {lifetime : Time} {r : AuthResponse}
    (h : sendToken crypto settings env s userId kind lifetime = .ok (s', r)) :
    s' = s ∨ ∃ token, s.addToken env.draws.tokenId token = .ok s' := by
  obtain ⟨issued, hissued, h⟩ := ok_of_bind h
  split at h
  · cases h
    exact .inl rfl
  · cases h
    exact .inr ⟨_, hissued⟩

/-! ## The shapes of an operation -/

/-- The operation redeems a token: it uses the token, replaces the token's user as `change` says, and
writes nothing else that was there. -/
def Redeems (crypto : Cryptography) (env : AuthEnv) (s s' : AuthStore) (ref : TokenRef)
    (kind : AuthTokenKind) (change : Uuid → UserRecord → UserRecord → Prop) : Prop :=
  ∃ id item user user', tokenUser crypto env s ref kind = .ok ((id, item), user) ∧
    change item.userId user user' ∧ s'.users = s.users.set item.userId user' ∧
    Writes ((s.useToken id item env.now).setUser item.userId user') s'

theorem Redeems.writes {ref : TokenRef} {kind : AuthTokenKind}
    {change : Uuid → UserRecord → UserRecord → Prop}
    (h : Redeems crypto env s s' ref kind change) : Writes s s' := by
  obtain ⟨id, item, user, user', htoken, -, -, hrest⟩ := h
  have huse : Writes s (s.useToken id item env.now) :=
    useToken_writes (tokenUser_ok htoken).1 env.now
  exact (huse.trans (setUser_writes item.userId user')).trans hrest

theorem verifyEmail_redeems {token : String} {r : AuthResponse}
    (h : verifyEmail crypto env s token = .ok (s', r)) :
    Redeems crypto env s s' (.raw token) .emailVerification
      fun _ user user' => user' = { user with emailVerified := true } := by
  obtain ⟨⟨⟨id, item⟩, user⟩, htoken, h⟩ := ok_of_bind h
  obtain ⟨issued, hissued, h⟩ := ok_of_bind h
  cases h
  exact ⟨id, item, user, _, htoken, rfl, addToken_users hissued, addToken_writes hissued⟩

theorem createMfaEnrollment_redeems {token : Option String} {r : AuthResponse}
    (h : createMfaEnrollment crypto env s token = .ok (s', r)) :
    ∃ text ∈ token, Redeems crypto env s s' (.raw text) .mfaBootstrap fun userId user user' =>
      user' = { user with
        mfaSecret := some (crypto.encrypt env.draws.secret userId env.draws.nonce)
        recoveryCodeHashes := recoveryHashes crypto env.draws } := by
  obtain ⟨text, htext, h⟩ := ok_of_bind h
  rw [orError_eq_ok, Option.filter_eq_some_iff] at htext
  obtain ⟨⟨⟨id, item⟩, user⟩, htoken, h⟩ := ok_of_bind h
  obtain ⟨issued, hissued, h⟩ := ok_of_bind h
  cases h
  exact ⟨text, htext.1, id, item, user, _, htoken, rfl, addToken_users hissued,
    addToken_writes hissued⟩

theorem confirmMfaEnrollment_redeems {enrollmentId : Uuid} {code : String} {r : AuthResponse}
    (h : confirmMfaEnrollment crypto env s enrollmentId code = .ok (s', r)) :
    Redeems crypto env s s' (.id enrollmentId) .mfaEnrollment
      fun _ user user' => user' = { user with mfaEnabled := true } := by
  obtain ⟨⟨⟨id, item⟩, user⟩, htoken, h⟩ := ok_of_bind h
  obtain ⟨secret, -, h⟩ := ok_of_bind h
  obtain ⟨-, h⟩ := ok_of_raiseIf h
  obtain ⟨issued, hissued, h⟩ := ok_of_bind h
  cases h
  exact ⟨id, item, user, _, htoken, rfl, issueSession_users hissued, issueSession_writes hissued⟩

theorem verifyMfaChallenge_redeems {challengeId : Uuid} {code : String} {r : AuthResponse}
    (h : verifyMfaChallenge crypto env s challengeId code = .ok (s', r)) :
    Redeems crypto env s s' (.id challengeId) .loginMfa
      fun userId user user' => verifyMfa crypto userId user code env.now = .ok (some user') := by
  obtain ⟨⟨⟨id, item⟩, user⟩, htoken, h⟩ := ok_of_bind h
  obtain ⟨verified, hverified, h⟩ := ok_of_bind h
  obtain ⟨user', huser', h⟩ := ok_of_bind h
  rw [orError_eq_ok] at huser'
  rw [huser'] at hverified
  obtain ⟨issued, hissued, h⟩ := ok_of_bind h
  cases h
  exact ⟨id, item, user, user', htoken, hverified, issueSession_users hissued,
    issueSession_writes hissued⟩

theorem completePasswordRecovery_redeems {token newPassword : String} {r : AuthResponse}
    (h : completePasswordRecovery crypto env s token newPassword = .ok (s', r)) :
    Redeems crypto env s s' (.raw token) .passwordRecovery fun _ user user' =>
      user' = { user with passwordHash := crypto.hashPassword newPassword env.draws.salt } := by
  obtain ⟨⟨⟨id, item⟩, user⟩, htoken, h⟩ := ok_of_bind h
  cases h
  exact ⟨id, item, user, _, htoken, rfl, rfl, revokeSessions_writes ..⟩

/-- A step-up writes the user that its check leaves, and marks the session. -/
theorem verifyStepUp_ok {actionScope code : String} {cookie : Option String} {r : AuthResponse}
    (h : verifyStepUp crypto env s actionScope code cookie = .ok (s', r)) :
    ∃ id session user user', liveSession crypto env s cookie = .ok (id, session) ∧
      s.users.get? session.userId = some user ∧
      verifyMfa crypto session.userId user code env.now = .ok (some user') ∧
      s'.users = s.users.set session.userId user' ∧ Writes s s' := by
  obtain ⟨⟨id, session⟩, hlive, h⟩ := ok_of_bind h
  obtain ⟨user, huser, h⟩ := ok_of_bind h
  obtain ⟨verified, hverified, h⟩ := ok_of_bind h
  obtain ⟨user', huser', h⟩ := ok_of_bind h
  rw [orError_eq_ok] at huser huser'
  rw [huser'] at hverified
  obtain ⟨issued, hissued, h⟩ := ok_of_bind h
  cases h
  refine ⟨id, session, user, user', hlive, huser, hverified, addToken_users hissued, ?_⟩
  have hmarked : Writes (s.setUser session.userId user')
      ((s.setUser session.userId user').setSession id
        { session with stepUpAt := some env.now }) :=
    setSession_writes (liveSession_ok hlive).1 rfl (fun hrevoked => hrevoked)
  exact ((setUser_writes session.userId user').trans hmarked).trans (addToken_writes hissued)

/-- Signup is for an installation without users. -/
theorem signup_ok {email password : String} {setupCode : Option String} {r : AuthResponse}
    (h : signup crypto settings env s email password setupCode = .ok (s', r)) :
    s.users.entries = [] ∧ Writes s s' := by
  obtain ⟨email', -, h⟩ := ok_of_bind h
  obtain ⟨hopen, h⟩ := ok_of_raiseIf h
  obtain ⟨-, -, h⟩ := ok_of_bind h
  have hempty : s.users.entries = [] := by
    rw [Bool.not_eq_false, signupAvailable, Bool.and_eq_true, List.isEmpty_iff] at hopen
    exact hopen.1
  refine ⟨hempty, ?_⟩
  let user : UserRecord :=
    { email := email', passwordHash := crypto.hashPassword password env.draws.salt }
  let opened : AuthStore :=
    { s.setUser env.draws.userId user with signupGate := some env.draws.userId }
  have hopened : Writes s opened := writes_of_eq rfl rfl
  split at h
  · obtain ⟨issued, hissued, h⟩ := ok_of_bind h
    cases h
    have hadded : Writes opened s' := addToken_writes hissued
    exact hopened.trans hadded
  · obtain ⟨issued, hissued, h⟩ := ok_of_bind h
    obtain ⟨shown, -, h⟩ := ok_of_bind h
    cases h
    have hadded : Writes opened s' := addToken_writes hissued
    exact hopened.trans hadded

/-- The operation writes no user. -/
def KeepsUsers (s s' : AuthStore) : Prop := s'.users = s.users ∧ Writes s s'

theorem KeepsUsers.refl (s : AuthStore) : KeepsUsers s s := ⟨rfl, .refl s⟩

theorem keepsUsers_addToken {tokenId : Uuid} {token : AuthTokenRecord}
    (h : s.addToken tokenId token = .ok s') : KeepsUsers s s' :=
  ⟨addToken_users h, addToken_writes h⟩

theorem keepsUsers_sendToken {userId : Uuid} {kind : AuthTokenKind} {lifetime : Time}
    {r : AuthResponse} (h : sendToken crypto settings env s userId kind lifetime = .ok (s', r)) :
    KeepsUsers s s' := by
  rcases sendToken_ok h with rfl | ⟨token, hadded⟩
  · exact .refl s'
  · exact keepsUsers_addToken hadded

theorem resendEmailVerification_keepsUsers {email : String} {r : AuthResponse}
    (h : resendEmailVerification crypto settings env s email = .ok (s', r)) : KeepsUsers s s' := by
  obtain ⟨-, -, h⟩ := ok_of_bind h
  obtain ⟨email', -, h⟩ := ok_of_bind h
  split at h
  · cases h
    exact .refl s
  · split at h
    · cases h
      exact .refl s
    · exact keepsUsers_sendToken h

theorem startPasswordRecovery_keepsUsers {email : String} {r : AuthResponse}
    (h : startPasswordRecovery crypto settings env s email = .ok (s', r)) : KeepsUsers s s' := by
  obtain ⟨-, -, h⟩ := ok_of_bind h
  obtain ⟨email', -, h⟩ := ok_of_bind h
  split at h
  · cases h
    exact .refl s
  · split at h
    · cases h
      exact .refl s
    · exact keepsUsers_sendToken h

theorem beginSession_keepsUsers {email password : String} {r : AuthResponse}
    (h : beginSession crypto settings env s email password = .ok (s', r)) : KeepsUsers s s' := by
  obtain ⟨⟨userId, user⟩, -, h⟩ := ok_of_bind h
  obtain ⟨-, h⟩ := ok_of_raiseIf h
  obtain ⟨-, h⟩ := ok_of_raiseIf h
  split at h
  · obtain ⟨-, h⟩ := ok_of_raiseIf h
    obtain ⟨issued, hissued, h⟩ := ok_of_bind h
    cases h
    exact keepsUsers_addToken hissued
  · obtain ⟨issued, hissued, h⟩ := ok_of_bind h
    cases h
    exact keepsUsers_addToken hissued

theorem me_ok {cookie : Option String} {r : AuthResponse}
    (h : me crypto settings env s cookie = .ok (s', r)) :
    s' = s ∧ ∃ id session, liveSession crypto env s cookie = .ok (id, session) := by
  obtain ⟨⟨id, session⟩, hlive, h⟩ := ok_of_bind h
  obtain ⟨user, -, h⟩ := ok_of_bind h
  cases h
  exact ⟨rfl, id, session, hlive⟩

theorem revokeSession_keepsUsers {cookie : Option String} {r : AuthResponse}
    (h : revokeSession crypto env s cookie = .ok (s', r)) : KeepsUsers s s' := by
  unfold revokeSession at h
  split at h
  · cases h
    exact .refl s
  · split at h
    · cases h
      exact .refl s
    · rename_i hfind
      cases h
      exact ⟨rfl, setSession_writes (Dict.get?_of_mem (List.mem_of_find?_eq_some hfind)) rfl
        fun _ => rfl⟩

/-- **Rows stay**: what any operation may do to the tokens and sessions that are there. -/
theorem respond_writes {request : AuthRequest} {r : AuthResponse}
    (h : respond crypto settings env s request = .ok (s', r)) : Writes s s' := by
  cases request with
  | signup => exact (signup_ok h).2
  | resendEmailVerification => exact (resendEmailVerification_keepsUsers h).2
  | verifyEmail => exact (verifyEmail_redeems h).writes
  | createMfaEnrollment =>
    obtain ⟨_, _, hredeems⟩ := createMfaEnrollment_redeems h
    exact hredeems.writes
  | confirmMfaEnrollment => exact (confirmMfaEnrollment_redeems h).writes
  | beginSession => exact (beginSession_keepsUsers h).2
  | verifyMfaChallenge => exact (verifyMfaChallenge_redeems h).writes
  | verifyStepUp =>
    obtain ⟨_, _, _, _, _, _, _, _, hwrites⟩ := verifyStepUp_ok h
    exact hwrites
  | me =>
    rw [(me_ok h).1]
    exact .refl s
  | revokeSession => exact (revokeSession_keepsUsers h).2
  | startPasswordRecovery => exact (startPasswordRecovery_keepsUsers h).2
  | completePasswordRecovery => exact (completePasswordRecovery_redeems h).writes

end

theorem authStep_writes (crypto : Cryptography) (settings : AuthSettings) (s : AuthStore)
    (op : AuthOp) : Writes s (authStep crypto settings s op) := by
  unfold authStep
  split
  · rename_i h
    exact respond_writes h
  · exact .refl s

end Matrades
