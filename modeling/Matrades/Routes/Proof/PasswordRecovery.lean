import Matrades.Routes.Proof.SecondFactor

/-!
# What a password recovery cuts off

A completed recovery uses its token and revokes the user's sessions, and both stay so
(`CutOff.step`). It leaves the other tokens of the user: a login challenge that was issued before creates a
session afterwards (`challenge_survives`). Where every other challenge and recovery token of the user
is used or has expired by then (`NoneOutstanding`), nothing that was issued to the user before is
accepted again (`recovery_cuts_off`).
-/

namespace Matrades

open Base

/-- What a request is let in by. -/
inductive Credential
  | token (id : Uuid)
  | session (id : Uuid)
  deriving DecidableEq, Repr

section
variable (crypto : Cryptography) (settings : AuthSettings)

/-- The challenge, recovery token or session that a request is accepted with: that by which it creates
a session, resets the password, or acts in a session. -/
def acceptedCredential (s : AuthStore) (op : AuthOp) : Option Credential :=
  if (respond crypto settings op.env s op.request).toBool = false then none
  else
    match op.request with
    | .verifyMfaChallenge challengeId _ =>
      (tokenUser crypto op.env s (.id challengeId) .loginMfa).toOption.map fun found =>
        .token found.1.1
    | .completePasswordRecovery token _ =>
      (tokenUser crypto op.env s (.raw token) .passwordRecovery).toOption.map fun found =>
        .token found.1.1
    | .verifyStepUp _ _ cookie | .me cookie =>
      (liveSession crypto op.env s cookie).toOption.map fun found => .session found.1
    | _ => none

/-- The credential is the user's, in these tables. -/
def IssuedTo (s : AuthStore) (userId : Uuid) : Credential → Prop
  | .token id => ∃ token, s.tokens.get? id = some token ∧ token.userId = userId
  | .session id => ∃ session, s.sessions.get? id = some session ∧ session.userId = userId

/-- The token that a completion of a recovery brings. -/
def AuthRequest.recoveryToken? : AuthRequest → Option String
  | .completePasswordRecovery token _ => some token
  | _ => none

/-- **Recovery cuts off**: once a step completes a recovery, no credential that the user had before it
is accepted in the steps that follow. -/
def CutsOff (s : AuthStore) (op : AuthOp) (rest : List AuthOp) : Prop :=
  ∀ text ∈ op.request.recoveryToken?, ∀ id item user,
    tokenUser crypto op.env s (.raw text) .passwordRecovery = .ok ((id, item), user) →
      Along (authStep crypto settings)
        (fun s' op' => ∀ c ∈ acceptedCredential crypto settings s' op',
          ¬IssuedTo s item.userId c)
        (authStep crypto settings s op) rest

/-- **No other token is outstanding**: when a step completes a recovery, every other login challenge and
recovery token of its user is used, or has expired by the clock of the steps that follow. -/
def NoneOutstanding (s : AuthStore) (op : AuthOp) (rest : List AuthOp) : Prop :=
  ∀ text ∈ op.request.recoveryToken?, ∀ e ∈ s.tokens.entries,
    e.2.tokenHash = some (crypto.digest text) → e.2.usable .passwordRecovery op.env.now = true →
      ∀ other ∈ s.tokens.entries, other.2.userId = e.2.userId →
        other.2.kind = .loginMfa ∨ other.2.kind = .passwordRecovery →
          other.1 = e.1 ∨ other.2.usedAt.isSome = true ∨
            ∀ op' ∈ rest, other.2.expiresAt ≤ op'.env.now

instance (s : AuthStore) (op : AuthOp) (rest : List AuthOp) :
    Decidable (NoneOutstanding crypto s op rest) :=
  inferInstanceAs (Decidable (∀ text ∈ op.request.recoveryToken?, ∀ e ∈ s.tokens.entries,
    e.2.tokenHash = some (crypto.digest text) → e.2.usable .passwordRecovery op.env.now = true →
      ∀ other ∈ s.tokens.entries, other.2.userId = e.2.userId →
        other.2.kind = .loginMfa ∨ other.2.kind = .passwordRecovery →
          other.1 = e.1 ∨ other.2.usedAt.isSome = true ∨
            ∀ op' ∈ rest, other.2.expiresAt ≤ op'.env.now))

end

section
variable {crypto : Cryptography} {settings : AuthSettings}

/-! ## Cut off -/

/-- What the user had in `old` is used, expired for the steps `rest`, or revoked. -/
structure CutOff (old : AuthStore) (userId : Uuid) (rest : List AuthOp) (s : AuthStore) : Prop where
  tokens : ∀ id token, old.tokens.get? id = some token → token.userId = userId → ∃ usedAt,
    s.tokens.get? id = some { token with usedAt } ∧
      (token.kind = .loginMfa ∨ token.kind = .passwordRecovery →
        usedAt.isSome = true ∨ ∀ op ∈ rest, token.expiresAt ≤ op.env.now)
  sessions : ∀ id session, old.sessions.get? id = some session → session.userId = userId →
    ∃ session', s.sessions.get? id = some session' ∧ session'.revokedAt.isSome = true

variable {old s s' : AuthStore} {userId : Uuid} {rest : List AuthOp}

theorem CutOff.step (h : CutOff old userId rest s) (hwrites : Writes s s') :
    CutOff old userId rest s' where
  tokens id token hget huser := by
    obtain ⟨usedAt, hs, hout⟩ := h.tokens id token hget huser
    obtain ⟨usedAt', hs', hused⟩ := hwrites.tokens id _ hs
    exact ⟨usedAt', hs', fun hkind => (hout hkind).imp_left hused⟩
  sessions id session hget huser := by
    obtain ⟨session', hs, hrevoked⟩ := h.sessions id session hget huser
    obtain ⟨session'', hs', -, hrevoked'⟩ := hwrites.sessions id session' hs
    exact ⟨session'', hs', hrevoked' hrevoked⟩

/-- A token that is cut off is not accepted. -/
theorem CutOff.rejects_token (h : CutOff old userId rest s) {op : AuthOp} (hmem : op ∈ rest)
    {ref : TokenRef} {kind : AuthTokenKind} (hkind : kind = .loginMfa ∨ kind = .passwordRecovery)
    {id : Uuid} {item : AuthTokenRecord} {user : UserRecord}
    (haccepted : tokenUser crypto op.env s ref kind = .ok ((id, item), user)) :
    ¬IssuedTo old userId (.token id) := by
  rintro ⟨token, hget, huser⟩
  obtain ⟨hitem, -, husable, -⟩ := tokenUser_ok haccepted
  obtain ⟨hsame, hunused, hlive⟩ := usable_iff.1 husable
  obtain ⟨usedAt, hs, hout⟩ := h.tokens id token hget huser
  rw [hitem] at hs
  cases hs
  have hof : token.kind = .loginMfa ∨ token.kind = .passwordRecovery := by
    rw [show token.kind = kind from hsame]
    exact hkind
  rcases hout hof with hused | hexpired
  · rw [show usedAt = none from hunused] at hused
    cases hused
  · exact absurd hlive (Nat.not_lt.2 (hexpired op hmem))

/-- A session that is cut off is not accepted. -/
theorem CutOff.rejects_session (h : CutOff old userId rest s) {env : AuthEnv}
    {cookie : Option String} {id : Uuid} {session : SessionRecord}
    (haccepted : liveSession crypto env s cookie = .ok (id, session)) :
    ¬IssuedTo old userId (.session id) := by
  rintro ⟨session₀, hget, huser⟩
  obtain ⟨hsession, hunrevoked, -⟩ := liveSession_ok haccepted
  obtain ⟨session', hs, hrevoked⟩ := h.sessions id session₀ hget huser
  rw [hsession] at hs
  cases hs
  rw [hunrevoked] at hrevoked
  cases hrevoked

theorem CutOff.rejects (h : CutOff old userId rest s) {op : AuthOp} (hmem : op ∈ rest) :
    ∀ c ∈ acceptedCredential crypto settings s op, ¬IssuedTo old userId c := by
  intro c hc
  unfold acceptedCredential at hc
  split at hc
  · cases hc
  split at hc
  · obtain ⟨⟨⟨id, item⟩, user⟩, hfound, rfl⟩ := Option.map_eq_some_iff.1 hc
    exact h.rejects_token hmem (.inl rfl) (toOption_eq_some.1 hfound)
  · obtain ⟨⟨⟨id, item⟩, user⟩, hfound, rfl⟩ := Option.map_eq_some_iff.1 hc
    exact h.rejects_token hmem (.inr rfl) (toOption_eq_some.1 hfound)
  · obtain ⟨⟨id, session⟩, hfound, rfl⟩ := Option.map_eq_some_iff.1 hc
    exact h.rejects_session (toOption_eq_some.1 hfound)
  · obtain ⟨⟨id, session⟩, hfound, rfl⟩ := Option.map_eq_some_iff.1 hc
    exact h.rejects_session (toOption_eq_some.1 hfound)
  · cases hc

/-! ## The completion -/

/-- A completion with a usable token succeeds: it uses the token, sets the password and revokes the
sessions. -/
theorem authStep_complete {op : AuthOp} {text : String} (hreq : text ∈ op.request.recoveryToken?)
    {id : Uuid} {item : AuthTokenRecord} {user : UserRecord}
    (htoken : tokenUser crypto op.env s (.raw text) .passwordRecovery = .ok ((id, item), user)) :
    ∃ user', authStep crypto settings s op =
      ((s.useToken id item op.env.now).setUser item.userId user').revokeSessions item.userId
        op.env.now := by
  obtain ⟨request, env⟩ := op
  cases request with
  | completePasswordRecovery token newPassword =>
    cases hreq
    refine ⟨{ user with passwordHash := crypto.hashPassword newPassword env.draws.salt }, ?_⟩
    have hok : respond crypto settings env s (.completePasswordRecovery text newPassword) = .ok
        (((s.useToken id item env.now).setUser item.userId
          { user with passwordHash := crypto.hashPassword newPassword env.draws.salt }).revokeSessions
            item.userId env.now, .passwordUpdated) := by
      show completePasswordRecovery crypto env s text newPassword = _
      rw [completePasswordRecovery, bind_ok_eq htoken]
      rfl
    rw [authStep, hok]
  | _ => cases hreq

/-- The sessions of the user are revoked. -/
theorem revokeSessions_revokes {id : Uuid} {session : SessionRecord}
    (hget : s.sessions.get? id = some session) (huser : session.userId = userId) (now : Time) :
    ∃ session', (s.revokeSessions userId now).sessions.get? id = some session' ∧
      session'.revokedAt.isSome = true := by
  refine ⟨_, by rw [AuthStore.revokeSessions, Dict.get?_map, hget]; rfl, ?_⟩
  dsimp only
  split
  · rfl
  · rename_i hnot
    rw [not_and, ← ne_eq, Option.ne_none_iff_isSome] at hnot
    exact hnot huser

/-- **A completion cuts off** what the user has, if no other token is outstanding. -/
theorem cutOff_complete {op : AuthOp} {text : String} (hreq : text ∈ op.request.recoveryToken?)
    {id : Uuid} {item : AuthTokenRecord} {user : UserRecord}
    (htoken : tokenUser crypto op.env s (.raw text) .passwordRecovery = .ok ((id, item), user))
    (hnone : NoneOutstanding crypto s op rest) :
    CutOff s item.userId rest (authStep crypto settings s op) := by
  obtain ⟨hitem, hmatch, husable, -⟩ := tokenUser_ok htoken
  have hcompleted : ∃ user', authStep crypto settings s op =
      ((s.useToken id item op.env.now).setUser item.userId user').revokeSessions item.userId
        op.env.now := authStep_complete hreq htoken
  obtain ⟨user', hstep⟩ := hcompleted
  rw [hstep]
  constructor
  · intro other token hget huser
    show ∃ usedAt, (s.tokens.set id { item with usedAt := some op.env.now }).get? other = _ ∧ _
    by_cases heq : other = id
    · subst heq
      rw [hitem] at hget
      cases hget
      exact ⟨some op.env.now, Dict.get?_set_self .., fun _ => .inl rfl⟩
    · refine ⟨token.usedAt, by rw [Dict.get?_set_ne _ _ heq]; exact hget, fun hkind => ?_⟩
      have hother := hnone text hreq (id, item) (Dict.mem_of_lookup hitem)
        (by simpa [TokenRef.matches] using hmatch) husable (other, token)
        (Dict.mem_of_lookup hget) huser hkind
      exact hother.resolve_left heq
  · intro sessionId session hget huser
    exact revokeSessions_revokes (s := (s.useToken id item op.env.now).setUser item.userId user')
      hget huser op.env.now

/-- **Password recovery cuts off earlier credentials**, in every run in which no completion leaves
another token outstanding. -/
theorem recovery_cuts_off {ops : List AuthOp}
    (hg : AlongRest (authStep crypto settings) (NoneOutstanding crypto) s ops) :
    AlongRest (authStep crypto settings) (CutsOff crypto settings) s ops := by
  refine hg.mono fun s op rest hnone text hreq id item user htoken => ?_
  have hcut : CutOff s item.userId rest (authStep crypto settings s op) :=
    cutOff_complete hreq htoken hnone
  have hrest : Along (authStep crypto settings) (fun _ op' => op' ∈ rest)
      (authStep crypto settings s op) rest := along_of_mem (fun _ hmem => hmem) _
  refine along_of_inv (I := CutOff s item.userId rest) (fun s' op' h _ => ?_)
    (fun s' op' h hmem => h.rejects hmem) hcut hrest
  exact h.step (authStep_writes crypto settings s' op')

end

/-! ## A challenge that is left -/

def thirdToken : String := "rd_YbmbBKqAm8XWZb3GTC63X0Mn0hdkR0MIHlBVUDJ60wu9CG4aKcQ"

/-- A login that waits for its code. -/
def pendingLogin : AuthOp :=
  sampleOp 4 (.beginSession "owner@example.com" "correct horse battery")

/-- A recovery: its token and its completion. -/
def startRecovery : AuthOp := sampleOp 5 (.startPasswordRecovery "owner@example.com") thirdToken

def completeRecovery : AuthOp :=
  ⟨.completePasswordRecovery thirdToken "staple battery horse", (1767225600 + 6) * second,
    { sampleDraws 6 "" with salt := "aab32d7d2585f78110cf7a7229859108" }, true, true⟩

/-- The code of the login that waits. -/
def lateCode : AuthOp := sampleOp 8 (.verifyMfaChallenge (.ofNat 14) "002839")

/-- **A challenge survives the recovery**: a login that was begun with the old password creates a
session after the password is reset. -/
theorem challenge_survives :
    ¬AlongRest (authStep sampleCrypto sampleSettings) (CutsOff sampleCrypto sampleSettings) .empty
      ((enrolment ++ [pendingLogin, startRecovery]) ++ completeRecovery :: [lateCode]) := by
  intro h
  let before := authState (enrolment ++ [pendingLogin, startRecovery])
  have hcut : CutsOff sampleCrypto sampleSettings before completeRecovery [lateCode] := h.at_step
  have hfound : (tokenUser sampleCrypto completeRecovery.env before (.raw thirdToken)
      .passwordRecovery).toOption.map (fun found => found.1.2.userId) = some sampleUserId := by
    decide +kernel
  obtain ⟨⟨⟨id, item⟩, user⟩, hfound, huser⟩ := Option.map_eq_some_iff.1 hfound
  have hlate := (hcut thirdToken rfl id item user (toOption_eq_some.1 hfound)).1
  have haccepted : acceptedCredential sampleCrypto sampleSettings
      (authStep sampleCrypto sampleSettings before completeRecovery) lateCode =
        some (.token (.ofNat 14)) := by
    decide +kernel
  have hissued : (before.tokens.get? (.ofNat 14)).map (·.userId) = some sampleUserId := by
    decide +kernel
  obtain ⟨token, hget, htoken⟩ := Option.map_eq_some_iff.1 hissued
  exact hlate _ haccepted ⟨token, hget, htoken.trans huser.symm⟩

/-- With no login begun, the sessions from before the recovery are over. -/
theorem recovery_cuts_off_session :
    AlongRest (authStep sampleCrypto sampleSettings) (CutsOff sampleCrypto sampleSettings) .empty
      (enrolment ++ [startRecovery, completeRecovery,
        sampleOp 7 (.me (some (sampleCookies.getD 0 "")))]) := by
  exact recovery_cuts_off (by decide +kernel)

end Matrades
