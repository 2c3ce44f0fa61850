import Matrades.Base.Run
import Matrades.Routes.MfaTransactions
import Matrades.Routes.Proof.AuthWrites

/-!
# The enrolled second factor stays

`KeepsFactor`: a step leaves the authenticator secret of every enrolled user as it is, and the recovery
codes but for one that is consumed. An enrolment does not check that its user has none yet, so a second
bootstrap token that was issued before the first enrolment replaces both (`second_enrolment`). In every
run whose enrolments are of users without MFA (`EnrolsNew`), the factor stays (`second_factor_stays`).
-/

namespace Matrades

open Base

/-- The user's second factor after a step: enrolled, with the same secret and at most one recovery
code less. -/
def SameFactor (user user' : UserRecord) : Prop :=
  user'.mfaEnabled = true ∧ user'.mfaSecret = user.mfaSecret ∧
    (user'.recoveryCodeHashes = user.recoveryCodeHashes ∨
      ∃ hash ∈ user.recoveryCodeHashes,
        user'.recoveryCodeHashes = user.recoveryCodeHashes.filter (· ≠ hash))

/-- Every enrolled user keeps the second factor. -/
def KeepsFactor (s s' : AuthStore) : Prop :=
  ∀ userId user, s.users.get? userId = some user → user.mfaEnabled = true →
    ∃ user', s'.users.get? userId = some user' ∧ SameFactor user user'

/-- The bootstrap token that a request brings. -/
def AuthRequest.bootstrapToken? : AuthRequest → Option String
  | .createMfaEnrollment token => token
  | _ => none

/-- **An enrolment is of a user without MFA**: a usable bootstrap token that a request brings belongs to
a user who is not enrolled. -/
def EnrolsNew (crypto : Cryptography) (s : AuthStore) (op : AuthOp) : Prop :=
  ∀ text ∈ op.request.bootstrapToken?, ∀ e ∈ s.tokens.entries,
    e.2.tokenHash = some (crypto.digest text) → e.2.usable .mfaBootstrap op.env.now = true →
      ∀ user ∈ s.users.get? e.2.userId, user.mfaEnabled = false

instance (crypto : Cryptography) (s : AuthStore) (op : AuthOp) :
    Decidable (EnrolsNew crypto s op) :=
  inferInstanceAs (Decidable (∀ text ∈ op.request.bootstrapToken?, ∀ e ∈ s.tokens.entries,
    e.2.tokenHash = some (crypto.digest text) → e.2.usable .mfaBootstrap op.env.now = true →
      ∀ user ∈ s.users.get? e.2.userId, user.mfaEnabled = false))

section
variable {crypto : Cryptography} {settings : AuthSettings} {env : AuthEnv} {s s' : AuthStore}

theorem SameFactor.refl {user : UserRecord} (h : user.mfaEnabled = true) : SameFactor user user :=
  ⟨h, rfl, .inl rfl⟩

theorem keepsFactor_of_eq (h : s'.users = s.users) : KeepsFactor s s' := by
  intro userId user hget henabled
  exact ⟨user, by rw [h]; exact hget, .refl henabled⟩

/-- Replacing one user keeps the factors if it keeps that user's. -/
theorem keepsFactor_set {userId : Uuid} {user user' : UserRecord}
    (h : s.users.get? userId = some user) (hset : s'.users = s.users.set userId user')
    (hsame : user.mfaEnabled = true → SameFactor user user') : KeepsFactor s s' := by
  intro other otherUser hget henabled
  rw [hset]
  by_cases heq : other = userId
  · subst heq
    rw [h] at hget
    cases hget
    exact ⟨user', Dict.get?_set_self .., hsame henabled⟩
  · exact ⟨otherUser, by rw [Dict.get?_set_ne _ _ heq]; exact hget, .refl henabled⟩

theorem Redeems.keepsFactor {ref : TokenRef} {kind : AuthTokenKind}
    {change : Uuid → UserRecord → UserRecord → Prop} (h : Redeems crypto env s s' ref kind change)
    (hsame : ∀ id item user user', tokenUser crypto env s ref kind = .ok ((id, item), user) →
      change item.userId user user' → user.mfaEnabled = true → SameFactor user user') :
    KeepsFactor s s' := by
  obtain ⟨id, item, user, user', htoken, hchange, hset, -⟩ := h
  exact keepsFactor_set (tokenUser_ok htoken).2.2.2 hset (hsame id item user user' htoken hchange)

/-- `_verify_mfa` consumes one recovery code or leaves the user as it is. -/
theorem verifyMfa_sameFactor {userId : Uuid} {user user' : UserRecord} {code : String} {now : Time}
    (h : verifyMfa crypto userId user code now = .ok (some user'))
    (henabled : user.mfaEnabled = true) : SameFactor user user' := by
  obtain ⟨secret, -, h⟩ := ok_of_bind h
  split at h
  · cases h
    exact .refl henabled
  · unfold consumeCode at h
    split at h
    · rename_i hmem
      cases h
      exact ⟨henabled, rfl, .inr ⟨crypto.digest code, hmem, rfl⟩⟩
    · cases h

/-- **A step keeps the second factors**, unless it enrols a user who has one. -/
theorem authStep_keepsFactor {op : AuthOp} (hg : EnrolsNew crypto s op) :
    KeepsFactor s (authStep crypto settings s op) := by
  obtain ⟨request, env⟩ := op
  unfold authStep
  split
  case h_2 => exact keepsFactor_of_eq rfl
  rename_i s' r h
  cases request with
  | signup =>
    intro userId user hget henabled
    rw [Dict.get?, (signup_ok h).1] at hget
    cases hget
  | resendEmailVerification => exact keepsFactor_of_eq (resendEmailVerification_keepsUsers h).1
  | verifyEmail =>
    refine (verifyEmail_redeems h).keepsFactor fun _ _ user user' _ hchange henabled => ?_
    subst hchange
    exact ⟨henabled, rfl, .inl rfl⟩
  | createMfaEnrollment token =>
    obtain ⟨text, htext, hredeems⟩ := createMfaEnrollment_redeems h
    refine hredeems.keepsFactor fun id item user user' htoken _ henabled => ?_
    obtain ⟨hget, hmatch, husable, huser⟩ := tokenUser_ok htoken
    have hnew : user.mfaEnabled = false :=
      hg text htext (id, item) (Dict.mem_of_lookup hget) (by simpa [TokenRef.matches] using hmatch)
        husable user huser
    rw [hnew] at henabled
    cases henabled
  | confirmMfaEnrollment =>
    refine (confirmMfaEnrollment_redeems h).keepsFactor fun _ _ user user' _ hchange _ => ?_
    subst hchange
    exact ⟨rfl, rfl, .inl rfl⟩
  | beginSession => exact keepsFactor_of_eq (beginSession_keepsUsers h).1
  | verifyMfaChallenge =>
    exact (verifyMfaChallenge_redeems h).keepsFactor fun _ _ _ _ _ hverified henabled =>
      verifyMfa_sameFactor hverified henabled
  | verifyStepUp =>
    obtain ⟨_, session, user, user', _, huser, hverified, hset, _⟩ := verifyStepUp_ok h
    exact keepsFactor_set huser hset (verifyMfa_sameFactor hverified)
  | me =>
    rw [(me_ok h).1]
    exact keepsFactor_of_eq rfl
  | revokeSession => exact keepsFactor_of_eq (revokeSession_keepsUsers h).1
  | startPasswordRecovery => exact keepsFactor_of_eq (startPasswordRecovery_keepsUsers h).1
  | completePasswordRecovery =>
    refine (completePasswordRecovery_redeems h).keepsFactor fun _ _ user user' _ hchange henabled => ?_
    subst hchange
    exact ⟨henabled, rfl, .inl rfl⟩

/-- The user is enrolled with the secret, and has at most these recovery codes. -/
def FactorFrom (userId : Uuid) (user : UserRecord) (s : AuthStore) : Prop :=
  ∃ user', s.users.get? userId = some user' ∧ user'.mfaEnabled = true ∧
    user'.mfaSecret = user.mfaSecret ∧
    user'.recoveryCodeHashes.Sublist user.recoveryCodeHashes

theorem FactorFrom.step {userId : Uuid} {user : UserRecord} (h : FactorFrom userId user s)
    (hkeeps : KeepsFactor s s') : FactorFrom userId user s' := by
  obtain ⟨user', hget, henabled, hsecret, hcodes⟩ := h
  obtain ⟨user'', hget', henabled', hsecret', hsame⟩ := hkeeps userId user' hget henabled
  refine ⟨user'', hget', henabled', hsecret'.trans hsecret, ?_⟩
  rcases hsame with hsame | ⟨hash, -, hsame⟩
  · rw [hsame]
    exact hcodes
  · rw [hsame]
    exact List.filter_sublist.trans hcodes

/-- **The enrolled second factor stays.** In a run whose enrolments are of users without MFA, every
step keeps the factor of every enrolled user, and a user who is enrolled at the start keeps the secret
and gets no recovery code. -/
theorem second_factor_stays {ops : List AuthOp}
    (hg : Along (authStep crypto settings) (EnrolsNew crypto) s ops) :
    Along (authStep crypto settings) (fun s op => KeepsFactor s (authStep crypto settings s op)) s
        ops ∧
      ∀ userId user, s.users.get? userId = some user → user.mfaEnabled = true →
        States (authStep crypto settings) (FactorFrom userId user) s ops := by
  refine ⟨hg.mono fun s op h => authStep_keepsFactor h, fun userId user hget henabled => ?_⟩
  refine states_of_inv (I := FactorFrom userId user) (fun s op h hg => ?_) ?_ hg
  · exact h.step (authStep_keepsFactor hg)
  · exact ⟨user, hget, henabled, rfl, List.Sublist.refl _⟩

end

/-! ## Two bootstrap tokens -/

/-- SHA-256 of the texts in the runs below. -/
def sampleDigests : List (String × String) :=
  [("FgWYAzUZxAtaPhKHjkaHvatxibSpB08fYl6_pq6q3hzpHMrcCAPRqQ",
      "aaba567f1fe4ceb5bb03e5005235cdf0abcdad4c548cc1d94faa39db66787059"),
    ("_FUWrkIQZ0SpLGyAx1kqziXGMa2QN_IRUNr376pk8TT5nTecG2WwTA",
      "1cbcb9e4e055d332b2e028ceecbdf59ac9f9815e034738fc060131e92fd133d0"),
    ("rd_YbmbBKqAm8XWZb3GTC63X0Mn0hdkR0MIHlBVUDJ60wu9CG4aKcQ",
      "06509ec4d17996563cb764e96463694b2366cc9e60d2082922336e9a27658387"),
    ("DdwifIm2nwJlI2MvLBQSxBVYeK2ukGItMtmaaPoCPfnzsGc3hsE2-XfkqQbVZyet",
      "37339ab65681b9be6bd624efd33404845f9555aeaccaaa63de35e3d05bc8a9b2"),
    ("LbP7DfFGtkorMpXhbDyq5u0Lu7kVgb4MhuMM9sfbaLUb_WLH-H4RADe8SFFjm8D0",
      "0848caacfa86be751f107035de63f9ea54942fc1837042c74de9de5adb855f67"),
    ("QUlL4iL55cUypw", "1dba0eca741a8e6a243452d763896800ec5c111df22a34e4ba844934783cd482"),
    ("SKY5Bl3R6w9n8Q", "2806e27fad501c6ec92d8e329bff8f01a9079dc2d2b15b670a40a758bf1b8e48"),
    ("1Qw4_wXb1RNZGw", "ea5721b482fb2d38f58338db03853f55ed20b0a3fcf862f20e8b3acf6e10529a"),
    ("rN-0m_fW1iIm8A", "1d196df54d18ff0685e3d56ddd16422a3e0a63e8a0d0a4332dd82af6ee18bdc5"),
    ("CmZ1IHvVbe1WPg", "d5b1e6b0395f4dbcd719e5df4a564ebc9c6c377a81f9fafc144e262faf4bdff4"),
    ("uomuDmQ7Qr_emw", "6dbf90261ebbba66e1cfb67e7b8a03fa0678a937d6e50acc81586c00ba028862"),
    ("7YTu7PqwIA9VRQ", "4c9d465d5a266a6adddc330877e5250046dddd972e995113f56531f8e230b3dd"),
    ("blwBULA5paalaw", "48ac6901e43185507448d6752dbb14fa4a957eca69a08720b5422612262e504d"),
    ("O3wB23kzRL9O5g", "71f9ede90f54107c47db0f76726660c41e4d4c3f20f547e93d7320c301442054"),
    ("yf9M-R6KNW33MA", "c5fb07f544928c90d12b9d77b39b7972d19ea67ee5a5b6b308154eb25c6c7cc7"),
    ("hkN5cBO8ee777A", "73a3da1d8939d902c3f9ff128d4992d3872ea72a021013e8f8172ac0a704c68a"),
    ("cwppxuxxhu6_GQ", "ae0fc21d072e2b250857519f892ad2d81df7c256854a10ae970cade52bc415eb"),
    ("vgafxrkP6G6B6w", "89f41258bb77c44c9c194c2570666441e9fb7e24fdbaa43f0f0fea3a9bea84bb"),
    ("2H0v0PbjDMzm-g", "1d4b9c16622ddbeed0df9de86ca20b378288cf1d2e92e19726d2990e5383bda9"),
    ("NjxsFTdIiTGnAw", "85fc6c664e58c9e66e6f9ec6ce2b8eb40c44e7a96d0b5210f71ae8cc1311dbed"),
    ("0zi8Q_vZDTbFPA", "c5956cfc73657b302ca703b9b4dc6223417eac23d7f22bba9fa32bf28b9972a7"),
    ("MJP2EBapw4XNcqZWZWWrmqCpM-JV6Inx2u5Wee0IOB9cOksatPcWyd-pp7ebDo7S",
      "1090af4619d9a4a1fa5a4e3df6f0ad282a6a74dfc2a1f037630fe33a54193180")]

def samplePasswords : List ((String × String) × String) :=
  [(("correct horse battery", "36141364638763e413c20e2816073c83"),
      "scrypt$36141364638763e413c20e2816073c83$"
        ++ "c0e1da790d6bc5a404ff31bf9cbbcf2ea2cb4c0b54a785a647ae6d29ef3a66e5"),
    (("staple battery horse", "aab32d7d2585f78110cf7a7229859108"),
      "scrypt$aab32d7d2585f78110cf7a7229859108$"
        ++ "ac5f28fe5ffef200ad663a6e80d8f6d970dfbc98aaa2473c304e033861a3d105")]

/-- The first secret as it is stored. -/
def firstStored : String :=
  "Wjs4JZ20OaMy5-9ALrVb1G5pFq2pBzaxk2TJxhAPMfeLPjkgAr0xxn-89leek2utY-D83KxZATGd0WY4"

/-- The second secret as it is stored. -/
def secondStored : String :=
  "jdYlQDzWo8x6AERqZrFmZ1aYCTNAKk9RFAi0-HWzhVYlpWFBUSynNPlKeaygEpmVoXyuNKJmVK5PKBDi"

/-- Encrypted authenticator secrets of the user, with their nonces. -/
def sampleSecrets : List ((String × String) × String) :=
  [(("ZYLFTEZT7RPTVB3LZYPKAWJEF7JKLKX4", "5a3b38259db439a332e7ef40"),
      firstStored),
    (("HWJMF77ECZPFFYQRUO5KNE6S6N6QAOS3", "8dd625403cd6a3cc7a00446a"),
      secondStored)]

def sampleUserId : Uuid := ⟨1⟩

/-- The codes of the first secret at the turn of 2026, by period. -/
def sampleTotps : List ((String × ℤ) × String) :=
  [(("ZYLFTEZT7RPTVB3LZYPKAWJEF7JKLKX4", 58907519), "347352"),
    (("ZYLFTEZT7RPTVB3LZYPKAWJEF7JKLKX4", 58907520), "002839"),
    (("ZYLFTEZT7RPTVB3LZYPKAWJEF7JKLKX4", 58907521), "192614")]

/-- The primitives on the texts in the runs below. -/
def sampleCrypto : Cryptography where
  digest text := (sampleDigests.lookup text).getD ""
  hashPassword password salt := (samplePasswords.lookup (password, salt)).getD ""
  verifyPassword password encoded :=
    samplePasswords.any fun e => e.1.1 = password && e.2 = encoded
  totp secret at' := (sampleTotps.lookup (secret, at' / 30)).getD ""
  encrypt value userId nonce :=
    if userId = sampleUserId then (sampleSecrets.lookup (value, nonce)).getD "" else ""
  decrypt stored userId :=
    if userId = sampleUserId then
      (sampleSecrets.find? fun e => e.2 = stored).map fun e => e.1.1
    else none

def sampleSettings : AuthSettings := ⟨"development", false, none, some .smtp⟩

/-- The recovery codes of the first and of the second enrolment. -/
def sampleCodes : List String := ((sampleDigests.drop 5).take 16).map Prod.fst

def sampleCookies : List String :=
  ["DdwifIm2nwJlI2MvLBQSxBVYeK2ukGItMtmaaPoCPfnzsGc3hsE2-XfkqQbVZyet",
    "LbP7DfFGtkorMpXhbDyq5u0Lu7kVgb4MhuMM9sfbaLUb_WLH-H4RADe8SFFjm8D0",
    "MJP2EBapw4XNcqZWZWWrmqCpM-JV6Inx2u5Wee0IOB9cOksatPcWyd-pp7ebDo7S"]

/-- The draws of the `n`-th operation. -/
def sampleDraws (n : ℕ) (raw : String) : Draws where
  userId := sampleUserId
  tokenId := .ofNat (10 + n)
  sessionId := .ofNat (20 + n)
  raw := raw
  cookie := sampleCookies.getD (n % 3) ""
  salt := "36141364638763e413c20e2816073c83"
  nonce := "5a3b38259db439a332e7ef40"
  secret := "ZYLFTEZT7RPTVB3LZYPKAWJEF7JKLKX4"
  codes i := sampleCodes.getD i ""

/-- The draws of an operation that enrols a second secret. -/
def secondDraws (n : ℕ) (raw : String) : Draws :=
  { sampleDraws n raw with
    nonce := "8dd625403cd6a3cc7a00446a"
    secret := "HWJMF77ECZPFFYQRUO5KNE6S6N6QAOS3"
    codes := fun i => sampleCodes.getD (8 + i) "" }

/-- The `n`-th operation, `n` seconds into 2026. -/
def sampleOp (n : ℕ) (request : AuthRequest) (raw : String := "") : AuthOp :=
  ⟨request, (1767225600 + n) * second, sampleDraws n raw, true, true⟩

def firstToken : String := "FgWYAzUZxAtaPhKHjkaHvatxibSpB08fYl6_pq6q3hzpHMrcCAPRqQ"

def secondToken : String := "_FUWrkIQZ0SpLGyAx1kqziXGMa2QN_IRUNr376pk8TT5nTecG2WwTA"

/-- A signup and a login before the enrolment, each with a bootstrap token, and the enrolment with the
first. -/
def enrolment : List AuthOp :=
  [sampleOp 0 (.signup "owner@example.com" "correct horse battery" none) firstToken,
    sampleOp 1 (.beginSession "owner@example.com" "correct horse battery") secondToken,
    sampleOp 2 (.createMfaEnrollment (some firstToken)),
    sampleOp 3 (.confirmMfaEnrollment (.ofNat 12) "002839")]

/-- An enrolment with the second bootstrap token. -/
def enrolAgain : AuthOp :=
  ⟨.createMfaEnrollment (some secondToken), (1767225600 + 4) * second, secondDraws 4 "", true, true⟩

/-- A login with the authenticator's code, and one with a recovery code. -/
def logins : List AuthOp :=
  [sampleOp 5 (.beginSession "owner@example.com" "correct horse battery"),
    sampleOp 7 (.verifyMfaChallenge (.ofNat 15) "QUlL4iL55cUypw")]

/-- The state after operations from the start of the installation. -/
def authState (ops : List AuthOp) : AuthStore :=
  run (authStep sampleCrypto sampleSettings) .empty ops

/-- **A second enrolment replaces the factor**: the token of the login before the first enrolment still
enrols, and the secret of the enrolled user is another one. -/
theorem second_enrolment :
    ¬Along (authStep sampleCrypto sampleSettings)
      (fun s op => KeepsFactor s (authStep sampleCrypto sampleSettings s op)) .empty
      (enrolment ++ [enrolAgain]) := by
  intro h
  rw [along_append] at h
  have hstep : KeepsFactor (authState enrolment)
      (authStep sampleCrypto sampleSettings (authState enrolment) enrolAgain) := h.2.1
  have hbefore : ((authState enrolment).users.get? sampleUserId).map
      (fun user => (user.mfaEnabled, user.mfaSecret)) = some (true, some firstStored) := by
    decide +kernel
  have hafter : ((authStep sampleCrypto sampleSettings (authState enrolment) enrolAgain).users.get?
      sampleUserId).map (·.mfaSecret) = some (some secondStored) := by
    decide +kernel
  obtain ⟨user, hget, hpair⟩ := Option.map_eq_some_iff.1 hbefore
  obtain ⟨user', hget', hstored⟩ := Option.map_eq_some_iff.1 hafter
  have henabled : user.mfaEnabled = true := congrArg Prod.fst hpair
  have hsecret : user.mfaSecret = some firstStored := congrArg Prod.snd hpair
  obtain ⟨user'', hget'', -, hsame, -⟩ := hstep sampleUserId user hget henabled
  rw [hget'] at hget''
  cases hget''
  rw [hstored, hsecret] at hsame
  exact absurd hsame (by decide)

/-- The factor stays through a login that consumes a recovery code. -/
theorem second_factor_stays_login :
    ∃ user, (authState enrolment).users.get? sampleUserId = some user ∧ user.mfaEnabled = true ∧
      FactorFrom sampleUserId user (authState (enrolment ++ logins)) := by
  have hg : Along (authStep sampleCrypto sampleSettings) (EnrolsNew sampleCrypto)
      (authState enrolment) logins := by decide +kernel
  have hbefore : ((authState enrolment).users.get? sampleUserId).map (·.mfaEnabled) = some true := by
    decide +kernel
  obtain ⟨user, hget, henabled⟩ := Option.map_eq_some_iff.1 hbefore
  refine ⟨user, hget, henabled, ?_⟩
  rw [authState, run_append]
  exact ((second_factor_stays hg).2 sampleUserId user hget henabled).last

end Matrades

/-!
## Recovery codes under concurrent logins

The user is read without a lock, so two transactions may check their codes against the same hashes,
and the one that commits last writes back what it has read less its own code: with the same code in
both it is accepted twice, and otherwise the first code comes back (`code_accepted_twice`). Codes are
single-use in exactly those runs in which every commit finds the hashes
its transaction has read (`recovery_codes_single_use`).
-/

namespace Matrades

open Base

namespace MfaSystem

section
variable {crypto : Cryptography} {userId : Uuid} {user : UserRecord}

/-- The check changes the hashes only by taking out the code that is brought. -/
theorem make_takes : RowSystem.Takes (fun asked : MfaTransaction × Time => codeHash crypto asked.1)
    (make crypto userId user) := by
  rintro ⟨t, now⟩ hashes rest h
  unfold make at h
  split at h
  · rename_i checked hverified
    obtain ⟨secret, -, hchecked⟩ := ok_of_bind hverified
    split at hchecked
    · cases hchecked
      simp [readUser] at h
    · unfold consumeCode at hchecked
      split at hchecked
      · rename_i hmem
        cases hchecked
        split at h
        · cases h
        · cases h
          exact ⟨hmem, rfl⟩
      · cases hchecked
  · cases h

variable {hashes : List String} {s : MfaSystem}

/-- The hashes are what the committed transactions have left of the first. -/
def Consistent (crypto : Cryptography) (hashes : List String) (s : MfaSystem) : Prop :=
  RowSystem.Taken (codeHash crypto) hashes s.hashes

theorem Consistent.singleUse (h : Consistent crypto hashes s) : SingleUse crypto s :=
  RowSystem.Taken.once h

theorem consistent_start (store : AuthStore) : Consistent crypto hashes (start store hashes) :=
  RowSystem.taken_start

/-- A step that leaves the hashes and their transactions. -/
theorem Consistent.of_eq {s' : MfaSystem} (h : Consistent crypto hashes s)
    (hsame : s'.hashes = s.hashes) : Consistent crypto hashes s' := by
  unfold Consistent
  rw [hsame]
  exact h

theorem Consistent.abort (h : Consistent crypto hashes s) (t : MfaTransaction) :
    Consistent crypto hashes (s.abort crypto userId user t) := by
  have habort : RowSystem.Taken (codeHash crypto) hashes
      (s.hashes.step (make crypto userId user) (.abort t)) :=
    RowSystem.Taken.step make_takes h trivial trivial
  exact habort

theorem Consistent.identify (h : Consistent crypto hashes s) (t : MfaTransaction) (env : AuthEnv) :
    Consistent crypto hashes (s.identify crypto userId t env) := by
  apply h.of_eq
  unfold MfaSystem.identify
  split
  · rfl
  split
  · split
    · rfl
    split
    · split <;> rfl
    · rfl
  · split
    · split <;> rfl
    · rfl

theorem Consistent.verify (h : Consistent crypto hashes s) (t : MfaTransaction) (now : Time) :
    Consistent crypto hashes (s.verify crypto userId user t now) := by
  unfold MfaSystem.verify
  split
  · exact h
  split
  · have hread : RowSystem.Taken (codeHash crypto) hashes
        (s.hashes.step (make crypto userId user) (.read t (t, now) false)) :=
      RowSystem.Taken.step make_takes h rfl trivial
    exact hread
  · exact h.of_eq rfl

/-- What a commit makes of the hashes: nothing, the transaction's abort, or its commit. -/
theorem commit_cases (t : MfaTransaction) (env : AuthEnv) :
    (s.commit crypto userId user t env).hashes = s.hashes ∨
      s.commit crypto userId user t env = s.abort crypto userId user t ∨
      (s.progress t = .verified ∧ (effects crypto userId s t env).toBool = true ∧
        (s.commit crypto userId user t env).hashes = s.hashes.commit t) := by
  unfold MfaSystem.commit
  split
  · exact .inl rfl
  rename_i hverified
  rw [not_not] at hverified
  split
  · exact .inl rfl
  split
  · rename_i heffects
    exact .inr (.inr ⟨hverified, by rw [heffects]; rfl, rfl⟩)
  · exact .inr (.inl rfl)

theorem Consistent.commit (h : Consistent crypto hashes s) {t : MfaTransaction} {env : AuthEnv}
    (hg : Unchanged crypto userId s (.commit t env)) :
    Consistent crypto hashes (s.commit crypto userId user t env) := by
  rcases @commit_cases crypto userId user s t env with
    hsame | habort | ⟨hverified, heffects, hcommit⟩
  · exact h.of_eq hsame
  · rw [habort]
    exact h.abort t
  · have hcommitted : RowSystem.Taken (codeHash crypto) hashes (s.hashes.commit t) :=
      RowSystem.Taken.commit h (hg hverified heffects)
    unfold Consistent
    rw [hcommit]
    exact hcommitted

/-- **A step keeps the hashes consistent**, if a commit finds the hashes that were read. -/
theorem Consistent.step (h : Consistent crypto hashes s) {l : MfaLabel}
    (hg : Unchanged crypto userId s l) :
    Consistent crypto hashes (s.step crypto userId user l) := by
  cases l with
  | identify t env => exact h.identify t env
  | verify t now => exact h.verify t now
  | flush t =>
    rw [MfaSystem.step]
    split
    · have hwrite : RowSystem.Taken (codeHash crypto) hashes
          (s.hashes.step (make crypto userId user) (.write t)) :=
        RowSystem.Taken.step make_takes h trivial trivial
      exact hwrite
    · exact h
  | commit t env => exact h.commit hg
  | abort t =>
    rw [MfaSystem.step]
    split
    · exact h
    · exact h.abort t

/-- A verified transaction that has written the hashes commits them. -/
theorem commit_written {t : MfaTransaction} {env : AuthEnv} {seen next : List String}
    (hverified : s.progress t = .verified)
    (heffects : (effects crypto userId s t env).toBool = true)
    (hphase : s.hashes.phase t = .written seen next) :
    (s.commit crypto userId user t env).hashes = s.hashes.commit t := by
  unfold MfaSystem.commit
  rw [if_neg (not_not.2 hverified), hphase]
  dsimp only
  cases hstore : effects crypto userId s t env with
  | ok store => rfl
  | error e =>
    rw [hstore] at heffects
    cases heffects

/-- A commit that leaves the codes single-use has found the hashes that were read. -/
theorem Consistent.unchanged (h : Consistent crypto hashes s) {l : MfaLabel}
    (honce : SingleUse crypto (s.step crypto userId user l)) : Unchanged crypto userId s l := by
  cases l with
  | commit t env =>
    intro hverified heffects seen next hphase
    have hcommit : (s.commit crypto userId user t env).hashes = s.hashes.commit t :=
      commit_written hverified heffects hphase
    have honce' : RowSystem.Once (codeHash crypto) (s.hashes.commit t) := by
      rw [← hcommit]
      exact honce
    exact RowSystem.Taken.unchanged h honce' seen next hphase
  | _ => trivial

/-- **When recovery codes are single-use**: in exactly the runs in which every commit that takes a code
finds the hashes its transaction has read. -/
theorem recovery_codes_single_use (crypto : Cryptography) (userId : Uuid) (user : UserRecord)
    (store : AuthStore) (hashes : List String) (ls : List MfaLabel) :
    States (step crypto userId user) (SingleUse crypto) (start store hashes) ls ↔
      Along (step crypto userId user) (Unchanged crypto userId) (start store hashes) ls :=
  states_iff_along_of_guard (I := Consistent crypto hashes) (fun _ _ h hg => h.step hg)
    (fun _ h => h.singleUse) (fun _ _ h honce => h.unchanged honce) (consistent_start store)

end

/-! ## Two logins at a time -/

def sampleUser : UserRecord where
  email := "owner@example.com"
  passwordHash := "scrypt$36141364638763e413c20e2816073c83$"
    ++ "c0e1da790d6bc5a404ff31bf9cbbcf2ea2cb4c0b54a785a647ae6d29ef3a66e5"
  mfaEnabled := true
  mfaSecret := some firstStored

/-- The `n`-th login, with the recovery code it brings. -/
def loginWith (n : ℕ) (code : String) : MfaTransaction := ⟨n, .challenge (.ofNat (14 + n)), code⟩

def loginEnv (n : ℕ) : AuthEnv := ⟨(1767225600 + 8) * second, sampleDraws n "", true, true⟩

/-- The tables after the enrolment and two begun logins. -/
def twoLogins : AuthStore :=
  authState (enrolment ++ [sampleOp 4 (.beginSession "owner@example.com" "correct horse battery"),
    sampleOp 5 (.beginSession "owner@example.com" "correct horse battery")])

/-- Both transactions check their codes before either commits. -/
def sideBySide (t t' : MfaTransaction) : List MfaLabel :=
  [.identify t (loginEnv 7), .identify t' (loginEnv 8), .verify t (loginEnv 7).now,
    .verify t' (loginEnv 8).now, .flush t, .commit t (loginEnv 7), .flush t',
    .commit t' (loginEnv 8)]

def sampleStep : MfaSystem → MfaLabel → MfaSystem :=
  step sampleCrypto sampleUserId sampleUser

instance (s : MfaSystem) : Decidable (SingleUse sampleCrypto s) :=
  inferInstanceAs (Decidable (_ ∧ _))

/-- **A code is accepted twice**: two logins with the same recovery code both commit. And **a code comes
back**: of two logins with different codes the second writes back the first one's. -/
theorem code_accepted_twice :
    ¬States sampleStep (SingleUse sampleCrypto)
        (start twoLogins (recoveryHashes sampleCrypto (sampleDraws 2 "")))
        (sideBySide (loginWith 0 "QUlL4iL55cUypw") (loginWith 1 "QUlL4iL55cUypw")) ∧
      ¬States sampleStep (SingleUse sampleCrypto)
        (start twoLogins (recoveryHashes sampleCrypto (sampleDraws 2 "")))
        (sideBySide (loginWith 0 "QUlL4iL55cUypw") (loginWith 1 "SKY5Bl3R6w9n8Q")) := by
  constructor
  · intro h
    have hlast := h.last
    exact absurd hlast (by decide +kernel)
  · intro h
    have hlast := h.last
    exact absurd hlast (by decide +kernel)

end MfaSystem

end Matrades
