import Matrades.Bridge.Authentication

/-!
# No request is accepted twice

A request that was accepted has expired, or its nonce is recorded with a time so late that it will
have expired when the nonce is forgotten (`Covered`). So a call that begins for it finds the nonce or
will fail on its timestamp. This needs that no second call with the request is under way when one is
accepted, and that what is recorded is late enough: an accepted call's timestamp lies at most half a
minute after its beginning, and no later time is overwritten (`requests_accepted_once`). Two calls that
begin before either is recorded are both accepted (`concurrent_replay_accepted`), and so is a replay of
a call that was slow to read its body.
-/

namespace Matrades

open Base

namespace AuthRun

variable {a : Authenticator} {s : AuthRun}

/-- No request is accepted twice. -/
def Once (s : AuthRun) : Prop := s.accepted.Nodup

instance (s : AuthRun) : Decidable s.Once := inferInstanceAs (Decidable s.accepted.Nodup)

/-- The call that the step accepts, with its index. -/
def accepts? (a : Authenticator) (s : AuthRun) : Label → Option (Nat × AuthCall)
  | .begins .. => none
  | .reads elapsed index => (s.calls[index]?.filter fun c =>
    c.phase = .reading ∧ fresh a (s.clock + elapsed) c.request = true ∧ a.asksAuthority = false ∧
      a.signed c.request = true).map (index, ·)
  | .answered _ index answer => (s.calls[index]?.filter fun c =>
    c.phase = .asking ∧ answer = .accepted).map (index, ·)

/-- The timestamp lies at most half a minute after `time`. -/
def By (a : Authenticator) (time : Time) (r : SignedRequest) : Prop :=
  ∀ timestamp ∈ a.int r.timestamp, timestamp * (second : Int) ≤ time + timestampWindow

instance (a : Authenticator) (time : Time) (r : SignedRequest) : Decidable (By a time r) :=
  inferInstanceAs (Decidable (∀ timestamp ∈ a.int r.timestamp, _))

/-- The call with the index is the only one under way for its request, and it has begun late enough
for its timestamp and not before what is recorded for its nonce. -/
def Timely (a : Authenticator) (s : AuthRun) (index : Nat) (c : AuthCall) : Prop :=
  (∀ d ∈ s.calls.eraseIdx index, d.phase ≠ .ended → d.request ≠ c.request) ∧
  By a c.began c.request ∧ ∀ time ∈ s.seen.get? c.request.nonce, time ≤ c.began

instance (a : Authenticator) (s : AuthRun) (index : Nat) (c : AuthCall) :
    Decidable (Timely a s index c) := inferInstanceAs (Decidable (_ ∧ _ ∧ _))

/-- Every call that is accepted is timely. -/
def Guarded (a : Authenticator) (s : AuthRun) (l : Label) : Prop :=
  ∀ found ∈ accepts? a s l, Timely a s found.1 found.2

instance decidableGuarded (a : Authenticator) (s : AuthRun) (l : Label) : Decidable (Guarded a s l) :=
  inferInstanceAs (Decidable (∀ found ∈ accepts? a s l, _))

/-! ## Timestamps -/

/-- The request's timestamp is out of the window for good. -/
def Expired (a : Authenticator) (now : Time) (r : SignedRequest) : Prop :=
  ∀ timestamp ∈ a.int r.timestamp, timestamp * (second : Int) + timestampWindow < now

/-- The request has expired, or its nonce is recorded late enough. -/
def Covered (a : Authenticator) (now : Time) (seen : Dict String Time) (r : SignedRequest) : Prop :=
  Expired a now r ∨ ∃ time, seen.get? r.nonce = some time ∧ By a time r

theorem Expired.later {now later : Time} {r : SignedRequest} (h : Expired a now r)
    (hle : now ≤ later) : Expired a later r := by
  intro timestamp hts
  have hexpired := h timestamp hts
  have hcast : (now : Int) ≤ later := Int.ofNat_le.2 hle
  omega

theorem not_fresh_of_expired {now : Time} {r : SignedRequest} (h : Expired a now r) :
    fresh a now r = false := by
  unfold fresh
  cases hint : a.int r.timestamp with
  | none => rfl
  | some timestamp =>
    have hexpired := h timestamp hint
    simp only [Option.any_some, decide_eq_false_iff_not, abs_le, not_and_or, not_le]
    exact .inr (by omega)

theorem Covered.later {now later : Time} {seen : Dict String Time} {r : SignedRequest}
    (h : Covered a now seen r) (hle : now ≤ later) : Covered a later seen r := by
  rcases h with hexpired | hrecorded
  · exact .inl (hexpired.later hle)
  · exact .inr hrecorded

/-- A nonce that is forgotten has been recorded long enough ago for the request to expire. -/
theorem Covered.prune {now : Time} {seen : Dict String Time} {r : SignedRequest}
    (h : Covered a now seen r) : Covered a now (AuthRun.prune now seen) r := by
  rcases h with hexpired | ⟨time, hseen, hby⟩
  · exact .inl hexpired
  by_cases hkept : now ≤ time + nonceAge
  · refine .inr ⟨time, ?_, hby⟩
    unfold AuthRun.prune
    rw [Dict.get?_filter, hseen]
    simp [Option.filter, hkept]
  · refine .inl fun timestamp hts => ?_
    have hlate := hby timestamp hts
    have hages : (nonceAge : Int) = timestampWindow + timestampWindow := by decide
    have hover : (time : Int) + nonceAge < now := by
      have := Int.ofNat_lt.2 (Nat.lt_of_not_le hkept)
      simpa using this
    omega

/-- A call that finds no nonce begins for an expired request. -/
theorem Covered.expired {now : Time} {seen : Dict String Time} {r : SignedRequest}
    (h : Covered a now seen r) (hnone : seen.get? r.nonce = none) : Expired a now r := by
  rcases h with hexpired | ⟨time, hseen, _⟩
  · exact hexpired
  · rw [hnone] at hseen
    cases hseen

/-- A later record covers what an earlier one covered. -/
theorem Covered.record {now time : Time} {seen : Dict String Time} {nonce : String}
    {r : SignedRequest} (h : Covered a now seen r)
    (hlast : ∀ before ∈ seen.get? nonce, before ≤ time) :
    Covered a now (seen.set nonce time) r := by
  rcases h with hexpired | ⟨before, hseen, hby⟩
  · exact .inl hexpired
  refine .inr ?_
  by_cases hsame : r.nonce = nonce
  · refine ⟨time, by rw [hsame, Dict.get?_set_self], fun timestamp hts => ?_⟩
    have hle : (before : Int) ≤ time := Int.ofNat_le.2 (hlast before (hsame ▸ hseen))
    have hlate := hby timestamp hts
    omega
  · exact ⟨before, by rw [Dict.get?_set_ne _ _ hsame, hseen], hby⟩

/-! ## The invariant -/

structure Inv (a : Authenticator) (s : AuthRun) : Prop where
  once : s.Once
  covered : ∀ r ∈ s.accepted, Covered a s.clock s.seen r
  /-- A call that has not checked its timestamp carries no accepted request, or an expired one. -/
  reading : ∀ c ∈ s.calls, c.phase = .reading → c.request ∈ s.accepted →
    Expired a s.clock c.request
  asking : ∀ c ∈ s.calls, c.phase = .asking → c.request ∉ s.accepted

theorem inv_start (a : Authenticator) : Inv a start := by
  constructor <;> simp [start, Once]

theorem Inv.wait (h : Inv a s) (elapsed : Time) : Inv a { s with clock := s.clock + elapsed } where
  once := h.once
  covered r hr := (h.covered r hr).later (Nat.le_add_right _ _)
  reading c hc hphase hmem := (h.reading c hc hphase hmem).later (Nat.le_add_right _ _)
  asking := h.asking

theorem Inv.forget (h : Inv a s) : Inv a { s with seen := prune s.clock s.seen } where
  once := h.once
  covered r hr := (h.covered r hr).prune
  reading := h.reading
  asking := h.asking

/-- A call of the list after one of them has changed its phase. -/
theorem mem_set {index : Nat} {c d : AuthCall} {phase : CallPhase}
    (hd : d ∈ s.calls.set index { c with phase }) : d ∈ s.calls ∨ d = { c with phase } := by
  rcases List.mem_or_eq_of_mem_set hd with hd | hd
  · exact .inl hd
  · exact .inr hd

theorem Inv.inPhase (h : Inv a s) (index : Nat) (c : AuthCall) {phase : CallPhase}
    (hreading : phase ≠ .reading) (hasking : phase = .asking → c.request ∉ s.accepted) :
    Inv a (s.inPhase index c phase) := by
  refine ⟨h.once, h.covered, fun d hd hphase hmem => ?_, fun d hd hphase => ?_⟩
  · rcases mem_set hd with hd | rfl
    · exact h.reading d hd hphase hmem
    · exact absurd hphase hreading
  · rcases mem_set hd with hd | rfl
    · exact h.asking d hd hphase
    · exact hasking hphase

/-- Accepting a timely call whose request was not accepted before. -/
theorem Inv.accept (h : Inv a s) {index : Nat} {c : AuthCall} (hc : s.calls[index]? = some c)
    (hnew : c.request ∉ s.accepted) (htimely : Timely a s index c) : Inv a (s.accept index c) := by
  obtain ⟨halone, hby, hlast⟩ := htimely
  have hended : Inv a (s.inPhase index c .ended) := h.inPhase index c nofun nofun
  have hother : ∀ d ∈ (s.inPhase index c .ended).calls, d.phase ≠ .ended →
      d.request ≠ c.request := by
    intro d hd hphase
    obtain ⟨i, hi⟩ := List.mem_iff_getElem?.1 hd
    have hset : (s.calls.set index { c with phase := .ended })[i]? = some d := hi
    by_cases hsite : index = i
    · subst hsite
      have hlt : index < s.calls.length := (List.getElem?_eq_some_iff.1 hc).1
      rw [List.getElem?_set_self hlt] at hset
      rw [← Option.some.inj hset] at hphase
      exact absurd rfl hphase
    · rw [List.getElem?_set_ne hsite] at hset
      exact halone d (List.mem_eraseIdx_iff_getElem?.2 ⟨i, Ne.symm hsite, hset⟩) hphase
  refine ⟨?_, fun r hr => ?_, fun d hd hphase hmem => ?_, fun d hd hphase hmem => ?_⟩
  · refine List.Nodup.append h.once (List.nodup_singleton _) fun r hr hr' => hnew ?_
    exact List.mem_singleton.1 hr' ▸ hr
  · rcases List.mem_append.1 hr with hr | hr
    · exact (h.covered r hr).record hlast
    · rw [List.mem_singleton.1 hr]
      exact .inr ⟨c.began, Dict.get?_set_self _ _ _, hby⟩
  · rcases List.mem_append.1 hmem with hmem | hmem
    · exact hended.reading d hd hphase hmem
    · exact absurd (List.mem_singleton.1 hmem) (hother d hd (by simp [hphase]))
  · rcases List.mem_append.1 hmem with hmem | hmem
    · exact hended.asking d hd hphase hmem
    · exact absurd (List.mem_singleton.1 hmem) (hother d hd (by simp [hphase]))

/-! ## One step -/

theorem Inv.begin (h : Inv a s) (request : SignedRequest) (fingerprint : Option String) :
    Inv a (s.begin a request fingerprint) := by
  have hforget := h.forget
  unfold AuthRun.begin
  dsimp only
  split
  · exact hforget
  rename_i hunseen
  split
  · exact hforget
  have hnone : (prune s.clock s.seen).get? request.nonce = none := by
    simpa using hunseen
  refine ⟨h.once, hforget.covered, fun c hc hphase hmem => ?_, fun c hc hphase => ?_⟩
  · rcases List.mem_append.1 hc with hc | hc
    · exact h.reading c hc hphase hmem
    · rw [List.mem_singleton.1 hc] at hmem ⊢
      exact (hforget.covered request hmem).expired hnone
  · rcases List.mem_append.1 hc with hc | hc
    · exact h.asking c hc hphase
    · rw [List.mem_singleton.1 hc] at hphase
      cases hphase

theorem Inv.read (h : Inv a s) {index : Nat} {c : AuthCall} (hc : s.calls[index]? = some c)
    (hphase : c.phase = .reading)
    (hg : fresh a s.clock c.request = true → a.asksAuthority = false → a.signed c.request = true →
      Timely a s index c) : Inv a (s.read a index c) := by
  unfold AuthRun.read
  split
  · exact h.inPhase index c nofun nofun
  rename_i hfresh
  have hnew : c.request ∉ s.accepted := by
    intro hmem
    exact hfresh (not_fresh_of_expired (h.reading c (List.mem_of_getElem? hc) hphase hmem))
  split
  · exact h.inPhase index c nofun fun _ => hnew
  rename_i hlocal
  split
  · rename_i hsigned
    exact h.accept hc hnew (hg (by simpa using hfresh) (by simpa using hlocal) hsigned)
  · exact h.inPhase index c nofun nofun

theorem Inv.hear (h : Inv a s) {index : Nat} {c : AuthCall} (hc : s.calls[index]? = some c)
    (hphase : c.phase = .asking) (answer : AuthorityAnswer)
    (hg : answer = .accepted → Timely a s index c) : Inv a (s.hear index c answer) := by
  unfold AuthRun.hear
  split
  · rename_i haccepted
    exact h.accept hc (h.asking c (List.mem_of_getElem? hc) hphase) (hg haccepted)
  · exact h.inPhase index c nofun nofun

theorem Inv.step (h : Inv a s) {l : Label} (hg : Guarded a s l) : Inv a (step a s l) := by
  have hwait := h.wait l.elapsed
  cases l with
  | begins elapsed request fingerprint => exact hwait.begin request fingerprint
  | reads elapsed index =>
    unfold AuthRun.step advance
    dsimp only [Label.elapsed] at hwait ⊢
    cases hc : s.calls[index]? with
    | none => exact hwait
    | some c =>
      dsimp only
      split
      · rename_i hphase
        refine hwait.read hc hphase fun hfresh hlocal hsigned => hg (index, c) ?_
        simp [accepts?, hc, Option.filter, hphase, hfresh, hlocal, hsigned]
      · exact hwait
  | answered elapsed index answer =>
    unfold AuthRun.step advance
    dsimp only [Label.elapsed] at hwait ⊢
    cases hc : s.calls[index]? with
    | none => exact hwait
    | some c =>
      dsimp only
      split
      · rename_i hphase
        refine hwait.hear hc hphase answer fun haccepted => hg (index, c) ?_
        simp [accepts?, hc, Option.filter, hphase, haccepted]
      · exact hwait

/-! ## Runs -/

/-- **No request is accepted twice**: along every run of any number of calls, whatever their
interleaving, in which every call that is accepted is the only one under way for its request and has
begun late enough for its timestamp and not before what is recorded for its nonce. -/
theorem requests_accepted_once (a : Authenticator) (ls : List Label)
    (hg : Along (step a) (Guarded a) start ls) : States (step a) Once start ls :=
  (states_of_inv (fun _ _ h hl => h.step hl) (inv_start a) hg).mono fun _ h => h.once

end AuthRun

/-- A bridge that checks signatures itself, with signed requests of the hundredth second. -/
def localAuthenticator : Authenticator where
  int timestamp := if timestamp = "100" then some 100 else none
  signed _ := true

def pollRequest : SignedRequest := ⟨[], "100", "n1", "signature"⟩

/-- A request is accepted; a replay at once finds its nonce, a late one its timestamp out of the
window. -/
theorem requests_accepted_once_replayed :
    States (AuthRun.step localAuthenticator) AuthRun.Once AuthRun.start [
      .begins (100 * second) pollRequest none, .reads 0 0, .begins 0 pollRequest none,
      .begins (61 * second) pollRequest none, .reads 0 1] :=
  AuthRun.requests_accepted_once localAuthenticator _ (by decide +kernel)

/-- **Two concurrent replays are both accepted**: the second begins before the first is recorded. -/
theorem concurrent_replay_accepted :
    ¬(run (AuthRun.step localAuthenticator) AuthRun.start [
      .begins (100 * second) pollRequest none, .begins 0 pollRequest none,
      .reads 0 0, .reads 0 1]).Once := by
  decide +kernel

/-- So is a replay of a call whose body was slow to arrive: what it recorded is a minute old while its
timestamp still lies in the window. -/
example : ¬(run (AuthRun.step localAuthenticator) AuthRun.start [
    .begins (60 * second) pollRequest none, .reads (15 * second) 0,
    .begins (46 * second) pollRequest none, .reads 0 1]).Once := by
  decide

end Matrades
