import Matrades.Strategies.Proof.Ledger

/-!
# A breach stays

A recorded entry is *pending* while no stored candle has reached its bar. On orderly ticks, where no
new bar precedes a pending entry's bar and at most one has its time, at most one entry is pending
and the bar of its entry is the next one (`Steady.pending`). A trade that closes then leaves nothing
that could trade again, so a breach of the loss limits is final (`Steady.breached`). Without the
order a second bar of the same time can enter again on the same intent.
-/

namespace Matrades

open Base

/-! ## Pending entries -/

/-- Every recorded entry has been reached by a stored candle. -/
def NonePending (state : ForwardState) : Prop :=
  ∀ last ∈ state.candles.getLast?, ∀ k ∈ state.entryIntents.keys,
    k.instant ≤ last.observedAt.instant

/-- **No new bar precedes the bar of a pending entry, and at most one has its time.** -/
def Orderly (tf : Timeframe) (state : ForwardState) (tick : Tick) : Prop :=
  ∀ last ∈ state.candles.getLast?, ∀ k ∈ state.entryIntents.keys,
    last.observedAt.instant < k.instant →
      (∀ c ∈ arriving tf state tick, k.instant ≤ c.observedAt.instant) ∧
        ((arriving tf state tick).filter fun c => c.observedAt.instant = k.instant).length ≤ 1

section
variable (library : TechnicalLibrary) (zones : ZoneInfo) (spec : StrategySpecification)
  (tf : Timeframe) (configuration : BacktestConfiguration)

/-- What orderly ticks keep. -/
structure Steady (state : ForwardState) : Prop where
  session : PaperSession library zones spec configuration state
  pending : ∀ last ∈ state.candles.getLast?, ∀ k ∈ state.entryIntents.keys,
    last.observedAt.instant < k.instant → k = last.observedAt.plus tf.period
  opened : state.openPositions ≠ [] → NonePending state
  breached : state.policyPassed = some false → state.openPositions = [] ∧ NonePending state

variable {library zones spec tf configuration} {state : ForwardState} {tick : Tick}
  {o : Observation}

theorem Fresh.steady (h : Fresh state) : Steady library zones spec tf configuration state where
  session := h.session
  pending := by simp [h.candles]
  opened := fun hne => absurd h.positions hne
  breached := by simp [h.policy]

theorem openPositions_eq_nil {s : Simulation} : s.openPositions = [] ↔ s.trade = none := by
  unfold Simulation.openPositions
  cases s.trade <;> simp

/-! ## What the new bars may enter -/

/-- A bar that may be entered has a pending entry's time. -/
theorem pending_of_allowed {last c : BacktestCandle} {news : Dict AwareTime NewsState}
    {calendar : Option (List CalendarEvent)} (hlast : state.candles.getLast? = some last)
    (hc : c ∈ arriving tf state tick)
    (h : entryAllowed zones spec (replayOf state news calendar) c.observedAt = true) :
    c.observedAt ∈ state.entryIntents.keys ∧
      last.observedAt.instant < c.observedAt.instant := by
  refine ⟨?_, newCandles_after hlast hc⟩
  simpa [entryAllowed, replayOf] using h

theorem allowed_eq_false {last c : BacktestCandle} {news : Dict AwareTime NewsState}
    {calendar : Option (List CalendarEvent)} (hlast : state.candles.getLast? = some last)
    (hnone : NonePending state) (hc : c ∈ arriving tf state tick) :
    entryAllowed zones spec (replayOf state news calendar) c.observedAt = false := by
  rw [Bool.eq_false_iff]
  intro h
  obtain ⟨hk, hlt⟩ := pending_of_allowed hlast hc h
  have hle := hnone last hlast _ hk
  omega

/-- On an orderly tick at most one new bar may be entered. -/
theorem Steady.one_allowed (hs : Steady library zones spec tf configuration state)
    (hord : Orderly tf state tick) {last : BacktestCandle}
    (hlast : state.candles.getLast? = some last) (news : Dict AwareTime NewsState)
    (calendar : Option (List CalendarEvent)) :
    ((arriving tf state tick).filter fun c =>
      entryAllowed zones spec (replayOf state news calendar) c.observedAt).length ≤ 1 := by
  by_cases hex : ∃ k ∈ state.entryIntents.keys, last.observedAt.instant < k.instant
  · obtain ⟨k, hk, hlt⟩ := hex
    have hone := (hord last hlast k hk hlt).2
    have hkeq := hs.pending last hlast k hk hlt
    refine le_trans (List.Sublist.length_le ?_) hone
    rw [List.filter_congr (q := fun c => decide (c.observedAt.instant = k.instant) &&
      entryAllowed zones spec (replayOf state news calendar) c.observedAt)]
    · rw [← List.filter_filter]
      exact List.filter_sublist.filter _
    · intro c hc
      cases ha : entryAllowed zones spec (replayOf state news calendar) c.observedAt with
      | false => simp
      | true =>
        obtain ⟨hck, hclt⟩ := pending_of_allowed hlast hc ha
        have hceq := hs.pending last hlast _ hck hclt
        simp [hceq, hkeq]
  · have hnil : (arriving tf state tick).filter (fun c =>
        entryAllowed zones spec (replayOf state news calendar) c.observedAt) = [] := by
      apply List.filter_eq_nil_iff.2
      intro c hc ha
      obtain ⟨hck, hclt⟩ := pending_of_allowed hlast hc ha
      exact hex ⟨_, hck, hclt⟩
    rw [hnil]
    exact Nat.zero_le 1

/-! ## A tick -/

theorem Steady.closedOrFlat (hc : Causal library)
    (hs : Steady library zones spec tf configuration state) (hord : Orderly tf state tick)
    (ho : Observed library zones spec tf configuration state tick o) {simulation : Simulation}
    {account : AccountMetrics}
    (hr : Replayed library zones spec configuration state simulation account) :
    ClosedOrFlat simulation o.simulation := by
  have hne : state.candles ≠ [] := List.ne_nil_of_length_pos (by have := hr.long; omega)
  obtain ⟨last, hlast⟩ := exists_last hne
  obtain ⟨rules, bars, -, hbars, -, hsim⟩ := ho.resume hc hs.session hr
  rw [hsim]
  cases htrade : simulation.trade with
  | none =>
    apply simulateBars_once htrade
    have hone := hs.one_allowed hord hlast (o.news spec tf state tick) tick.calendar
    rw [← hbars, List.filter_map, List.length_map] at hone
    exact hone
  | some trade =>
    apply simulateBars_closedOrFlat
    intro bar hbar
    have hopen : state.openPositions ≠ [] := by
      rw [hr.positions]
      intro hnil
      rw [openPositions_eq_nil.1 hnil] at htrade
      cases htrade
    apply allowed_eq_false hlast (hs.opened hopen)
    rw [← hbars]
    exact List.mem_map_of_mem hbar

/-- With no entry pending and no position open the replay adds nothing. -/
theorem Steady.unchanged (hc : Causal library)
    (hs : Steady library zones spec tf configuration state)
    (ho : Observed library zones spec tf configuration state tick o) {simulation : Simulation}
    {account : AccountMetrics}
    (hr : Replayed library zones spec configuration state simulation account)
    (hflat : state.openPositions = []) (hnone : NonePending state) :
    o.simulation = simulation := by
  have hne : state.candles ≠ [] := List.ne_nil_of_length_pos (by have := hr.long; omega)
  obtain ⟨last, hlast⟩ := exists_last hne
  obtain ⟨rules, bars, -, hbars, -, hsim⟩ := ho.resume hc hs.session hr
  rw [hsim]
  apply simulateBars_quiet
  · rw [← openPositions_eq_nil, ← hr.positions]
    exact hflat
  · intro bar hbar
    apply allowed_eq_false hlast hnone
    rw [← hbars]
    exact List.mem_map_of_mem hbar

theorem Fresh.keys (h : Fresh state) : state.entryIntents.keys = [] := by
  rw [h.intents]
  rfl

/-- Without recorded entries nothing is simulated. -/
theorem Fresh.flat (hf : Fresh state)
    (ho : Observed library zones spec tf configuration state tick o) : o.simulation = {} := by
  obtain ⟨rules, series, -, -, hsim⟩ := simulate_run ho.simulation
  rw [hsim]
  apply simulateBars_quiet rfl
  intro bar _
  simp [entryAllowed, replayOf, hf.keys]

/-- An entry that stays pending sees no new bar. -/
theorem Steady.waits (hs : Steady library zones spec tf configuration state)
    (hord : Orderly tf state tick)
    (ho : Observed library zones spec tf configuration state tick o) {k : AwareTime}
    (hk : k ∈ state.entryIntents.keys) (hlt : o.last.observedAt.instant < k.instant) :
    ∃ last, state.candles.getLast? = some last ∧ o.last = last ∧ arriving tf state tick = [] := by
  have hne : state.candles ≠ [] := by
    intro hnil
    rcases hs.session.ledger with hf | ⟨simulation, account, hr⟩
    · rw [hf.keys] at hk
      cases hk
    · have := hr.long
      rw [hnil] at this
      simp at this
  obtain ⟨last, hlast⟩ := exists_last hne
  have hmem : last ∈ o.frozen := by
    rw [ho.frozen_eq]
    exact List.mem_append_left _ (List.mem_of_getLast? hlast)
  have hle : last.observedAt.instant ≤ o.last.observedAt.instant :=
    le_getLast (ho.sorted hs.session) ho.last hmem
  have hnone : arriving tf state tick = [] := by
    rw [List.eq_nil_iff_forall_not_mem]
    intro c hc
    have hkc := (hord last hlast k hk (by omega)).1 c hc
    have hcf : c ∈ o.frozen := by
      rw [ho.frozen_eq]
      exact List.mem_append_right _ hc
    have hcl : c.observedAt.instant ≤ o.last.observedAt.instant :=
      le_getLast (ho.sorted hs.session) ho.last hcf
    omega
  refine ⟨last, hlast, ?_, hnone⟩
  have hlast' := ho.last
  rw [ho.frozen_eq, hnone, List.append_nil, hlast] at hlast'
  cases hlast'
  rfl

theorem Observed.same (hc : Causal library) (hs : Steady library zones spec tf configuration state)
    (ho : Observed library zones spec tf configuration state tick o) {simulation : Simulation}
    {account : AccountMetrics}
    (hr : Replayed library zones spec configuration state simulation account)
    (hnone : arriving tf state tick = []) : o.simulation = simulation := by
  obtain ⟨rules, bars, -, hbars, -, hsim⟩ := ho.resume hc hs.session hr
  rw [hnone, List.map_eq_nil_iff] at hbars
  rw [hsim, hbars]
  rfl

/-- The same closed trades make the same account. -/
theorem Observed.policy_same (ho : Observed library zones spec tf configuration state tick o)
    {simulation : Simulation} {account : AccountMetrics}
    (hr : Replayed library zones spec configuration state simulation account)
    (htrades : o.simulation.trades = simulation.trades)
    (hattr : o.simulation.attribution = simulation.attribution) :
    state.policyPassed = some (o.policy configuration) := by
  have hacc := ho.account
  rw [htrades, hattr, hr.accounted] at hacc
  cases hacc
  exact hr.policy

/-- **A breached policy stays breached.** -/
theorem Steady.policy_stays (hc : Causal library)
    (hs : Steady library zones spec tf configuration state)
    (ho : Observed library zones spec tf configuration state tick o)
    (hp : state.policyPassed = some false) : o.policy configuration = false := by
  rcases hs.session.ledger with hf | ⟨simulation, account, hr⟩
  · rw [hf.policy] at hp
    cases hp
  · obtain ⟨hflat, hnone⟩ := hs.breached hp
    have hsame := hs.unchanged hc ho hr hflat hnone
    have hpol := ho.policy_same hr (by rw [hsame]) (by rw [hsame])
    rw [hp] at hpol
    exact (Option.some.inj hpol).symm

/-- No entry is pending, or no bar was new and the entries are the stored ones. -/
theorem Steady.nonePending (hs : Steady library zones spec tf configuration state)
    (hord : Orderly tf state tick)
    (ho : Observed library zones spec tf configuration state tick o)
    (hkeys : (o.intents zones spec tf configuration state tick) = state.entryIntents)
    (h : arriving tf state tick = [] → NonePending state) :
    NonePending (o.ledger zones spec tf configuration state tick) := by
  intro last hlast k hk
  rw [show (o.ledger zones spec tf configuration state tick).candles.getLast? = some o.last from
    ho.last] at hlast
  cases hlast
  change k ∈ (o.intents zones spec tf configuration state tick).keys at hk
  rw [hkeys] at hk
  by_contra hlt
  obtain ⟨last, hlast, heq, hnone⟩ := hs.waits hord ho hk (not_le.1 hlt)
  rw [heq] at hlt
  exact hlt (h hnone last hlast k hk)

theorem intents_eq_of_not {o : Observation}
    (h : o.flat = true → o.policy configuration = true → False) :
    o.intents zones spec tf configuration state tick = state.entryIntents := by
  rcases recordIntent_cases tf state (o.setup zones spec state tick) o.flat
    (o.policy configuration) (o.missing zones spec tf state) tick.now (o.entryTime tf) with hi | hi
  · exact hi
  · exact (h hi.1 hi.2.1).elim

/-- **Orderly ticks keep a session steady.** -/
theorem Steady.step (hc : Causal library)
    (hs : Steady library zones spec tf configuration state) (hord : Orderly tf state tick) :
    Steady library zones spec tf configuration
      (paperTick library zones spec tf configuration state tick) := by
  rcases paperTick_cases library zones spec tf configuration state tick with h | ⟨o, ho, h⟩
  · rw [h]
    exact hs
  rw [h]
  refine ⟨⟨ho.sorted hs.session, .inr ⟨_, _, ho.replayed hs.session⟩⟩, ?_, ?_, ?_⟩
  · intro last hlast k hk hlt
    rw [show (o.ledger zones spec tf configuration state tick).candles.getLast? = some o.last from
      ho.last] at hlast
    cases hlast
    rcases mem_intents hk with rfl | hk
    · rfl
    · obtain ⟨last, hlast, heq, -⟩ := hs.waits hord ho hk hlt
      rw [heq] at hlt ⊢
      exact hs.pending last hlast k hk hlt
  · -- A position is open: nothing was recorded.
    intro hopen
    have hflat : o.flat = false := by
      rw [Bool.eq_false_iff]
      exact fun hf => hopen (List.isEmpty_iff.1 hf)
    apply hs.nonePending hord ho (intents_eq_of_not fun hf _ => by rw [hflat] at hf; cases hf)
    intro hnone
    rcases hs.session.ledger with hf | ⟨simulation, account, hr⟩
    · intro last _ k hk
      rw [hf.keys] at hk
      cases hk
    · apply hs.opened
      rw [hr.positions, ← ho.same hc hs hr hnone]
      exact hopen
  · -- The policy is breached: nothing was recorded, and what closed last left nothing open.
    intro hbreach
    have hpol : o.policy configuration = false := Option.some.inj hbreach
    have hkeys : o.intents zones spec tf configuration state tick = state.entryIntents :=
      intents_eq_of_not fun _ hp => by rw [hpol] at hp; cases hp
    rcases hs.session.ledger with hf | ⟨simulation, account, hr⟩
    · refine ⟨?_, hs.nonePending hord ho hkeys fun _ last _ k hk => ?_⟩
      · change o.simulation.openPositions = []
        rw [hf.flat ho]
        rfl
      · rw [hf.keys] at hk
        cases hk
    · refine ⟨?_, hs.nonePending hord ho hkeys fun hnone => ?_⟩
      · change o.simulation.openPositions = []
        rcases hs.closedOrFlat hc hord ho hr with ⟨htrades, hattr⟩ | hflat
        · have hp := ho.policy_same hr htrades hattr
          rw [hpol] at hp
          obtain ⟨hflat, hn⟩ := hs.breached hp
          rw [hs.unchanged hc ho hr hflat hn, ← hr.positions]
          exact hflat
        · exact openPositions_eq_nil.2 hflat
      · have hsame := ho.same hc hs hr hnone
        have hp := ho.policy_same hr (by rw [hsame]) (by rw [hsame])
        rw [hpol] at hp
        exact (hs.breached hp).2

/-! ## No new entries -/

/-- A session whose evidence has failed. -/
def Failed (state : ForwardState) : Prop :=
  state.policyPassed = some false ∨ state.dataComplete = some false

theorem blockSetup_status {setup : IndicativeSetup} {reason : Option String} (h : reason ≠ none) :
    (blockSetup setup reason).status ≠ .signal := by
  cases reason with
  | none => exact absurd rfl h
  | some text =>
    simp only [blockSetup]
    split
    · rename_i hclosed
      rw [hclosed]
      simp
    · simp [IndicativeSetup.withdrawn]

/-- A failed session offers no entry. -/
theorem Failed.no_signal (h : Failed state) (o : Observation) :
    (o.setup zones spec state tick).status ≠ .signal := by
  apply blockSetup_status
  unfold blockReason
  rcases h with h | h
  · simp [h]
  · by_cases hp : state.policyPassed = some false
    · simp [hp]
    · simp [h, hp]

theorem intents_of_no_signal {o : Observation}
    (h : (o.setup zones spec state tick).status ≠ .signal) :
    o.intents zones spec tf configuration state tick = state.entryIntents := by
  rcases recordIntent_cases tf state (o.setup zones spec state tick) o.flat
    (o.policy configuration) (o.missing zones spec tf state) tick.now (o.entryTime tf) with hi | hi
  · exact hi
  · have hrec := hi.2.2.2.1
    simp [recordable, h] at hrec

/-- **A failed session records no entry.** -/
theorem Failed.intents (h : Failed state) (tick : Tick) :
    (paperTick library zones spec tf configuration state tick).entryIntents =
      state.entryIntents := by
  rcases paperTick_cases library zones spec tf configuration state tick with ht | ⟨o, ho, ht⟩
  · rw [ht]
  · rw [ht]
    exact intents_of_no_signal (h.no_signal o)

/-- **Nor does the tick that finds the failure.** -/
theorem intents_of_failed
    (h : Failed (paperTick library zones spec tf configuration state tick)) :
    (paperTick library zones spec tf configuration state tick).entryIntents =
      state.entryIntents := by
  rcases paperTick_cases library zones spec tf configuration state tick with ht | ⟨o, ho, ht⟩
  · rw [ht]
  · rw [ht] at h ⊢
    change o.intents zones spec tf configuration state tick = state.entryIntents
    rcases recordIntent_cases tf state (o.setup zones spec state tick) o.flat
      (o.policy configuration) (o.missing zones spec tf state) tick.now (o.entryTime tf) with
      hi | ⟨-, hpol, hmiss, hrec, -⟩
    · exact hi
    · rcases h with hp | hd
      · have hp : some (o.policy configuration) = some false := hp
        rw [hpol] at hp
        cases hp
      · -- Nothing is missing on this tick, so the history was incomplete before it.
        have hd : some (state.dataComplete.getD true && !o.missing zones spec tf state) =
            some false := hd
        rw [hmiss] at hd
        have hdc : state.dataComplete = some false := by
          cases hs : state.dataComplete with
          | none => simp [hs] at hd
          | some b => cases b <;> simp_all
        exact intents_of_no_signal (Failed.no_signal (.inr hdc) o)

theorem dataComplete_stays (h : state.dataComplete = some false) (tick : Tick) :
    (paperTick library zones spec tf configuration state tick).dataComplete = some false := by
  rcases paperTick_cases library zones spec tf configuration state tick with ht | ⟨o, ho, ht⟩
  · rw [ht]
    exact h
  · rw [ht]
    change some (state.dataComplete.getD true && !o.missing zones spec tf state) = some false
    rw [h]
    rfl

theorem Steady.policyPassed_stays (hc : Causal library)
    (hs : Steady library zones spec tf configuration state)
    (h : state.policyPassed = some false) (tick : Tick) :
    (paperTick library zones spec tf configuration state tick).policyPassed = some false := by
  rcases paperTick_cases library zones spec tf configuration state tick with ht | ⟨o, ho, ht⟩
  · rw [ht]
    exact h
  · rw [ht]
    exact congrArg some (hs.policy_stays hc ho h)

/-! ## Runs -/

theorem steady_run (hc : Causal library) {ticks : List Tick}
    (hs : Steady library zones spec tf configuration state)
    (hord : Along (paperTick library zones spec tf configuration) (Orderly tf) state ticks) :
    Steady library zones spec tf configuration
      (run (paperTick library zones spec tf configuration) state ticks) :=
  run_inv (fun _ _ hs hord => hs.step hc hord) hs hord

theorem failed_run (hc : Causal library) {ticks : List Tick}
    (hs : Steady library zones spec tf configuration state)
    (hord : Along (paperTick library zones spec tf configuration) (Orderly tf) state ticks) :
    (state.policyPassed = some false →
      (run (paperTick library zones spec tf configuration) state ticks).policyPassed =
        some false) ∧
    (state.dataComplete = some false →
      (run (paperTick library zones spec tf configuration) state ticks).dataComplete =
        some false) ∧
    (Failed state →
      (run (paperTick library zones spec tf configuration) state ticks).entryIntents =
        state.entryIntents) := by
  induction ticks generalizing state with
  | nil => exact ⟨id, id, fun _ => rfl⟩
  | cons tick ticks ih =>
    obtain ⟨hp, hd, hi⟩ := ih (hs.step hc hord.1) hord.2
    refine ⟨fun h => hp (hs.policyPassed_stays hc h tick), fun h => hd (dataComplete_stays h tick),
      fun h => ?_⟩
    rw [run_cons, ← h.intents tick]
    exact hi (h.imp (hs.policyPassed_stays hc · tick) (dataComplete_stays · tick))

/-- **On orderly ticks a failure is final**: both flags stay false, and neither the tick that finds
the failure nor a later one records an entry. -/
theorem breach_is_final (hc : Causal library) (hf : Fresh state) {ticks : List Tick}
    (hord : Along (paperTick library zones spec tf configuration) (Orderly tf) state ticks)
    (earlier later : List Tick) (hsplit : ticks = earlier ++ later) :
    ((run (paperTick library zones spec tf configuration) state earlier).policyPassed =
        some false →
      (run (paperTick library zones spec tf configuration) state ticks).policyPassed =
        some false) ∧
    ((run (paperTick library zones spec tf configuration) state earlier).dataComplete =
        some false →
      (run (paperTick library zones spec tf configuration) state ticks).dataComplete =
        some false) ∧
    (Failed (run (paperTick library zones spec tf configuration) state earlier) →
      (run (paperTick library zones spec tf configuration) state ticks).entryIntents =
        (run (paperTick library zones spec tf configuration) state earlier.dropLast).entryIntents) :=
  by
  subst hsplit
  rw [along_append] at hord
  have hs := steady_run hc hf.steady hord.1
  obtain ⟨hp, hd, hi⟩ := failed_run hc hs hord.2
  rw [run_append]
  refine ⟨hp, hd, fun h => (hi h).trans ?_⟩
  rcases List.eq_nil_or_concat earlier with rfl | ⟨before, tick, rfl⟩
  · rfl
  · rw [List.concat_eq_append, List.dropLast_concat]
    rw [List.concat_eq_append, run_append] at h
    rw [run_append]
    exact intents_of_failed h

end

/-! ## A breach and a second bar of the same time -/

instance (tf : Timeframe) (state : ForwardState) (tick : Tick) : Decidable (Orderly tf state tick) :=
  by unfold Orderly; infer_instance

theorem ten_pos : (0 : ℚ) < 10 := by norm_num

theorem ten_le_hundred : (10 : ℚ) ≤ 100 := by norm_num

theorem daily_limits_pos : (0 : ℚ) < 500 ∧ (0 : ℚ) < 1000000 := by norm_num

theorem close_nonempty : [(⟨"close", .gt, .number 0⟩ : Condition)] ≠ [] := List.cons_ne_nil _ _

/-- Buys at every bar. -/
def alwaysStrategy : StrategySpecification :=
  { rangeStrategy with
    entry := [⟨"close", .gt, .number 0⟩]
    riskPerTrade := 10
    entry_nonempty := close_nonempty
    risk_pos := ten_pos
    risk_le := ten_le_hundred }

def dailyLimitAccount : BacktestConfiguration :=
  { plainAccount with
    maxDailyLoss := 500
    limits_pos := daily_limits_pos }

def quarterHour : Timeframe := ⟨900, by norm_num⟩

def quarterSession : ForwardState where
  startedAt := ⟨6 * 900000000, 0⟩

theorem quarterSession_fresh : Fresh quarterSession := ⟨rfl, rfl, rfl, rfl, rfl, rfl⟩

def warmUp : List BacktestCandle := (List.range 6).map fun n => quarterBar n 101 99

/-- The tick at the opening of bar number `n`. -/
def tickAt (n : ℕ) (incoming : List BacktestCandle) : Tick where
  incoming
  now := ⟨n * 900000000, 0⟩

def paperRun : List Tick → ForwardState :=
  run (paperTick trangeLibrary utcOnly alwaysStrategy quarterHour dailyLimitAccount) quarterSession

/-- A bar that hits the stop. -/
def stopBar : BacktestCandle := quarterBar 6 101 90

def stopTick : Tick := tickAt 7 (warmUp ++ [stopBar])

/-- The same, with a second bar of the same time. -/
def doubleTick : Tick := tickAt 7 (warmUp ++ [stopBar, quarterBar 6 101 99])

/-- The next bar reaches the target of the second entry. -/
def targetTick : Tick :=
  tickAt 8 (warmUp ++ [stopBar, quarterBar 6 101 99, quarterBar 7 104 99])

/-- With one bar of each time the breach is final, and nothing more is recorded. -/
theorem breach_is_final_quarter :
    (paperRun [tickAt 6 warmUp, stopTick, targetTick]).policyPassed = some false ∧
      (paperRun [tickAt 6 warmUp, stopTick, targetTick]).entryIntents =
        (paperRun [tickAt 6 warmUp]).entryIntents := by
  have hord : Along (paperTick trangeLibrary utcOnly alwaysStrategy quarterHour dailyLimitAccount)
      (Orderly quarterHour) quarterSession [tickAt 6 warmUp, stopTick, targetTick] := by
    refine ⟨?_, ?_, ?_, trivial⟩ <;> decide +kernel
  have hbreach : (paperRun [tickAt 6 warmUp, stopTick]).policyPassed = some false := by
    decide +kernel
  obtain ⟨hp, -, hi⟩ := breach_is_final trangeLibrary_causal quarterSession_fresh hord
    [tickAt 6 warmUp, stopTick] [targetTick] rfl
  exact ⟨hp hbreach, hi (.inl hbreach)⟩

/-- **The second bar enters again on the intent of the first; its profit lifts the breach.** -/
theorem breach_recovers :
    (paperRun [tickAt 6 warmUp, doubleTick]).policyPassed = some false ∧
      (paperRun [tickAt 6 warmUp, doubleTick, targetTick]).policyPassed = some true ∧
      (paperRun [tickAt 6 warmUp, doubleTick, targetTick, targetTick]).entryIntents.keys ≠
        (paperRun [tickAt 6 warmUp, doubleTick]).entryIntents.keys := by
  decide +kernel

end Matrades
