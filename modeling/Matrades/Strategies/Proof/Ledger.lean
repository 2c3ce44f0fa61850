import Matrades.Backtesting.Proof.Resume
import Matrades.Base.Run
import Matrades.Strategies.Monitoring

/-!
# What a tick of a paper session does

`Observed state tick o`: the computations of a tick return, with the results `o`; the tick then
stores `o.ledger`, and a tick that raises stores nothing (`paperTick_cases`). Behind it the facts
every property of the paper ledger rests on: the stored candles are in order, a tick only appends to
them, and intents are only added, behind the last stored candle.
-/

namespace Matrades

open Base

/-! ## Candles in order -/

theorem le_getLast {candles : List BacktestCandle} (h : candles.Pairwise NotAfter)
    {last : BacktestCandle} (hlast : candles.getLast? = some last) {c : BacktestCandle}
    (hc : c ∈ candles) : NotAfter c last := by
  obtain ⟨init, rfl⟩ := List.getLast?_eq_some_iff.1 hlast
  rcases List.mem_append.1 hc with hc | hc
  · exact (List.pairwise_append.1 h).2.2 c hc last (List.mem_singleton.2 rfl)
  · rw [List.mem_singleton.1 hc]
    exact le_refl _

theorem completedCandles_sorted (incoming : List BacktestCandle) (now : AwareTime) (period : ℤ) :
    (completedCandles incoming now period).Pairwise NotAfter := by
  have htotal : Std.Total NotAfter := ⟨fun a b => le_total _ _⟩
  have htrans : IsTrans BacktestCandle NotAfter := ⟨fun a b c hab hbc => le_trans hab hbc⟩
  exact List.pairwise_insertionSort _ _

theorem newCandles_sublist (stored closed : List BacktestCandle) :
    (newCandles stored closed).Sublist closed := by
  unfold newCandles
  split
  · exact List.drop_sublist _ _
  · exact List.filter_sublist

theorem newCandles_after {stored closed : List BacktestCandle} {last : BacktestCandle}
    (hlast : stored.getLast? = some last) {c : BacktestCandle} (hc : c ∈ newCandles stored closed) :
    last.observedAt.instant < c.observedAt.instant := by
  unfold newCandles at hc
  rw [hlast] at hc
  simpa using (List.mem_filter.1 hc).2

/-- Freezing keeps the stored candles in order. -/
theorem freeze_sorted {stored closed : List BacktestCandle} (hs : stored.Pairwise NotAfter)
    (hc : closed.Pairwise NotAfter) : (freeze stored closed).Pairwise NotAfter := by
  unfold freeze
  rw [List.pairwise_append]
  refine ⟨hs, hc.sublist (newCandles_sublist stored closed), fun a ha b hb => ?_⟩
  cases hlast : stored.getLast? with
  | none =>
    rw [List.getLast?_eq_none_iff] at hlast
    rw [hlast] at ha
    cases ha
  | some last => exact le_trans (le_getLast hs hlast ha) (newCandles_after hlast hb).le

/-- Freezing the same candles again adds nothing. -/
theorem newCandles_again {stored closed : List BacktestCandle} (hs : stored.Pairwise NotAfter)
    (hc : closed.Pairwise NotAfter) (hne : freeze stored closed ≠ []) :
    newCandles (freeze stored closed) closed = [] := by
  obtain ⟨last, hlast⟩ := Option.ne_none_iff_exists'.1 (mt List.getLast?_eq_none_iff.1 hne)
  have hbound : ∀ c ∈ closed, NotAfter c last := by
    intro c hmem
    cases hstored : stored.getLast? with
    | none =>
      have hnil := List.getLast?_eq_none_iff.1 hstored
      have hclosed : closed.getLast? = some last := by
        have hwarm : freeze stored closed = closed.drop (closed.length - 100) := by
          unfold freeze newCandles lastN
          rw [hnil]
          rfl
        rw [hwarm] at hlast
        have hdrop : closed.drop (closed.length - 100) <:+ closed := List.drop_suffix _ _
        obtain ⟨init, hinit⟩ := hdrop
        rw [← hinit, List.getLast?_append, hlast]
        rfl
      exact le_getLast hc hclosed hmem
    | some old =>
      by_cases hnew : old.observedAt.instant < c.observedAt.instant
      · apply le_getLast (freeze_sorted hs hc) hlast
        unfold freeze newCandles
        rw [hstored]
        exact List.mem_append_right _ (List.mem_filter.2 ⟨hmem, by simpa using hnew⟩)
      · have hold : NotAfter old last :=
          le_getLast (freeze_sorted hs hc) hlast
            (List.mem_append_left _ (List.mem_of_getLast? hstored))
        exact le_trans (not_lt.1 hnew) hold
  unfold newCandles
  rw [hlast]
  apply List.filter_eq_nil_iff.2
  intro c hmem
  rw [decide_eq_true_eq, not_lt]
  exact hbound c hmem

/-- The candles a tick adds. -/
def arriving (tf : Timeframe) (state : ForwardState) (tick : Tick) : List BacktestCandle :=
  newCandles state.candles (completedCandles tick.incoming tick.now tf.period)

theorem exists_last {candles : List BacktestCandle} (h : candles ≠ []) :
    ∃ last, candles.getLast? = some last :=
  Option.ne_none_iff_exists'.1 (mt List.getLast?_eq_none_iff.1 h)

/-! ## The computations of a tick -/

section
variable (library : TechnicalLibrary) (zones : ZoneInfo) (spec : StrategySpecification)
  (tf : Timeframe) (configuration : BacktestConfiguration)

/-- The results of the computations of a tick. -/
structure Observation where
  frozen : List BacktestCandle
  last : BacktestCandle
  built : IndicativeSetup
  simulation : Simulation
  account : AccountMetrics

namespace Observation

/-- The opening of the bar a signal of this tick would be filled at. -/
def entryTime (o : Observation) : AwareTime := o.last.observedAt.plus tf.period

def setup (state : ForwardState) (tick : Tick) (o : Observation) : IndicativeSetup :=
  blockSetup o.built (blockReason zones spec state tick.now tick.calendar true)

def news (state : ForwardState) (tick : Tick) (o : Observation) : Dict AwareTime NewsState :=
  recordNews spec state tick.now (o.entryTime tf) tf tick.calendar

def missing (state : ForwardState) (o : Observation) : Bool :=
  hasMissing zones spec.assetClass tf.period state.startedAt o.frozen

def policy (o : Observation) : Bool := o.account.policyPassed configuration

def flat (o : Observation) : Bool := o.simulation.openPositions.isEmpty

def intents (state : ForwardState) (tick : Tick) (o : Observation) : Dict AwareTime EntryIntent :=
  recordIntent tf state (o.setup zones spec state tick) o.flat (o.policy configuration)
    (o.missing zones spec tf state) tick.now (o.entryTime tf)

/-- What the tick stores. -/
def ledger (state : ForwardState) (tick : Tick) (o : Observation) : ForwardState :=
  ledgerAfter zones spec tf configuration state tick o.frozen o.last (o.setup zones spec state tick)
    o.simulation o.account

end Observation

/-- The computations of a tick return. -/
structure Observed (state : ForwardState) (tick : Tick) (o : Observation) : Prop where
  frozen : frozenCandles state.candles tick.incoming tick.now tf.period = .ok o.frozen
  last : o.frozen.getLast? = some o.last
  built : buildStrategySetup library zones spec o.frozen tick.now tf configuration.tickSize
    tick.calendar = .ok o.built
  simulation : simulateProtectedTrades library zones spec o.frozen configuration
    (replayOf state (o.news spec tf state tick) tick.calendar) = .ok o.simulation
  account : riskNormalizedAccountMetrics o.simulation.trades
    (o.simulation.attribution.map TradeFill.exitedAt) configuration spec.riskPerTrade =
      .ok o.account

variable {library zones spec tf configuration} {state : ForwardState} {tick : Tick}

theorem observe_ok {state' : ForwardState}
    (h : observe library zones spec tf configuration state tick true = .ok state') :
    ∃ o, Observed library zones spec tf configuration state tick o ∧
      state' = o.ledger zones spec tf configuration state tick := by
  unfold observe at h
  obtain ⟨frozen, hf, h⟩ := ok_of_bind h
  cases hl : frozen.getLast? with
  | none => simp [hl] at h
  | some last =>
    simp only [hl, if_true] at h
    obtain ⟨built, hb, h⟩ := ok_of_bind h
    unfold paperLedger at h
    obtain ⟨simulation, hs, h⟩ := ok_of_bind h
    obtain ⟨account, ha, h⟩ := ok_of_bind h
    cases h
    exact ⟨⟨frozen, last, built, simulation, account⟩, ⟨hf, hl, hb, hs, ha⟩, rfl⟩

theorem Observed.observe {o : Observation}
    (h : Observed library zones spec tf configuration state tick o) :
    observe library zones spec tf configuration state tick true =
      .ok (o.ledger zones spec tf configuration state tick) := by
  unfold Matrades.observe
  rw [bind_ok_eq h.frozen]
  simp only [h.last, if_true]
  rw [bind_ok_eq h.built]
  have hs : simulateProtectedTrades library zones spec o.frozen configuration
      (replayOf state (recordNews spec state tick.now (o.last.observedAt.plus tf.period) tf
        tick.calendar) tick.calendar) = .ok o.simulation := h.simulation
  unfold paperLedger
  dsimp only
  rw [bind_ok_eq hs, bind_ok_eq h.account]
  rfl

variable (library zones spec tf configuration) in
/-- A tick stores what it computed, or nothing. -/
theorem paperTick_cases (state : ForwardState) (tick : Tick) :
    paperTick library zones spec tf configuration state tick = state ∨
      ∃ o, Observed library zones spec tf configuration state tick o ∧
        paperTick library zones spec tf configuration state tick =
          o.ledger zones spec tf configuration state tick := by
  unfold paperTick
  cases h : Matrades.observe library zones spec tf configuration state tick true with
  | error e => exact .inl rfl
  | ok state' =>
    obtain ⟨o, ho, rfl⟩ := observe_ok h
    exact .inr ⟨o, ho, rfl⟩

theorem Observed.paperTick {o : Observation}
    (h : Observed library zones spec tf configuration state tick o) :
    paperTick library zones spec tf configuration state tick =
      o.ledger zones spec tf configuration state tick := by
  unfold Matrades.paperTick
  rw [h.observe]

/-! ## What a tick stores -/

theorem frozenCandles_ok {stored incoming frozen : List BacktestCandle} {now : AwareTime}
    {period : ℤ} (h : frozenCandles stored incoming now period = .ok frozen) :
    6 ≤ (completedCandles incoming now period).length ∧
      frozen = freeze stored (completedCandles incoming now period) := by
  unfold frozenCandles at h
  obtain ⟨hlen, h⟩ := ok_of_guard h
  obtain ⟨-, -, h⟩ := ok_of_bind h
  obtain ⟨-, h⟩ := ok_of_guard h
  cases h
  exact ⟨not_lt.1 hlen, rfl⟩

/-- At least six candles are stored. -/
theorem six_le_freeze {stored closed : List BacktestCandle} (h : 6 ≤ closed.length)
    (hs : stored = [] ∨ 6 ≤ stored.length) : 6 ≤ (freeze stored closed).length := by
  unfold freeze
  rw [List.length_append]
  rcases hs with rfl | hs
  · simp only [newCandles, lastN, List.getLast?_nil, List.length_drop, List.length_nil]
    omega
  · omega

/-! ## Intents and news states -/

variable (tf) in
/-- **An intent is recorded while flat, on a complete history and within the policy, or nothing
changes.** -/
theorem recordIntent_cases (state : ForwardState) (setup : IndicativeSetup)
    (flat policy missing : Bool) (now entryTime : AwareTime) :
    recordIntent tf state setup flat policy missing now entryTime = state.entryIntents ∨
      flat = true ∧ policy = true ∧ missing = false ∧
        recordable state setup missing now entryTime tf = true ∧
        recordIntent tf state setup flat policy missing now entryTime =
          state.entryIntents.setDefault entryTime { observedAt := now, signal := setup } := by
  unfold recordIntent
  dsimp only
  by_cases hr : (flat && recordable state setup missing now entryTime tf) = true
  · rw [if_pos hr]
    obtain ⟨hflat, hrec⟩ := Bool.and_eq_true_iff.1 hr
    cases hk : state.entryIntents.get? entryTime with
    | none =>
      split
      · exact .inl (Dict.remove_setDefault _ hk)
      · rename_i hp
        refine .inr ⟨hflat, ?_, ?_, hrec, rfl⟩ <;> cases policy <;> cases missing <;> simp_all
    | some intent =>
      left
      rw [if_neg (by simp), Dict.setDefault_of_some _ (by rw [hk]; rfl)]
  · rw [if_neg hr]
    left
    split
    · rename_i hp
      exact Dict.remove_of_none (Option.isNone_iff_eq_none.1 (Bool.and_eq_true_iff.1 hp).2)
    · rfl

theorem recordNews_cases (spec : StrategySpecification) (state : ForwardState)
    (now entryTime : AwareTime) (tf : Timeframe) (calendar : Option (List CalendarEvent)) :
    recordNews spec state now entryTime tf calendar = state.newsContexts ∨
      inEntryWindow now entryTime tf = true ∧
        recordNews spec state now entryTime tf calendar =
          state.newsContexts.setDefault entryTime (newsState spec.instrument now calendar) := by
  unfold recordNews
  split
  · rename_i h
    exact .inr ⟨(Bool.and_eq_true_iff.1 h).2, rfl⟩
  · exact .inl rfl

theorem mem_intents {o : Observation} {k : AwareTime}
    (h : k ∈ (o.intents zones spec tf configuration state tick).keys) :
    k = o.entryTime tf ∨ k ∈ state.entryIntents.keys := by
  rcases recordIntent_cases tf state (o.setup zones spec state tick) o.flat
    (o.policy configuration) (o.missing zones spec tf state) tick.now (o.entryTime tf) with hc | hc
  · rw [Observation.intents, hc] at h
    exact .inr h
  · rw [Observation.intents, hc.2.2.2.2] at h
    exact Dict.mem_keys_setDefault.1 h

/-- A recorded intent stays as it is. -/
theorem intents_keep {o : Observation} {k : AwareTime} {intent : EntryIntent}
    (h : state.entryIntents.get? k = some intent) :
    (o.intents zones spec tf configuration state tick).get? k = some intent := by
  rcases recordIntent_cases tf state (o.setup zones spec state tick) o.flat
    (o.policy configuration) (o.missing zones spec tf state) tick.now (o.entryTime tf) with hc | hc
  · rw [Observation.intents, hc]
    exact h
  · rw [Observation.intents, hc.2.2.2.2]
    exact Dict.get?_setDefault_some h _ _

theorem mem_intents_of_ne {o : Observation} {k : AwareTime} (hk : k ≠ o.entryTime tf) :
    k ∈ (o.intents zones spec tf configuration state tick).keys ↔ k ∈ state.entryIntents.keys := by
  constructor
  · intro h
    exact (mem_intents h).resolve_left hk
  · intro h
    obtain ⟨intent, hi⟩ := Option.isSome_iff_exists.1 (Dict.get?_isSome.2 h)
    rw [← Dict.get?_isSome, intents_keep hi]
    rfl

theorem news_of_ne {o : Observation} {k : AwareTime} (hk : k ≠ o.entryTime tf) :
    (o.news spec tf state tick).get? k = state.newsContexts.get? k := by
  rcases recordNews_cases spec state tick.now (o.entryTime tf) tf tick.calendar with hc | ⟨-, hc⟩
  · rw [Observation.news, hc]
  · rw [Observation.news, hc, Dict.get?_setDefault_ne _ _ hk]

/-! ## The stored ledger is a replay -/

/-- The replay of the stored intents with the stored news states. -/
def storedReplay (state : ForwardState) : Replay := replayOf state state.newsContexts none

theorem agreeAt_replayOf {state' : ForwardState} {news news' : Dict AwareTime NewsState}
    {calendar calendar' : Option (List CalendarEvent)} {time : AwareTime}
    (hkeys : time ∈ state.entryIntents.keys ↔ time ∈ state'.entryIntents.keys)
    (hnews : news.get? time = news'.get? time) :
    AgreeAt zones spec (replayOf state news calendar) (replayOf state' news' calendar') time := by
  constructor
  · unfold entryAllowed replayOf
    simp only [List.contains_eq_mem, hkeys]
  · unfold barNews replayOf
    simp only [hnews]

/-- A session before its first tick. -/
structure Fresh (state : ForwardState) : Prop where
  candles : state.candles = []
  intents : state.entryIntents = Dict.empty
  news : state.newsContexts = Dict.empty
  trades : state.trades = []
  positions : state.openPositions = []
  policy : state.policyPassed = none

variable (library zones spec tf configuration) in
/-- The ledger of a session is the replay of its own intents on its own candles. -/
structure Replayed (state : ForwardState) (simulation : Simulation) (account : AccountMetrics) :
    Prop where
  simulated : simulateProtectedTrades library zones spec state.candles configuration
    (storedReplay state) = .ok simulation
  accounted : riskNormalizedAccountMetrics simulation.trades
    (simulation.attribution.map TradeFill.exitedAt) configuration spec.riskPerTrade = .ok account
  trades : state.trades =
    (simulation.attribution.zip account.accountPnls).map fun (fill, pnl) => ⟨fill, pnl⟩
  positions : state.openPositions = simulation.openPositions
  policy : state.policyPassed = some (account.policyPassed configuration)
  long : 6 ≤ state.candles.length

variable (library zones spec configuration) in
/-- What holds of a session after any ticks. -/
structure PaperSession (state : ForwardState) : Prop where
  sorted : state.candles.Pairwise NotAfter
  ledger : Fresh state ∨
    ∃ simulation account, Replayed library zones spec configuration state simulation account

theorem Fresh.session (h : Fresh state) : PaperSession library zones spec configuration state := by
  refine ⟨?_, .inl h⟩
  rw [h.candles]
  exact List.Pairwise.nil

theorem PaperSession.long (h : PaperSession library zones spec configuration state) :
    state.candles = [] ∨ 6 ≤ state.candles.length := by
  rcases h.ledger with hf | ⟨simulation, account, hr⟩
  · exact .inl hf.candles
  · exact .inr hr.long

section
variable {o : Observation} (ho : Observed library zones spec tf configuration state tick o)
  (hs : PaperSession library zones spec configuration state)
include ho hs

theorem Observed.sorted : o.frozen.Pairwise NotAfter := by
  obtain ⟨-, hf⟩ := frozenCandles_ok ho.frozen
  rw [hf]
  exact freeze_sorted hs.sorted (completedCandles_sorted _ _ _)

theorem Observed.long : 6 ≤ o.frozen.length := by
  obtain ⟨hlen, hf⟩ := frozenCandles_ok ho.frozen
  rw [hf]
  exact six_le_freeze hlen hs.long

/-- The entry time of a tick lies behind every candle it froze. -/
theorem Observed.before_entry {c : BacktestCandle} (hc : c ∈ o.frozen) :
    c.observedAt.instant < (o.entryTime tf).instant := by
  have hle : c.observedAt.instant ≤ o.last.observedAt.instant :=
    le_getLast (ho.sorted hs) ho.last hc
  have hpos := tf.period_pos
  simp only [Observation.entryTime, AwareTime.plus_instant]
  omega

theorem Observed.ne_entry {c : BacktestCandle} (hc : c ∈ o.frozen) :
    c.observedAt ≠ o.entryTime tf := by
  intro heq
  have hlt := ho.before_entry hs hc
  rw [heq] at hlt
  exact lt_irrefl _ hlt

/-- **A tick stores the replay of what it stores.** -/
theorem Observed.replayed : Replayed library zones spec configuration
    (o.ledger zones spec tf configuration state tick) o.simulation o.account where
  simulated := by
    rw [← ho.simulation]
    apply simulate_congr
    · rfl
    · intro c hc
      apply agreeAt_replayOf
      · exact mem_intents_of_ne (ho.ne_entry hs hc)
      · rfl
  accounted := ho.account
  trades := rfl
  positions := rfl
  policy := rfl
  long := ho.long hs

end

theorem Observed.frozen_eq {o : Observation}
    (ho : Observed library zones spec tf configuration state tick o) :
    o.frozen = state.candles ++ arriving tf state tick := (frozenCandles_ok ho.frozen).2

/-- **The replay of a tick goes on, over the new bars, from the replay that is stored.** -/
theorem Observed.resume {o : Observation} (hc : Causal library)
    (ho : Observed library zones spec tf configuration state tick o)
    (hs : PaperSession library zones spec configuration state) {simulation : Simulation}
    {account : AccountMetrics}
    (hr : Replayed library zones spec configuration state simulation account) :
    ∃ rules bars, spec.tradeRules = some rules ∧ bars.map Prod.fst = arriving tf state tick ∧
      (∃ series, strategyFeatureSeries library spec state.candles = .ok series ∧
        ∀ bar rest, bars = bar :: rest → series.getLast? = some bar.2) ∧
      o.simulation = simulateBars zones spec rules configuration
        (replayOf state (o.news spec tf state tick) tick.calendar) simulation bars := by
  have hlong := hr.long
  have hsim := ho.simulation
  rw [ho.frozen_eq] at hsim
  apply simulate_resume hc (by omega) rfl rfl _ hr.simulated hsim
  intro c hmem
  have hne : c.observedAt ≠ o.entryTime tf := by
    apply ho.ne_entry hs
    rw [ho.frozen_eq]
    exact List.mem_append_left _ hmem
  exact agreeAt_replayOf Iff.rfl (news_of_ne hne).symm

/-- **Every tick keeps the session's ledger a replay.** -/
theorem session_step (hs : PaperSession library zones spec configuration state) (tick : Tick) :
    PaperSession library zones spec configuration
      (paperTick library zones spec tf configuration state tick) := by
  rcases paperTick_cases library zones spec tf configuration state tick with h | ⟨o, ho, h⟩
  · rw [h]
    exact hs
  · rw [h]
    exact ⟨ho.sorted hs, .inr ⟨_, _, ho.replayed hs⟩⟩

end

end Matrades
