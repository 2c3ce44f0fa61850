import Matrades.Backtesting.Proof.Entries
import Matrades.Strategies.Proof.FeatureParity
import Matrades.Strategies.Proof.Sticky

/-!
# Every forward intent gets one fill

The setup path records an intent, the simulator fills it. On aligned ticks, where the next stored bar
opens at the time of the pending entry and no other bar has that time, the simulator reaches that bar
flat and with the features the setup has seen. What can differ is the news state: the simulator reads
the one that was stored first for the bar, the setup the one of its own tick. Where the stored state
admits the entry as well, each recorded intent whose bar has arrived has one trade, or its levels are
rejected there.
-/

namespace Matrades

open Base

/-! ## Conditions -/

/-- **The next new bar opens at the pending entry's time, and the others later.** -/
def Aligned (tf : Timeframe) (state : ForwardState) (tick : Tick) : Prop :=
  ∀ last ∈ state.candles.getLast?, ∀ k ∈ state.entryIntents.keys,
    last.observedAt.instant < k.instant →
      ∀ c ∈ (arriving tf state tick).head?, c.observedAt = k ∧
        ∀ d ∈ (arriving tf state tick).tail, k.instant < d.observedAt.instant

theorem Aligned.orderly {tf : Timeframe} {state : ForwardState} {tick : Tick}
    (h : Aligned tf state tick) : Orderly tf state tick := by
  intro last hlast k hk hlt
  cases harr : arriving tf state tick with
  | nil => simp
  | cons c cs =>
    have hhead := h last hlast k hk hlt
    rw [harr] at hhead
    obtain ⟨rfl, hrest⟩ := hhead c rfl
    refine ⟨fun d hd => ?_, ?_⟩
    · rcases List.mem_cons.1 hd with rfl | hd
      · exact le_refl _
      · exact (hrest d hd).le
    · have hnil : cs.filter (fun d => decide (d.observedAt.instant = c.observedAt.instant)) = [] := by
        apply List.filter_eq_nil_iff.2
        intro d hd
        have := hrest d hd
        simp only [decide_eq_true_eq]
        omega
      simp [hnil]

section
variable (library : TechnicalLibrary) (zones : ZoneInfo) (spec : StrategySpecification)
  (tf : Timeframe) (configuration : BacktestConfiguration)

/-- **Where the news state of the entry bar is stored already, it admits the entry as well.** -/
def NewsAdmits (state : ForwardState) (tick : Tick) : Prop :=
  ∀ last ∈ (state.candles ++ arriving tf state tick).getLast?,
    ∀ stored ∈ state.newsContexts.get? (last.observedAt.plus tf.period), ∀ f,
      strategyFeatures library spec (state.candles ++ arriving tf state tick) last
        ((state.candles ++ arriving tf state tick).length - 1) = .ok f →
      entryContextReason zones spec tick.now tick.calendar = none →
      entryMatches spec (f.withNews (newsState spec.instrument tick.now tick.calendar)) = true →
        entryMatches spec (f.withNews stored) = true

/-! ## Fills -/

/-- The times the trades of the ledger were entered at. -/
def enteredTimes (state : ForwardState) : List AwareTime :=
  state.trades.map (fun t => t.fill.enteredAt) ++
    state.openPositions.map SimulatedPosition.enteredAt

/-- The bar of a recorded entry has arrived, and the levels for its opening price are rejected. -/
def Rejected (state : ForwardState) (k : AwareTime) : Prop :=
  ∃ rules series index c f reason, spec.tradeRules = some rules ∧
    strategyFeatureSeries library spec state.candles = .ok series ∧
    state.candles[index + 1]? = some c ∧ c.observedAt = k ∧ series[index]? = some f ∧
    protectionLevels rules (c.openPrice + rules.direction.sign * configuration.slippage)
      f.volatility configuration.tickSize = .error reason

/-- The stored news state of a pending entry admits it, with the features of the last candle. -/
def Admitted (state : ForwardState) (k : AwareTime) : Prop :=
  ∃ stored series f, state.newsContexts.get? k = some stored ∧
    strategyFeatureSeries library spec state.candles = .ok series ∧ series.getLast? = some f ∧
    entryMatches spec (f.withNews stored) = true

/-- The recorded intents and the simulated trades of a session correspond. -/
structure Filled (state : ForwardState) : Prop where
  steady : Steady library zones spec tf configuration state
  directed : ∀ k intent, state.entryIntents.get? k = some intent →
    intent.signal.direction = spec.tradeRules.map TradeRules.direction
  arrived : ∀ last ∈ state.candles.getLast?, ∀ k ∈ state.entryIntents.keys,
    k.instant ≤ last.observedAt.instant →
      k ∈ enteredTimes state ∨ Rejected library spec configuration state k
  promised : ∀ last ∈ state.candles.getLast?, ∀ k ∈ state.entryIntents.keys,
    last.observedAt.instant < k.instant →
      state.openPositions = [] ∧ Admitted library spec state k
  intended : ∀ k ∈ enteredTimes state, k ∈ state.entryIntents.keys
  entered : ∀ last ∈ state.candles.getLast?, ∀ k ∈ enteredTimes state,
    k.instant ≤ last.observedAt.instant
  once : (enteredTimes state).Nodup

variable {library zones spec tf configuration} {state : ForwardState} {tick : Tick}
  {o : Observation}

/-! ## The ledger of a replay -/

theorem accountPnls_length {riskPercent : ℚ} {m : AccountMetrics}
    (trades : List (TradeResult × AwareTime)) :
    (trades.foldl (·.addTrade riskPercent) m).accountPnls.length =
      m.accountPnls.length + trades.length := by
  induction trades generalizing m with
  | nil => rfl
  | cons t ts ih =>
    rw [List.foldl_cons, ih, List.length_cons]
    simp only [AccountMetrics.addTrade, List.length_append, List.length_singleton]
    omega

theorem simulate_length {candles : List BacktestCandle} {replay : Replay} {s : Simulation}
    (h : simulateProtectedTrades library zones spec candles configuration replay = .ok s) :
    s.trades.length = s.attribution.length := by
  obtain ⟨rules, series, -, -, rfl⟩ := simulate_run h
  exact simulateBars_length rfl

/-- The fills of the ledger are the attribution of its replay. -/
theorem Replayed.fills {simulation : Simulation} {account : AccountMetrics}
    (hr : Replayed library zones spec configuration state simulation account) :
    state.trades.map ForwardTrade.fill = simulation.attribution := by
  have hlen : account.accountPnls.length = simulation.attribution.length := by
    rw [riskNormalizedAccountMetrics_ok hr.accounted, accountPnls_length]
    have hs := simulate_length hr.simulated
    simp [AccountMetrics.start, hs]
  rw [hr.trades, List.map_map]
  exact List.map_fst_zip (by omega)

theorem Replayed.enteredTimes {simulation : Simulation} {account : AccountMetrics}
    (hr : Replayed library zones spec configuration state simulation account) :
    enteredTimes state = simulation.entered := by
  unfold Matrades.enteredTimes Simulation.entered
  rw [← hr.fills, hr.positions, List.map_map]
  congr 1
  unfold Simulation.openPositions
  cases simulation.trade <;> rfl

/-! ## What a signal says -/

theorem blockSetup_signal {setup : IndicativeSetup} {reason : Option String}
    (h : (blockSetup setup reason).status = .signal) : reason = none ∧ setup.status = .signal := by
  have hnone : reason = none := by
    by_contra hne
    exact blockSetup_status hne h
  subst hnone
  exact ⟨rfl, h⟩

theorem setupAt_signal {rules : TradeRules} {base : IndicativeSetup} {latest : BacktestCandle}
    {f : FeaturePoint} {tick : Option ℚ} (hbase : base.status ≠ .signal)
    (h : (setupAt spec rules base latest f tick).status = .signal) :
    entryMatches spec f = true ∧ (setupAt spec rules base latest f tick).direction =
      base.direction := by
  unfold setupAt at h ⊢
  dsimp only at h ⊢
  split at h
  · exact absurd h hbase
  · rename_i hregime
    rw [if_neg hregime]
    cases hlevels : protectionLevels rules latest.close f.volatility tick with
    | error reason =>
      rw [hlevels] at h
      exact absurd h hbase
    | ok levels =>
      rw [hlevels] at h
      refine ⟨?_, rfl⟩
      by_contra hno
      simp [hno] at h

/-- A signal is an entry match on the features of the latest candle. -/
theorem setup_signal {candles : List BacktestCandle} {now : AwareTime} {tickSize : Option ℚ}
    {calendar : Option (List CalendarEvent)} {built : IndicativeSetup}
    (h : buildStrategySetup library zones spec candles now tf tickSize calendar = .ok built)
    (hsignal : built.status = .signal) :
    ∃ rules latest f, spec.tradeRules = some rules ∧ candles.getLast? = some latest ∧
      strategyFeatures library spec candles latest (candles.length - 1) = .ok f ∧
      entryMatches spec (f.withNews (newsState spec.instrument now calendar)) = true ∧
      built.direction = some rules.direction := by
  unfold buildStrategySetup at h
  split at h
  · rename_i rules latest hr hl _
    split at h
    · cases h
      simp at hsignal
    · dsimp only at h
      split at h
      · cases h
        simp at hsignal
      · obtain ⟨f, hf, h⟩ := ok_of_bind h
        cases h
        obtain ⟨hmatch, hdir⟩ := setupAt_signal (by simp) hsignal
        exact ⟨rules, latest, f, hr, hl, hf, hmatch, hdir⟩
  · cases h
    simp at hsignal

theorem blockReason_none {now : AwareTime} {calendar : Option (List CalendarEvent)}
    (h : blockReason zones spec state now calendar true = none) :
    entryContextReason zones spec now calendar = none := by
  unfold blockReason at h
  split at h
  · cases h
  · split at h
    · cases h
    · exact h

/-- **The intent a tick records is admitted by the stored news state of its bar.** -/
theorem Observed.admits (hnews : NewsAdmits library zones spec tf state tick)
    (ho : Observed library zones spec tf configuration state tick o) {missing : Bool}
    (hrec : recordable state (o.setup zones spec state tick) missing tick.now (o.entryTime tf) tf =
      true) :
    Admitted library spec (o.ledger zones spec tf configuration state tick) (o.entryTime tf) ∧
      (o.setup zones spec state tick).direction = spec.tradeRules.map TradeRules.direction := by
  unfold recordable at hrec
  simp only [Bool.and_eq_true, decide_eq_true_eq] at hrec
  obtain ⟨⟨⟨⟨hsignal, -⟩, hstart⟩, -⟩, hwindow⟩ := hrec
  obtain ⟨hreason, hbuilt⟩ := blockSetup_signal hsignal
  obtain ⟨rules, latest, f, hr, hl, hf, hmatch, hdir⟩ := setup_signal ho.built hbuilt
  rw [ho.last] at hl
  cases hl
  -- The features of the setup are the last of the series the simulator reads.
  obtain ⟨-, series, -, hseries, -⟩ := simulate_run ho.simulation
  obtain ⟨seen, hfro⟩ := List.getLast?_eq_some_iff.1 ho.last
  obtain ⟨f', hlast, hf'⟩ : ∃ f', series.getLast? = some f' ∧
      strategyFeatures library spec o.frozen o.last (o.frozen.length - 1) = .ok f' := by
    rw [hfro] at hseries ⊢
    obtain ⟨f', hl, hf'⟩ := strategyFeatures_eq_last hseries
    exact ⟨f', hl, by simpa using hf'⟩
  rw [hf] at hf'
  cases hf'
  have hsetup : o.setup zones spec state tick = o.built := by
    unfold Observation.setup
    rw [hreason]
    rfl
  refine ⟨?_, by rw [hsetup, hr, hdir]; rfl⟩
  have hstored : (o.news spec tf state tick).get? (o.entryTime tf) =
      some ((state.newsContexts.get? (o.entryTime tf)).getD
        (newsState spec.instrument tick.now tick.calendar)) := by
    unfold Observation.news recordNews
    rw [if_pos (by simp [hstart, hwindow]), Dict.get?_setDefault, if_pos rfl]
  refine ⟨_, series, f, hstored, hseries, hlast, ?_⟩
  cases hold : state.newsContexts.get? (o.entryTime tf) with
  | none => exact hmatch
  | some stored =>
    rw [ho.frozen_eq] at hf
    have hlast' := ho.last
    rw [ho.frozen_eq] at hlast'
    exact hnews o.last hlast' stored hold f hf (blockReason_none hreason) hmatch

/-- A recorded intent is an old one, or the one of this tick. -/
theorem intents_get {k : AwareTime} {intent : EntryIntent}
    (h : (o.intents zones spec tf configuration state tick).get? k = some intent) :
    state.entryIntents.get? k = some intent ∨
      k = o.entryTime tf ∧ state.entryIntents.get? k = none ∧ o.flat = true ∧
        intent.signal = o.setup zones spec state tick ∧
        recordable state (o.setup zones spec state tick) (o.missing zones spec tf state) tick.now
          (o.entryTime tf) tf = true := by
  rcases recordIntent_cases tf state (o.setup zones spec state tick) o.flat
    (o.policy configuration) (o.missing zones spec tf state) tick.now (o.entryTime tf) with
    hi | ⟨hflat, -, -, hrec, hi⟩
  · rw [Observation.intents, hi] at h
    exact .inl h
  · rw [Observation.intents, hi, Dict.get?_setDefault] at h
    split at h
    · rename_i hk
      subst hk
      cases hold : state.entryIntents.get? (o.entryTime tf) with
      | none =>
        rw [hold] at h
        cases h
        exact .inr ⟨rfl, rfl, hflat, rfl, hrec⟩
      | some old =>
        rw [hold] at h
        exact .inl h
    · exact .inl h

/-! ## What the new bars fill -/

theorem news_keep {k : AwareTime} {stored : NewsState}
    (h : state.newsContexts.get? k = some stored) :
    (o.news spec tf state tick).get? k = some stored := by
  rcases recordNews_cases spec state tick.now (o.entryTime tf) tf tick.calendar with hc | ⟨-, hc⟩
  · rw [Observation.news, hc]
    exact h
  · rw [Observation.news, hc]
    exact Dict.get?_setDefault_some h _ _

/-- What the new bars add to the entered times. -/
structure Fills (library : TechnicalLibrary) (spec : StrategySpecification)
    (configuration : BacktestConfiguration) (tf : Timeframe) (state : ForwardState) (tick : Tick)
    (ledger : ForwardState) (last : BacktestCandle) (new : List AwareTime) : Prop where
  grows : enteredTimes ledger = enteredTimes state ++ new
  pending : ∀ k ∈ new, k ∈ state.entryIntents.keys ∧ last.observedAt.instant < k.instant
  bars : ∀ k ∈ new, ∃ c ∈ arriving tf state tick, c.observedAt = k
  nodup : new.Nodup
  filled : arriving tf state tick ≠ [] → ∀ k ∈ state.entryIntents.keys,
    last.observedAt.instant < k.instant → k ∈ new ∨ Rejected library spec configuration ledger k

/-- The bar of the pending entry is the first new one: it is entered, or its levels are rejected. -/
theorem Filled.pending_fills (hc : Causal library)
    (hs : Filled library zones spec tf configuration state) (hal : Aligned tf state tick)
    (ho : Observed library zones spec tf configuration state tick o) {simulation : Simulation}
    {account : AccountMetrics}
    (hr : Replayed library zones spec configuration state simulation account)
    {last : BacktestCandle} (hlast : state.candles.getLast? = some last) {k : AwareTime}
    (hk : k ∈ state.entryIntents.keys) (hlt : last.observedAt.instant < k.instant) :
    ∃ new, Fills library spec configuration tf state tick
      (o.ledger zones spec tf configuration state tick) last new := by
  have hledger := (ho.replayed hs.steady.session).enteredTimes
  obtain ⟨hpos, stored, series, f, hnews, hseries, hf, hmatch⟩ := hs.promised last hlast k hk hlt
  have htrade : simulation.trade = none := by
    rw [← openPositions_eq_nil, ← hr.positions]
    exact hpos
  have honly : ∀ k' ∈ state.entryIntents.keys, last.observedAt.instant < k'.instant → k' = k := by
    intro k' hk' hlt'
    rw [hs.steady.pending last hlast k' hk' hlt', hs.steady.pending last hlast k hk hlt]
  obtain ⟨rules, bars, hrules, hbars, ⟨series', hseries', hfirst⟩, hsim⟩ :=
    ho.resume hc hs.steady.session hr
  rw [hseries] at hseries'
  cases hseries'
  cases bars with
  | nil =>
    have hnone : arriving tf state tick = [] := hbars.symm
    refine ⟨[], ?_, by simp, by simp, List.nodup_nil, fun hne => absurd hnone hne⟩
    rw [hledger, hr.enteredTimes, hsim]
    exact (List.append_nil _).symm
  | cons bar rest =>
    have harr : arriving tf state tick = bar.1 :: rest.map Prod.fst := hbars.symm
    have hhead := hal last hlast k hk hlt
    rw [harr] at hhead
    obtain ⟨hbar, hlater⟩ := hhead bar.1 rfl
    have hfeatures : bar.2 = f := by
      have := hfirst bar rest rfl
      rw [hf] at this
      exact (Option.some.inj this).symm
    -- No later bar may be entered: its time is not that of the pending entry.
    have hquiet : ∀ b ∈ rest, entryAllowed zones spec
        (replayOf state (o.news spec tf state tick) tick.calendar) b.1.observedAt = false := by
      intro b hb
      rw [Bool.eq_false_iff]
      intro hallowed
      have hmem : b.1 ∈ arriving tf state tick := by
        rw [harr]
        exact List.mem_cons_of_mem _ (List.mem_map_of_mem hb)
      obtain ⟨hbk, hblt⟩ := pending_of_allowed hlast hmem hallowed
      have hgt := hlater b.1 (List.mem_map_of_mem hb)
      rw [honly _ hbk hblt] at hgt
      omega
    have hallowed : entryAllowed zones spec
        (replayOf state (o.news spec tf state tick) tick.calendar) bar.1.observedAt = true := by
      simpa [entryAllowed, replayOf, hbar] using hk
    have hentry : entryMatches spec (bar.2.withNews (barNews spec
        (replayOf state (o.news spec tf state tick) tick.calendar) bar.1.observedAt)) = true := by
      have hbn : barNews spec (replayOf state (o.news spec tf state tick) tick.calendar)
          bar.1.observedAt = stored := by
        unfold barNews replayOf
        simp only [hbar, news_keep hnews, Option.getD_some]
      rw [hbn, hfeatures]
      exact hmatch
    have hentered : o.simulation.entered = simulation.entered ++
        if simulation.trade = none ∧ (enterAt zones spec rules configuration
          (replayOf state (o.news spec tf state tick) tick.calendar) bar).isSome then
          [bar.1.observedAt] else [] := by
      rw [hsim, simulateBars, simulateBars_quiet_entered hquiet, stepBar_entered]
    by_cases hsome : (enterAt zones spec rules configuration
        (replayOf state (o.news spec tf state tick) tick.calendar) bar).isSome
    · rw [if_pos ⟨htrade, hsome⟩, hbar] at hentered
      refine ⟨[k], ?_, ?_, ?_, List.nodup_singleton k, ?_⟩
      · rw [hledger, hr.enteredTimes, hentered]
      · intro k' hk'
        rw [List.mem_singleton.1 hk']
        exact ⟨hk, hlt⟩
      · intro k' hk'
        rw [List.mem_singleton.1 hk', harr]
        exact ⟨bar.1, List.mem_cons_self, hbar⟩
      · intro _ k' hk' hlt'
        exact .inl (List.mem_singleton.2 (honly k' hk' hlt'))
    · rw [if_neg (fun h => hsome h.2), List.append_nil] at hentered
      refine ⟨[], ?_, by simp, by simp, List.nodup_nil, ?_⟩
      · rw [hledger, hr.enteredTimes, hentered, List.append_nil]
      · intro _ k' hk' hlt'
        right
        rw [honly k' hk' hlt']
        obtain ⟨reason, hreason⟩ := (enterAt_admitted hallowed hentry).resolve_left hsome
        obtain ⟨-, all, -, hall, -⟩ := simulate_run ho.simulation
        have hlong := hr.long
        have hlen := strategyFeatureSeries_length hseries
        have hprefix : series <+: all := by
          rw [ho.frozen_eq] at hall
          exact strategyFeatureSeries_append hc hseries hall
        refine ⟨rules, all, state.candles.length - 1, bar.1, f, reason, hrules, hall, ?_, hbar, ?_,
          ?_⟩
        · change o.frozen[state.candles.length - 1 + 1]? = some bar.1
          rw [ho.frozen_eq, harr, List.getElem?_append_right (by omega)]
          rw [show state.candles.length - 1 + 1 - state.candles.length = 0 by omega]
          rfl
        · rw [← hlen, ← prefix_getLast hprefix (List.ne_nil_of_length_pos (by omega))]
          exact hf
        · rw [← hfeatures]
          exact hreason

theorem Filled.fills (hc : Causal library)
    (hs : Filled library zones spec tf configuration state) (hal : Aligned tf state tick)
    (ho : Observed library zones spec tf configuration state tick o) {simulation : Simulation}
    {account : AccountMetrics}
    (hr : Replayed library zones spec configuration state simulation account)
    {last : BacktestCandle} (hlast : state.candles.getLast? = some last) :
    ∃ new, Fills library spec configuration tf state tick
      (o.ledger zones spec tf configuration state tick) last new := by
  by_cases hex : ∃ k ∈ state.entryIntents.keys, last.observedAt.instant < k.instant
  · obtain ⟨k, hk, hlt⟩ := hex
    exact hs.pending_fills hc hal ho hr hlast hk hlt
  · have hnone : NonePending state := by
      intro last' hlast' k hk
      rw [hlast] at hlast'
      cases hlast'
      exact not_lt.1 fun hlt => hex ⟨k, hk, hlt⟩
    obtain ⟨rules, bars, -, hbars, -, hsim⟩ := ho.resume hc hs.steady.session hr
    refine ⟨[], ?_, by simp, by simp, List.nodup_nil, fun _ k hk hlt => absurd ⟨k, hk, hlt⟩ hex⟩
    rw [(ho.replayed hs.steady.session).enteredTimes, hr.enteredTimes, hsim, List.append_nil]
    apply simulateBars_quiet_entered
    intro bar hbar
    apply allowed_eq_false hlast hnone
    rw [← hbars]
    exact List.mem_map_of_mem hbar

/-! ## A tick -/

/-- A rejection is about the past. -/
theorem Rejected.keep (hc : Causal library) {k : AwareTime}
    (ho : Observed library zones spec tf configuration state tick o)
    (h : Rejected library spec configuration state k) :
    Rejected library spec configuration (o.ledger zones spec tf configuration state tick) k := by
  obtain ⟨rules, series, index, c, f, reason, hr, hs, hcandle, hk, hf, hlevels⟩ := h
  obtain ⟨-, all, -, hall, -⟩ := simulate_run ho.simulation
  have hprefix : series <+: all := by
    rw [ho.frozen_eq] at hall
    exact strategyFeatureSeries_append hc hs hall
  obtain ⟨more, rfl⟩ := hprefix
  refine ⟨rules, series ++ more, index, c, f, reason, hr, hall, ?_, hk, ?_, hlevels⟩
  · change o.frozen[index + 1]? = some c
    rw [ho.frozen_eq]
    exact List.getElem?_append_left (List.getElem?_eq_some_iff.1 hcandle).1 ▸ hcandle
  · exact List.getElem?_append_left (List.getElem?_eq_some_iff.1 hf).1 ▸ hf

theorem Fresh.filled (h : Fresh state) : Filled library zones spec tf configuration state where
  steady := h.steady
  directed := by
    intro k intent hk
    rw [h.intents] at hk
    cases hk
  arrived := by simp [h.candles]
  promised := by simp [h.candles]
  intended := by simp [enteredTimes, h.trades, h.positions]
  entered := by simp [h.candles]
  once := by simp [enteredTimes, h.trades, h.positions]

/-- A pending entry behind a tick is the one the tick records, or waits for a bar. -/
theorem Filled.promised_step (hs : Filled library zones spec tf configuration state)
    (hal : Aligned tf state tick) (hnews : NewsAdmits library zones spec tf state tick)
    (hc : Causal library)
    (ho : Observed library zones spec tf configuration state tick o) {k : AwareTime}
    (hk : k ∈ (o.intents zones spec tf configuration state tick).keys)
    (hlt : o.last.observedAt.instant < k.instant) :
    (o.ledger zones spec tf configuration state tick).openPositions = [] ∧
      Admitted library spec (o.ledger zones spec tf configuration state tick) k := by
  obtain ⟨intent, hi⟩ := Option.isSome_iff_exists.1 (Dict.get?_isSome.2 hk)
  rcases intents_get hi with hold | ⟨rfl, -, hflat, -, hrec⟩
  · have hkold : k ∈ state.entryIntents.keys := by
      rw [← Dict.get?_isSome, hold]
      rfl
    obtain ⟨last, hlast, heq, hnone⟩ := hs.steady.waits hal.orderly ho hkold hlt
    rw [heq] at hlt
    obtain ⟨hpos, stored, series, f, hst, hseries, hf, hmatch⟩ :=
      hs.promised last hlast k hkold hlt
    have hfro : o.frozen = state.candles := by rw [ho.frozen_eq, hnone, List.append_nil]
    rcases hs.steady.session.ledger with hfresh | ⟨simulation, account, hr⟩
    · rw [hfresh.keys] at hkold
      cases hkold
    · refine ⟨?_, stored, series, f, news_keep hst, ?_, hf, hmatch⟩
      · change o.simulation.openPositions = []
        rw [ho.same hc hs.steady hr hnone, ← hr.positions]
        exact hpos
      · change strategyFeatureSeries library spec o.frozen = .ok series
        rw [hfro]
        exact hseries
  · refine ⟨?_, (ho.admits hnews hrec).1⟩
    change o.simulation.openPositions = []
    exact List.isEmpty_iff.1 hflat

/-- **Aligned ticks with an admitting news state keep intents and trades together.** -/
theorem Filled.step (hc : Causal library)
    (hs : Filled library zones spec tf configuration state) (hal : Aligned tf state tick)
    (hnews : NewsAdmits library zones spec tf state tick) :
    Filled library zones spec tf configuration
      (paperTick library zones spec tf configuration state tick) := by
  have hsteady := hs.steady.step hc hal.orderly
  rcases paperTick_cases library zones spec tf configuration state tick with h | ⟨o, ho, h⟩
  · rw [h]
    exact hs
  rw [h] at hsteady ⊢
  have hlastl : (o.ledger zones spec tf configuration state tick).candles.getLast? = some o.last :=
    ho.last
  have hentry : ∀ k : AwareTime, k.instant ≤ o.last.observedAt.instant → k ≠ o.entryTime tf := by
    intro k hle heq
    have hpos := tf.period_pos
    rw [heq] at hle
    simp only [Observation.entryTime, AwareTime.plus_instant] at hle
    omega
  have hdirected : ∀ k intent,
      (o.intents zones spec tf configuration state tick).get? k = some intent →
        intent.signal.direction = spec.tradeRules.map TradeRules.direction := by
    intro k intent hi
    rcases intents_get hi with hold | ⟨-, -, -, hsig, hrec⟩
    · exact hs.directed k intent hold
    · rw [hsig]
      exact (ho.admits hnews hrec).2
  have hpromised : ∀ last ∈ (o.ledger zones spec tf configuration state tick).candles.getLast?,
      ∀ k ∈ (o.intents zones spec tf configuration state tick).keys,
        last.observedAt.instant < k.instant →
          (o.ledger zones spec tf configuration state tick).openPositions = [] ∧
            Admitted library spec (o.ledger zones spec tf configuration state tick) k := by
    intro last hlast k hk hlt
    rw [hlastl] at hlast
    cases hlast
    exact hs.promised_step hal hnews hc ho hk hlt
  rcases hs.steady.session.ledger with hf | ⟨simulation, account, hr⟩
  · have hnone : enteredTimes (o.ledger zones spec tf configuration state tick) = [] := by
      rw [(ho.replayed hs.steady.session).enteredTimes, hf.flat ho]
      rfl
    refine ⟨hsteady, hdirected, ?_, hpromised, by simp [hnone], by simp [hnone], by simp [hnone]⟩
    intro last hlast k hk hle
    rw [hlastl] at hlast
    cases hlast
    have hold := (mem_intents hk).resolve_left (hentry k hle)
    rw [hf.keys] at hold
    cases hold
  · have hne : state.candles ≠ [] := List.ne_nil_of_length_pos (by have := hr.long; omega)
    obtain ⟨last, hlast⟩ := exists_last hne
    obtain ⟨new, hnew⟩ := hs.fills hc hal ho hr hlast
    have hmem : last ∈ o.frozen := by
      rw [ho.frozen_eq]
      exact List.mem_append_left _ (List.mem_of_getLast? hlast)
    have hle' : last.observedAt.instant ≤ o.last.observedAt.instant :=
      le_getLast (ho.sorted hs.steady.session) ho.last hmem
    refine ⟨hsteady, hdirected, ?_, hpromised, ?_, ?_, ?_⟩
    · intro last' hlast' k hk hle
      rw [hlastl] at hlast'
      cases hlast'
      have hold := (mem_intents hk).resolve_left (hentry k hle)
      by_cases hlt : last.observedAt.instant < k.instant
      · have harr : arriving tf state tick ≠ [] := by
          intro hnil
          have hfro : o.frozen = state.candles := by rw [ho.frozen_eq, hnil, List.append_nil]
          have hsame := ho.last
          rw [hfro, hlast] at hsame
          cases hsame
          omega
        rw [hnew.grows]
        exact (hnew.filled harr k hold hlt).imp (List.mem_append_right _) id
      · rw [hnew.grows]
        exact (hs.arrived last hlast k hold (not_lt.1 hlt)).imp (List.mem_append_left _)
          (Rejected.keep hc ho)
    · intro k hk
      rw [hnew.grows] at hk
      have hold : k ∈ state.entryIntents.keys := by
        rcases List.mem_append.1 hk with hk | hk
        · exact hs.intended k hk
        · exact (hnew.pending k hk).1
      obtain ⟨intent, hi⟩ := Option.isSome_iff_exists.1 (Dict.get?_isSome.2 hold)
      change k ∈ (o.intents zones spec tf configuration state tick).keys
      rw [← Dict.get?_isSome, intents_keep hi]
      rfl
    · intro last' hlast' k hk
      rw [hlastl] at hlast'
      cases hlast'
      rw [hnew.grows] at hk
      rcases List.mem_append.1 hk with hk | hk
      · exact (hs.entered last hlast k hk).trans hle'
      · obtain ⟨c, hcmem, rfl⟩ := hnew.bars k hk
        apply le_getLast (ho.sorted hs.steady.session) ho.last
        rw [ho.frozen_eq]
        exact List.mem_append_right _ hcmem
    · rw [hnew.grows, List.nodup_append]
      refine ⟨hs.once, hnew.nodup, fun a ha b hb heq => ?_⟩
      have hle := hs.entered last hlast a ha
      have hlt := (hnew.pending b hb).2
      rw [heq] at hle
      omega

/-! ## Runs -/

/-- The fills of a ledger have the direction of the rules. -/
theorem Replayed.direction {simulation : Simulation} {account : AccountMetrics}
    (hr : Replayed library zones spec configuration state simulation account) :
    ∀ t ∈ state.trades, some t.fill.direction = spec.tradeRules.map TradeRules.direction := by
  intro t ht
  have hmem : t.fill ∈ simulation.attribution := by
    rw [← hr.fills]
    exact List.mem_map_of_mem ht
  obtain ⟨rules, series, hrules, -, hsim⟩ := simulate_run hr.simulated
  rw [hsim] at hmem
  rw [hrules, simulateBars_direction (by simp) t.fill hmem]
  rfl

theorem filled_run (hc : Causal library) (hf : Fresh state) {ticks : List Tick}
    (hg : Along (paperTick library zones spec tf configuration)
      (fun s t => Aligned tf s t ∧ NewsAdmits library zones spec tf s t) state ticks) :
    Filled library zones spec tf configuration
      (run (paperTick library zones spec tf configuration) state ticks) :=
  run_inv (fun _ _ hs hg => hs.step hc hg.1 hg.2) hf.filled hg

/-- **Every recorded intent whose bar has arrived is filled once and in its direction, unless its
levels are rejected there; every trade belongs to one recorded intent.** -/
theorem intents_are_filled (hc : Causal library) (hf : Fresh state) {ticks : List Tick}
    (hg : Along (paperTick library zones spec tf configuration)
      (fun s t => Aligned tf s t ∧ NewsAdmits library zones spec tf s t) state ticks)
    {ledger : ForwardState}
    (hledger : ledger = run (paperTick library zones spec tf configuration) state ticks) :
    (∀ k intent last, ledger.entryIntents.get? k = some intent →
      ledger.candles.getLast? = some last → k.instant ≤ last.observedAt.instant →
        (enteredTimes ledger).count k = 1 ∨ Rejected library spec configuration ledger k) ∧
    (∀ k intent, ledger.entryIntents.get? k = some intent →
      intent.signal.direction = spec.tradeRules.map TradeRules.direction ∧
        ∀ t ∈ ledger.trades, some t.fill.direction = intent.signal.direction) ∧
    (enteredTimes ledger).Nodup ∧ ∀ k ∈ enteredTimes ledger, k ∈ ledger.entryIntents.keys := by
  have hs := filled_run hc hf hg
  rw [← hledger] at hs
  refine ⟨fun k intent last hk hlast hle => ?_, fun k intent hk => ?_, hs.once, hs.intended⟩
  · have hmem : k ∈ ledger.entryIntents.keys := by
      rw [← Dict.get?_isSome, hk]
      rfl
    exact (hs.arrived last hlast k hmem hle).imp (List.count_eq_one_of_mem hs.once) id
  · have hdir := hs.directed k intent hk
    refine ⟨hdir, fun t ht => ?_⟩
    rw [hdir]
    rcases hs.steady.session.ledger with hfresh | ⟨simulation, account, hr⟩
    · rw [hfresh.trades] at ht
      cases ht
    · exact hr.direction t ht

end

/-! ## A news state that was stored too early -/

/-- Buys at every bar in normal news. -/
def newsStrategy : StrategySpecification :=
  { alwaysStrategy with filters := [⟨"news_regime", .eq, .number 0⟩] }

/-- A tick some seconds into bar number 6. -/
def lateTick (seconds : ℤ) (calendar : Option (List CalendarEvent)) : Tick where
  incoming := warmUp
  now := ⟨6 * 900000000 + seconds * 1000000, 0⟩
  calendar

def newsRun : List Tick → ForwardState :=
  run (paperTick trangeLibrary utcOnly newsStrategy quarterHour dailyLimitAccount) quarterSession

def calmTick : Tick := tickAt 7 (warmUp ++ [quarterBar 6 101 99])

/-- Nothing is stored for the entry bar yet. -/
theorem newsAdmits_of_new {library : TechnicalLibrary} {zones : ZoneInfo}
    {spec : StrategySpecification} {tf : Timeframe} {state : ForwardState} {tick : Tick}
    (h : ∀ last ∈ (state.candles ++ arriving tf state tick).getLast?,
      state.newsContexts.get? (last.observedAt.plus tf.period) = none) :
    NewsAdmits library zones spec tf state tick := by
  intro last hlast stored hstored
  rw [h last hlast] at hstored
  cases hstored

instance (tf : Timeframe) (state : ForwardState) (tick : Tick) : Decidable (Aligned tf state tick) :=
  by unfold Aligned; infer_instance

/-- The intent of bar 6 is filled once. -/
theorem intents_are_filled_quarter :
    (enteredTimes (paperRun [tickAt 6 warmUp, stopTick])).count ⟨6 * 900000000, 0⟩ = 1 ∨
      Rejected trangeLibrary alwaysStrategy dailyLimitAccount
        (paperRun [tickAt 6 warmUp, stopTick]) ⟨6 * 900000000, 0⟩ := by
  have hg : Along (paperTick trangeLibrary utcOnly alwaysStrategy quarterHour dailyLimitAccount)
      (fun s t => Aligned quarterHour s t ∧
        NewsAdmits trangeLibrary utcOnly alwaysStrategy quarterHour s t)
      quarterSession [tickAt 6 warmUp, stopTick] := by
    refine ⟨⟨?_, newsAdmits_of_new ?_⟩, ⟨?_, newsAdmits_of_new ?_⟩, trivial⟩ <;> decide +kernel
  obtain ⟨hfilled, -⟩ := intents_are_filled trangeLibrary_causal quarterSession_fresh hg rfl
  have hk : ((paperRun [tickAt 6 warmUp, stopTick]).entryIntents.get?
      ⟨6 * 900000000, 0⟩).isSome := by decide +kernel
  obtain ⟨intent, hi⟩ := Option.isSome_iff_exists.1 hk
  have hlast : (paperRun [tickAt 6 warmUp, stopTick]).candles.getLast? = some stopBar := by
    decide +kernel
  exact hfilled _ intent stopBar hi hlast (by decide)

/-- **The first tick stores an unknown news state, the second one records the entry: the bar arrives
and nothing is opened, though the levels are accepted.** -/
theorem intent_without_fill :
    (newsRun [lateTick 10 none, lateTick 60 (some []), calmTick]).entryIntents.keys =
        [⟨6 * 900000000, 0⟩] ∧
      (newsRun [lateTick 10 none, lateTick 60 (some []), calmTick]).candles.getLast? =
        some (quarterBar 6 101 99) ∧
      enteredTimes (newsRun [lateTick 10 none, lateTick 60 (some []), calmTick]) = [] ∧
      (protectionLevels longRules 100 2 none).toOption = some (98, [102]) := by
  decide +kernel

end Matrades
