import Matrades.Strategies.Proof.Sticky

/-!
# The paper ledger is append-only

Every tick keeps the stored candles, the closed trades with their account results and the recorded
intents, whatever candles arrive (`tick_appends`). Repeating a tick computes the same replay of the
same candles; it can differ only in what it records, when the stored breach that blocked the first
delivery has been lifted by it. On orderly ticks no breach is lifted, so a repeated tick changes
nothing (`Steady.repeated`).
-/

namespace Matrades

open Base

/-! ## Appending -/

/-- The ledger of a later state: what was stored is a prefix, recorded intents are the same. -/
structure Appends (state state' : ForwardState) : Prop where
  candles : state.candles <+: state'.candles
  trades : state.trades <+: state'.trades
  intents : ∀ k intent, state.entryIntents.get? k = some intent →
    state'.entryIntents.get? k = some intent

theorem Appends.refl (state : ForwardState) : Appends state state :=
  ⟨List.prefix_refl _, List.prefix_refl _, fun _ _ h => h⟩

theorem Appends.trans {state state' state'' : ForwardState} (h : Appends state state')
    (h' : Appends state' state'') : Appends state state'' where
  candles := h.candles.trans h'.candles
  trades := h.trades.trans h'.trades
  intents := fun k intent hk => h'.intents k intent (h.intents k intent hk)

/-- The fields of the ledger. -/
structure SameLedger (state state' : ForwardState) : Prop where
  candles : state'.candles = state.candles
  intents : state'.entryIntents = state.entryIntents
  news : state'.newsContexts = state.newsContexts
  trades : state'.trades = state.trades
  positions : state'.openPositions = state.openPositions
  account : state'.account = state.account

theorem SameLedger.refl (state : ForwardState) : SameLedger state state :=
  ⟨rfl, rfl, rfl, rfl, rfl, rfl⟩

section
variable {library : TechnicalLibrary} {zones : ZoneInfo} {spec : StrategySpecification}
  {tf : Timeframe} {configuration : BacktestConfiguration} {state : ForwardState} {tick : Tick}
  {o : Observation}

/-- The trades of a longer replay start with the stored ones, account results included. -/
theorem Observed.trades_prefix (hc : Causal library)
    (ho : Observed library zones spec tf configuration state tick o)
    (hs : PaperSession library zones spec configuration state) :
    state.trades <+: (o.ledger zones spec tf configuration state tick).trades := by
  rcases hs.ledger with hf | ⟨simulation, account, hr⟩
  · rw [hf.trades]
    exact List.nil_prefix
  · obtain ⟨rules, bars, -, -, -, hsim⟩ := ho.resume hc hs hr
    have hext : Extends simulation o.simulation := by
      rw [hsim]
      exact simulateBars_extends _ _
    have hpnls : account.accountPnls <+: o.account.accountPnls := by
      rw [riskNormalizedAccountMetrics_ok hr.accounted, riskNormalizedAccountMetrics_ok ho.account]
      exact accountPnls_prefix (prefix_zip hext.trades (hext.attribution.map _))
    rw [hr.trades]
    exact (prefix_zip hext.attribution hpnls).map _

/-- **A tick only appends to the ledger.** -/
theorem tick_appends (hc : Causal library) (hs : PaperSession library zones spec configuration state)
    (tick : Tick) :
    Appends state (paperTick library zones spec tf configuration state tick) := by
  rcases paperTick_cases library zones spec tf configuration state tick with h | ⟨o, ho, h⟩
  · rw [h]
    exact Appends.refl state
  · rw [h]
    refine ⟨?_, ho.trades_prefix hc hs, fun k intent hk => intents_keep hk⟩
    change state.candles <+: o.frozen
    rw [ho.frozen_eq]
    exact List.prefix_append _ _

theorem run_appends (hc : Causal library) (hs : PaperSession library zones spec configuration state)
    (ticks : List Tick) :
    Appends state (run (paperTick library zones spec tf configuration) state ticks) := by
  induction ticks generalizing state with
  | nil => exact Appends.refl state
  | cons tick ticks ih => exact (tick_appends hc hs tick).trans (ih (session_step hs tick))

/-! ## A repeated tick -/

theorem Observation.news_again (o : Observation) :
    o.news spec tf (o.ledger zones spec tf configuration state tick) tick =
      o.news spec tf state tick := by
  change (if state.startedAt.instant ≤ (o.entryTime tf).instant &&
    inEntryWindow tick.now (o.entryTime tf) tf then
      (o.news spec tf state tick).setDefault (o.entryTime tf)
        (newsState spec.instrument tick.now tick.calendar)
    else o.news spec tf state tick) = _
  unfold Observation.news recordNews
  split
  · exact Dict.setDefault_setDefault _ _ _ _
  · rfl

/-- The second delivery of a tick computes the same. -/
theorem Observed.again (ho : Observed library zones spec tf configuration state tick o)
    (hs : PaperSession library zones spec configuration state) :
    Observed library zones spec tf configuration
      (o.ledger zones spec tf configuration state tick) tick o where
  frozen := by
    have hf := ho.frozen
    have hfro := (frozenCandles_ok hf).2
    have hagain : freeze o.frozen (completedCandles tick.incoming tick.now tf.period) =
        o.frozen := by
      have hne : freeze state.candles (completedCandles tick.incoming tick.now tf.period) ≠ [] := by
        rw [← hfro]
        exact List.ne_nil_of_length_pos (by have := ho.long hs; omega)
      have hnone := newCandles_again hs.sorted (completedCandles_sorted tick.incoming tick.now
        tf.period) hne
      rw [← hfro] at hnone
      unfold freeze
      rw [hnone, List.append_nil]
    change frozenCandles o.frozen tick.incoming tick.now tf.period = .ok o.frozen
    unfold frozenCandles at hf ⊢
    dsimp only at hf ⊢
    rw [hagain]
    rwa [← hfro] at hf
  last := ho.last
  built := ho.built
  simulation := by
    rw [o.news_again, ← ho.simulation]
    apply simulate_congr
    · rfl
    · intro c hc
      apply agreeAt_replayOf
      · exact mem_intents_of_ne (ho.ne_entry hs hc)
      · rfl
  account := ho.account

theorem blockReason_of_not_failed (h : ¬Failed state) (now : AwareTime)
    (calendar : Option (List CalendarEvent)) :
    blockReason zones spec state now calendar true = entryContextReason zones spec now calendar := by
  unfold Failed at h
  rw [not_or] at h
  unfold blockReason
  simp [h.1, h.2]

/-- What the second delivery would record, the first one has recorded, unless it was blocked. -/
theorem intents_again (hstate : ¬Failed state)
    (hledger : ¬Failed (o.ledger zones spec tf configuration state tick)) :
    o.intents zones spec tf configuration (o.ledger zones spec tf configuration state tick) tick =
      o.intents zones spec tf configuration state tick := by
  have hsetup : o.setup zones spec (o.ledger zones spec tf configuration state tick) tick =
      o.setup zones spec state tick := by
    unfold Observation.setup
    rw [blockReason_of_not_failed hstate, blockReason_of_not_failed hledger]
  rcases recordIntent_cases tf (o.ledger zones spec tf configuration state tick)
    (o.setup zones spec (o.ledger zones spec tf configuration state tick) tick) o.flat
    (o.policy configuration) (o.missing zones spec tf state) tick.now (o.entryTime tf) with
    hi | ⟨hflat, hpol, hmiss, hrec, hi⟩
  · exact hi
  · rw [hsetup] at hrec
    have hfirst : o.intents zones spec tf configuration state tick =
        state.entryIntents.setDefault (o.entryTime tf)
          { observedAt := tick.now, signal := o.setup zones spec state tick } := by
      have hrec' : recordable state (o.setup zones spec state tick) false tick.now
          (o.entryTime tf) tf = true := by
        rw [hmiss] at hrec
        exact hrec
      unfold Observation.intents recordIntent
      simp [hflat, hpol, hmiss, hrec']
    change recordIntent tf _ _ _ _ (o.missing zones spec tf state) _ _ = _
    rw [hi]
    apply Dict.setDefault_of_some
    change ((o.intents zones spec tf configuration state tick).get? (o.entryTime tf)).isSome
    rw [hfirst, Dict.get?_setDefault, if_pos rfl]
    rfl

/-- **On a steady session a repeated tick changes nothing in the ledger.** -/
theorem Steady.repeated (hc : Causal library)
    (hs : Steady library zones spec tf configuration state) (tick : Tick) :
    SameLedger (paperTick library zones spec tf configuration state tick)
      (paperTick library zones spec tf configuration
        (paperTick library zones spec tf configuration state tick) tick) := by
  rcases paperTick_cases library zones spec tf configuration state tick with h | ⟨o, ho, h⟩
  · rw [h, h]
    exact SameLedger.refl state
  · rw [h, (ho.again hs.session).paperTick]
    refine ⟨rfl, ?_, o.news_again, rfl, rfl, rfl⟩
    change o.intents zones spec tf configuration
      (o.ledger zones spec tf configuration state tick) tick =
        o.intents zones spec tf configuration state tick
    by_cases hledger : Failed (o.ledger zones spec tf configuration state tick)
    · exact intents_of_no_signal (hledger.no_signal o)
    · apply intents_again _ hledger
      rintro (hp | hd)
      · exact hledger (.inl (congrArg some (hs.policy_stays hc ho hp)))
      · have hkeep : (paperTick library zones spec tf configuration state tick).dataComplete =
            some false := dataComplete_stays hd tick
        rw [h] at hkeep
        exact hledger (.inr hkeep)

/-- **On orderly ticks the paper ledger is append-only and idempotent.** -/
theorem ledger_is_append_only (hc : Causal library) (hf : Fresh state) {ticks : List Tick}
    (hord : Along (paperTick library zones spec tf configuration) (Orderly tf) state ticks)
    (earlier later : List Tick) (hsplit : ticks = earlier ++ later) :
    Appends (run (paperTick library zones spec tf configuration) state earlier)
        (run (paperTick library zones spec tf configuration) state ticks) ∧
      ∀ tick before, earlier = before ++ [tick] →
        SameLedger (run (paperTick library zones spec tf configuration) state earlier)
          (paperTick library zones spec tf configuration
            (run (paperTick library zones spec tf configuration) state earlier) tick) := by
  subst hsplit
  rw [along_append] at hord
  have hs := steady_run hc hf.steady hord.1
  refine ⟨?_, ?_⟩
  · rw [run_append]
    exact run_appends hc hs.session later
  · rintro tick before rfl
    rw [along_append] at hord
    have hs := steady_run hc hf.steady hord.1.1
    rw [run_append]
    exact hs.repeated hc tick

end

/-! ## A repeated tick that records -/

/-- One bar of each time: the tick that closes a trade is repeated. -/
theorem ledger_is_append_only_quarter :
    SameLedger (paperRun [tickAt 6 warmUp, stopTick])
      (paperRun [tickAt 6 warmUp, stopTick, stopTick]) := by
  have hord : Along (paperTick trangeLibrary utcOnly alwaysStrategy quarterHour dailyLimitAccount)
      (Orderly quarterHour) quarterSession [tickAt 6 warmUp, stopTick] := by
    refine ⟨?_, ?_, trivial⟩ <;> decide +kernel
  exact (ledger_is_append_only trangeLibrary_causal quarterSession_fresh hord
    [tickAt 6 warmUp, stopTick] [] rfl).2 stopTick [tickAt 6 warmUp] rfl

/-- **The breach is lifted by the first delivery; the second delivery of the same tick records an
entry.** -/
theorem repeated_tick_records :
    (paperRun [tickAt 6 warmUp, doubleTick, targetTick, targetTick]).entryIntents.keys ≠
      (paperRun [tickAt 6 warmUp, doubleTick, targetTick]).entryIntents.keys := by
  decide +kernel

end Matrades
