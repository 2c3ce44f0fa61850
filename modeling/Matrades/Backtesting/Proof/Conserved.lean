import Matrades.Backtesting.Proof.Entries
import Matrades.Backtesting.Proof.TradeLife
import Matrades.Strategies.Proof.Levels

/-!
# Simulated trades conserve the position

A trade is opened with one unit and each of its `n` targets takes an `n`-th of it, so a part that is left
is a whole number of `n`-ths (`Balanced`), and whatever closes the trade takes exactly what is left. The
record of a closed trade therefore has positive fractions with the sum one and the profit of its exits
(`Conserved`), and the bars of one trade end before those of the next begin (`Placed`).
-/

namespace Matrades

open Base

section
variable {zones : ZoneInfo} {spec : StrategySpecification} {rules : TradeRules}
  {configuration : BacktestConfiguration} {replay : Replay}

/-! ## Targets -/

variable (rules) in
/-- **The targets a bar reaches take an equal part each**, the last one what is left. -/
theorem takeTargets_spec (candle : BacktestCandle) {n : ℕ} (hn : 0 < n) (targets : List ℚ)
    (index : ℕ) :
    ∃ k ≤ targets.length,
      (takeTargets rules candle (1 / n) targets index (targets.length / n)).2.1 = index + k ∧
      (takeTargets rules candle (1 / n) targets index (targets.length / n)).2.2 =
        (targets.length - k) / n ∧
      ∀ fill ∈ (takeTargets rules candle (1 / n) targets index (targets.length / n)).1,
        0 < fill.size := by
  have hpos : (0 : ℚ) < n := by exact_mod_cast hn
  induction targets generalizing index with
  | nil =>
    refine ⟨0, le_refl _, rfl, ?_, fun fill h => by cases h⟩
    simp [takeTargets]
  | cons target rest ih =>
    have hpart : (1 : ℚ) / n ≤ ((target :: rest).length : ℚ) / n := by
      refine div_le_div_of_nonneg_right ?_ hpos.le
      rw [List.length_cons]
      push_cast
      linarith [Nat.cast_nonneg (α := ℚ) rest.length]
    have hsize : (if rest.isEmpty then ((target :: rest).length : ℚ) / n
        else min (1 / n) (((target :: rest).length : ℚ) / n)) = 1 / n := by
      cases rest with
      | nil => simp
      | cons next later =>
        rw [if_neg (by simp)]
        exact min_eq_left hpart
    have hleft : ((target :: rest).length : ℚ) / n - 1 / n = (rest.length : ℚ) / n := by
      rw [List.length_cons]
      push_cast
      ring
    rw [takeTargets]
    by_cases hit : reaches rules candle target = true
    · rw [if_pos hit]
      dsimp only
      rw [hsize, hleft]
      obtain ⟨k, hk, hindex, hremains, hfills⟩ := ih (index + 1)
      refine ⟨k + 1, ?_, ?_, ?_, fun fill hfill => ?_⟩
      · rw [List.length_cons]
        omega
      · rw [hindex]
        omega
      · rw [hremains, List.length_cons]
        push_cast
        ring
      · rcases List.mem_cons.1 hfill with rfl | hfill
        · exact div_pos one_pos hpos
        · exact hfills fill hfill
    · rw [if_neg hit]
      refine ⟨0, Nat.zero_le _, rfl, ?_, fun fill h => by cases h⟩
      simp

/-! ## Open trades -/

/-- An open trade: an `n`-th is left for every target not taken, the exits took the rest and earned the
profit so far. -/
structure Balanced (rules : TradeRules) (t : OpenTrade) : Prop where
  index_lt : t.targetIndex < t.targets.length
  remaining_eq : t.remaining = (t.targets.length - t.targetIndex : ℚ) / t.targets.length
  fractions_pos : ∀ e ∈ t.exits, 0 < e.fraction
  fractions_sum : (t.exits.map ExitRecord.fraction).sum = 1 - t.remaining
  pnl_eq : t.pnl = (t.exits.map fun e => e.earned rules.direction.sign t.entry).sum

theorem Balanced.targets_pos {t : OpenTrade} (h : Balanced rules t) : 0 < t.targets.length :=
  Nat.zero_lt_of_lt h.index_lt

theorem Balanced.remaining_pos {t : OpenTrade} (h : Balanced rules t) : 0 < t.remaining := by
  have hn : (0 : ℚ) < t.targets.length := by exact_mod_cast h.targets_pos
  have hlt : (t.targetIndex : ℚ) < t.targets.length := by exact_mod_cast h.index_lt
  rw [h.remaining_eq]
  exact div_pos (by linarith) hn

/-- What opens a trade. -/
structure EnteredBy (rules : TradeRules) (configuration : BacktestConfiguration) (bar : Bar)
    (t : OpenTrade) : Prop where
  levels : LevelsOf rules t.entry bar.2.volatility configuration.tickSize t.originalStop t.targets
  enteredAt : t.enteredAt = bar.1.observedAt
  entry : t.entry = bar.1.openPrice + rules.direction.sign * configuration.slippage
  stop : t.stop = t.originalStop
  risk : t.risk = |t.entry - t.originalStop|
  untouched : t.remaining = 1 ∧ t.pnl = 0 ∧ t.exits = [] ∧ t.targetIndex = 0

theorem enterAt_spec {bar : Bar} {t : OpenTrade}
    (h : enterAt zones spec rules configuration replay bar = some t) :
    EnteredBy rules configuration bar t := by
  unfold enterAt at h
  dsimp only at h
  split at h
  · split at h
    · cases h
    · rename_i stop targets hlevels
      cases h
      exact ⟨protectionLevels_ok hlevels, rfl, rfl, rfl, rfl, rfl, rfl, rfl, rfl⟩
  · cases h

theorem EnteredBy.balanced {bar : Bar} {t : OpenTrade} (h : EnteredBy rules configuration bar t) :
    Balanced rules t := by
  obtain ⟨hremaining, hpnl, hexits, hindex⟩ := h.untouched
  have hlen : 0 < t.targets.length := by
    rw [h.levels.targets_eq, List.length_map]
    exact List.length_pos_of_ne_nil rules.targets_nonempty
  have hne : (t.targets.length : ℚ) ≠ 0 := by exact_mod_cast hlen.ne'
  refine ⟨by omega, ?_, ?_, ?_, ?_⟩
  · rw [hremaining, hindex, Nat.cast_zero, sub_zero, div_self hne]
  · rw [hexits]
    exact nofun
  · rw [hexits, hremaining]
    simp
  · rw [hexits, hpnl]
    rfl

/-! ## A bar -/

variable (spec rules) in
/-- **What a bar fills is positive**, and it takes all that is left or leaves a part for every target
behind it. -/
theorem barFills_spec (closing : Bool) (candle : BacktestCandle) (previous : FeaturePoint)
    {t : OpenTrade} (h : Balanced rules t) :
    (∀ fill ∈ (barFills spec rules closing candle previous t).1, 0 < fill.size) ∧
      (sizes (barFills spec rules closing candle previous t).1 = t.remaining ∨
        (barFills spec rules closing candle previous t).2 < t.targets.length ∧
        t.remaining - sizes (barFills spec rules closing candle previous t).1 =
          (t.targets.length - (barFills spec rules closing candle previous t).2 : ℚ) /
            t.targets.length) := by
  have hwhole (price : ℚ) (reason : ExitReason) :
      (∀ fill ∈ [({ price, size := t.remaining, reason } : Fill)], 0 < fill.size) ∧
        sizes [({ price, size := t.remaining, reason } : Fill)] = t.remaining := by
    refine ⟨fun fill hfill => ?_, by simp [sizes]⟩
    rw [List.mem_singleton.1 hfill]
    exact h.remaining_pos
  unfold barFills
  split
  · exact ⟨(hwhole _ _).1, .inl (hwhole _ _).2⟩
  split
  · exact ⟨(hwhole _ _).1, .inl (hwhole _ _).2⟩
  split
  · exact ⟨(hwhole _ _).1, .inl (hwhole _ _).2⟩
  have hn : (0 : ℚ) < t.targets.length := by exact_mod_cast h.targets_pos
  have hlen : ((t.targets.drop t.targetIndex).length : ℚ) = t.targets.length - t.targetIndex := by
    rw [List.length_drop, Nat.cast_sub h.index_lt.le]
  have hremaining : t.remaining =
      ((t.targets.drop t.targetIndex).length : ℚ) / t.targets.length := by
    rw [hlen]
    exact h.remaining_eq
  obtain ⟨k, hk, hindex, hleft, hfills⟩ := takeTargets_spec rules candle h.targets_pos
    (t.targets.drop t.targetIndex) t.targetIndex
  have htaken := takeTargets_left rules candle (1 / t.targets.length)
    (t.targets.drop t.targetIndex) t.targetIndex t.remaining
  rw [← hremaining] at hindex hleft hfills
  dsimp only
  generalize takeTargets rules candle (1 / t.targets.length) (t.targets.drop t.targetIndex)
    t.targetIndex t.remaining = taken at hindex hleft hfills htaken ⊢
  obtain ⟨fills, index, left⟩ := taken
  dsimp only at hindex hleft hfills htaken ⊢
  have hnonneg : 0 ≤ left := by
    rw [hleft]
    have hle : (k : ℚ) ≤ (t.targets.drop t.targetIndex).length := by exact_mod_cast hk
    exact div_nonneg (by linarith) hn.le
  by_cases hpos : 0 < left
  · cases closing with
    | true =>
      simp only [hpos, decide_true, Bool.and_self, if_true]
      refine ⟨fun fill hfill => ?_, .inl ?_⟩
      · rcases List.mem_append.1 hfill with hfill | hfill
        · exact hfills fill hfill
        · rw [List.mem_singleton.1 hfill]
          exact hpos
      · simp only [sizes, List.map_append, List.sum_append, List.map_cons, List.map_nil,
          List.sum_singleton]
        unfold sizes at htaken
        linarith
    | false =>
      simp only [Bool.false_and, Bool.false_eq_true, if_false, List.append_nil]
      refine ⟨hfills, .inr ⟨?_, ?_⟩⟩
      · rw [hleft, div_pos_iff_of_pos_right hn, sub_pos] at hpos
        have hlt : k < (t.targets.drop t.targetIndex).length := by exact_mod_cast hpos
        rw [List.length_drop] at hlt
        omega
      · rw [← htaken, hleft, hindex, hlen]
        push_cast
        ring
  · have hzero : left = 0 := le_antisymm (not_lt.1 hpos) hnonneg
    simp only [hpos, decide_false, Bool.and_false, Bool.false_eq_true, if_false, List.append_nil]
    refine ⟨hfills, .inl ?_⟩
    linarith

variable (spec configuration replay) in
/-- A bar with its fills: what the books of the trade are behind it. -/
theorem manageBar_books (closing : Bool) (bar : Bar) {t : OpenTrade} (h : Balanced rules t) :
    let t' := manageBar spec rules configuration replay closing bar t
    (∀ e ∈ t'.exits, 0 < e.fraction) ∧
      (t'.exits.map ExitRecord.fraction).sum = 1 - t'.remaining ∧
      t'.pnl = (t'.exits.map fun e => e.earned rules.direction.sign t'.entry).sum ∧
      (t'.remaining = 0 ∨ t'.targetIndex < t'.targets.length ∧
        t'.remaining = (t'.targets.length - t'.targetIndex : ℚ) / t'.targets.length) := by
  obtain ⟨stop, _, heq⟩ := manageBar_eq spec rules configuration replay closing bar t
  obtain ⟨hsizes, hleft⟩ := barFills_spec spec rules closing bar.1
    (bar.2.withNews (barNews spec replay bar.1.observedAt)) h
  rw [heq, fillBar_eq, applyFills_eq]
  dsimp only [excursions]
  have hmap (fills : List Fill) :
      ((fills.map (exitOf rules configuration bar.1.observedAt)).map ExitRecord.fraction).sum =
        sizes fills := by
    rw [List.map_map]
    rfl
  refine ⟨fun e he => ?_, ?_, ?_, ?_⟩
  · rcases List.mem_append.1 he with he | he
    · exact h.fractions_pos e he
    · obtain ⟨fill, hfill, rfl⟩ := List.mem_map.1 he
      exact hsizes fill hfill
  · rw [List.map_append, List.sum_append, hmap, h.fractions_sum]
    ring
  · rw [List.map_append, List.sum_append, h.pnl_eq]
  · rcases hleft with hall | hpart
    · exact .inl (by
        show t.remaining - sizes _ = 0
        rw [← hall]
        exact sub_self _)
    · exact .inr hpart

/-- The record of a closed trade: its exits take the whole position and earn its profit, of which the
costs are taken once. -/
structure Conserved (configuration : BacktestConfiguration) (fill : TradeFill) : Prop where
  fractions_pos : ∀ e ∈ fill.exits, 0 < e.fraction
  fractions_sum : (fill.exits.map ExitRecord.fraction).sum = 1
  pnl_eq : fill.pnl = (fill.exits.map fun e => e.earned fill.direction.sign fill.entry).sum -
    (configuration.spread + configuration.commission)

variable (zones spec rules configuration replay) in
theorem conserved_life :
    LifeRule zones spec rules configuration replay (fun _ => True) (Balanced rules)
      (Conserved configuration) where
  enter bar t _ h := (enterAt_spec h).balanced
  manage closing bar t _ h hopen := by
    obtain ⟨hpos, hsum, hpnl, hleft⟩ := manageBar_books spec configuration replay closing bar h
    rcases hleft with hzero | ⟨hindex, hremaining⟩
    · rw [hzero] at hopen
      exact absurd hopen (lt_irrefl _)
    · exact ⟨hindex, hremaining, hpos, hsum, hpnl⟩
  close closing bar t _ h hclosed := by
    obtain ⟨hpos, hsum, hpnl, hleft⟩ := manageBar_books spec configuration replay closing bar h
    have hzero : (manageBar spec rules configuration replay closing bar t).remaining = 0 := by
      rcases hleft with hzero | ⟨hindex, hremaining⟩
      · exact hzero
      · exact absurd (Balanced.remaining_pos ⟨hindex, hremaining, hpos, hsum, hpnl⟩) hclosed
    refine ⟨hpos, ?_, ?_⟩
    · rw [hzero, sub_zero] at hsum
      exact hsum
    · exact congrArg (· - (configuration.spread + configuration.commission)) hpnl

end

/-! ## One trade after the other -/

/-- The bar a trade was entered at, and a bar from it on it was left at. -/
structure ClosedAt (candles : List BacktestCandle) (fill : TradeFill) (span : ℕ × ℕ) : Prop where
  entered : candles[span.1]?.map BacktestCandle.observedAt = some fill.enteredAt
  exited : candles[span.2]?.map BacktestCandle.observedAt = some fill.exitedAt
  ordered : span.1 ≤ span.2

theorem map_getElem?_append {α β : Type} {f : α → β} {xs : List α} {k : ℕ} {b : β}
    (h : xs[k]?.map f = some b) (later : List α) : (xs ++ later)[k]?.map f = some b := by
  obtain ⟨a, hget, _⟩ := Option.map_eq_some_iff.1 h
  obtain ⟨hlt, _⟩ := List.getElem?_eq_some_iff.1 hget
  rw [List.getElem?_append_left hlt]
  exact h

theorem ClosedAt.append {candles : List BacktestCandle} {fill : TradeFill} {span : ℕ × ℕ}
    (h : ClosedAt candles fill span) (later : List BacktestCandle) :
    ClosedAt (candles ++ later) fill span :=
  ⟨map_getElem?_append h.entered later, map_getElem?_append h.exited later, h.ordered⟩

/-- The records behind the candles so far, each on bars behind those of the one before; an open trade was
entered behind all of them. -/
structure PlacedOn (past : List BacktestCandle) (s : Simulation) (spans : List (ℕ × ℕ)) : Prop where
  closed : List.Forall₂ (ClosedAt past) s.attribution spans
  apart : spans.Pairwise fun earlier later => earlier.2 < later.1
  within : ∀ span ∈ spans, span.2 < past.length
  trade : ∀ t ∈ s.trade, ∃ k < past.length, past[k]?.map BacktestCandle.observedAt = some t.enteredAt ∧
    ∀ span ∈ spans, span.2 < k

def Placed (past : List BacktestCandle) (s : Simulation) : Prop := ∃ spans, PlacedOn past s spans

theorem Placed.start (past : List BacktestCandle) : Placed past {} :=
  ⟨[], .nil, List.Pairwise.nil, fun _ h => (by cases h), fun _ h => (by cases h)⟩

section
variable {zones : ZoneInfo} {spec : StrategySpecification} {rules : TradeRules}
  {configuration : BacktestConfiguration} {replay : Replay}

/-- A trade that a bar closes is left at that bar. -/
theorem closed_exitedAt (closing : Bool) (bar : Bar) {t : OpenTrade} (h : Balanced rules t)
    (hclosed : ¬0 < (manageBar spec rules configuration replay closing bar t).remaining) :
    ((manageBar spec rules configuration replay closing bar t).fill rules configuration).exitedAt =
      bar.1.observedAt := by
  obtain ⟨stop, _, heq⟩ := manageBar_eq spec rules configuration replay closing bar t
  rw [manageBar_remaining, fillBar_remaining] at hclosed
  have hfills : (fillsAt spec rules replay closing bar t).1 ≠ [] := by
    intro hnil
    refine hclosed ?_
    have hsizes : sizes (fillsAt spec rules replay closing bar t).1 = 0 := by
      rw [hnil]
      rfl
    show 0 < t.remaining - sizes (fillsAt spec rules replay closing bar t).1
    rw [hsizes, sub_zero]
    exact h.remaining_pos
  obtain ⟨fills, last, hlast⟩ := List.eq_nil_or_concat'
    (fillsAt spec rules replay closing bar t).1 |>.resolve_left hfills
  rw [heq, fillBar_eq, applyFills_eq, hlast]
  unfold OpenTrade.fill
  dsimp only [excursions]
  rw [List.map_append, ← List.append_assoc, List.map_singleton, List.getLast?_concat]
  rfl

/-- The trade of a bar was entered there or before, behind all closed ones. -/
theorem PlacedOn.taken {past : List BacktestCandle} {s : Simulation} {spans : List (ℕ × ℕ)}
    (h : PlacedOn past s spans) {bar : Bar} {t : OpenTrade}
    (ht : (s.trade.orElse fun _ => enterAt zones spec rules configuration replay bar) = some t) :
    ∃ k ≤ past.length, (past ++ [bar.1])[k]?.map BacktestCandle.observedAt = some t.enteredAt ∧
      ∀ span ∈ spans, span.2 < k := by
  cases hopen : s.trade with
  | some t' =>
    rw [hopen] at ht
    cases ht
    obtain ⟨k, hk, hget, hafter⟩ := h.trade _ hopen
    exact ⟨k, hk.le, map_getElem?_append hget _, hafter⟩
  | none =>
    rw [hopen] at ht
    have hentered := (enterAt_spec ht).enteredAt
    refine ⟨past.length, le_refl _, ?_, h.within⟩
    rw [hentered, List.getElem?_concat_length]
    rfl

theorem Placed.step {past : List BacktestCandle} {s : Simulation} (h : Placed past s)
    (hlife : Living (Balanced rules) (Conserved configuration) s) (closing : Bool) (bar : Bar) :
    Placed (past ++ [bar.1]) (stepBar zones spec rules configuration replay closing s bar) := by
  obtain ⟨spans, h⟩ := h
  have hlen : (past ++ [bar.1]).length = past.length + 1 := by simp
  have hclosed : List.Forall₂ (ClosedAt (past ++ [bar.1])) s.attribution spans :=
    h.closed.imp fun _ _ hc => hc.append [bar.1]
  have hwithin : ∀ span ∈ spans, span.2 < (past ++ [bar.1]).length := by
    intro span hspan
    have := h.within span hspan
    omega
  unfold stepBar
  split
  · rename_i hnone
    refine ⟨spans, hclosed, h.apart, hwithin, fun t ht => ?_⟩
    obtain ⟨k, hk, hget, hafter⟩ := h.trade t ht
    exact ⟨k, by omega, map_getElem?_append hget _, hafter⟩
  · rename_i t ht
    obtain ⟨k, hk, hget, hafter⟩ := h.taken ht
    have hbalanced : Balanced rules t := (conserved_life zones spec rules configuration replay).taken hlife trivial ht
    have hentered : (manageBar spec rules configuration replay closing bar t).enteredAt =
        t.enteredAt := manageBar_enteredAt closing bar t
    unfold Simulation.settle
    split
    · refine ⟨spans, hclosed, h.apart, hwithin, fun t' ht' => ?_⟩
      cases ht'
      exact ⟨k, by omega, by rw [hentered]; exact hget, hafter⟩
    · rename_i hdone
      refine ⟨spans ++ [(k, past.length)], ?_, ?_, fun span hspan => ?_, fun t' ht' => (by cases ht')⟩
      · refine List.rel_append hclosed (.cons ⟨?_, ?_, hk⟩ .nil)
        · show _ = some (manageBar spec rules configuration replay closing bar t).enteredAt
          rw [hentered]
          exact hget
        · rw [closed_exitedAt closing bar hbalanced hdone, List.getElem?_concat_length]
          rfl
      · rw [List.pairwise_append]
        refine ⟨h.apart, List.pairwise_singleton _ _, fun span hspan last hlast => ?_⟩
        rw [List.mem_singleton.1 hlast]
        exact hafter span hspan
      · rcases List.mem_append.1 hspan with hspan | hspan
        · exact hwithin span hspan
        · rw [List.mem_singleton.1 hspan, hlen]
          exact Nat.lt_succ_self _

/-! ## The books of a simulation -/

/-- The result and the record of a trade carry the same profit and risk. -/
def SameBooks (s : Simulation) : Prop :=
  s.trades.map (fun trade => (trade.pnl, trade.risk)) =
    s.attribution.map fun fill => (fill.pnl, fill.risk)

theorem SameBooks.step {s : Simulation} (h : SameBooks s) (closing : Bool) (bar : Bar) :
    SameBooks (stepBar zones spec rules configuration replay closing s bar) := by
  unfold stepBar
  split
  · exact h
  · unfold Simulation.settle
    split
    · exact h
    · unfold SameBooks at h ⊢
      rw [List.map_append, List.map_append, h]
      rfl

/-- What holds of the bars so far. -/
structure Bookkeeping (rules : TradeRules) (configuration : BacktestConfiguration)
    (past : List BacktestCandle) (s : Simulation) : Prop where
  life : Living (Balanced rules) (Conserved configuration) s
  placed : Placed past s
  same : SameBooks s

variable (zones spec rules configuration replay) in
theorem simulateBars_books (past : List BacktestCandle) (bars : List Bar) :
    Bookkeeping rules configuration (past ++ bars.map Prod.fst)
      (simulateBars zones spec rules configuration replay {} bars) := by
  have hstart : Bookkeeping rules configuration (past ++ ([] : List Bar).map Prod.fst) {} := by
    rw [List.map_nil, List.append_nil]
    exact ⟨Living.start, Placed.start past, rfl⟩
  refine @simulateBars_inv zones spec rules configuration replay
    (fun seen s => Bookkeeping rules configuration (past ++ seen.map Prod.fst) s) (fun _ => True)
    (fun seen s bar closing _ h => ?_) bars (fun _ _ => trivial) [] {} hstart
  have hlife : Living (Balanced rules) (Conserved configuration)
      (stepBar zones spec rules configuration replay closing s bar) :=
    (conserved_life zones spec rules configuration replay).step h.life closing trivial
  refine ⟨hlife, ?_, h.same.step closing bar⟩
  rw [List.map_append, ← List.append_assoc]
  exact h.placed.step h.life closing bar

end

/-! ## Chronological histories -/

/-- In a chronological history later bars have later times. -/
theorem instant_lt {candles : List BacktestCandle} (h : chronological candles = true) {i j : ℕ}
    {x y : AwareTime} (hi : candles[i]?.map BacktestCandle.observedAt = some x)
    (hj : candles[j]?.map BacktestCandle.observedAt = some y) (hlt : i < j) : x.instant < y.instant := by
  obtain ⟨a, ha, rfl⟩ := Option.map_eq_some_iff.1 hi
  obtain ⟨b, hb, rfl⟩ := Option.map_eq_some_iff.1 hj
  obtain ⟨hia, rfl⟩ := List.getElem?_eq_some_iff.1 ha
  obtain ⟨hjb, rfl⟩ := List.getElem?_eq_some_iff.1 hb
  unfold chronological at h
  rw [decide_eq_true_eq, List.pairwise_map] at h
  exact List.pairwise_iff_getElem.1 h i j hia hjb hlt

theorem ClosedAt.instants {candles : List BacktestCandle} (h : chronological candles = true)
    {fill : TradeFill} {span : ℕ × ℕ} (hc : ClosedAt candles fill span) :
    fill.enteredAt.instant ≤ fill.exitedAt.instant := by
  rcases hc.ordered.eq_or_lt with heq | hlt
  · have hentered := hc.entered
    rw [heq, hc.exited] at hentered
    rw [Option.some_inj.1 hentered]
  · exact (instant_lt h hc.entered hc.exited hlt).le

/-- Every trade is over before the next one is entered. -/
structure Succeeding (fills : List TradeFill) : Prop where
  apart : fills.Pairwise fun earlier later => earlier.exitedAt.instant < later.enteredAt.instant
  ordered : ∀ fill ∈ fills, fill.enteredAt.instant ≤ fill.exitedAt.instant

theorem succeeding_of_spans {candles : List BacktestCandle} (h : chronological candles = true)
    {fills : List TradeFill} {spans : List (ℕ × ℕ)} (hclosed : List.Forall₂ (ClosedAt candles) fills spans)
    (hapart : spans.Pairwise fun earlier later => earlier.2 < later.1) : Succeeding fills := by
  induction hclosed with
  | nil => exact ⟨List.Pairwise.nil, fun _ h => by cases h⟩
  | @cons fill span fills spans hfill hrest ih =>
    obtain ⟨hfirst, hapart⟩ := List.pairwise_cons.1 hapart
    obtain ⟨hsucc, hordered⟩ := ih hapart
    refine ⟨List.pairwise_cons.2 ⟨fun later hlater => ?_, hsucc⟩, fun other hother => ?_⟩
    · obtain ⟨i, hi, rfl⟩ := List.mem_iff_getElem.1 hlater
      have hlen : i < spans.length := hrest.length_eq ▸ hi
      have hlast := hrest.get hi hlen
      exact instant_lt h hfill.exited hlast.entered (hfirst _ (List.getElem_mem hlen))
    · rcases List.mem_cons.1 hother with rfl | hother
      · exact hfill.instants h
      · exact hordered other hother

/-- The books of a simulation, on its own candles. -/
theorem simulate_books {library : TechnicalLibrary} {zones : ZoneInfo}
    {spec : StrategySpecification} {configuration : BacktestConfiguration} {replay : Replay}
    {candles : List BacktestCandle} {s : Simulation}
    (h : simulateProtectedTrades library zones spec candles configuration replay = .ok s) :
    ∃ rules, spec.tradeRules = some rules ∧ Bookkeeping rules configuration candles s := by
  obtain ⟨rules, series, hrules, hseries, rfl⟩ := simulate_run h
  have hbooks := simulateBars_books zones spec rules configuration replay (candles.take 2)
    (barsOf candles series)
  rw [barsOf_candles (strategyFeatureSeries_length hseries), List.take_append_drop] at hbooks
  exact ⟨rules, hrules, hbooks⟩

/-- **Simulated trades conserve the position**: the exits of a closed trade take positive parts of it
that add up to the whole, the profit is theirs less the costs, and each trade is entered behind the bar
the one before it was left at. -/
theorem simulated_trades_conserve {library : TechnicalLibrary} {zones : ZoneInfo}
    {spec : StrategySpecification} {configuration : BacktestConfiguration} {replay : Replay}
    {candles : List BacktestCandle} {s : Simulation}
    (h : simulateProtectedTrades library zones spec candles configuration replay = .ok s) :
    SameBooks s ∧ (∀ fill ∈ s.attribution, Conserved configuration fill) ∧
      (∃ spans, List.Forall₂ (ClosedAt candles) s.attribution spans ∧
        spans.Pairwise fun earlier later => earlier.2 < later.1) ∧
      (chronological candles = true → Succeeding s.attribution) := by
  obtain ⟨rules, _, hbooks⟩ := simulate_books h
  obtain ⟨spans, hplaced⟩ := hbooks.placed
  exact ⟨hbooks.same, hbooks.life.attribution, ⟨spans, hplaced.closed, hplaced.apart⟩,
    fun hchronological => succeeding_of_spans hchronological hplaced.closed hplaced.apart⟩

/-- One closed trade. -/
theorem simulated_trades_conserve_rising :
    ∃ s, simulateProtectedTrades trangeLibrary utcOnly rangeStrategy risingBars plainAccount
        { closeAtEnd := false } = .ok s ∧ s.trades.length = 1 ∧
      ∀ fill ∈ s.attribution, Conserved plainAccount fill := by
  have hone : closedTrades risingBars = some 1 := by decide +kernel
  obtain ⟨s, hs, hlen⟩ := Option.map_eq_some_iff.1 hone
  rw [toOption_eq_some] at hs
  exact ⟨s, hs, hlen, (simulated_trades_conserve hs).2.1⟩

end Matrades
