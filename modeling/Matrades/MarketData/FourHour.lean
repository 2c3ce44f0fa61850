import Matrades.Base.Dict
import Matrades.Base.Ranked
import Matrades.Strategies.Schema

/-!
# Four-hour candles

`_four_hour_candles` of `adapters/market_data/history.py` and the aggregation of
`adapters/market_data/public_research.py`. Both group hourly candles into UTC buckets of four hours and keep
the buckets that hold exactly the four hourly candles, in order (`HourlySeries.full_iff`); on the buckets
inside the requested interval they agree (`four_hour_candles_agree`).
-/

namespace Matrades

open Base

/-- `int(candle.observed_at.timestamp())` -/
def candleSecond (c : BacktestCandle) : ℤ := c.observedAt.instant.tdiv 1000000

def fourHourBucket (c : BacktestCandle) : ℤ := candleSecond c / 14400 * 14400

/-- The seconds of the four hours of a bucket. -/
def hoursOf (bucket : ℤ) : List ℤ := (List.range 4).map fun offset : ℕ => bucket + offset * 3600

/-- The candle of a non-empty group. -/
def combinedCandle (observedAt : AwareTime) (first : BacktestCandle) (rest : List BacktestCandle) :
    BacktestCandle where
  observedAt := observedAt
  openPrice := first.openPrice
  high := rest.foldl (fun high c => max high c.high) first.high
  low := rest.foldl (fun low c => min low c.low) first.low
  close := (rest.getLastD first).close
  volume := ((first :: rest).map fun c => c.volume).sum

/-- The groups in the order of their buckets. -/
def sortedBuckets (candles : List BacktestCandle) : List (ℤ × List BacktestCandle) :=
  ranked Prod.fst (Dict.grouped fourHourBucket candles).entries

/-- `_four_hour_candles` -/
def fourHourCandles (candles : List BacktestCandle) : List BacktestCandle :=
  (sortedBuckets candles).filterMap fun e =>
    if e.2.map candleSecond ≠ hoursOf e.1 then none
    else match e.2 with
      | [] => none
      | first :: rest => some (combinedCandle first.observedAt first rest)

/-- The aggregation of the public research adapter. -/
def publicFourHourCandles (candles : List BacktestCandle) (start stop : ℤ) : List BacktestCandle :=
  (sortedBuckets candles).filterMap fun e =>
    if e.2.length = 4 ∧ e.2.map candleSecond = hoursOf e.1 ∧ start ≤ 1000000 * e.1 ∧
        1000000 * (e.1 + 14400) ≤ stop then
      match e.2 with
      | [] => none
      | first :: rest => some (combinedCandle ⟨1000000 * e.1, 0⟩ first rest)
    else none

/-- Hourly candles, in the order of their distinct whole-second UTC times. -/
structure HourlySeries where
  candles : List BacktestCandle
  sorted : candles.Pairwise fun a b => a.observedAt.instant < b.observedAt.instant
  whole : ∀ c ∈ candles, c.observedAt.offset = 0 ∧ 1000000 ∣ c.observedAt.instant

namespace HourlySeries

variable (s : HourlySeries)

/-- The candles of a bucket. -/
def parts (bucket : ℤ) : List BacktestCandle := s.candles.filter fun c => fourHourBucket c = bucket

/-- The four hourly candles of the bucket are there. -/
def HasHours (bucket : ℤ) : Prop := ∀ t ∈ hoursOf bucket, ∃ c ∈ s.candles, candleSecond c = t

/-- The bucket holds no other candle. -/
def OnlyHours (bucket : ℤ) : Prop :=
  ∀ c ∈ s.candles, fourHourBucket c = bucket → candleSecond c ∈ hoursOf bucket

variable {s}

/-! ## Times -/

theorem observedAt_eq {c : BacktestCandle} (hc : c ∈ s.candles) :
    c.observedAt = ⟨1000000 * candleSecond c, 0⟩ := by
  obtain ⟨hoffset, hwhole⟩ := s.whole c hc
  have hinstant : 1000000 * candleSecond c = c.observedAt.instant := Int.mul_tdiv_cancel' hwhole
  rw [hinstant, ← hoffset]

theorem mem_hoursOf {bucket t : ℤ} : t ∈ hoursOf bucket ↔
    t = bucket ∨ t = bucket + 3600 ∨ t = bucket + 7200 ∨ t = bucket + 10800 := by
  simp only [hoursOf, List.mem_map, List.mem_range]
  constructor
  · rintro ⟨i, hi, rfl⟩
    omega
  · rintro (h | h | h | h)
    · exact ⟨0, by omega, by omega⟩
    · exact ⟨1, by omega, by omega⟩
    · exact ⟨2, by omega, by omega⟩
    · exact ⟨3, by omega, by omega⟩

theorem hoursOf_sorted (bucket : ℤ) : (hoursOf bucket).Pairwise (· < ·) := by
  show [bucket + ((0 : ℕ) : ℤ) * 3600, bucket + ((1 : ℕ) : ℤ) * 3600, bucket + ((2 : ℕ) : ℤ) * 3600,
    bucket + ((3 : ℕ) : ℤ) * 3600].Pairwise (· < ·)
  simp only [List.pairwise_cons, List.mem_cons, List.not_mem_nil, or_false]
  refine ⟨?_, ?_, ?_, by simp, List.Pairwise.nil⟩ <;> omega

theorem candleSecond_sorted : (s.candles.map candleSecond).Pairwise (· < ·) := by
  rw [List.pairwise_map]
  refine s.sorted.imp_of_mem fun ha hb hlt => ?_
  rw [observedAt_eq ha, observedAt_eq hb] at hlt
  simp only at hlt
  omega

/-! ## Full buckets -/

theorem parts_sorted (bucket : ℤ) : ((s.parts bucket).map candleSecond).Pairwise (· < ·) :=
  candleSecond_sorted.sublist (List.filter_sublist.map _)

theorem dvd_of_mem_parts {bucket : ℤ} {c : BacktestCandle} (h : c ∈ s.parts bucket) : 14400 ∣ bucket := by
  have hbucket : fourHourBucket c = bucket := of_decide_eq_true (List.mem_filter.1 h).2
  exact ⟨candleSecond c / 14400, by rw [← hbucket, fourHourBucket, mul_comm]⟩

/-- A bucket holds exactly the four hourly candles when it is aligned, they are there, and no other is. -/
theorem full_iff {bucket : ℤ} : (s.parts bucket).map candleSecond = hoursOf bucket ↔
    14400 ∣ bucket ∧ s.HasHours bucket ∧ s.OnlyHours bucket := by
  constructor
  · intro h
    have hmem : ∀ t ∈ hoursOf bucket, ∃ c ∈ s.parts bucket, candleSecond c = t := by
      intro t ht
      rw [← h] at ht
      exact List.mem_map.1 ht
    obtain ⟨c, hc, -⟩ := hmem bucket (mem_hoursOf.2 (.inl rfl))
    refine ⟨dvd_of_mem_parts hc, fun t ht => ?_, fun d hd hbucket => ?_⟩
    · obtain ⟨c, hc, hsecond⟩ := hmem t ht
      exact ⟨c, List.mem_of_mem_filter hc, hsecond⟩
    · rw [← h]
      exact List.mem_map_of_mem (List.mem_filter.2 ⟨hd, decide_eq_true hbucket⟩)
  · rintro ⟨hdvd, hhas, honly⟩
    have hmem : ∀ t, t ∈ (s.parts bucket).map candleSecond ↔ t ∈ hoursOf bucket := by
      intro t
      constructor
      · intro ht
        obtain ⟨c, hc, rfl⟩ := List.mem_map.1 ht
        obtain ⟨hc, hbucket⟩ := List.mem_filter.1 hc
        exact honly c hc (of_decide_eq_true hbucket)
      · intro ht
        obtain ⟨c, hc, hsecond⟩ := hhas t ht
        refine List.mem_map.2 ⟨c, List.mem_filter.2 ⟨hc, decide_eq_true ?_⟩, hsecond⟩
        have hcases := mem_hoursOf.1 ht
        unfold fourHourBucket
        omega
    have hperm := (List.perm_ext_iff_of_nodup ((parts_sorted bucket).imp ne_of_lt)
      ((hoursOf_sorted bucket).imp ne_of_lt)).2 hmem
    exact hperm.eq_of_pairwise (fun a b _ _ hab hba => absurd hab (not_lt.2 hba.le)) (parts_sorted bucket)
      (hoursOf_sorted bucket)

/-- Candles at least an hour apart leave no room for another one in a bucket that has its four. -/
theorem onlyHours_of_hourly
    (hourly : s.candles.Pairwise fun a b => a.observedAt.instant + 3600000000 ≤ b.observedAt.instant)
    {bucket : ℤ} (hhas : s.HasHours bucket) : s.OnlyHours bucket := by
  have hapart : ∀ a ∈ s.candles, ∀ b ∈ s.candles, candleSecond a ≠ candleSecond b →
      candleSecond a + 3600 ≤ candleSecond b ∨ candleSecond b + 3600 ≤ candleSecond a := by
    intro a ha b hb hne
    have hspaced := List.pairwise_iff_getElem.1 hourly
    obtain ⟨i, hi, rfl⟩ := List.getElem_of_mem ha
    obtain ⟨j, hj, rfl⟩ := List.getElem_of_mem hb
    have hti := congrArg AwareTime.instant (observedAt_eq ha)
    have htj := congrArg AwareTime.instant (observedAt_eq hb)
    simp only at hti htj
    rcases Nat.lt_trichotomy i j with hlt | heq | hgt
    · have := hspaced i j hi hj hlt
      omega
    · subst heq
      exact absurd rfl hne
    · have := hspaced j i hj hi hgt
      omega
  intro c hc hbucket
  by_contra hnot
  have hbounds : bucket ≤ candleSecond c ∧ candleSecond c < bucket + 14400 := by
    unfold fourHourBucket at hbucket
    omega
  have hfar : ∀ t ∈ hoursOf bucket, t + 3600 ≤ candleSecond c ∨ candleSecond c + 3600 ≤ t := by
    intro t ht
    obtain ⟨d, hd, rfl⟩ := hhas t ht
    exact hapart d hd c hc fun heq => hnot (heq ▸ ht)
  have h0 := hfar bucket (mem_hoursOf.2 (by omega))
  have h1 := hfar (bucket + 3600) (mem_hoursOf.2 (by omega))
  have h2 := hfar (bucket + 7200) (mem_hoursOf.2 (by omega))
  have h3 := hfar (bucket + 10800) (mem_hoursOf.2 (by omega))
  omega

/-! ## Groups in order -/

theorem mem_sortedBuckets {bucket : ℤ} {items : List BacktestCandle} :
    (bucket, items) ∈ sortedBuckets s.candles ↔ items = s.parts bucket ∧ items ≠ [] := by
  rw [sortedBuckets, mem_ranked, Dict.mem_grouped]
  rfl

theorem sortedBuckets_sorted (candles : List BacktestCandle) :
    (sortedBuckets candles).Pairwise fun a b => a.1 < b.1 := by
  have hsorted : (sortedBuckets candles).Pairwise fun a b => a.1 ≤ b.1 := ranked_sorted _ _
  have hnodup : ((sortedBuckets candles).map Prod.fst).Nodup :=
    ((ranked_permutes _ _).map _).nodup_iff.2 (Dict.grouped fourHourBucket candles).nodup
  exact (hsorted.and (List.pairwise_map.1 hnodup)).imp fun h => lt_of_le_of_ne h.1 h.2

/-- The buckets that hold exactly their four hourly candles. -/
def fullBuckets (s : HourlySeries) : List ℤ :=
  ((sortedBuckets s.candles).filter fun e => e.2.map candleSecond = hoursOf e.1).map Prod.fst

theorem mem_fullBuckets {bucket : ℤ} : bucket ∈ s.fullBuckets ↔
    14400 ∣ bucket ∧ s.HasHours bucket ∧ s.OnlyHours bucket := by
  rw [← full_iff, fullBuckets, List.mem_map]
  constructor
  · rintro ⟨⟨b, items⟩, he, rfl⟩
    obtain ⟨he, hfull⟩ := List.mem_filter.1 he
    rw [← (mem_sortedBuckets.1 he).1]
    exact of_decide_eq_true hfull
  · intro hfull
    refine ⟨(bucket, s.parts bucket), List.mem_filter.2 ⟨?_, decide_eq_true hfull⟩, rfl⟩
    refine mem_sortedBuckets.2 ⟨rfl, fun hnil => ?_⟩
    rw [hnil] at hfull
    cases hfull

theorem fullBuckets_sorted (s : HourlySeries) : s.fullBuckets.Pairwise (· < ·) :=
  List.pairwise_map.2 ((sortedBuckets_sorted s.candles).sublist List.filter_sublist)

/-- Buckets share no candle. -/
theorem flatMap_parts_nodup {buckets : List ℤ} (h : buckets.Pairwise (· < ·)) :
    (buckets.flatMap s.parts).Nodup := by
  have hcandles : s.candles.Nodup := s.sorted.imp fun hlt heq => by
    rw [heq] at hlt
    exact lt_irrefl _ hlt
  refine List.nodup_flatMap.2 ⟨fun b _ => hcandles.sublist List.filter_sublist, h.imp fun hlt => ?_⟩
  rintro c hc hc'
  have hb := of_decide_eq_true (List.mem_filter.1 hc).2
  have hb' := of_decide_eq_true (List.mem_filter.1 hc').2
  omega

end HourlySeries

/-! ## The candle of a group -/

/-- What the four-hour candle of a bucket says about its parts. -/
structure Summarizes (bucket : ℤ) (parts : List BacktestCandle) (c : BacktestCandle) : Prop where
  observedAt : c.observedAt = ⟨1000000 * bucket, 0⟩
  openPrice : parts.head?.map (fun p => p.openPrice) = some c.openPrice
  close : parts.getLast?.map (fun p => p.close) = some c.close
  high : (∀ p ∈ parts, p.high ≤ c.high) ∧ ∃ p ∈ parts, p.high = c.high
  low : (∀ p ∈ parts, c.low ≤ p.low) ∧ ∃ p ∈ parts, p.low = c.low
  volume : c.volume = (parts.map fun p => p.volume).sum

theorem foldl_max_greatest {α κ : Type} [LinearOrder κ] (f : α → κ) (m : κ) (xs : List α) :
    m ≤ xs.foldl (fun m x => max m (f x)) m ∧
      (∀ x ∈ xs, f x ≤ xs.foldl (fun m x => max m (f x)) m) ∧
      (m = xs.foldl (fun m x => max m (f x)) m ∨ ∃ x ∈ xs, f x = xs.foldl (fun m x => max m (f x)) m) := by
  induction xs generalizing m with
  | nil => simp
  | cons x xs ih =>
    rw [List.foldl_cons]
    obtain ⟨hm, hxs, hattained⟩ := ih (max m (f x))
    refine ⟨(le_max_left _ _).trans hm, fun y hy => ?_, ?_⟩
    · rcases List.mem_cons.1 hy with rfl | hy
      · exact (le_max_right _ _).trans hm
      · exact hxs y hy
    · rcases hattained with hmax | ⟨y, hy, hval⟩
      · rcases max_choice m (f x) with hleft | hright
        · exact .inl (hleft.symm.trans hmax)
        · exact .inr ⟨x, List.mem_cons_self, hright.symm.trans hmax⟩
      · exact .inr ⟨y, List.mem_cons_of_mem _ hy, hval⟩

theorem foldl_min_least {α κ : Type} [LinearOrder κ] (f : α → κ) (m : κ) (xs : List α) :
    xs.foldl (fun m x => min m (f x)) m ≤ m ∧
      (∀ x ∈ xs, xs.foldl (fun m x => min m (f x)) m ≤ f x) ∧
      (m = xs.foldl (fun m x => min m (f x)) m ∨ ∃ x ∈ xs, f x = xs.foldl (fun m x => min m (f x)) m) :=
  @foldl_max_greatest α κᵒᵈ _ f m xs

/-- The bounds of a group from those of its first candle and the rest. -/
theorem bound_cons {f : BacktestCandle → ℚ} (P : ℚ → Prop) {bound : ℚ} {first : BacktestCandle}
    {rest : List BacktestCandle} (hfirst : P (f first)) (hrest : ∀ c ∈ rest, P (f c))
    (hattained : f first = bound ∨ ∃ c ∈ rest, f c = bound) :
    (∀ c ∈ first :: rest, P (f c)) ∧ ∃ c ∈ first :: rest, f c = bound := by
  refine ⟨List.forall_mem_cons.2 ⟨hfirst, hrest⟩, ?_⟩
  rcases hattained with heq | ⟨c, hc, heq⟩
  · exact ⟨first, List.mem_cons_self, heq⟩
  · exact ⟨c, List.mem_cons_of_mem _ hc, heq⟩

theorem combinedCandle_summarizes (bucket : ℤ) (first : BacktestCandle) (rest : List BacktestCandle) :
    Summarizes bucket (first :: rest) (combinedCandle ⟨1000000 * bucket, 0⟩ first rest) where
  observedAt := rfl
  openPrice := rfl
  close := by
    rw [List.getLast?_cons, ← List.getLastD_eq_getLast?]
    rfl
  high := by
    obtain ⟨hfirst, hrest, hattained⟩ := foldl_max_greatest (fun c : BacktestCandle => c.high) first.high rest
    exact bound_cons (· ≤ (combinedCandle ⟨1000000 * bucket, 0⟩ first rest).high) hfirst hrest hattained
  low := by
    obtain ⟨hfirst, hrest, hattained⟩ := foldl_min_least (fun c : BacktestCandle => c.low) first.low rest
    exact bound_cons ((combinedCandle ⟨1000000 * bucket, 0⟩ first rest).low ≤ ·) hfirst hrest hattained
  volume := rfl

/-! ## Both aggregations -/

section
variable {s : HourlySeries}

/-- The candle of a full bucket. -/
def fullCandle (e : ℤ × List BacktestCandle) : Option BacktestCandle :=
  match e.2 with
  | [] => none
  | first :: rest => some (combinedCandle ⟨1000000 * e.1, 0⟩ first rest)

theorem observedAt_first {bucket : ℤ} {first : BacktestCandle} {rest : List BacktestCandle}
    (hmem : (bucket, first :: rest) ∈ sortedBuckets s.candles)
    (hfull : (first :: rest).map candleSecond = hoursOf bucket) :
    first.observedAt = ⟨1000000 * bucket, 0⟩ := by
  have hparts := (HourlySeries.mem_sortedBuckets.1 hmem).1
  have hfirst : first ∈ s.candles := List.mem_of_mem_filter (hparts ▸ List.mem_cons_self)
  have hsecond : candleSecond first = bucket + (0 : ℕ) * 3600 := (List.cons.inj hfull).1
  have htime := HourlySeries.observedAt_eq hfirst
  have hbucket : candleSecond first = bucket := by omega
  rw [htime, hbucket]

theorem fourHourCandles_eq (s : HourlySeries) : fourHourCandles s.candles =
    ((sortedBuckets s.candles).filter fun e => e.2.map candleSecond = hoursOf e.1).filterMap fullCandle := by
  rw [fourHourCandles, List.filterMap_filter]
  refine List.filterMap_congr fun e he => ?_
  obtain ⟨bucket, items⟩ := e
  by_cases hfull : items.map candleSecond = hoursOf bucket
  · cases items with
    | nil => simp [fullCandle]
    | cons first rest =>
      have htime := observedAt_first he hfull
      simp [hfull, htime, fullCandle]
  · simp [hfull]

/-- Does the bucket that begins at the candle's time lie in the interval? -/
def bucketInside (start stop : ℤ) (c : BacktestCandle) : Bool :=
  decide (start ≤ c.observedAt.instant) && decide (c.observedAt.instant + 14400000000 ≤ stop)

theorem publicFourHourCandles_eq (s : HourlySeries) (start stop : ℤ) :
    publicFourHourCandles s.candles start stop =
      (fourHourCandles s.candles).filter (bucketInside start stop) := by
  rw [publicFourHourCandles, fourHourCandles, List.filter_filterMap]
  refine List.filterMap_congr fun e he => ?_
  obtain ⟨bucket, items⟩ := e
  by_cases hfull : items.map candleSecond = hoursOf bucket
  · have hlength : items.length = 4 := by
      rw [← @List.length_map _ _ items candleSecond, hfull]
      rfl
    cases items with
    | nil => cases hlength
    | cons first rest =>
      have htime := observedAt_first he hfull
      by_cases hinside : start ≤ 1000000 * bucket ∧ 1000000 * (bucket + 14400) ≤ stop
      · have hend : 1000000 * bucket + 14400000000 ≤ stop := by omega
        simp [hfull, htime, hlength, hinside, hend, Option.filter, bucketInside, combinedCandle]
      · have hout : start ≤ 1000000 * bucket → stop < 1000000 * bucket + 14400000000 := by omega
        simpa [hfull, htime, hlength, hinside, Option.filter, bucketInside, combinedCandle] using hout
  · simp [hfull]

end

/-- **The two aggregations agree** on the buckets inside the requested interval: one candle for each
aligned bucket that has its four hourly candles and no other, in the order of time, and no hourly candle is
used twice. -/
theorem four_hour_candles_agree (s : HourlySeries) : ∃ buckets : List ℤ, buckets.Pairwise (· < ·) ∧
    (∀ bucket, bucket ∈ buckets ↔ 14400 ∣ bucket ∧ s.HasHours bucket ∧ s.OnlyHours bucket) ∧
    List.Forall₂ (fun bucket c => Summarizes bucket (s.parts bucket) c) buckets (fourHourCandles s.candles) ∧
    (buckets.flatMap s.parts).Nodup ∧
    ∀ start stop, publicFourHourCandles s.candles start stop =
      (fourHourCandles s.candles).filter (bucketInside start stop) := by
  refine ⟨s.fullBuckets, s.fullBuckets_sorted, fun _ => HourlySeries.mem_fullBuckets, ?_,
    HourlySeries.flatMap_parts_nodup s.fullBuckets_sorted, publicFourHourCandles_eq s⟩
  rw [fourHourCandles_eq, HourlySeries.fullBuckets]
  have hmem : ∀ e ∈ (sortedBuckets s.candles).filter fun e => e.2.map candleSecond = hoursOf e.1,
      e.2 = s.parts e.1 ∧ e.2 ≠ [] :=
    fun e he => HourlySeries.mem_sortedBuckets.1 (List.mem_of_mem_filter he)
  generalize (sortedBuckets s.candles).filter (fun e => e.2.map candleSecond = hoursOf e.1) = full at hmem
  induction full with
  | nil => exact .nil
  | cons e full ih =>
    obtain ⟨⟨hparts, hne⟩, hrest⟩ := List.forall_mem_cons.1 hmem
    obtain ⟨bucket, items⟩ := e
    cases items with
    | nil => exact absurd rfl hne
    | cons first rest =>
      refine .cons ?_ (ih hrest)
      rw [← hparts]
      exact combinedCandle_summarizes bucket first rest

/-! Four hourly candles, and one half an hour before the end of their bucket. -/

def candleAt (second : ℤ) : BacktestCandle := ⟨⟨1000000 * second, 0⟩, 1, 1, 1, 1, 1⟩

def crowdedSeries : HourlySeries where
  candles := [0, 3600, 7200, 10800, 12600].map candleAt
  sorted := by decide
  whole := by decide

theorem crowded_has_hours : crowdedSeries.HasHours 0 := by
  intro t ht
  rcases HourlySeries.mem_hoursOf.1 ht with rfl | rfl | rfl | rfl
  · exact ⟨candleAt 0, by decide, by decide⟩
  · exact ⟨candleAt 3600, by decide, by decide⟩
  · exact ⟨candleAt 7200, by decide, by decide⟩
  · exact ⟨candleAt 10800, by decide, by decide⟩

/-- The four hourly candles of a bucket are not enough where it holds another one. -/
theorem four_hours_not_enough : ¬∀ (s : HourlySeries) (bucket : ℤ),
    (∃ c ∈ fourHourCandles s.candles, c.observedAt.instant = 1000000 * bucket) ↔
      14400 ∣ bucket ∧ s.HasHours bucket := by
  intro h
  obtain ⟨c, hc, -⟩ := (h crowdedSeries 0).2 ⟨by decide, crowded_has_hours⟩
  have hnone : fourHourCandles crowdedSeries.candles = [] := by decide +kernel
  rw [hnone] at hc
  cases hc

end Matrades
