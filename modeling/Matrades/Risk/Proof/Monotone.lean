import Matrades.Risk.Proof.FailClosed

/-!
# A tighter context never approves more

`Tightens tight loose` says of two contexts that each effective limit of the first is at most the
second's, that it has lost at least as much, and that it holds at least as much risk. So each capacity
of `loose` is above one of `tight`, the least capacity is, and with it the size rounded down
(`evaluate_tightens`). Lowering a constraint or the equity, and adding a position or a reservation, all
tighten a context (`evaluate_worsens`).

Adding a constraint tightens it unless the new one is hard and above a soft one, where no other hard
one is: then the soft ones are no longer looked at (`adding_constraint_iff`).
-/

namespace Matrades

open Base

/-! ## Effective limits -/

theorem mem_choicesOf {constraints : List EffectiveConstraint} {kind : ConstraintKind}
    {c : EffectiveConstraint} : c ∈ choicesOf constraints kind ↔
      (c ∈ constraints ∧ c.kind = kind) ∧ (c.enforcement = .hard ∨
        ∀ d ∈ constraints, d.kind = kind → d.enforcement ≠ .hard) := by
  unfold choicesOf
  dsimp only
  split
  · rename_i hempty
    have hnone : ∀ d ∈ constraints, d.enforcement = .hard → d.kind ≠ kind := by
      simpa using hempty
    have hsoft : ∀ d ∈ constraints, d.kind = kind → d.enforcement ≠ .hard :=
      fun d hd hkind hhard => hnone d hd hhard hkind
    simp only [List.mem_filter, decide_eq_true_eq]
    exact ⟨fun h => ⟨h, .inr hsoft⟩, fun h => h.1⟩
  · rename_i hsome
    obtain ⟨d, hd, hhard, hdkind⟩ : ∃ d ∈ constraints, d.enforcement = .hard ∧ d.kind = kind := by
      simpa using hsome
    simp only [List.mem_filter, decide_eq_true_eq]
    exact ⟨fun h => ⟨h.1, .inl h.2⟩, fun h => ⟨h.1, h.2.resolve_right fun hall => hall d hd hdkind hhard⟩⟩

/-- A kind has an effective limit if it has a constraint. -/
theorem strictestApplicable_isSome {constraints : List EffectiveConstraint} {kind : ConstraintKind} :
    (strictestApplicable constraints kind).isSome = true ↔ ∃ c ∈ constraints, c.kind = kind := by
  constructor
  · intro h
    obtain ⟨c, hc⟩ := Option.isSome_iff_exists.1 h
    exact ⟨c, (strictestApplicable_spec hc).1, (strictestApplicable_spec hc).2.1⟩
  · rintro ⟨c, hc, hkind⟩
    have hchoice : choicesOf constraints kind ≠ [] := by
      by_cases hhard : ∃ d ∈ constraints, d.kind = kind ∧ d.enforcement = .hard
      · obtain ⟨d, hd, hdkind, hdhard⟩ := hhard
        exact List.ne_nil_of_mem (mem_choicesOf.2 ⟨⟨hd, hdkind⟩, .inl hdhard⟩)
      · refine List.ne_nil_of_mem (mem_choicesOf.2 ⟨⟨hc, hkind⟩, .inr fun d hd hdkind hdhard => ?_⟩)
        exact hhard ⟨d, hd, hdkind, hdhard⟩
    rw [Option.isSome_iff_ne_none]
    exact fun hnone => hchoice (List.argmin_eq_none.1 hnone)

/-- Every effective limit of `tight` is at most the one of `loose`. -/
def Stricter (tight loose : List EffectiveConstraint) : Prop :=
  ∀ kind, ∀ limit ∈ strictestApplicable loose kind,
    ∃ limit' ∈ strictestApplicable tight kind, limit'.value ≤ limit.value

/-- A choice of the looser constraints that has a choice below it among the others. -/
theorem stricter_of_choices {tight loose : List EffectiveConstraint}
    (h : ∀ kind, ∀ c ∈ choicesOf loose kind, ∃ d ∈ choicesOf tight kind, d.value ≤ c.value) :
    Stricter tight loose := by
  intro kind limit hlimit
  obtain ⟨d, hd, hle⟩ := h kind limit (List.argmin_mem hlimit)
  have hsome : (strictestApplicable tight kind).isSome = true :=
    strictestApplicable_isSome.2 ⟨d, choicesOf_kind hd⟩
  obtain ⟨limit', hlimit'⟩ := Option.isSome_iff_exists.1 hsome
  exact ⟨limit', hlimit', ((strictestApplicable_spec hlimit').2.2 d hd).trans hle⟩

/-- The new constraint hides soft ones: it is hard, all others of its kind are soft, and one of them
is below it. -/
def Hides (constraints : List EffectiveConstraint) (k : EffectiveConstraint) : Prop :=
  k.enforcement = .hard ∧ (∀ c ∈ constraints, c.kind = k.kind → c.enforcement ≠ .hard) ∧
    ∃ c ∈ constraints, c.kind = k.kind ∧ c.value < k.value

theorem mem_inserted {before after : List EffectiveConstraint} {k c : EffectiveConstraint} :
    c ∈ before ++ k :: after ↔ c = k ∨ c ∈ before ++ after := by
  simp only [List.mem_append, List.mem_cons]
  tauto

/-- **Adding a constraint tightens every limit** unless it hides a soft one. -/
theorem stricter_insert_iff (before after : List EffectiveConstraint) (k : EffectiveConstraint) :
    Stricter (before ++ k :: after) (before ++ after) ↔ ¬Hides (before ++ after) k := by
  constructor
  · rintro hstricter ⟨hhard, hsoft, c, hc, hkind, hbelow⟩
    have hchoice : c ∈ choicesOf (before ++ after) k.kind :=
      mem_choicesOf.2 ⟨⟨hc, hkind⟩, .inr hsoft⟩
    obtain ⟨limit, hlimit⟩ := Option.isSome_iff_exists.1
      (strictestApplicable_isSome.2 ⟨c, hc, hkind⟩)
    obtain ⟨limit', hlimit', hle⟩ := hstricter k.kind limit hlimit
    -- the new constraint is the only choice
    have hnew : limit' = k := by
      obtain ⟨⟨hmem, hkind'⟩, hchosen⟩ := mem_choicesOf.1 (List.argmin_mem hlimit')
      rcases mem_inserted.1 hmem with hnew | hold
      · exact hnew
      · rcases hchosen with hchosen | hchosen
        · exact absurd hchosen (hsoft limit' hold hkind')
        · exact absurd hhard (hchosen k (mem_inserted.2 (.inl rfl)) rfl)
    have hmin := (strictestApplicable_spec hlimit).2.2 c hchoice
    rw [hnew] at hle
    exact absurd (hle.trans hmin) (not_le.2 hbelow)
  · intro hshows
    refine stricter_of_choices fun kind c hc => ?_
    obtain ⟨⟨hmem, hkind⟩, hchosen⟩ := mem_choicesOf.1 hc
    have hmem' : c ∈ before ++ k :: after := mem_inserted.2 (.inr hmem)
    by_cases hstill : c.enforcement = .hard ∨
        ∀ d ∈ before ++ k :: after, d.kind = kind → d.enforcement ≠ .hard
    · exact ⟨c, mem_choicesOf.2 ⟨⟨hmem', hkind⟩, hstill⟩, le_refl _⟩
    -- the new constraint is hard, and the first hard one of its kind
    rw [not_or] at hstill
    have hsoft := hchosen.resolve_left hstill.1
    have hk : k.kind = kind ∧ k.enforcement = .hard := by
      by_contra hnot
      refine hstill.2 fun d hd hdkind hdhard => ?_
      rcases mem_inserted.1 hd with rfl | hd
      · exact hnot ⟨hdkind, hdhard⟩
      · exact hsoft d hd hdkind hdhard
    refine ⟨k, mem_choicesOf.2 ⟨⟨mem_inserted.2 (.inl rfl), hk.1⟩, .inl hk.2⟩, ?_⟩
    by_contra hbelow
    refine hshows ⟨hk.2, fun d hd hdkind => hsoft d hd (hdkind.trans hk.1), c, hmem, ?_, ?_⟩
    · exact hkind.trans hk.1.symm
    · exact not_le.1 hbelow

/-- **Lowering a constraint tightens every limit.** -/
theorem stricter_lower {before after : List EffectiveConstraint} {c : EffectiveConstraint} {value : ℚ}
    (hle : value ≤ c.value) :
    Stricter (before ++ { c with value } :: after) (before ++ c :: after) := by
  refine stricter_of_choices fun kind d hd => ?_
  obtain ⟨⟨hmem, hkind⟩, hchosen⟩ := mem_choicesOf.1 hd
  have hsoft : (∀ e ∈ before ++ c :: after, e.kind = kind → e.enforcement ≠ .hard) →
      ∀ e ∈ before ++ { c with value } :: after, e.kind = kind → e.enforcement ≠ .hard := by
    intro hall e he hekind
    rcases mem_inserted.1 he with rfl | he
    · exact hall c (mem_inserted.2 (.inl rfl)) hekind
    · exact hall e (mem_inserted.2 (.inr he)) hekind
  rcases mem_inserted.1 hmem with rfl | hmem
  · refine ⟨{ d with value }, mem_choicesOf.2 ⟨⟨mem_inserted.2 (.inl rfl), hkind⟩, ?_⟩, hle⟩
    exact hchosen.imp id hsoft
  · exact ⟨d, mem_choicesOf.2 ⟨⟨mem_inserted.2 (.inr hmem), hkind⟩, hchosen.imp id hsoft⟩, le_refl _⟩

/-! ## Capacities -/

/-- `tight` leaves no more room than `loose` for a trade. -/
structure Tightens (tight loose : RiskContext) : Prop where
  authority : ∀ c, authorityError tight c = authorityError loose c
  limits : Stricter tight.constraints loose.constraints
  required : requiredLimits loose = none → requiredLimits tight = none
  caps : tight.correlationCaps = loose.correlationCaps
  maxTrades : tight.staticMaxConcurrentTrades = loose.staticMaxConcurrentTrades
  count : loose.positions.length ≤ tight.positions.length
  drawdown : totalDrawdown loose.account.startingBalance loose.account.currentEquity ≤
    totalDrawdown tight.account.startingBalance tight.account.currentEquity
  daily : dailyLoss loose.account.realizedDailyPnl loose.account.floatingPnl ≤
    dailyLoss tight.account.realizedDailyPnl tight.account.floatingPnl
  existing : ∀ more, existingRisk tight = .ok more → ∃ less, existingRisk loose = .ok less ∧ less ≤ more
  held : ∀ more, aggregateExposure tight.positions none = .ok more →
    ∃ less, aggregateExposure loose.positions none = .ok less ∧
      ∀ group, less.total group ≤ more.total group

variable {tight loose : RiskContext}

theorem remainingCap_anti {cap : ℚ} {less more : Exposure} (h : less ≤ more) :
    remainingCap cap more ≤ remainingCap cap less := by
  cases more with
  | none =>
    cases less with
    | none => exact le_refl _
    | some x => exact le_max_left _ _
  | some y =>
    cases less with
    | none => exact absurd h (not_le.2 (WithTop.coe_lt_top y))
    | some x => exact max_le_max_left 0 (sub_le_sub_left (WithTop.coe_le_coe.1 h) cap)

/-- Every capacity of the looser context is above one of the tighter. -/
theorem capacities_tightens (ht : Tightens tight loose) {limits limits' : RequiredLimits}
    (hl : requiredLimits loose = some limits) (hl' : requiredLimits tight = some limits')
    {less more : ℚ} (hexisting : less ≤ more) {held held' : Dict String Exposure}
    (hheld : ∀ group, held.total group ≤ held'.total group) :
    ∀ cap ∈ capacities loose limits less held, ∃ cap' ∈ capacities tight limits' more held',
      cap' ≤ cap := by
  obtain ⟨hdd, hdaily, hportfolio⟩ := requiredLimits_spec hl
  obtain ⟨hdd', hdaily', hportfolio'⟩ := requiredLimits_spec hl'
  have hle {kind : ConstraintKind} {l l' : EffectiveConstraint}
      (h : strictestApplicable loose.constraints kind = some l)
      (h' : strictestApplicable tight.constraints kind = some l') : l'.value ≤ l.value := by
    obtain ⟨limit, hlimit, hle⟩ := ht.limits kind l h
    rw [Option.mem_def, h'] at hlimit
    exact Option.some.inj hlimit ▸ hle
  intro cap hcap
  simp only [capacities, List.mem_cons, List.mem_append, List.mem_map] at hcap
  rcases hcap with rfl | rfl | rfl | ⟨limit, hlimit, rfl⟩ | hcap
  · refine ⟨remainingDrawdown tight limits', by simp [capacities], ?_⟩
    exact max_le_max_left 0 (sub_le_sub (hle hdd hdd') ht.drawdown)
  · refine ⟨remainingDaily tight limits', by simp [capacities], ?_⟩
    exact max_le_max_left 0 (sub_le_sub (hle hdaily hdaily') ht.daily)
  · refine ⟨max 0 (limits'.portfolio.value - more), by simp [capacities], ?_⟩
    exact max_le_max_left 0 (sub_le_sub (hle hportfolio hportfolio') hexisting)
  · obtain ⟨limit', hlimit', hbelow⟩ := ht.limits .maxRiskPerTrade limit (by simpa using hlimit)
    exact ⟨limit'.value, by simp [capacities, Option.mem_def.1 hlimit'], hbelow⟩
  · obtain ⟨e, he, rfl⟩ := List.mem_map.1 hcap
    refine ⟨remainingCap e.2 (held'.total e.1), ?_, remainingCap_anti (hheld e.1)⟩
    simp only [capacities, correlationRemaining, List.mem_cons, List.mem_append, List.mem_map, ht.caps]
    exact .inr (.inr (.inr (.inr ⟨e, he, rfl⟩)))

/-! ## Sizes -/

theorem leastOf_tightens {c c' : ℚ} {cs cs' : List ℚ}
    (h : ∀ cap ∈ c :: cs, ∃ cap' ∈ c' :: cs', cap' ≤ cap) : leastOf c' cs' ≤ leastOf c cs := by
  refine le_leastOf fun cap hcap => ?_
  obtain ⟨cap', hcap', hle⟩ := h cap hcap
  exact (leastOf_le cap' hcap').trans hle

theorem floorTo_mono {a b increment : ℚ} (hi : 0 < increment) (ha : 0 ≤ a) (hab : a ≤ b) :
    floorTo a increment ≤ floorTo b increment := by
  obtain ⟨n, hn⟩ := floorTo_steps ha hi
  have hle : ((n : ℤ) : ℚ) * increment ≤ b := by
    rw [Int.cast_natCast, ← hn]
    exact (floorTo_le ha hi).trans hab
  have hfloor := le_floorTo (ha.trans hab) hi hle
  rwa [Int.cast_natCast, ← hn] at hfloor

theorem sizeForRisk_mono {budget budget' perUnit increment size size' : ℚ} (hp : 0 < perUnit)
    (hi : 0 < increment) (hle : budget' ≤ budget)
    (h : sizeForRisk budget perUnit increment = .ok size)
    (h' : sizeForRisk budget' perUnit increment = .ok size') : size' ≤ size := by
  have hsize := (sizeForRisk_spec hp hi h).1
  unfold sizeForRisk at h h'
  split at h'
  · cases h'
    exact hsize
  · rename_i hpos
    rw [not_or, not_le] at hpos
    rw [roundDown, if_neg (not_le.2 hi)] at h'
    rw [if_neg (by simp [hp, hpos.1.trans_le hle]), roundDown, if_neg (not_le.2 hi)] at h
    cases h
    cases h'
    have hquotient : budget' / perUnit ≤ budget / perUnit := by gcongr
    exact floorTo_mono hi (div_pos hpos.1 hp).le hquotient

/-- The compliant size grows with the capacities. -/
theorem compliantSize_mono {requested perUnit increment size size' cost : ℚ} {caps caps' : List ℚ}
    (hp : 0 < perUnit) (hi : 0 < increment) (hne : caps ≠ []) (hne' : caps' ≠ [])
    (hcaps : ∀ cap ∈ caps, ∃ cap' ∈ caps', cap' ≤ cap)
    (h : compliantSize requested perUnit (caps.map fun cap => max 0 (cap - cost)) increment =
      .ok size)
    (h' : compliantSize requested perUnit (caps'.map fun cap => max 0 (cap - cost)) increment =
      .ok size') : size' ≤ size := by
  obtain ⟨c, cs, rfl⟩ := List.exists_cons_of_ne_nil hne
  obtain ⟨c', cs', rfl⟩ := List.exists_cons_of_ne_nil hne'
  obtain ⟨raw, hraw, h⟩ := ok_of_bind h
  obtain ⟨raw', hraw', h'⟩ := ok_of_bind h'
  cases h
  cases h'
  have hnets : ∀ net ∈ (c :: cs).map fun cap => max 0 (cap - cost),
      ∃ net' ∈ (c' :: cs').map fun cap => max 0 (cap - cost), net' ≤ net := by
    intro net hnet
    obtain ⟨cap, hcap, rfl⟩ := List.mem_map.1 hnet
    obtain ⟨cap', hcap', hle⟩ := hcaps cap hcap
    exact ⟨_, List.mem_map_of_mem hcap', max_le_max_left 0 (sub_le_sub_right hle cost)⟩
  have hleast := leastOf_tightens hnets
  exact min_le_min_left requested (sizeForRisk_mono hp hi (max_le_max_left 0 hleast) hraw hraw')

/-! ## Evaluation -/

/-- What is not blocked has its authority. -/
theorem authority_of_unblocked {context : RiskContext} {c : CandidateTrade} {result : RiskResult}
    (h : evaluate context c = .ok result) (hd : result.decision ≠ .hardBlock) :
    authorityError context c = none := by
  unfold evaluate at h
  split at h
  · exact absurd (missingAuthority_spec h).1 hd
  · assumption

theorem evaluate_eq_assess {context : RiskContext} {c : CandidateTrade} {perUnit : ℚ}
    {limits : RequiredLimits} (hauthority : authorityError context c = none)
    (hperUnit : usedRiskPerUnit c = .ok perUnit) (hlimits : requiredLimits context = some limits) :
    evaluate context c = assess context c perUnit limits := by
  rw [evaluate, hauthority]
  dsimp only
  rw [bind_ok_eq hperUnit, hlimits]

/-- A decision that is no block leaves the size as it is. -/
theorem sizeDecision_unblocked {context : RiskContext} {c : CandidateTrade} {size : ℚ}
    (h : (sizeDecision context c size).decision ≠ .hardBlock) :
    0 < size ∧ context.positions.length < context.staticMaxConcurrentTrades ∧
      (sizeDecision context c size).size = size := by
  unfold sizeDecision at h ⊢
  split at h
  · simp at h
  · rename_i hfree
    rw [if_neg hfree]
    rw [not_or, not_le, not_le] at hfree
    refine ⟨hfree.1, hfree.2, ?_⟩
    split <;> rfl

/-- A positive size of a context with a free slot is not blocked. -/
theorem sizeDecision_pos {context : RiskContext} {c : CandidateTrade} {size : ℚ} (hpos : 0 < size)
    (hcount : context.positions.length < context.staticMaxConcurrentTrades) :
    (sizeDecision context c size).decision ≠ .hardBlock := by
  unfold sizeDecision
  rw [if_neg (by simp [hpos, hcount])]
  split <;> simp

theorem approvedSize_nonneg {context : RiskContext} {c : CandidateTrade} {result : RiskResult}
    (h : evaluate context c = .ok result) : 0 ≤ result.approvedSize := by
  rcases evaluate_size h with ⟨_, hzero⟩ | ⟨_, hpos⟩
  · exact hzero.ge
  · exact hpos.le

/-- **A tighter context never approves more**, and blocks whatever the looser one blocks. -/
theorem evaluate_tightens (ht : Tightens tight loose) {c : CandidateTrade} {result worst : RiskResult}
    (h : evaluate loose c = .ok result) (h' : evaluate tight c = .ok worst) :
    worst.approvedSize ≤ result.approvedSize ∧
      (result.decision = .hardBlock → worst.decision = .hardBlock) := by
  by_cases hblock : worst.decision = .hardBlock
  · have hzero := approvedSize_of_hardBlock h' hblock
    exact ⟨hzero.trans_le (approvedSize_nonneg h), fun _ => hblock⟩
  obtain ⟨perUnit, limits', more, held', size', hperUnit, hlimits', hassessed', hpos'⟩ :=
    evaluate_assessed h' hblock
  obtain ⟨_, hcount', hsize'⟩ := sizeDecision_unblocked (hassessed'.decision ▸ hblock)
  -- the looser context is assessed as well
  have hauthority : authorityError loose c = none :=
    (ht.authority c).symm.trans (authority_of_unblocked h' hblock)
  obtain ⟨limits, hlimits⟩ : ∃ limits, requiredLimits loose = some limits := by
    cases hnone : requiredLimits loose with
    | none =>
      rw [ht.required hnone] at hlimits'
      cases hlimits'
    | some limits => exact ⟨limits, rfl⟩
  obtain ⟨less, hless, hexisting⟩ := ht.existing more hassessed'.reserved
  rw [evaluate_eq_assess hauthority hperUnit hlimits] at h
  obtain ⟨held, size, hassessed⟩ := assess_assessed hless h
  have hheld : ∀ group, held.total group ≤ held'.total group := by
    obtain ⟨held₀, hheld₀, hle⟩ := ht.held held' hassessed'.aggregated
    obtain rfl : held₀ = held := Except.ok.inj (hheld₀.symm.trans hassessed.aggregated)
    exact hle
  -- and its size is at least as large
  have hle : size' ≤ size := compliantSize_mono (usedRiskPerUnit_pos hperUnit) c.sizeIncrement_pos
    (by simp [capacities]) (by simp [capacities])
    (capacities_tightens ht hlimits hlimits' hexisting hheld) hassessed.sized hassessed'.sized
  have hcount : loose.positions.length < loose.staticMaxConcurrentTrades :=
    ht.count.trans_lt (ht.maxTrades ▸ hcount')
  have hfree := sizeDecision_pos (c := c) (hpos'.trans_le hle) hcount
  have hsize := (sizeDecision_unblocked hfree).2.2
  refine ⟨?_, fun hd => absurd (hassessed.decision.symm.trans hd) hfree⟩
  rw [hassessed'.approvedSize, hassessed.approvedSize, hsize', hsize]
  exact hle

/-! ## Four ways to worsen a context -/

/-- The account after `amount` of floating profit is lost. -/
def AccountSnapshot.lose (account : AccountSnapshot) (amount : ℚ) : AccountSnapshot :=
  { account with
    currentEquity := account.currentEquity - amount
    floatingPnl := account.floatingPnl - amount
    consistentEquity := by
      have hsame : account.currentBalance + (account.floatingPnl - amount) -
          (account.currentEquity - amount) =
          account.currentBalance + account.floatingPnl - account.currentEquity := by ring
      rw [hsame]
      exact account.consistentEquity }

/-- One constraint is lowered, the equity is lowered with the floating profit, or one open position
with a bounded loss or one active reservation is added. -/
inductive Worsens : RiskContext → RiskContext → Prop
  | constraint (context : RiskContext) (before after : List EffectiveConstraint)
      (c : EffectiveConstraint) (value : ℚ) (hat : context.constraints = before ++ c :: after)
      (hlower : value ≤ c.value) :
      Worsens context { context with constraints := before ++ { c with value } :: after }
  | equity (context : RiskContext) (amount : ℚ) (hnonneg : 0 ≤ amount) :
      Worsens context { context with account := context.account.lose amount }
  | position (context : RiskContext) (before after : List OpenPositionRisk) (p : OpenPositionRisk)
      (loss : ℚ) (hat : context.positions = before ++ after)
      (hloss : p.remainingLossToStop = some loss) (hnonneg : 0 ≤ loss) :
      Worsens context { context with positions := before ++ p :: after }
  | reservation (context : RiskContext) (before after : List ℚ) (amount : ℚ)
      (hat : context.activeReservations = before ++ after) (hnonneg : 0 ≤ amount) :
      Worsens context { context with activeReservations := before ++ amount :: after }

theorem stricter_refl (constraints : List EffectiveConstraint) : Stricter constraints constraints :=
  fun _ limit hlimit => ⟨limit, hlimit, le_refl _⟩

theorem Tightens.refl (context : RiskContext) : Tightens context context where
  authority _ := rfl
  limits := stricter_refl _
  required := id
  caps := rfl
  maxTrades := rfl
  count := le_refl _
  drawdown := le_refl _
  daily := le_refl _
  existing more h := ⟨more, h, le_refl _⟩
  held more h := ⟨more, h, fun _ => le_refl _⟩

/-- Constraints of the same kinds, each limit stricter. -/
theorem tightens_constraints (context : RiskContext) {constraints : List EffectiveConstraint}
    (hlimits : Stricter constraints context.constraints)
    (hrequired : requiredLimits context = none →
      requiredLimits { context with constraints } = none) :
    Tightens { context with constraints } context :=
  { Tightens.refl context with limits := hlimits, required := hrequired }

theorem requiredLimits_eq_none {context : RiskContext} :
    requiredLimits context = none ↔
      ∃ kind ∈ requiredKinds, strictestApplicable context.constraints kind = none := by
  have hkinds : (∃ kind ∈ requiredKinds, strictestApplicable context.constraints kind = none) ↔
      strictestApplicable context.constraints .maxDailyLoss = none ∨
      strictestApplicable context.constraints .maxPortfolioRisk = none ∨
      strictestApplicable context.constraints .maxTotalDrawdown = none := by simp [requiredKinds]
  rw [hkinds]
  unfold requiredLimits
  dsimp only
  cases strictestApplicable context.constraints .maxTotalDrawdown with
  | none => simp
  | some drawdown =>
    cases strictestApplicable context.constraints .maxDailyLoss with
    | none => simp
    | some daily => cases strictestApplicable context.constraints .maxPortfolioRisk <;> simp

theorem strictestApplicable_eq_none {constraints : List EffectiveConstraint} {kind : ConstraintKind} :
    strictestApplicable constraints kind = none ↔ ∀ c ∈ constraints, c.kind ≠ kind := by
  rw [← Option.not_isSome_iff_eq_none, strictestApplicable_isSome]
  simp

theorem tightens_lower {context : RiskContext} {before after : List EffectiveConstraint}
    {c : EffectiveConstraint} {value : ℚ} (hat : context.constraints = before ++ c :: after)
    (hlower : value ≤ c.value) :
    Tightens { context with constraints := before ++ { c with value } :: after } context := by
  refine tightens_constraints context (hat ▸ stricter_lower hlower) fun hnone => ?_
  obtain ⟨kind, hkind, hmissing⟩ := requiredLimits_eq_none.1 hnone
  refine requiredLimits_eq_none.2 ⟨kind, hkind, strictestApplicable_eq_none.2 fun d hd => ?_⟩
  rw [strictestApplicable_eq_none, hat] at hmissing
  rcases mem_inserted.1 hd with rfl | hd
  · exact hmissing c (mem_inserted.2 (.inl rfl))
  · exact hmissing d (mem_inserted.2 (.inr hd))

theorem tightens_lose (context : RiskContext) {amount : ℚ} (hnonneg : 0 ≤ amount) :
    Tightens { context with account := context.account.lose amount } context := by
  refine { Tightens.refl context with drawdown := ?_, daily := ?_ }
  · refine max_le_max_left 0 (sub_le_sub_left ?_ _)
    show context.account.currentEquity - amount ≤ context.account.currentEquity
    linarith
  · refine max_le_max_left 0 (neg_le_neg (add_le_add_right (min_le_min_right 0 ?_) _))
    show context.account.floatingPnl - amount ≤ context.account.floatingPnl
    linarith

theorem tightens_reservation {context : RiskContext} {before after : List ℚ} {amount : ℚ}
    (hat : context.activeReservations = before ++ after) (hnonneg : 0 ≤ amount) :
    Tightens { context with activeReservations := before ++ amount :: after } context := by
  refine { Tightens.refl context with existing := fun more hmore => ?_ }
  obtain ⟨reserved, hreserved, hmore⟩ := ok_of_bind hmore
  cases hmore
  refine ⟨reserved + context.activeReservations.sum, by rw [existingRisk, bind_ok_eq hreserved]; rfl, ?_⟩
  simp only [hat, List.sum_append, List.sum_cons]
  linarith

/-- Without unrealized profits, the reserved risk is the sum of the losses. -/
theorem reservedRisk_ok_iff {positions : List OpenPositionRisk} {total : ℚ} :
    reservedRisk positions false = .ok total ↔
      (∀ p ∈ positions, p.remainingLossToStop.isSome = true) ∧
        total = (positions.map fun p => max 0 (p.remainingLossToStop.getD 0)).sum := by
  have hfrom : ∀ start : ℚ, positions.foldlM (reserveStep false) start = .ok total ↔
      (∀ p ∈ positions, p.remainingLossToStop.isSome = true) ∧
        total = start + (positions.map fun p => max 0 (p.remainingLossToStop.getD 0)).sum := by
    induction positions with
    | nil =>
      intro start
      rw [List.foldlM_nil, List.map_nil, List.sum_nil, add_zero]
      constructor
      · intro h
        exact ⟨by simp, (Except.ok.inj h).symm⟩
      · rintro ⟨_, rfl⟩
        rfl
    | cons p positions ih =>
      intro start
      rw [List.foldlM_cons]
      cases hloss : p.remainingLossToStop with
      | none =>
        have hstep : reserveStep false start p = .error ("unbounded risk for " ++ p.instrument) := by
          simp [reserveStep, hloss]
        rw [hstep]
        constructor
        · intro h
          cases h
        · intro h
          have hp := h.1 p List.mem_cons_self
          rw [hloss] at hp
          cases hp
      | some loss =>
        have hstep : reserveStep false start p = .ok (start + max 0 loss) := by
          simp [reserveStep, hloss]
        rw [bind_ok_eq hstep, ih, List.map_cons, List.sum_cons, List.forall_mem_cons, hloss]
        simp [add_assoc]
  simpa [reservedRisk] using hfrom 0

theorem weighted_nonneg {weight : ℚ} {risk exposure : Exposure} (hrisk : 0 ≤ risk)
    (h : weighted weight risk = .ok exposure) : 0 ≤ exposure := by
  cases risk with
  | none =>
    have hrun : weighted weight none =
        if weight = 0 then .error .invalidOperation else .ok ⊤ := rfl
    rw [hrun] at h
    split at h
    · cases h
    · cases h
      exact le_top
  | some q =>
    cases h
    exact WithTop.coe_nonneg.2 (mul_nonneg (abs_nonneg weight) (WithTop.coe_nonneg.1 hrisk))

/-- A risk that is not negative adds to every exposure. -/
theorem contributions_nonneg {own : String} {underlying : Option Uuid} {currencies : Dict String ℚ}
    {risk : Exposure} {xs : List (String × Exposure)} (hrisk : 0 ≤ risk)
    (h : contributions own underlying currencies risk = .ok xs) : ∀ x ∈ xs, 0 ≤ x.2 := by
  obtain ⟨weights, hweights, h⟩ := ok_of_bind h
  cases h
  intro x hx
  rcases List.mem_cons.1 hx with rfl | hx
  · exact hrisk
  rcases List.mem_append.1 hx with hx | hx
  · obtain ⟨u, _, rfl⟩ := List.mem_map.1 hx
    exact hrisk
  · obtain ⟨e, _, he⟩ := ok_mem_of_mapM hweights hx
    obtain ⟨exposure, hexposure, he⟩ := ok_of_bind he
    cases he
    exact weighted_nonneg hrisk hexposure

theorem contribution_nonneg {xs : List (String × Exposure)} (h : ∀ x ∈ xs, 0 ≤ x.2) (group : String) :
    0 ≤ Dict.contribution xs group := by
  refine List.sum_nonneg fun e he => ?_
  obtain ⟨x, hx, rfl⟩ := List.mem_map.1 he
  exact h x (List.mem_filter.1 hx).1

theorem risk_nonneg {p : OpenPositionRisk} {loss : ℚ} (hloss : p.remainingLossToStop = some loss)
    (hnonneg : 0 ≤ loss) : 0 ≤ p.risk := by
  unfold OpenPositionRisk.risk
  rw [hloss]
  dsimp only
  split
  · exact le_top
  · exact WithTop.coe_nonneg.2 hnonneg

/-- One more position with a bounded loss lowers no exposure. -/
theorem aggregateExposure_insert {before after : List OpenPositionRisk} {p : OpenPositionRisk}
    (hrisk : 0 ≤ p.risk) {more : Dict String Exposure}
    (h : aggregateExposure (before ++ p :: after) none = .ok more) :
    ∃ less, aggregateExposure (before ++ after) none = .ok less ∧
      ∀ group, less.total group ≤ more.total group := by
  obtain ⟨held, hheld, h⟩ := ok_of_bind h
  cases h
  rw [List.mapM_append] at hheld
  obtain ⟨xs, hxs, hheld⟩ := ok_of_bind hheld
  obtain ⟨rest, hrest, hheld⟩ := ok_of_bind hheld
  cases hheld
  rw [List.mapM_cons] at hrest
  obtain ⟨own, hown, hrest⟩ := ok_of_bind hrest
  obtain ⟨ys, hys, hrest⟩ := ok_of_bind hrest
  cases hrest
  have hmap : (before ++ after).mapM positionContributions = .ok (xs ++ ys) := by
    rw [List.mapM_append, bind_ok_eq hxs, bind_ok_eq hys]
    rfl
  refine ⟨_, bind_ok_eq hmap _, fun group => ?_⟩
  have hadds := contribution_nonneg (contributions_nonneg hrisk hown) group
  rw [Dict.total_foldl_addTo, Dict.total_foldl_addTo]
  simp only [List.append_nil, List.flatten_append, List.flatten_cons, Dict.contribution_append]
  exact add_le_add_right (add_le_add_right (le_add_of_nonneg_left hadds) _) _

theorem tightens_position {context : RiskContext} (hflag : context.includeUnrealizedProfit = false)
    {before after : List OpenPositionRisk} {p : OpenPositionRisk} {loss : ℚ}
    (hat : context.positions = before ++ after) (hloss : p.remainingLossToStop = some loss)
    (hnonneg : 0 ≤ loss) :
    Tightens { context with positions := before ++ p :: after } context := by
  refine { Tightens.refl context with count := ?_, existing := fun more hmore => ?_, held := ?_ }
  · simp [hat]
  · obtain ⟨reserved, hreserved, hmore⟩ := ok_of_bind hmore
    cases hmore
    dsimp only at hreserved
    rw [hflag] at hreserved
    obtain ⟨hbounded, hsum⟩ := reservedRisk_ok_iff.1 hreserved
    have hless : reservedRisk context.positions context.includeUnrealizedProfit =
        .ok (context.positions.map fun p => max 0 (p.remainingLossToStop.getD 0)).sum := by
      rw [hflag]
      refine reservedRisk_ok_iff.2 ⟨fun q hq => hbounded q ?_, rfl⟩
      rw [hat] at hq
      rcases List.mem_append.1 hq with hq | hq
      · exact List.mem_append_left _ hq
      · exact List.mem_append_right _ (List.mem_cons_of_mem _ hq)
    refine ⟨_, by rw [existingRisk, bind_ok_eq hless]; rfl, ?_⟩
    have hloss' : 0 ≤ max 0 (p.remainingLossToStop.getD 0) := le_max_left _ _
    simp only [hsum, hat, List.map_append, List.map_cons, List.sum_append, List.sum_cons]
    linarith
  · intro more hmore
    rw [hat]
    exact aggregateExposure_insert (risk_nonneg hloss hnonneg) hmore

/-- **Risk is monotone**: in a context made worse, `evaluate` never approves a larger size, nor
anything where it blocked before. -/
theorem evaluate_worsens {context worse : RiskContext} {c : CandidateTrade} {result worst : RiskResult}
    (hflag : context.includeUnrealizedProfit = false) (hw : Worsens context worse)
    (h : evaluate context c = .ok result) (h' : evaluate worse c = .ok worst) :
    worst.approvedSize ≤ result.approvedSize ∧
      (result.decision = .hardBlock → worst.decision = .hardBlock) := by
  cases hw with
  | constraint before after d value hat hlower =>
    exact evaluate_tightens (tightens_lower hat hlower) h h'
  | equity amount hnonneg => exact evaluate_tightens (tightens_lose context hnonneg) h h'
  | position before after p loss hat hloss hnonneg =>
    exact evaluate_tightens (tightens_position hflag hat hloss hnonneg) h h'
  | reservation before after amount hat hnonneg =>
    exact evaluate_tightens (tightens_reservation hat hnonneg) h h'

/-- A daily loss limit of 3500 in place of 4000 approves less of the fixture's candidate. -/
theorem evaluate_worsens_pretrade : ∃ result worst,
    evaluate pretradeContext (pretradeCandidate 10 tenUnits_pos) = .ok result ∧
    evaluate { pretradeContext with constraints := [pretradeContext.constraints[0],
      { pretradeContext.constraints[1] with value := 3500 }, pretradeContext.constraints[2]] }
      (pretradeCandidate 10 tenUnits_pos) = .ok worst ∧
    worst.approvedSize ≤ result.approvedSize ∧
    (result.decision = .hardBlock → worst.decision = .hardBlock) := by
  have hrun : (evaluate pretradeContext (pretradeCandidate 10 tenUnits_pos)).isOk = true ∧
      (evaluate { pretradeContext with constraints := [pretradeContext.constraints[0],
        { pretradeContext.constraints[1] with value := 3500 }, pretradeContext.constraints[2]] }
        (pretradeCandidate 10 tenUnits_pos)).isOk = true := by decide +kernel
  cases h : evaluate pretradeContext (pretradeCandidate 10 tenUnits_pos) with
  | error e =>
    rw [h] at hrun
    cases hrun.1
  | ok result =>
    cases h' : evaluate { pretradeContext with constraints := [pretradeContext.constraints[0],
        { pretradeContext.constraints[1] with value := 3500 }, pretradeContext.constraints[2]] }
        (pretradeCandidate 10 tenUnits_pos) with
    | error e =>
      rw [h'] at hrun
      cases hrun.2
    | ok worst =>
      have hw := Worsens.constraint pretradeContext [pretradeContext.constraints[0]]
        [pretradeContext.constraints[2]] pretradeContext.constraints[1] 3500 rfl
        (by norm_num [pretradeContext])
      exact ⟨result, worst, rfl, rfl, evaluate_worsens rfl hw h h'⟩

/-! ## One more constraint -/

/-- Adding the constraint loosens nothing: every limit is at least as strict, and whatever is approved
with the constraint is approved without it at no smaller size. -/
def NeverLoosens (context : RiskContext) (before after : List EffectiveConstraint)
    (k : EffectiveConstraint) (c : CandidateTrade) : Prop :=
  Stricter (before ++ k :: after) (before ++ after) ∧
  ∀ result, evaluate { context with constraints := before ++ k :: after } c = .ok result →
    result.decision ≠ .hardBlock →
    ∃ broad, evaluate { context with constraints := before ++ after } c = .ok broad ∧
      result.approvedSize ≤ broad.approvedSize

/-- **When adding a constraint loosens nothing**: it does not hide a soft one, and where the candidate
is approved with it, it can be evaluated without it. -/
theorem adding_constraint_iff (context : RiskContext) (before after : List EffectiveConstraint)
    (k : EffectiveConstraint) (c : CandidateTrade)
    (hrequired : requiredLimits { context with constraints := before ++ after } ≠ none) :
    NeverLoosens context before after k c ↔ ¬Hides (before ++ after) k ∧
      ∀ result, evaluate { context with constraints := before ++ k :: after } c = .ok result →
        result.decision ≠ .hardBlock →
        Evaluable { context with constraints := before ++ after } c := by
  unfold NeverLoosens
  rw [stricter_insert_iff]
  refine and_congr_right fun hshows => forall_congr' fun result => forall₂_congr fun h hd => ?_
  rw [← evaluate_returns_iff]
  constructor
  · rintro ⟨broad, hbroad, _⟩
    exact ⟨broad, hbroad⟩
  · rintro ⟨broad, hbroad⟩
    have ht : Tightens { context with constraints := before ++ k :: after }
        { context with constraints := before ++ after } :=
      tightens_constraints { context with constraints := before ++ after }
        ((stricter_insert_iff before after k).2 hshows) fun hnone => absurd hnone hrequired
    exact ⟨broad, hbroad, (evaluate_tightens ht hbroad h).1⟩

/-- A daily loss limit beside the fixture's, of the given value. -/
def dailyLimit (value : ℚ) (enforcement : Enforcement) : EffectiveConstraint where
  kind := .maxDailyLoss
  value
  source := "internal"
  sourceVersion := "1"
  enforcement

/-- A second daily limit of 3500, hard as the fixture's, never loosens it. -/
theorem adding_constraint_pretrade :
    NeverLoosens pretradeContext pretradeContext.constraints [] (dailyLimit 3500 .hard)
      (pretradeCandidate 10 tenUnits_pos) := by
  refine (adding_constraint_iff pretradeContext pretradeContext.constraints [] (dailyLimit 3500 .hard)
    (pretradeCandidate 10 tenUnits_pos) (by decide +kernel)).2 ⟨?_, fun _ _ _ => ?_⟩
  · rintro ⟨_, hsoft, _⟩
    exact hsoft pretradeContext.constraints[1] (by simp [pretradeContext]) rfl rfl
  · refine (evaluate_returns_iff _ _).1 ?_
    have hok : (evaluate { pretradeContext with constraints := pretradeContext.constraints ++ [] }
        (pretradeCandidate 10 tenUnits_pos)).isOk = true := by decide +kernel
    cases h : evaluate { pretradeContext with constraints := pretradeContext.constraints ++ [] }
        (pretradeCandidate 10 tenUnits_pos) with
    | error e =>
      rw [h] at hok
      cases hok
    | ok result => exact returns_ok result

/-- **A hard limit loosens a soft one**: with soft daily limits alone, a hard one of 4000 beside the
soft 1000 makes 4000 the effective limit. -/
theorem hard_limit_hides_soft :
    ¬NeverLoosens pretradeContext
      [pretradeContext.constraints[0], pretradeContext.constraints[2], dailyLimit 1000 .soft] []
      (dailyLimit 4000 .hard) (pretradeCandidate 10 tenUnits_pos) := by
  rintro ⟨hstricter, _⟩
  rw [stricter_insert_iff] at hstricter
  refine hstricter ⟨rfl, by simp [pretradeContext, dailyLimit], dailyLimit 1000 .soft, by simp, rfl, ?_⟩
  norm_num [dailyLimit]

end Matrades
