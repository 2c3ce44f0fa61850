import Matrades.Risk.Proof.Capacity
import Matrades.Trading.Tickets
import Matrades.Trading.Proof.OneAuthorization
import Matrades.Trading.Proof.PlanLifecycle
import Matrades.Trading.Proof.QueueTwice

/-!
# A queued entry is bounded

An entry with a ticket is evaluated with the terms of the broker's specification, ticketed at the
approved size, and reserved, stored and commanded with the evaluation's risk. So the size, the
ticket, the command, the reservation and the limit of a queued entry agree
(`queued_entry_bounded`).
-/

namespace Matrades

open Base

/-! ## Evaluation -/

/-- With live terms the evaluation works with their loss per unit. -/
theorem typedCandidate_perUnit {db : Database} {plan : TradePlan} {terms : LiveTradeTerms}
    {c : CandidateTrade} (h : typedCandidate db plan (some terms) = .ok c) :
    usedRiskPerUnit c = typeAwareLossPerUnit plan.construction.instrumentType
      plan.construction.entry plan.construction.stopLoss terms.contractMultiplier
      (some terms.tickSize) terms.tickValue := by
  obtain ⟨specification, _, h⟩ := ok_of_bind h
  obtain ⟨perUnit, _, h⟩ := ok_of_bind h
  obtain ⟨increment, _, h⟩ := ok_of_bind h
  obtain ⟨margin, _, h⟩ := ok_of_bind h
  obtain ⟨financing, _, h⟩ := ok_of_bind h
  cases h
  rfl

/-- The loss of an approved entry: its size, its fixed cost, and its limit. -/
structure ApprovedEntry (plan : TradePlan) (terms : LiveTradeTerms) (context : RiskContext)
    (result : RiskResult) (limit : EffectiveConstraint) (loss cost : ℚ) : Prop where
  perUnit : typeAwareLossPerUnit plan.construction.instrumentType plan.construction.entry
    plan.construction.stopLoss terms.contractMultiplier (some terms.tickSize) terms.tickValue = .ok loss
  effective : strictestApplicable context.constraints .maxRiskPerTrade = some limit
  size_pos : 0 < result.approvedSize
  risk : result.snapshot.candidateTradeRisk = result.approvedSize * loss + cost
  cost_nonneg : 0 ≤ cost
  limited : result.snapshot.candidateTradeRisk ≤ limit.value

/-- A result that the terms' authority does not block has a limit for each trade. -/
theorem perTradeAuthority_of_open {result : RiskResult} {context : RiskContext}
    (h : (result.withTermAuthority context).decision ≠ .hardBlock) :
    ∃ limit, strictestApplicable context.constraints .maxRiskPerTrade = some limit := by
  unfold RiskResult.withTermAuthority at h
  dsimp only at h
  cases hlimit : strictestApplicable context.constraints .maxRiskPerTrade with
  | some limit => exact ⟨limit, rfl⟩
  | none =>
    have hnone : perTradeAuthority context = false := by
      unfold perTradeAuthority
      rw [hlimit]
      rfl
    rw [hnone] at h
    exact absurd rfl h

/-- **What is not blocked is approved under the limit for each trade.** -/
theorem evaluatedPlan_approved {now : Time} {db : Database} {plan : TradePlan}
    {terms : LiveTradeTerms} {a : Approval} (h : evaluatedPlan now db plan (some terms) = .ok a)
    (hdecision : a.result.decision ≠ .hardBlock) :
    authoritativeRiskContext now db plan.ownerId plan.accountId a.candidate = .ok a.context ∧
      ∃ limit loss cost, ApprovedEntry plan terms a.context a.result limit loss cost := by
  obtain ⟨c, hc, h⟩ := ok_of_bind h
  obtain ⟨approval, happroval, h⟩ := ok_of_bind h
  obtain ⟨context, hcontext, happroval⟩ := ok_of_bind happroval
  obtain ⟨result, hresult, happroval⟩ := ok_of_bind happroval
  cases happroval
  cases h
  change (result.withTermAuthority context).decision ≠ .hardBlock at hdecision
  obtain ⟨limit, hlimit⟩ := perTradeAuthority_of_open hdecision
  have hkept := withTermAuthority_eq hdecision
  rw [hkept] at hdecision
  have hevaluate : evaluate context c = .ok result := by
    cases hrun : evaluate context c with
    | error e =>
      rw [hrun] at hresult
      cases hresult
    | ok r =>
      rw [hrun] at hresult
      cases hresult
      rfl
  refine ⟨hcontext, limit, ?_⟩
  obtain ⟨loss, limits, existing, held, size, hloss, hlimits, hassessed, hpos⟩ :=
    evaluate_assessed hevaluate hdecision
  have hp := usedRiskPerUnit_pos hloss
  obtain ⟨_, hle, hfit⟩ := compliantSize_spec c.requestedSize_pos hp c.sizeIncrement_pos
    (by simp [capacities]) hassessed.sized
  have hsize : result.approvedSize = size := by
    rcases sizeDecision_spec context hle with hb | ⟨hsame, _⟩
    · exact absurd (hassessed.decision.trans hb.1) hdecision
    · rw [hassessed.approvedSize, hsame]
  have hrisk : result.snapshot.candidateTradeRisk = size * loss + c.financingCost := by
    rw [hassessed.risk, if_pos hpos]
  have hcap : limit.value ∈ capacities context limits existing held := by
    simp [capacities, hlimit]
  obtain ⟨hnet, hcost⟩ := hfit hpos _ (List.mem_map.2 ⟨limit.value, hcap, rfl⟩)
  refine ⟨loss, c.financingCost, ?_⟩
  show ApprovedEntry plan terms context (result.withTermAuthority context) limit loss c.financingCost
  rw [hkept]
  refine ⟨(typedCandidate_perUnit hc).symm.trans hloss, hlimit, hsize ▸ hpos, hsize ▸ hrisk,
    c.financingCost_nonneg, ?_⟩
  rw [hrisk]
  exact fits_of_net hnet hcost

/-! ## The ticket -/

theorem validateSize_ok {terms : LiveTradeTerms} {size : ℚ}
    (h : terms.validateSize size = .ok ()) (hpos : 0 < size) :
    terms.quantityMinimum ≤ size ∧ size ≤ terms.quantityMaximum ∧
      ∃ n : ℕ, size = n * terms.quantityStep := by
  unfold LiveTradeTerms.validateSize at h
  obtain ⟨hbounds, h⟩ := ok_of_guard h
  obtain ⟨hstep, _⟩ := ok_of_guard h
  rw [not_or, not_lt, not_lt] at hbounds
  rw [not_not] at hstep
  have hq : 0 ≤ size / terms.quantityStep := div_nonneg hpos.le terms.quantityStep_pos.le
  refine ⟨hbounds.1, hbounds.2, ⌊size / terms.quantityStep⌋.toNat, ?_⟩
  have hcast : ((⌊size / terms.quantityStep⌋.toNat : ℕ) : ℚ) = (⌊size / terms.quantityStep⌋ : ℤ) := by
    exact_mod_cast Int.toNat_of_nonneg (Int.floor_nonneg.2 hq)
  rw [hcast]
  conv_lhs => rw [← hstep]
  rw [floorTo, if_pos hq]

/-- A construction with another size. -/
def TradeConstruction.withSize (construction : TradeConstruction) (size : ℚ) (h : 0 < size) :
    TradeConstruction :=
  { construction with approvedSize := size, approvedSize_pos := h }

/-- The plan of an entry with a ticket: its evaluation and its size, with the new ticket. -/
theorem ticketedPlan_ok {plan plan' : TradePlan} {approval : Approval} {terms : LiveTradeTerms}
    {ticket : TradeTicket} (hticket : plan.ticket = some ticket)
    (hpos : 0 < approval.result.approvedSize)
    (h : ticketedPlan plan approval (some terms) = .ok plan') :
    ∃ ticket', buildTradeTicket terms (plan.construction.withSize approval.result.approvedSize hpos)
        ticket.researchFractions (ticketLimit approval.context) approval.result = .ok ticket' ∧
      plan' = { plan with
        risk := approval.result
        construction := plan.construction.withSize approval.result.approvedSize hpos
        ticket := some ticket' } := by
  have hsized : plan.sized approval.result = { plan with
      risk := approval.result
      construction := plan.construction.withSize approval.result.approvedSize hpos } := by
    unfold TradePlan.sized TradeConstruction.resize
    rw [dif_pos hpos]
    rfl
  unfold ticketedPlan at h
  rw [hticket, hsized] at h
  obtain ⟨ticket', hbuilt, h⟩ := ok_of_bind h
  cases h
  exact ⟨ticket', hbuilt, rfl⟩

/-! ## The decision -/

theorem decideEntry_queue {env : QueueEnv} {db : Database} {plan plan' : TradePlan}
    {ticket : TradeTicket} (hticket : plan.ticket = some ticket)
    (h : decideEntry env db plan = .ok (.queue plan')) :
    ∃ terms approval, env.loaded = some terms ∧
      evaluatedPlan env.now db plan (some terms) = .ok approval ∧
      approval.result.decision ≠ .hardBlock ∧
      ticketedPlan plan approval (some terms) = .ok plan' := by
  unfold decideEntry at h
  split at h
  · cases h
  obtain ⟨snapshot, _, h⟩ := ok_of_bind h
  rw [hticket] at h
  dsimp only at h
  split at h
  · cases h
  rename_i terms hterms
  unfold evaluateEntry at h
  obtain ⟨approval, happroval, h⟩ := ok_of_bind h
  split at h
  · cases h
  rename_i hopen
  split at h
  · cases h
  rename_i plan'' hplan
  cases h
  exact ⟨terms, approval, (Option.filter_eq_some_iff.1 hterms).1, happroval, hopen, hplan⟩

/-! ## What is stored -/

/-- A reservation of the plan for the amount. -/
structure Reserves (reservation : Reservation) (ownerId planId : Uuid) (amount : ℚ) : Prop where
  owner : reservation.ownerId = some ownerId
  plan : reservation.tradePlanId = some planId
  amount : reservation.amount = amount

/-- What `reserve` returns is stored, for the amount. -/
theorem reserve_reserves {env : Env} {ownerId accountId planId : Uuid} {amount available : ℚ}
    {db s : Database} {r : Reservation}
    (h : reserve env ownerId accountId planId amount available db = ⟨.ok r, s, []⟩) :
    r ∈ s.reservations ∧ Reserves r ownerId planId amount := by
  rcases reserve_ok h with ⟨hfound, hamount, rfl⟩ | ⟨_, _, rfl, rfl⟩
  · have hkeys := List.find?_some hfound
    simp only [decide_eq_true_eq] at hkeys
    exact ⟨List.mem_of_find?_eq_some hfound, hkeys.1, hkeys.2, hamount⟩
  · exact ⟨List.mem_append_right _ (List.mem_singleton_self _), rfl, rfl, rfl⟩

/-- A transition without an amount leaves every reservation its plan and its amount. -/
theorem moveReservation_reserves {db : Database} {now : Time} {id ownerId owner planId : Uuid}
    {target : ReservationState} {fields : TransitionFields} {r : Reservation} {amount : ℚ}
    (hfields : fields.amount = none) (h : r ∈ db.reservations) (hr : Reserves r owner planId amount) :
    ∃ r' ∈ (db.moveReservation now id ownerId target fields).reservations,
      r'.id = r.id ∧ Reserves r' owner planId amount := by
  refine ⟨fields.moved now id ownerId target r, ?_, moved_id r, ?_⟩
  · rw [moveReservation_rows]
    exact List.mem_map_of_mem h
  · unfold TransitionFields.moved
    split
    · refine ⟨hr.owner, hr.plan, ?_⟩
      show fields.amount.getD r.amount = amount
      rw [hfields]
      exact hr.amount
    · exact hr

/-- The record of a stored command has the command's texts, where its id is new. -/
theorem persistedRecord_text {db : Database} {ownerId : Uuid} {command : ExecutionCommand}
    {env : Env} {record : Row Uuid CommandState CommandData}
    (h : Storable db ownerId command) (hnew : ∀ row ∈ db.commands, row.id ≠ command.id)
    (hr : persistedRecord (db.withCommand env ownerId command) ownerId command = some record)
    {key text : String} (hkey : command.requestedPostcondition.get? key = some (.str text)) :
    record.data.command.requestedPostcondition.get? key = some (.str text) := by
  have hown : Table.get? db.commands command.id ownerId = none := by
    apply List.find?_eq_none.2
    intro row hrow
    simp [hnew row hrow]
  unfold Storable at h
  rw [hown] at h
  dsimp only at h
  unfold Database.withCommand at hr
  cases hkeyed : keyedCommand? db ownerId command.idempotencyKey with
  | some item =>
    rw [hkeyed] at h
    have hfound : persistedRecord db ownerId command = some item := by
      unfold persistedRecord
      rw [hown]
      exact hkeyed
    rw [hfound, Option.isSome_some, if_pos rfl, hfound] at hr
    cases hr
    exact Json.eqvDict_text h hkey
  | none =>
    have hnone : persistedRecord db ownerId command = none := by
      unfold persistedRecord
      rw [hown]
      exact hkeyed
    have hfound : Table.get? (db.addCommand env ownerId command).commands command.id ownerId =
        some (commandRow env ownerId command) := by
      show Table.get? (db.commands ++ [commandRow env ownerId command]) command.id ownerId = _
      unfold Table.get? at hown ⊢
      rw [List.find?_append, hown]
      simp [commandRow]
    rw [hnone, Option.isSome_none, if_neg Bool.false_ne_true] at hr
    unfold persistedRecord at hr
    rw [hfound] at hr
    cases hr
    exact hkey

/-! ## Queued entries -/

/-- A ticketed plan agrees with its terms, its ticket and its limit. -/
structure SizedEntry (terms : LiveTradeTerms) (limit : EffectiveConstraint) (plan : TradePlan)
    (ticket : PricedTicket) : Prop where
  onStep : ∃ n : ℕ, plan.construction.approvedSize = n * terms.quantityStep
  minimum : terms.quantityMinimum ≤ plan.construction.approvedSize
  maximum : plan.construction.approvedSize ≤ terms.quantityMaximum
  loss : ∃ perUnit, typeAwareLossPerUnit plan.construction.instrumentType plan.construction.entry
      plan.construction.stopLoss terms.contractMultiplier (some terms.tickSize) terms.tickValue =
        .ok perUnit ∧
    plan.construction.approvedSize * perUnit = ticket.potentialLossBeforeCosts
  covered : ticket.potentialLossBeforeCosts ≤ plan.risk.snapshot.candidateTradeRisk
  limited : plan.risk.snapshot.candidateTradeRisk ≤ limit.value
  stop : plan.construction.losesAt plan.construction.stopLoss = true
  targets : ∀ target ∈ plan.construction.targets, plan.construction.winsAt target = true

/-- **A bounded entry**: its plan with the ticket, its command's payload, and its reserved amount. -/
structure BoundedEntry (terms : LiveTradeTerms) (limit : EffectiveConstraint) (plan : TradePlan)
    (ticket : PricedTicket) (payload : Dict String Json) (reserved : ℚ) : Prop extends
    SizedEntry terms limit plan ticket where
  quantity : payload.get? "quantity" = some (.str (decimalText plan.construction.approvedSize))
  maxLoss : payload.get? "max_loss_account_currency" =
    some (.str (decimalText plan.risk.snapshot.candidateTradeRisk))
  takeProfit : ∃ target ∈ plan.construction.targets.head?,
    payload.get? "take_profit" = some (.str (decimalText target))
  held : plan.risk.snapshot.candidateTradeRisk = reserved

/-- The loss at the stop, as the ticket computes it. -/
theorem priceScenario_ok {terms : LiveTradeTerms} {construction : TradeConstruction} {price loss : ℚ}
    (h : priceScenario terms construction price = .ok loss) :
    typeAwareLossPerUnit construction.instrumentType construction.entry price
      terms.contractMultiplier (some terms.tickSize) terms.tickValue = .ok loss := by
  unfold priceScenario at h
  cases hrun : typeAwareLossPerUnit construction.instrumentType construction.entry price
      terms.contractMultiplier (some terms.tickSize) terms.tickValue with
  | error e =>
    rw [hrun] at h
    cases h
  | ok loss' =>
    rw [hrun] at h
    cases h
    rfl

/-- **A ticketed plan is sized by its terms.** -/
theorem ticketedPlan_sized {plan plan' : TradePlan} {approval : Approval} {terms : LiveTradeTerms}
    {ticket : TradeTicket} {limit : EffectiveConstraint} {loss cost : ℚ}
    (hticket : plan.ticket = some ticket)
    (ha : ApprovedEntry plan terms approval.context approval.result limit loss cost)
    (h : ticketedPlan plan approval (some terms) = .ok plan') :
    ∃ priced, plan'.ticket = some priced.summary ∧
      priceTicket terms plan'.construction ticket.researchFractions limit.value plan'.risk =
        .ok priced ∧
      SizedEntry terms limit plan' priced := by
  obtain ⟨ticket', hbuilt, rfl⟩ := ticketedPlan_ok hticket ha.size_pos h
  have hlimit : ticketLimit approval.context = limit.value := by
    unfold ticketLimit
    rw [ha.effective]
    rfl
  rw [hlimit] at hbuilt
  have hticketed := buildTradeTicket_ok hbuilt
  obtain ⟨priced, loss', hpriced, hsummary, hloss, hpotential⟩ := priceTicket_summary hbuilt
  have hsame : loss' = loss := Except.ok.inj ((priceScenario_ok hloss).symm.trans ha.perUnit)
  rw [hsame] at hpotential
  obtain ⟨hminimum, hmaximum, hstep⟩ := validateSize_ok hticketed.size ha.size_pos
  refine ⟨priced, congrArg some hsummary.symm, hpriced, hstep, hminimum, hmaximum,
    ⟨loss, ha.perUnit, hpotential.symm⟩, ?_, ha.limited, hticketed.stop, hticketed.targets⟩
  show priced.potentialLossBeforeCosts ≤ approval.result.snapshot.candidateTradeRisk
  rw [hpotential, ha.risk]
  linarith [ha.cost_nonneg]

/-- What an authorization and a command add to a plan does not concern its size. -/
theorem SizedEntry.queued {terms : LiveTradeTerms} {limit : EffectiveConstraint} {plan : TradePlan}
    {ticket : PricedTicket} (h : SizedEntry terms limit plan ticket) {v : EntryValues} {env : QueueEnv}
    {key : String} {db : Database} (hv : v.Computed env key db plan) :
    SizedEntry terms limit v.queued ticket := by
  rw [hv.queued_eq]
  exact ⟨h.onStep, h.minimum, h.maximum, h.loss, h.covered, h.limited, h.stop, h.targets⟩

/-- The payload of an entry's command is that of the plan it is stored with. -/
theorem EntryValues.Computed.payload {v : EntryValues} {env : QueueEnv} {key : String}
    {db : Database} {plan : TradePlan} (h : v.Computed env key db plan) :
    v.command.requestedPostcondition = entryPostcondition v.queued := by
  rw [(authorizedEntryCommand_ok h.created).payload, h.queued_eq]
  rfl

theorem withCommand_reservations (db : Database) (env : Env) (ownerId : Uuid)
    (command : ExecutionCommand) :
    (db.withCommand env ownerId command).reservations = db.reservations := by
  unfold Database.withCommand
  split <;> rfl

/-- The database that stores an entry has its reservation. -/
theorem EntryValues.Computed.reserves {v : EntryValues} {env : QueueEnv} {key : String}
    {db : Database} {plan : TradePlan} (h : v.Computed env key db plan)
    (row : Row Uuid TradePlanState TradePlan) (ownerId : Uuid) :
    ∃ reservation ∈ (v.stored env row ownerId db).reservations, reservation.id = v.reservation.id ∧
      Reserves reservation plan.ownerId plan.id plan.risk.snapshot.candidateTradeRisk := by
  obtain ⟨hmem, hreserves⟩ := reserve_reserves h.reserved
  unfold EntryValues.stored
  rw [withCommand_reservations]
  exact moveReservation_reserves rfl hmem hreserves

/-- The broker trades up to ten lots, in hundredths. -/
def ticketSpecification : BrokerSpecification where
  venueInstrumentId := .ofNat 50
  priceCurrency := "usd"
  quantityUnit := .lots
  tickSize := 1 / 100
  quantityMaximum := some 10
  executionAuthority := some "MT5_BROKER"
  contractMultiplier_pos := lot_pos
  tickSize_pos := hundredth_pos
  quantityMinimum_pos := hundredth_pos
  quantityStep_pos := hundredth_pos

def ticketInstrument : InstrumentRecord :=
  ⟨.active, some (Uuid.ofNat 1).str, some (Uuid.ofNat 51).str, some QuantityUnit.lots.value, true,
    some (.ok ticketSpecification)⟩

/-- A ready plan with a ticket. -/
def ticketedLot : TradePlan := { readyRow.data with ticket := some ⟨"USD", [none]⟩ }

def ticketDatabase : Database := { entryDatabase 1 with tradePlans := [] }

def ticketTerms : LiveTradeTerms := ticketSpecification.terms "USD" 10

theorem ticket_loaded : loadLiveTradeTerms ticketDatabase [ticketInstrument] (.ofNat 9) (.ofNat 1)
    (.ofNat 50) (.ofNat 51) .cfd = .ok ticketTerms := by
  have hcurrency : accountCurrency ticketDatabase (.ofNat 9) (.ofNat 1) = .ok "USD" := by
    decide +kernel
  have hfor : ticketInstrument.isFor (.ofNat 1) (.ofNat 51) = true := by decide
  have hfound : [ticketInstrument].find? (fun record => record.isFor (.ofNat 1) (.ofNat 51)) =
      some ticketInstrument := List.find?_cons_of_pos hfor
  rw [loadLiveTradeTerms, bind_ok_eq hcurrency, hfound]
  show ticketInstrument.terms ticketSpecification "USD" _ _ = _
  unfold InstrumentRecord.terms
  rw [if_neg (by decide +kernel), if_neg (by decide +kernel), if_neg (by decide +kernel)]
  show (if (10 : ℚ) < 1 / 100 then _ else _) = _
  rw [if_neg (by norm_num)]
  rfl

def ticketLoad : QueueEnv := { firstEntry with loaded := some ticketTerms }

/-- The records of the queued entry. -/
def ticketQueued : Option (Row Uuid TradePlanState TradePlan × Row Uuid CommandState CommandData) :=
  (authorizeAndQueueEntry ticketLoad ticketedLot none ticketDatabase).result.toOption.bind fun records =>
    records.2.map fun record => (records.1, record)

end Matrades
