import Mathlib.Data.Prod.Lex
import Mathlib.Data.String.Basic
import Matrades.Base.Dict
import Matrades.Base.Ranked
import Matrades.Base.Result

/-!
# Binding candidates and the advice on them

`select_candidates` of `modules/connections/binding_assistance.py`. The advice is any list of choices. What
the loop over the choices keeps (`Choosing.Kept`): one candidate for each slot, each an offered one of that
slot but for its reason, and nothing that is bound or tested is replaced by less
(`binding_advice_confined`).
-/

namespace Matrades

open Base

inductive BindingScope
  | marketResearch | economicContext
  deriving DecidableEq, Repr

inductive BindingStatus
  | ready | needsTest | alreadyBound
  deriving DecidableEq, Repr

structure BindingCandidate where
  candidateId : String
  slot : String
  bindingScope : BindingScope
  lane : Option (List (String × String))
  capability : String
  authorityPurpose : String
  connectionId : String
  connectionName : String
  provider : String
  priority : ℤ
  status : BindingStatus
  existingBindingId : Option String := none
  reason : String
  notes : List String := []
  configuredCoverage : List String := []
  testedAt : Option String := none
  preference : ℤ := 0
  deriving DecidableEq, Repr

structure BindingPayload where
  bindingScope : BindingScope
  lane : Option (List (String × String))
  capability : String
  authorityPurpose : String
  connectionId : String
  priority : ℤ
  deriving DecidableEq, Repr

structure BindingChoice where
  candidateId : String
  reason : String
  deriving DecidableEq, Repr

def BindingStatus.rank : BindingStatus → ℤ
  | alreadyBound => 0
  | ready => 1
  | needsTest => 2

namespace BindingCandidate

/-- `binding_payload` -/
def bindingPayload (c : BindingCandidate) : BindingPayload :=
  ⟨c.bindingScope, c.lane, c.capability, c.authorityPurpose, c.connectionId, c.priority⟩

/-- The order of the options of a slot. -/
def standing (c : BindingCandidate) : ℤ ×ₗ ℤ ×ₗ String :=
  toLex (c.status.rank, toLex (if c.status = .alreadyBound then c.priority else c.preference, c.connectionId))

end BindingCandidate

/-- The candidates by slot. -/
def slotOptions (candidates : List BindingCandidate) : Dict String (List BindingCandidate) :=
  .grouped (fun c => c.slot) candidates

/-- The least option of each slot. -/
def defaultSelection (options : Dict String (List BindingCandidate)) :
    Except String (Dict String BindingCandidate) := do
  let entries ← options.entries.mapM fun e => do
    let c ← orError (least BindingCandidate.standing e.2) "min() iterable argument is empty"
    .ok (e.1, c)
  .ok (.ofList entries)

/-- The state of the loop over the choices. -/
structure Choosing where
  seen : List String
  selected : Dict String BindingCandidate

/-- One choice of the advice. -/
def Choosing.choose (byId : Dict String BindingCandidate) (s : Choosing) (choice : BindingChoice) :
    Except String Choosing :=
  match byId.get? choice.candidateId with
  | none => .error "AI chose an unknown or duplicate binding option"
  | some option =>
    if option.slot ∈ s.seen then .error "AI chose an unknown or duplicate binding option"
    else
      let seen := s.seen ++ [option.slot]
      match s.selected.get? option.slot with
      | none => .error "KeyError"
      | some current =>
        if current.status = .alreadyBound then .ok { s with seen }
        else if current.status = .ready ∧ option.status = .needsTest then
          .error "AI chose an untested option over a tested compatible source"
        else .ok ⟨seen, s.selected.set option.slot { option with reason := choice.reason }⟩

/-- `select_candidates` -/
def selectCandidates (candidates : List BindingCandidate) (advice : Option (List BindingChoice)) :
    Except String (List BindingCandidate) := do
  let options := slotOptions candidates
  let selected ← defaultSelection options
  match advice with
  | none => .ok selected.values
  | some choices =>
    let byId := Dict.ofList (candidates.map fun c => (c.candidateId, c))
    let chosen ← choices.foldlM (Choosing.choose byId) ⟨[], selected⟩
    if (options.keys.all fun slot => slot ∈ chosen.seen) && chosen.seen.all fun slot => slot ∈ options.keys then
      .ok chosen.selected.values
    else .error "AI did not cover every candidate slot"

/-! ## The options of a slot -/

variable {candidates : List BindingCandidate}

/-- The candidate of a slot before any advice. -/
def defaultOf (candidates : List BindingCandidate) (slot : String) : Option BindingCandidate :=
  least BindingCandidate.standing (candidates.filter fun c => c.slot = slot)

theorem defaultOf_mem {slot : String} {d : BindingCandidate} (h : defaultOf candidates slot = some d) :
    d ∈ candidates ∧ d.slot = slot := by
  obtain ⟨hmem, hslot⟩ := List.mem_filter.1 (least_mem h)
  exact ⟨hmem, of_decide_eq_true hslot⟩

/-- No option of a slot is bound or tested better than its default. -/
theorem defaultOf_rank {slot : String} {d o : BindingCandidate} (h : defaultOf candidates slot = some d)
    (ho : o ∈ candidates) (hslot : o.slot = slot) : d.status.rank ≤ o.status.rank := by
  have hle : d.standing ≤ o.standing :=
    least_le h (List.mem_filter.2 ⟨ho, decide_eq_true hslot⟩)
  rcases Prod.Lex.le_iff.1 hle with hlt | ⟨heq, -⟩
  · exact hlt.le
  · exact heq.le

theorem map_fst_of_mapM {α β : Type} {f : α → Except String β} {es : List (String × α)}
    {es' : List (String × β)} (h : es.mapM (fun e => do let b ← f e.2; .ok (e.1, b)) = .ok es') :
    es'.map Prod.fst = es.map Prod.fst := by
  have hall := ok_of_mapM h
  clear h
  induction hall with
  | nil => rfl
  | cons he _ ih =>
    obtain ⟨b, -, he⟩ := ok_of_bind he
    cases he
    rw [List.map_cons, List.map_cons, ih]

theorem defaultSelection_ok {selected : Dict String BindingCandidate}
    (h : defaultSelection (slotOptions candidates) = .ok selected) :
    selected.keys = (slotOptions candidates).keys ∧
      ∀ slot d, selected.get? slot = some d → defaultOf candidates slot = some d := by
  obtain ⟨entries, hentries, h⟩ := ok_of_bind h
  cases h
  have hkeys : entries.map Prod.fst = (slotOptions candidates).keys :=
    map_fst_of_mapM (f := fun options => orError (least BindingCandidate.standing options) _) hentries
  have hnodup : (entries.map Prod.fst).Nodup := hkeys ▸ (slotOptions candidates).nodup
  have hofList : (Dict.ofList entries).entries = entries := Dict.entries_ofList hnodup
  refine ⟨by rw [Dict.keys, hofList, hkeys], fun slot d hd => ?_⟩
  have hmem : (slot, d) ∈ (Dict.ofList entries).entries := Dict.mem_of_lookup hd
  rw [hofList] at hmem
  obtain ⟨e, he, hentry⟩ := ok_mem_of_mapM hentries hmem
  obtain ⟨c, hc, hentry⟩ := ok_of_bind hentry
  cases hentry
  unfold defaultOf
  rw [← (Dict.mem_grouped.1 he).1]
  exact orError_eq_ok.1 hc

theorem mem_keys_slotOptions {slot : String} :
    slot ∈ (slotOptions candidates).keys ↔ ∃ c ∈ candidates, c.slot = slot := by
  rw [← Dict.get?_isSome, slotOptions, Dict.get?_grouped]
  by_cases h : candidates.filter (fun c => c.slot = slot) = []
  · rw [if_pos h]
    simpa [List.filter_eq_nil_iff] using h
  · rw [if_neg h]
    simpa [List.filter_eq_nil_iff] using h

/-! ## The loop over the choices -/

/-- What the loop keeps, from the selection `before` the advice. -/
structure Choosing.Kept (candidates : List BindingCandidate) (before : Dict String BindingCandidate)
    (s : Choosing) : Prop where
  keys : s.selected.keys = before.keys
  untouched : ∀ slot, slot ∉ s.seen → s.selected.get? slot = before.get? slot
  offered : ∀ slot c, s.selected.get? slot = some c →
    ∃ o ∈ candidates, o.slot = slot ∧ c = { o with reason := c.reason }
  status : ∀ slot c d, s.selected.get? slot = some c → before.get? slot = some d →
    (d.status = .alreadyBound → c = d) ∧ (d.status = .ready → c.status ≠ .needsTest)

theorem Choosing.Kept.choose {before : Dict String BindingCandidate} {s s' : Choosing}
    (h : s.Kept candidates before) {choice : BindingChoice}
    (hok : s.choose (.ofList (candidates.map fun c => (c.candidateId, c))) choice = .ok s') :
    s'.Kept candidates before := by
  unfold Choosing.choose at hok
  split at hok
  · cases hok
  · rename_i option hoption
    have hoffered : option ∈ candidates := by
      rw [Dict.get?_ofList_last, ← List.map_reverse] at hoption
      obtain ⟨c, hc, hsame⟩ := List.mem_map.1 (Dict.mem_of_lookup hoption)
      have heq : c = option := congrArg Prod.snd hsame
      exact heq ▸ List.mem_reverse.1 hc
    obtain ⟨hnew, hok⟩ := ok_of_guard hok
    split at hok
    · cases hok
    · rename_i current hcurrent
      have huntouched : ∀ slot, slot ∉ s.seen ++ [option.slot] → slot ∉ s.seen ∧ slot ≠ option.slot := by
        intro slot hslot
        rw [List.mem_append, List.mem_singleton, not_or] at hslot
        exact hslot
      split at hok
      · -- a bound slot keeps its candidate
        cases hok
        exact ⟨h.keys, fun slot hslot => h.untouched slot (huntouched slot hslot).1, h.offered, h.status⟩
      · rename_i hbound
        obtain ⟨htested, hok⟩ := ok_of_guard hok
        cases hok
        have hbefore : before.get? option.slot = some current := by
          rw [← h.untouched option.slot hnew]
          exact hcurrent
        refine ⟨(Dict.keys_set_of_some hcurrent).trans h.keys, fun slot hslot => ?_, fun slot c hc => ?_,
          fun slot c d hc hd => ?_⟩
        · obtain ⟨hseen, hne⟩ := huntouched slot hslot
          show (s.selected.set option.slot _).get? slot = _
          rw [Dict.get?_set_ne _ _ hne]
          exact h.untouched slot hseen
        · rw [Dict.get?_set] at hc
          split at hc
          · rename_i hslot
            cases hc
            exact ⟨option, hoffered, hslot.symm, rfl⟩
          · exact h.offered slot c hc
        · rw [Dict.get?_set] at hc
          split at hc
          · rename_i hslot
            subst hslot
            cases hc
            rw [hbefore] at hd
            cases hd
            exact ⟨fun hb => absurd hb hbound, fun hready hneeds => htested ⟨hready, hneeds⟩⟩
          · exact h.status slot c d hc hd

theorem Choosing.Kept.chooseAll {before : Dict String BindingCandidate} {s s' : Choosing}
    (h : s.Kept candidates before) {choices : List BindingChoice}
    (hok : choices.foldlM (Choosing.choose (.ofList (candidates.map fun c => (c.candidateId, c)))) s =
      .ok s') : s'.Kept candidates before := by
  induction choices generalizing s with
  | nil =>
    cases hok
    exact h
  | cons choice choices ih =>
    rw [List.foldlM_cons] at hok
    obtain ⟨s₁, hstep, hrest⟩ := ok_of_bind hok
    exact ih (h.choose hstep) hrest

/-- Before the advice. -/
theorem Choosing.Kept.start {before : Dict String BindingCandidate}
    (h : defaultSelection (slotOptions candidates) = .ok before) :
    Choosing.Kept candidates before ⟨[], before⟩ where
  keys := rfl
  untouched := fun _ _ => rfl
  offered := by
    intro slot c hc
    obtain ⟨hmem, hslot⟩ := defaultOf_mem ((defaultSelection_ok h).2 slot c hc)
    exact ⟨c, hmem, hslot, rfl⟩
  status := by
    intro slot c d hc hd
    rw [hc] at hd
    cases hd
    exact ⟨fun _ => rfl, fun hready hneeds => by rw [hready] at hneeds; cases hneeds⟩

/-! ## What the advice can change -/

theorem selectCandidates_ok {advice : Option (List BindingChoice)} {chosen : List BindingCandidate}
    (h : selectCandidates candidates advice = .ok chosen) :
    ∃ before s, defaultSelection (slotOptions candidates) = .ok before ∧
      Choosing.Kept candidates before s ∧ chosen = s.selected.values := by
  obtain ⟨before, hbefore, h⟩ := ok_of_bind h
  cases advice with
  | none =>
    cases h
    exact ⟨before, ⟨[], before⟩, hbefore, Choosing.Kept.start hbefore, rfl⟩
  | some choices =>
    obtain ⟨s, hs, h⟩ := ok_of_bind h
    split at h
    · cases h
      exact ⟨before, s, hbefore, (Choosing.Kept.start hbefore).chooseAll hs, rfl⟩
    · cases h

/-- What a returned candidate is, against the candidates on offer. -/
structure Advised (candidates : List BindingCandidate) (c : BindingCandidate) : Prop where
  offered : ∃ o ∈ candidates, o.slot = c.slot ∧ c.bindingPayload = o.bindingPayload
  bound : ∀ o ∈ candidates, o.slot = c.slot → o.status = .alreadyBound →
    defaultOf candidates c.slot = some c ∧ c.status = .alreadyBound
  tested : ∀ o ∈ candidates, o.slot = c.slot → o.status = .ready → c.status ≠ .needsTest

/-- **Advice stays within the offer.** What is returned is one candidate for each slot, with the payload of
one that was offered for it; a bound candidate stays, and a tested one is not given up for one that still
needs a test. -/
theorem binding_advice_confined {candidates : List BindingCandidate} {advice : Option (List BindingChoice)}
    {chosen : List BindingCandidate} (h : selectCandidates candidates advice = .ok chosen) :
    (chosen.map fun c => c.slot).Nodup ∧
      (∀ slot, slot ∈ chosen.map (fun c => c.slot) ↔ slot ∈ candidates.map fun c => c.slot) ∧
      ∀ c ∈ chosen, Advised candidates c := by
  obtain ⟨before, s, hbefore, hkept, rfl⟩ := selectCandidates_ok h
  obtain ⟨hkeys, hdefaults⟩ := defaultSelection_ok hbefore
  have hget : ∀ e ∈ s.selected.entries, s.selected.get? e.1 = some e.2 := fun e he => Dict.get?_of_mem he
  have hslot : ∀ e ∈ s.selected.entries, e.2.slot = e.1 := by
    intro e he
    obtain ⟨o, -, hslot, hsame⟩ := hkept.offered e.1 e.2 (hget e he)
    rw [hsame]
    exact hslot
  have hslots : s.selected.values.map (fun c => c.slot) = s.selected.keys := by
    unfold Dict.values Dict.keys
    rw [List.map_map]
    exact List.map_congr_left hslot
  refine ⟨by rw [hslots]; exact s.selected.nodup, fun slot => ?_, fun c hc => ?_⟩
  · rw [hslots, hkept.keys, hkeys, mem_keys_slotOptions, List.mem_map]
  · obtain ⟨e, he, rfl⟩ := List.mem_map.1 hc
    obtain ⟨o, ho, hoslot, hsame⟩ := hkept.offered e.1 e.2 (hget e he)
    have hkey : e.1 ∈ before.keys := hkept.keys ▸ List.mem_map_of_mem he
    obtain ⟨d, hd⟩ := Option.isSome_iff_exists.1 (Dict.get?_isSome.2 hkey)
    have hdefault := hdefaults e.1 d hd
    obtain ⟨hbound, htested⟩ := hkept.status e.1 e.2 d (hget e he) hd
    have hrank := fun o ho hslot => defaultOf_rank (o := o) hdefault ho hslot
    refine ⟨⟨o, ho, hoslot.trans (hslot e he).symm, by rw [hsame]; rfl⟩, ?_, ?_⟩
    · intro o ho hoslot hstatus
      have hle := hrank o ho (hoslot.trans (hslot e he))
      have hdbound : d.status = .alreadyBound := by
        rw [hstatus] at hle
        cases hds : d.status <;> rw [hds] at hle <;> first | rfl | exact absurd hle (by decide)
      rw [hbound hdbound, (defaultOf_mem hdefault).2]
      exact ⟨hdefault, hdbound⟩
    · intro o ho hoslot hstatus hneeds
      have hle := hrank o ho (hoslot.trans (hslot e he))
      rw [hstatus] at hle
      cases hds : d.status with
      | alreadyBound =>
        rw [hbound hds, hds] at hneeds
        cases hneeds
      | ready => exact htested hds hneeds
      | needsTest =>
        rw [hds] at hle
        exact absurd hle (by decide)

/-! A slot with a tested and an untested source, and advice for the tested one. -/

def pricesCandidate (connection : String) (status : BindingStatus) : BindingCandidate where
  candidateId := connection
  slot := "FOREX:SPOT:CANDLES"
  bindingScope := .marketResearch
  lane := some [("asset_class", "FOREX"), ("instrument_type", "SPOT")]
  capability := "CANDLES"
  authorityPurpose := "REFERENCE"
  connectionId := connection
  connectionName := connection
  provider := "DUKASCOPY"
  priority := 100
  status := status
  reason := "Configured history."

theorem binding_advice_confined_prices :
    selectCandidates [pricesCandidate "b" .needsTest, pricesCandidate "a" .ready]
        (some [⟨"a", "Tested."⟩]) = .ok [{ pricesCandidate "a" .ready with reason := "Tested." }] ∧
      ∀ c ∈ [{ pricesCandidate "a" .ready with reason := "Tested." }],
        Advised [pricesCandidate "b" .needsTest, pricesCandidate "a" .ready] c := by
  have h : selectCandidates [pricesCandidate "b" .needsTest, pricesCandidate "a" .ready]
      (some [⟨"a", "Tested."⟩]) = .ok [{ pricesCandidate "a" .ready with reason := "Tested." }] := by
    rfl
  exact ⟨h, (binding_advice_confined h).2.2⟩

end Matrades
