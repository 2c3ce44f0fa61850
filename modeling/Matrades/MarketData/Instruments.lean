import Mathlib.Data.Prod.Lex
import Matrades.Base.Dict
import Matrades.Base.Ranked
import Matrades.Base.Result
import Matrades.Research.Models

/-!
# The instrument registry

`InstrumentRegistry` of `modules/market_data/instruments.py`: underlyings, their venue listings, and the
dated specification versions of each listing. Times are instants, in microseconds.

What the registry holds after accepted registrations (`Holds`): for each listing its registered versions,
sorted, each version number once. So the last one that is effective at an instant is the greatest of them
(`Holds.getLast?_iff`), whatever the order of the registrations (`specification_history`).
-/

namespace Matrades

open Base

/-! ## The instrument registry -/

structure UnderlyingAsset where
  id : Uuid
  symbol : String

/-- A specification version with the listing it belongs to. -/
structure ListingSpecification where
  venueInstrumentId : Uuid
  terms : InstrumentSpecificationVersion
  valid : terms.valid = true

namespace ListingSpecification

def version (s : ListingSpecification) : ℤ := s.terms.version

/-- The order of versions. -/
def order (s : ListingSpecification) : ℤ ×ₗ ℤ := toLex (s.terms.effectiveFrom, s.terms.version)

/-- Is the instant in `[effective_from, effective_to)`? -/
def effectiveAt (s : ListingSpecification) (asOf : ℤ) : Bool :=
  decide (s.terms.effectiveFrom ≤ asOf) &&
    match s.terms.effectiveTo with
    | none => true
    | some effectiveTo => decide (asOf < effectiveTo)

end ListingSpecification

structure InstrumentRegistry where
  underlyings : Dict Uuid UnderlyingAsset := .empty
  listings : Dict Uuid VenueInstrument := .empty
  specifications : Dict Uuid (List ListingSpecification) := .empty

namespace InstrumentRegistry

/-- `register_underlying` -/
def registerUnderlying (r : InstrumentRegistry) (asset : UnderlyingAsset) : InstrumentRegistry :=
  { r with underlyings := r.underlyings.set asset.id asset }

/-- `register_listing`: a continuous series is never executable. -/
def registerListing (r : InstrumentRegistry) (listing : VenueInstrument) :
    Except String InstrumentRegistry :=
  let listing := if listing.instrumentType = .futures ∧ listing.continuousAnalytical = true then
    { listing with executable := false } else listing
  if (r.underlyings.get? listing.underlyingId).isNone then
    .error "venue listing references an unknown underlying"
  else .ok { r with listings := r.listings.set listing.id listing }

/-- The versions of a listing. -/
def versions (r : InstrumentRegistry) (listingId : Uuid) : List ListingSpecification :=
  (r.specifications.get? listingId).getD []

/-- `register_specification` -/
def registerSpecification (r : InstrumentRegistry) (s : ListingSpecification) :
    Except String InstrumentRegistry :=
  if (r.listings.get? s.venueInstrumentId).isNone then
    .error "specification references an unknown venue listing"
  else
    let versions := r.versions s.venueInstrumentId
    if versions.any fun item => item.version = s.version then
      .error "specification version already exists"
    else
      let versions := ranked ListingSpecification.order (versions ++ [s])
      .ok { r with specifications := r.specifications.set s.venueInstrumentId versions }

def listing (r : InstrumentRegistry) (listingId : Uuid) : Except String VenueInstrument :=
  orError (r.listings.get? listingId) "unknown venue listing"

/-- `specification_at` -/
def specificationAt (r : InstrumentRegistry) (listingId : Uuid) (asOf : ℤ) (requireFresh : Bool) :
    Except String ListingSpecification := do
  let _ ← r.listing listingId
  let selected ← orError ((r.versions listingId).filter fun item => item.effectiveAt asOf).getLast?
    "no effective instrument specification"
  if requireFresh = true ∧ selected.terms.freshness ≠ "VALID" then
    .error "instrument specification is stale or invalid"
  else .ok selected

/-- `require_executable` -/
def requireExecutable (r : InstrumentRegistry) (listingId : Uuid) (asOf : ℤ) :
    Except String VenueInstrument := do
  let listing ← r.listing listingId
  if listing.executable = false ∨ listing.continuousAnalytical = true then
    .error "continuous or non-executable listing cannot be traded"
  else
    let _ ← r.specificationAt listingId asOf true
    .ok listing

end InstrumentRegistry

/-! ## Registrations -/

inductive Registration
  | underlying (asset : UnderlyingAsset)
  | listing (listing : VenueInstrument)
  | specification (s : ListingSpecification)

def InstrumentRegistry.register (r : InstrumentRegistry) :
    Registration → Except String InstrumentRegistry
  | .underlying asset => .ok (r.registerUnderlying asset)
  | .listing listing => r.registerListing listing
  | .specification s => r.registerSpecification s

/-- The registry after accepted registrations, from an empty one. -/
def registryAfter (rs : List Registration) : Except String InstrumentRegistry :=
  rs.foldlM InstrumentRegistry.register {}

/-! ## The history of an instrument -/

section
variable {r r' : InstrumentRegistry} {s : ListingSpecification}

/-! ## One registration -/

namespace InstrumentRegistry

theorem registerListing_ok {l : VenueInstrument} (h : r.registerListing l = .ok r') :
    r'.specifications = r.specifications ∧
      ∀ id, (r'.listings.get? id).isSome ↔ id = l.id ∨ (r.listings.get? id).isSome := by
  unfold registerListing at h
  obtain ⟨-, h⟩ := ok_of_guard h
  cases h
  refine ⟨rfl, fun id => ?_⟩
  rw [Dict.get?_set]
  have hid : (if l.instrumentType = .futures ∧ l.continuousAnalytical = true then
      { l with executable := false } else l).id = l.id := by split <;> rfl
  rw [hid]
  by_cases h : id = l.id
  · simp [h]
  · simp [h]

theorem registerSpecification_ok (h : r.registerSpecification s = .ok r') :
    (r.listings.get? s.venueInstrumentId).isSome ∧
      (∀ item ∈ r.versions s.venueInstrumentId, item.version ≠ s.version) ∧
      r'.listings = r.listings ∧
      ∀ id, r'.versions id = if id = s.venueInstrumentId then
        ranked ListingSpecification.order (r.versions id ++ [s]) else r.versions id := by
  unfold registerSpecification at h
  obtain ⟨hknown, h⟩ := ok_of_guard h
  obtain ⟨hnew, h⟩ := ok_of_guard h
  cases h
  refine ⟨?_, ?_, rfl, fun id => ?_⟩
  · simpa [Option.isNone_iff_eq_none, Option.isSome_iff_ne_none] using hknown
  · simpa using hnew
  · unfold versions
    show (Dict.get? _ id).getD [] = _
    rw [Dict.get?_set]
    by_cases hid : id = s.venueInstrumentId
    · subst hid
      simp
    · simp [hid]

end InstrumentRegistry

/-! ## After accepted registrations -/

namespace Registration

def specification? : Registration → Option ListingSpecification
  | specification s => some s
  | _ => none

end Registration

/-- The registered versions of a listing. -/
def versionsOf (rs : List Registration) (listingId : Uuid) : List ListingSpecification :=
  (rs.filterMap Registration.specification?).filter fun s => s.venueInstrumentId = listingId

/-- The versions of a listing in a registry are the given ones. -/
structure Holds (r : InstrumentRegistry) (listingId : Uuid)
    (given : List ListingSpecification) : Prop where
  perm : (r.versions listingId).Perm given
  sorted : (r.versions listingId).Pairwise fun a b => a.order ≤ b.order
  distinct : ((r.versions listingId).map fun s => s.version).Nodup
  known : r.versions listingId ≠ [] → (r.listings.get? listingId).isSome

theorem Holds.register {listingId : Uuid} {given : List ListingSpecification}
    (h : Holds r listingId given) {registration : Registration}
    (hok : r.register registration = .ok r') :
    Holds r' listingId (given ++ versionsOf [registration] listingId) := by
  cases registration with
  | underlying asset =>
    cases hok
    show Holds _ listingId (given ++ [])
    rw [List.append_nil]
    exact ⟨h.perm, h.sorted, h.distinct, h.known⟩
  | listing l =>
    obtain ⟨hspecs, hlistings⟩ := InstrumentRegistry.registerListing_ok hok
    have hversions : r'.versions listingId = r.versions listingId := by
      unfold InstrumentRegistry.versions
      rw [hspecs]
    show Holds _ listingId (given ++ [])
    rw [List.append_nil]
    refine ⟨hversions ▸ h.perm, hversions ▸ h.sorted, hversions ▸ h.distinct, fun hne => ?_⟩
    rw [hversions] at hne
    exact (hlistings listingId).2 (.inr (h.known hne))
  | specification s =>
    obtain ⟨hknown, hnew, hlistings, hversions⟩ := InstrumentRegistry.registerSpecification_ok hok
    have hthis := hversions listingId
    by_cases hid : listingId = s.venueInstrumentId
    · rw [if_pos hid] at hthis
      subst hid
      have hadd : versionsOf [.specification s] s.venueInstrumentId = [s] := by
        simp [versionsOf, Registration.specification?]
      have hsort := ranked_permutes ListingSpecification.order (r.versions s.venueInstrumentId ++ [s])
      rw [hadd]
      refine ⟨?_, ?_, ?_, fun _ => ?_⟩
      · rw [hthis]
        exact hsort.trans (h.perm.append_right [s])
      · rw [hthis]
        exact ranked_sorted _ _
      · rw [hthis]
        refine (hsort.map _).nodup_iff.2 ?_
        rw [List.map_append, List.nodup_append]
        refine ⟨h.distinct, List.nodup_singleton _, fun n hn m hm => ?_⟩
        obtain ⟨item, hitem, rfl⟩ := List.mem_map.1 hn
        rw [List.mem_singleton.1 hm]
        exact hnew item hitem
      · rw [hlistings]
        exact hknown
    · rw [if_neg hid] at hthis
      have hadd : versionsOf [.specification s] listingId = [] := by
        simpa [versionsOf, Registration.specification?] using Ne.symm hid
      rw [hadd, List.append_nil]
      refine ⟨hthis ▸ h.perm, hthis ▸ h.sorted, hthis ▸ h.distinct, fun hne => ?_⟩
      rw [hthis] at hne
      rw [hlistings]
      exact h.known hne

theorem versionsOf_cons (registration : Registration) (rs : List Registration) (listingId : Uuid) :
    versionsOf (registration :: rs) listingId =
      versionsOf [registration] listingId ++ versionsOf rs listingId := by
  unfold versionsOf
  rw [← List.filter_append, ← List.filterMap_append]
  rfl

theorem Holds.registerAll {listingId : Uuid} {rs : List Registration}
    {given : List ListingSpecification} (h : Holds r listingId given)
    (hok : rs.foldlM InstrumentRegistry.register r = .ok r') :
    Holds r' listingId (given ++ versionsOf rs listingId) := by
  induction rs generalizing r given with
  | nil =>
    cases hok
    simpa [versionsOf] using h
  | cons registration rs ih =>
    rw [List.foldlM_cons] at hok
    obtain ⟨r₁, hstep, hrest⟩ := ok_of_bind hok
    rw [versionsOf_cons, ← List.append_assoc]
    exact ih (h.register hstep) hrest

theorem registryAfter_holds {rs : List Registration} (hok : registryAfter rs = .ok r)
    (listingId : Uuid) : Holds r listingId (versionsOf rs listingId) := by
  have hempty : Holds ({} : InstrumentRegistry) listingId [] :=
    ⟨.refl _, .nil, .nil, fun h => absurd rfl h⟩
  exact hempty.registerAll hok

/-! ## The version at an instant -/

/-- A version of a listing is determined by its place in the order. -/
theorem Holds.order_inj {listingId : Uuid} {given : List ListingSpecification}
    (h : Holds r listingId given) {a b : ListingSpecification} (ha : a ∈ r.versions listingId)
    (hb : b ∈ r.versions listingId) (hab : a.order = b.order) : a = b :=
  List.inj_on_of_nodup_map h.distinct ha hb (congrArg (fun key => (ofLex key).2) hab)

/-- The last of the versions that are effective is the greatest of them. -/
theorem Holds.getLast?_iff {listingId : Uuid} {given : List ListingSpecification}
    (h : Holds r listingId given) (asOf : ℤ) :
    ((r.versions listingId).filter fun item => item.effectiveAt asOf).getLast? = some s ↔
      s ∈ given ∧ s.effectiveAt asOf = true ∧
        ∀ other ∈ given, other.effectiveAt asOf = true → other.order ≤ s.order := by
  have hmem : ∀ item, item ∈ (r.versions listingId).filter (fun item => item.effectiveAt asOf) ↔
      item ∈ given ∧ item.effectiveAt asOf = true := by
    intro item
    rw [List.mem_filter, h.perm.mem_iff]
  have hsorted : ((r.versions listingId).filter fun item => item.effectiveAt asOf).Pairwise
      fun a b => a.order ≤ b.order := h.sorted.sublist List.filter_sublist
  have hinj : ∀ a ∈ (r.versions listingId).filter (fun item => item.effectiveAt asOf),
      ∀ b ∈ (r.versions listingId).filter (fun item => item.effectiveAt asOf), a.order = b.order → a = b :=
    fun a ha b hb => h.order_inj (List.mem_of_mem_filter ha) (List.mem_of_mem_filter hb)
  generalize (r.versions listingId).filter (fun item => item.effectiveAt asOf) = effective at *
  have hgreatest : ∀ last, effective.getLast? = some last → ∀ item ∈ effective, item.order ≤ last.order := by
    intro last hlast item hitem
    obtain ⟨front, rfl⟩ := List.getLast?_eq_some_iff.1 hlast
    rcases List.mem_append.1 hitem with hfront | hsame
    · exact (List.pairwise_append.1 hsorted).2.2 item hfront last (List.mem_singleton_self _)
    · rw [List.mem_singleton.1 hsame]
  constructor
  · intro hlast
    have hs := (hmem s).1 (List.mem_of_getLast? hlast)
    exact ⟨hs.1, hs.2, fun other ho he => hgreatest s hlast other ((hmem other).2 ⟨ho, he⟩)⟩
  · rintro ⟨hs, heffective, hbound⟩
    have hin := (hmem s).2 ⟨hs, heffective⟩
    obtain ⟨last, hlast⟩ : ∃ last, effective.getLast? = some last := by
      cases hl : effective.getLast? with
      | some last => exact ⟨last, rfl⟩
      | none =>
        rw [List.getLast?_eq_none_iff.1 hl] at hin
        cases hin
    have hl := (hmem last).1 (List.mem_of_getLast? hlast)
    have heq : last.order = s.order :=
      le_antisymm (hbound last hl.1 hl.2) (hgreatest last hlast s hin)
    rw [← hinj last (List.mem_of_getLast? hlast) s hin heq]
    exact hlast

theorem specificationAt_ok {listingId : Uuid} {asOf : ℤ} {fresh : Bool} :
    r.specificationAt listingId asOf fresh = .ok s ↔
      (r.listings.get? listingId).isSome ∧
        ((r.versions listingId).filter fun item => item.effectiveAt asOf).getLast? = some s ∧
        (fresh = true → s.terms.freshness = "VALID") := by
  unfold InstrumentRegistry.specificationAt InstrumentRegistry.listing
  constructor
  · intro h
    obtain ⟨l, hl, h⟩ := ok_of_bind h
    obtain ⟨selected, hselected, h⟩ := ok_of_bind h
    obtain ⟨hfresh, h⟩ := ok_of_guard h
    cases h
    refine ⟨Option.isSome_iff_exists.2 ⟨l, orError_eq_ok.1 hl⟩, orError_eq_ok.1 hselected, fun hf => ?_⟩
    by_contra hne
    exact hfresh ⟨hf, hne⟩
  · rintro ⟨hknown, hlast, hfresh⟩
    obtain ⟨l, hl⟩ := Option.isSome_iff_exists.1 hknown
    rw [bind_ok_eq (orError_eq_ok.2 hl), bind_ok_eq (orError_eq_ok.2 hlast), if_neg]
    rintro ⟨hf, hne⟩
    exact hne (hfresh hf)

/-- Among the given versions of a listing, `s` is the one at an instant: the greatest of those effective. -/
structure CurrentAt (given : List ListingSpecification) (asOf : ℤ)
    (s : ListingSpecification) : Prop where
  mem : s ∈ given
  effective : s.effectiveAt asOf = true
  greatest : ∀ other ∈ given, other.effectiveAt asOf = true → other.order ≤ s.order

theorem specificationAt_iff {rs : List Registration} (hok : registryAfter rs = .ok r)
    {listingId : Uuid} {asOf : ℤ} {fresh : Bool} : r.specificationAt listingId asOf fresh = .ok s ↔
      CurrentAt (versionsOf rs listingId) asOf s ∧ (fresh = true → s.terms.freshness = "VALID") := by
  have hholds := registryAfter_holds hok listingId
  rw [specificationAt_ok, hholds.getLast?_iff]
  constructor
  · rintro ⟨-, ⟨hmem, heffective, hgreatest⟩, hfresh⟩
    exact ⟨⟨hmem, heffective, hgreatest⟩, hfresh⟩
  · rintro ⟨⟨hmem, heffective, hgreatest⟩, hfresh⟩
    have hne : r.versions listingId ≠ [] := by
      intro hnil
      have hin := hholds.perm.mem_iff.2 hmem
      rw [hnil] at hin
      cases hin
    exact ⟨hholds.known hne, ⟨hmem, heffective, hgreatest⟩, hfresh⟩

/-- A version that takes effect later leaves the answer as it is. -/
theorem specificationAt_registerLater {rs : List Registration} (hok : registryAfter rs = .ok r)
    (hlater : r.registerSpecification s = .ok r') {listingId : Uuid} {asOf : ℤ} {fresh : Bool}
    (hasOf : asOf < s.terms.effectiveFrom) :
    r'.specificationAt listingId asOf fresh = r.specificationAt listingId asOf fresh := by
  obtain ⟨-, -, hlistings, hversions⟩ := InstrumentRegistry.registerSpecification_ok hlater
  have hnot : s.effectiveAt asOf = false := by
    simp [ListingSpecification.effectiveAt, hasOf]
  have hsame : (r'.versions listingId).filter (fun item => item.effectiveAt asOf) =
      (r.versions listingId).filter fun item => item.effectiveAt asOf := by
    have hbefore := registryAfter_holds hok listingId
    have hafter : Holds r' listingId (versionsOf rs listingId ++ versionsOf [.specification s] listingId) :=
      hbefore.register (show r.register (.specification s) = .ok r' from hlater)
    refine eq_of_sorted ?_ (fun a ha b hb hab => ?_) (hafter.sorted.sublist List.filter_sublist)
      (hbefore.sorted.sublist List.filter_sublist)
    · refine (hafter.perm.filter _).trans ?_
      rw [List.filter_append]
      have hnone : (versionsOf [.specification s] listingId).filter (fun item => item.effectiveAt asOf) = [] := by
        refine List.filter_eq_nil_iff.2 fun item hitem => ?_
        have heq : item = s := by
          have := List.mem_of_mem_filter hitem
          simpa [Registration.specification?] using this
        rw [heq, hnot]
        exact Bool.false_ne_true
      rw [hnone, List.append_nil]
      exact (hbefore.perm.filter _).symm
    · exact hafter.order_inj (List.mem_of_mem_filter ha) (List.mem_of_mem_filter hb) hab
  unfold InstrumentRegistry.specificationAt InstrumentRegistry.listing
  rw [hlistings, hsame]

/-- **The history of an instrument** depends on its versions and not on the order in which they were
registered: at an instant it is the greatest version in effect, and what takes effect later does not
change it. -/
theorem specification_history {rs rs' : List Registration}
    (hspecs : (rs.filterMap Registration.specification?).Perm (rs'.filterMap Registration.specification?))
    (hok : registryAfter rs = .ok r) (hok' : registryAfter rs' = .ok r')
    (listingId : Uuid) (asOf : ℤ) (fresh : Bool) :
    (∀ s, r.specificationAt listingId asOf fresh = .ok s ↔
      r'.specificationAt listingId asOf fresh = .ok s) ∧
    (∀ s, r.specificationAt listingId asOf fresh = .ok s ↔
      CurrentAt (versionsOf rs listingId) asOf s ∧ (fresh = true → s.terms.freshness = "VALID")) ∧
    ∀ s r'', asOf < s.terms.effectiveFrom → r.registerSpecification s = .ok r'' →
      r''.specificationAt listingId asOf fresh = r.specificationAt listingId asOf fresh := by
  refine ⟨fun s => ?_, fun s => specificationAt_iff hok, fun s r'' hasOf hlater => ?_⟩
  · have hversions : (versionsOf rs listingId).Perm (versionsOf rs' listingId) := hspecs.filter _
    have hcurrent : CurrentAt (versionsOf rs listingId) asOf s ↔ CurrentAt (versionsOf rs' listingId) asOf s := by
      constructor
      · intro h
        exact ⟨hversions.mem_iff.1 h.mem, h.effective, fun o ho => h.greatest o (hversions.mem_iff.2 ho)⟩
      · intro h
        exact ⟨hversions.mem_iff.2 h.mem, h.effective, fun o ho => h.greatest o (hversions.mem_iff.1 ho)⟩
    rw [specificationAt_iff hok, specificationAt_iff hok', hcurrent]
  · exact specificationAt_registerLater hok hlater hasOf

/-! A listing with two versions, registered in both orders. -/

def goldAsset : UnderlyingAsset := ⟨Uuid.ofNat 1, "GOLD"⟩

def goldListing : VenueInstrument where
  id := Uuid.ofNat 2
  underlyingId := Uuid.ofNat 1
  symbol := "XAUUSD"
  assetClass := .metals
  instrumentType := .cfd

def goldTerms (version effectiveFrom : ℤ) : InstrumentSpecificationVersion where
  id := Uuid.ofNat 3
  version := version
  effectiveFrom := effectiveFrom
  quantityUnit := .lots
  provenance := [("source", "venue")]

def firstGoldTerms : ListingSpecification := ⟨Uuid.ofNat 2, goldTerms 1 0, by decide +kernel⟩

def revisedGoldTerms : ListingSpecification := ⟨Uuid.ofNat 2, goldTerms 2 10, by decide +kernel⟩

def goldRegistrations : List Registration :=
  [.underlying goldAsset, .listing goldListing, .specification firstGoldTerms, .specification revisedGoldTerms]

def goldRegistrationsSwapped : List Registration :=
  [.underlying goldAsset, .listing goldListing, .specification revisedGoldTerms, .specification firstGoldTerms]

theorem specification_history_gold : ∃ r r' : InstrumentRegistry,
    registryAfter goldRegistrations = .ok r ∧ registryAfter goldRegistrationsSwapped = .ok r' ∧
      ∀ s, r.specificationAt (Uuid.ofNat 2) 12 true = .ok s ↔
        r'.specificationAt (Uuid.ofNat 2) 12 true = .ok s := by
  have hperm : (goldRegistrations.filterMap Registration.specification?).Perm
      (goldRegistrationsSwapped.filterMap Registration.specification?) :=
    List.Perm.swap revisedGoldTerms firstGoldTerms []
  exact ⟨_, _, rfl, rfl, (specification_history hperm rfl rfl (Uuid.ofNat 2) 12 true).1⟩

end

end Matrades
