import Mathlib.Algebra.Order.Ring.Rat
import Mathlib.Tactic.Linarith
import Matrades.Base.Ranked
import Matrades.Base.Result
import Matrades.Shared.PyValue
import Matrades.Strategies.Hypotheses

/-!
# Reranking of retrieved candidates

`cohere_rerank` of `adapters/reranking/cohere.py` and `rerank_for_owner` of `modules/knowledge/reranking.py`.
The stored configuration, the resolved connection and the provider's response are given; a response is any
JSON value, or a failure.

The adapter turns the errors of a malformed response into one that the wrapper handles, all but the
`OverflowError` of `math.isfinite` on an integer beyond the floats. So the retrieval keeps control exactly
when the validation does not come to such a score (`rerank_controlled_iff`).
-/

namespace Matrades

open Base

/-! ## The adapter -/

/-- `SUPPORTED_MODELS` -/
def supportedRerankModels : List String := ["rerank-v4.0-pro", "rerank-v4.0-fast", "rerank-v3.5"]

/-- `MAX_CANDIDATES` -/
def maxRerankCandidates : ℕ := 100

/-- The least integer beyond the floats: it rounds to `2 ^ 1024`. -/
def floatOverflow : ℤ := 2 ^ 1024 - 2 ^ 970

/-- What the provider answers. -/
inductive RerankResponse
  /-- `httpx.HTTPError` -/
  | failure
  /-- A status and the body; `none` where the body is not JSON. -/
  | answered (status : ℕ) (body : Option PyValue)

/-- The checks of a score: its type, `math.isfinite` and the range. -/
def relevanceOf : PyValue → Except PyError ℚ
  | .int n =>
    if floatOverflow ≤ |n| then .error .overflowError
    else if 0 ≤ n ∧ n ≤ 1 then .ok n else .error .valueError
  | .float (.finite q) => if 0 ≤ q ∧ q ≤ 1 then .ok q else .error .valueError
  | _ => .error .valueError

/-- One result, after the accepted ones. -/
def rankResult (count : ℕ) (accepted : List (ℕ × ℚ)) (item : PyValue) : Except PyError (List (ℕ × ℚ)) := do
  let index ← item.getItem "index"
  let score ← item.getItem "relevance_score"
  match index with
  | .int i =>
    if i < 0 ∨ count ≤ i ∨ i.toNat ∈ accepted.map Prod.fst then .error .valueError
    else
      let relevance ← relevanceOf score
      .ok (accepted ++ [(i.toNat, relevance)])
  | _ => .error .valueError

/-- The results of a body, `top_n` of them. -/
def resultsOf (topN : ℕ) (body : PyValue) : Except PyError (List PyValue) := do
  let results ← body.getItem "results"
  match results with
  | .list items => if items.length = topN then .ok items else .error .valueError
  | _ => .error .valueError

/-- `except (KeyError, TypeError, ValueError)` -/
def asInvalidResponse {α : Type} : Except PyError α → Except PyError α
  | .ok a => .ok a
  | .error e =>
    if e ∈ [.keyError, .typeError, .valueError] then
      .error (.runtimeError "Cohere returned an invalid reranking response")
    else .error e

structure RerankRequest where
  apiKey : String
  query : String
  documents : List String
  model : String
  topN : ℕ

/-- The checks in front of the call. -/
def RerankRequest.check (r : RerankRequest) : Except PyError Unit :=
  if r.apiKey = "" ∨ stripSpace r.query = "" ∨ r.documents = [] ∨
      (r.documents.any fun text => stripSpace text = "") = true then .error .valueError
  else if r.model ∉ supportedRerankModels ∨ maxRerankCandidates < r.documents.length ∨
      ¬(1 ≤ r.topN ∧ r.topN ≤ r.documents.length) then .error .valueError
  else .ok ()

/-- The body of an answer with status 200. -/
def receiveBody : RerankResponse → Except PyError PyValue
  | .failure => .error (.runtimeError "Cohere reranking is unavailable or timed out")
  | .answered status body =>
    if status ≠ 200 then .error (.runtimeError s!"Cohere reranking request failed ({status})")
    else asInvalidResponse (orError body .valueError)

/-- `cohere_rerank` -/
def cohereRerank (r : RerankRequest) (response : RerankResponse) : Except PyError (List (ℕ × ℚ)) := do
  r.check
  let body ← receiveBody response
  asInvalidResponse do
    let results ← resultsOf r.topN body
    let accepted ← results.foldlM (rankResult r.documents.length) []
    .ok (ranked (fun item => -item.2) accepted)

/-! ## The wrapper -/

/-- The stored configuration; `none` is a missing or invalid entry. -/
structure RerankConfiguration where
  connectionId : Option Uuid
  model : Option String
  candidateLimit : Option ℕ
  version : ℕ

/-- `RerankingConfigurationInput.model_validate` -/
def RerankConfiguration.settings (c : RerankConfiguration) : Except PyError (Uuid × String × ℕ) := do
  let connectionId ← orError c.connectionId .valueError
  let model ← orError c.model .valueError
  let candidateLimit ← orError c.candidateLimit .valueError
  if model ∈ supportedRerankModels ∧ 20 ≤ candidateLimit ∧ candidateLimit ≤ maxRerankCandidates then
    .ok (connectionId, model, candidateLimit)
  else .error .valueError

/-- A resolved connection. -/
structure RerankConnection where
  provider : String
  secret : Option String

/-- A retrieved candidate: its text, its scores, and the other entries, which nothing here reads. -/
structure RetrievedHit (τ : Type) where
  text : String
  score : ℚ
  hybridScore : Option ℚ := none
  rerankScore : Option ℚ := none
  evidence : τ

structure RerankMetadata where
  status : String
  provider : Option String := none
  model : Option String := none
  connectionId : Option Uuid := none
  configurationVersion : Option ℕ := none
  candidateCount : ℕ := 0
  reason : Option String := none
  deriving DecidableEq

variable {τ : Type}

/-- `except (LookupError, RuntimeError, ValueError)` -/
def handledByWrapper : PyError → Bool
  | .keyError | .valueError | .runtimeError _ => true
  | _ => false

/-- What one retrieval reads beside its candidates and the response. -/
structure RerankInputs where
  configuration : Option RerankConfiguration
  /-- `resolve_connection` -/
  connection : Uuid → Except PyError RerankConnection
  query : String

/-- The candidates that are sent. -/
def sentCandidates (c : RerankConfiguration) (hits : List (RetrievedHit τ)) : List (RetrievedHit τ) :=
  match c.settings with
  | .ok (_, _, candidateLimit) => hits.take candidateLimit
  | .error _ => []

/-- The request of the wrapper. -/
def rerankRequest (i : RerankInputs) (c : RerankConfiguration) (hits : List (RetrievedHit τ)) (limit : ℕ) :
    Except PyError RerankRequest := do
  let (connectionId, model, _) ← c.settings
  let candidates := sentCandidates c hits
  let connection ← i.connection connectionId
  match connection.provider, connection.secret with
  | "COHERE", some secret =>
    if secret = "" then .error (.runtimeError "reranking connection unavailable")
    else .ok ⟨secret, i.query, candidates.map fun hit => hit.text, model, min limit candidates.length⟩
  | _, _ => .error (.runtimeError "reranking connection unavailable")

/-- The ranking by the provider. -/
def providerRanking (i : RerankInputs) (c : RerankConfiguration) (hits : List (RetrievedHit τ)) (limit : ℕ)
    (response : RerankResponse) : Except PyError (List (ℕ × ℚ)) := do
  let request ← rerankRequest i c hits limit
  cohereRerank request response

/-- A candidate with its place in the ranking. -/
def rerankedHit (candidates : List (RetrievedHit τ)) (item : ℕ × ℚ) : Option (RetrievedHit τ) :=
  (candidates[item.1]?).map fun hit =>
    { hit with hybridScore := some hit.score, rerankScore := some item.2, score := item.2 }

def RerankConfiguration.metadata (c : RerankConfiguration) (candidateCount : ℕ) (status : String)
    (reason : Option String) : RerankMetadata :=
  ⟨status, some "COHERE", c.model, c.connectionId, some c.version, candidateCount, reason⟩

/-- `rerank_for_owner` -/
def rerankForOwner (i : RerankInputs) (hits : List (RetrievedHit τ)) (limit : ℕ) (response : RerankResponse) :
    Except PyError (List (RetrievedHit τ) × RerankMetadata) :=
  match i.configuration with
  | none => .ok (hits.take limit, { status := "DISABLED" })
  | some c =>
    if hits.isEmpty then .ok ([], c.metadata 0 "SKIPPED" none)
    else
      let candidates := sentCandidates c hits
      match providerRanking i c hits limit response with
      | .ok ranking =>
        .ok (ranking.filterMap (rerankedHit candidates), c.metadata candidates.length "APPLIED" none)
      | .error e =>
        if handledByWrapper e = true then
          .ok (hits.take limit, c.metadata candidates.length "DEGRADED"
            (some "Cohere reranking unavailable; using hybrid retrieval order."))
        else .error e

/-! ## Validation of the results -/

/-- A valid result alone: its index, and its score. -/
def validResult (count : ℕ) (item : PyValue) : Option (ℕ × ℚ) :=
  match item.getItem "index", item.getItem "relevance_score" with
  | .ok (.int i), .ok score =>
    if 0 ≤ i ∧ i < count then ((relevanceOf score).toOption).map fun relevance => (i.toNat, relevance) else none
  | _, _ => none

/-- The index of a result whose score is an integer beyond the floats. -/
def oversizeResult (count : ℕ) (item : PyValue) : Option ℕ :=
  match item.getItem "index", item.getItem "relevance_score" with
  | .ok (.int i), .ok (.int n) =>
    if 0 ≤ i ∧ i < count ∧ floatOverflow ≤ |n| then some i.toNat else none
  | _, _ => none

/-- Behind the taken indices and valid results of others comes a result with an integer score beyond the
floats. -/
def OversizeBehind (count : ℕ) (taken : List ℕ) (results : List PyValue) : Prop :=
  ∃ before item after valid i, results = before ++ item :: after ∧
    List.Forall₂ (fun x e => validResult count x = some e) before valid ∧
    oversizeResult count item = some i ∧ (taken ++ valid.map Prod.fst ++ [i]).Nodup

/-- Behind valid results of other indices comes one with an integer score beyond the floats. -/
def ReachesOversize (count : ℕ) (results : List PyValue) : Prop := OversizeBehind count [] results

/-- An error that the adapter reports as an invalid response. -/
def Malformed (e : PyError) : Prop := e ∈ [PyError.keyError, .typeError, .valueError]

theorem relevanceOf_error {score : PyValue} {e : PyError} (h : relevanceOf score = .error e) :
    Malformed e ∨ e = .overflowError ∧ ∃ n, score = .int n ∧ floatOverflow ≤ |n| := by
  unfold relevanceOf at h
  split at h
  · rename_i n
    split at h
    · rename_i hn
      cases h
      exact .inr ⟨rfl, n, rfl, hn⟩
    · split at h
      · cases h
      · cases h
        exact .inl (by simp [Malformed])
  · split at h
    · cases h
    · cases h
      exact .inl (by simp [Malformed])
  · cases h
    exact .inl (by simp [Malformed])

theorem relevanceOf_oversize {n : ℤ} (h : floatOverflow ≤ |n|) :
    relevanceOf (.int n) = .error .overflowError := if_pos h

theorem getItem_error {value : PyValue} {key : String} {e : PyError} (h : value.getItem key = .error e) :
    Malformed e := by
  unfold PyValue.getItem at h
  split at h
  · split at h
    · cases h
    · cases h
      simp [Malformed]
  · cases h
    simp [Malformed]

theorem rankResult_int {count : ℕ} {accepted : List (ℕ × ℚ)} {item score : PyValue} {i : ℤ}
    (hindex : item.getItem "index" = .ok (.int i)) (hscore : item.getItem "relevance_score" = .ok score) :
    rankResult count accepted item =
      if i < 0 ∨ count ≤ i ∨ i.toNat ∈ accepted.map Prod.fst then .error .valueError
      else relevanceOf score >>= fun relevance => .ok (accepted ++ [(i.toNat, relevance)]) := by
  unfold rankResult
  rw [bind_ok_eq hindex, bind_ok_eq hscore]

/-- What one result does behind accepted ones: it is accepted, or raises the error of an oversize score, or
is malformed. -/
inductive RankStep (count : ℕ) (accepted : List (ℕ × ℚ)) (item : PyValue) : Prop
  | valid (e : ℕ × ℚ) (hvalid : validResult count item = some e) (hover : oversizeResult count item = none)
      (hnew : e.1 ∉ accepted.map Prod.fst) (hrank : rankResult count accepted item = .ok (accepted ++ [e]))
  | oversize (i : ℕ) (hvalid : validResult count item = none) (hover : oversizeResult count item = some i)
      (hnew : i ∉ accepted.map Prod.fst) (hrank : rankResult count accepted item = .error .overflowError)
  | malformed (e : PyError) (hvalid : ∀ e, validResult count item = some e → e.1 ∈ accepted.map Prod.fst)
      (hover : ∀ i, oversizeResult count item = some i → i ∈ accepted.map Prod.fst) (he : Malformed e)
      (hrank : rankResult count accepted item = .error e)

theorem rankStep_of_no_index {count : ℕ} (accepted : List (ℕ × ℚ)) {item index : PyValue}
    (hindex : item.getItem "index" = .ok index) (hint : ∀ i, index ≠ .int i) :
    RankStep count accepted item := by
  have hvalid : validResult count item = none := by
    unfold validResult
    rw [hindex]
    split
    · rename_i i _ heq _
      exact absurd (Except.ok.inj heq) (hint i)
    · rfl
  have hover : oversizeResult count item = none := by
    unfold oversizeResult
    rw [hindex]
    split
    · rename_i i _ heq _
      exact absurd (Except.ok.inj heq) (hint i)
    · rfl
  cases hscore : item.getItem "relevance_score" with
  | error e =>
    refine .malformed e (by simp [hvalid]) (by simp [hover]) (getItem_error hscore) ?_
    unfold rankResult
    rw [bind_ok_eq hindex, hscore]
    rfl
  | ok score =>
    refine .malformed .valueError (by simp [hvalid]) (by simp [hover]) (by simp [Malformed]) ?_
    unfold rankResult
    rw [bind_ok_eq hindex, bind_ok_eq hscore]
    split
    · exact absurd rfl (hint _)
    · rfl

theorem rankStep (count : ℕ) (accepted : List (ℕ × ℚ)) (item : PyValue) : RankStep count accepted item := by
  cases hindex : item.getItem "index" with
  | error e =>
    refine .malformed e ?_ ?_ (getItem_error hindex) ?_
    · simp [validResult, hindex]
    · simp [oversizeResult, hindex]
    · unfold rankResult
      rw [hindex]
      rfl
  | ok index =>
    by_cases hint : ∃ i, index = .int i
    · obtain ⟨i, rfl⟩ := hint
      cases hscore : item.getItem "relevance_score" with
      | error e =>
        refine .malformed e ?_ ?_ (getItem_error hscore) ?_
        · simp [validResult, hindex, hscore]
        · simp [oversizeResult, hindex, hscore]
        · unfold rankResult
          rw [bind_ok_eq hindex, hscore]
          rfl
      | ok score =>
        have hrank := fun accepted => @rankResult_int count accepted item score i hindex hscore
        have hvalid : validResult count item = if 0 ≤ i ∧ i < count then
            ((relevanceOf score).toOption).map fun relevance => (i.toNat, relevance) else none := by
          unfold validResult
          rw [hindex, hscore]
        have hover : ∀ j, oversizeResult count item = some j →
            (0 ≤ i ∧ i < count) ∧ j = i.toNat ∧ relevanceOf score = .error .overflowError := by
          intro j hj
          unfold oversizeResult at hj
          rw [hindex, hscore] at hj
          split at hj
          · rename_i i' n hi hn
            cases hi
            cases hn
            split at hj
            · rename_i hcond
              cases hj
              exact ⟨⟨hcond.1, hcond.2.1⟩, rfl, relevanceOf_oversize hcond.2.2⟩
            · cases hj
          · cases hj
        by_cases hin : 0 ≤ i ∧ i < count
        · rw [if_pos hin] at hvalid
          by_cases hseen : i.toNat ∈ accepted.map Prod.fst
          · refine .malformed .valueError (fun e he => ?_) (fun j hj => ?_) (by simp [Malformed]) ?_
            · rw [hvalid] at he
              obtain ⟨q, -, rfl⟩ := Option.map_eq_some_iff.1 he
              exact hseen
            · rw [(hover j hj).2.1]
              exact hseen
            · rw [hrank, if_pos (.inr (.inr hseen))]
          · have hnot : ¬(i < 0 ∨ (count : ℤ) ≤ i ∨ i.toNat ∈ accepted.map Prod.fst) := by
              rintro (h | h | h)
              · omega
              · omega
              · exact hseen h
            cases hrelevance : relevanceOf score with
            | ok q =>
              rw [hrelevance] at hvalid
              refine .valid (i.toNat, q) hvalid ?_ hseen ?_
              · by_contra hne
                obtain ⟨j, hj⟩ := Option.ne_none_iff_exists'.1 hne
                have := (hover j hj).2.2
                rw [hrelevance] at this
                cases this
              · rw [hrank, if_neg hnot, hrelevance]
                rfl
            | error e =>
              rw [hrelevance] at hvalid
              have hthis : rankResult count accepted item = .error e := by
                rw [hrank, if_neg hnot, hrelevance]
                rfl
              rcases relevanceOf_error hrelevance with hmalformed | ⟨rfl, n, rfl, hn⟩
              · refine .malformed e (fun _ he => ?_) (fun j hj => ?_) hmalformed hthis
                · rw [hvalid] at he
                  cases he
                · have := (hover j hj).2.2
                  rw [hrelevance] at this
                  cases this
                  simp [Malformed] at hmalformed
              · refine .oversize i.toNat hvalid ?_ hseen hthis
                unfold oversizeResult
                rw [hindex, hscore]
                exact if_pos ⟨hin.1, hin.2, hn⟩
        · rw [if_neg hin] at hvalid
          refine .malformed .valueError (fun _ he => ?_) (fun j hj => absurd (hover j hj).1 hin)
            (by simp [Malformed]) ?_
          · rw [hvalid] at he
            cases he
          · rw [hrank, if_pos]
            rcases not_and_or.1 hin with h | h
            · exact .inl (not_le.1 h)
            · exact .inr (.inl (not_lt.1 h))
    · exact rankStep_of_no_index accepted hindex fun i hi => hint ⟨i, hi⟩

theorem nodup_snoc {l : List ℕ} {a : ℕ} (h : l.Nodup) (ha : a ∉ l) : (l ++ [a]).Nodup := by
  rw [← List.concat_eq_append]
  exact List.Nodup.concat ha h

/-- Accepted results are valid ones of distinct indices. -/
theorem rankResults_ok {count : ℕ} {results : List PyValue} {accepted ranking : List (ℕ × ℚ)}
    (hnodup : (accepted.map Prod.fst).Nodup)
    (h : results.foldlM (rankResult count) accepted = .ok ranking) :
    ranking.length = accepted.length + results.length ∧ (ranking.map Prod.fst).Nodup ∧
      ∀ e ∈ ranking, e ∈ accepted ∨ ∃ x ∈ results, validResult count x = some e := by
  induction results generalizing accepted with
  | nil =>
    cases h
    exact ⟨rfl, hnodup, fun e he => .inl he⟩
  | cons item results ih =>
    rw [List.foldlM_cons] at h
    cases rankStep count accepted item with
    | valid entry hvalid _ hnew hrank =>
      rw [bind_ok_eq hrank] at h
      have hnext : ((accepted ++ [entry]).map Prod.fst).Nodup := by
        rw [List.map_append]
        exact nodup_snoc hnodup hnew
      obtain ⟨hlength, hdistinct, hall⟩ := ih hnext h
      refine ⟨?_, hdistinct, fun e he => ?_⟩
      · rw [List.length_append, List.length_singleton] at hlength
        rw [hlength, List.length_cons]
        omega
      · rcases hall e he with hmem | ⟨x, hx, hentry⟩
        · rcases List.mem_append.1 hmem with hold | hthis
          · exact .inl hold
          · rw [List.mem_singleton.1 hthis]
            exact .inr ⟨item, List.mem_cons_self, hvalid⟩
        · exact .inr ⟨x, List.mem_cons_of_mem _ hx, hentry⟩
    | oversize _ _ _ _ hrank =>
      rw [bind_error_eq hrank] at h
      cases h
    | malformed _ _ _ _ hrank =>
      rw [bind_error_eq hrank] at h
      cases h

/-- The only error that is not reported as malformed is the one of an oversize score. -/
theorem rankResults_error {count : ℕ} {results : List PyValue} {accepted : List (ℕ × ℚ)} {e : PyError}
    (hnodup : (accepted.map Prod.fst).Nodup)
    (h : results.foldlM (rankResult count) accepted = .error e) :
    Malformed e ∨ e = .overflowError ∧ OversizeBehind count (accepted.map Prod.fst) results := by
  induction results generalizing accepted with
  | nil => cases h
  | cons item results ih =>
    rw [List.foldlM_cons] at h
    cases rankStep count accepted item with
    | valid entry hvalid _ hnew hrank =>
      rw [bind_ok_eq hrank] at h
      have hnext : ((accepted ++ [entry]).map Prod.fst).Nodup := by
        rw [List.map_append]
        exact nodup_snoc hnodup hnew
      refine (ih hnext h).imp_right fun ⟨he, before, large, after, valid, i, hsplit, hall, hover, hdistinct⟩ => ?_
      refine ⟨he, item :: before, large, after, entry :: valid, i, by rw [hsplit]; rfl, .cons hvalid hall,
        hover, ?_⟩
      simpa using hdistinct
    | oversize i _ hover hnew hrank =>
      rw [bind_error_eq hrank] at h
      cases h
      exact .inr ⟨rfl, [], item, results, [], i, rfl, .nil, hover, by simpa using nodup_snoc hnodup hnew⟩
    | malformed e' _ _ he hrank =>
      rw [bind_error_eq hrank] at h
      cases h
      exact .inl he

theorem rankResults_oversize {count : ℕ} {results : List PyValue} {accepted : List (ℕ × ℚ)}
    (h : OversizeBehind count (accepted.map Prod.fst) results) :
    results.foldlM (rankResult count) accepted = .error .overflowError := by
  obtain ⟨before, item, after, valid, i, rfl, hall, hover, hdistinct⟩ := h
  induction hall generalizing accepted with
  | nil =>
    rw [List.nil_append, List.foldlM_cons]
    have hnew : i ∉ accepted.map Prod.fst := by
      rw [List.map_nil, List.append_nil, List.nodup_append] at hdistinct
      exact fun hmem => hdistinct.2.2 i hmem i List.mem_cons_self rfl
    cases rankStep count accepted item with
    | valid _ _ hnone => rw [hnone] at hover; cases hover
    | oversize _ _ _ _ hrank => exact bind_error_eq hrank _
    | malformed _ _ hall => exact absurd (hall i hover) hnew
  | @cons x e before valid hx _ ih =>
    rw [List.cons_append, List.foldlM_cons]
    have hnew : e.1 ∉ accepted.map Prod.fst := by
      rw [List.append_assoc, List.nodup_append] at hdistinct
      exact fun hmem => hdistinct.2.2 _ hmem e.1 (by simp) rfl
    cases rankStep count accepted x with
    | valid e' hvalid _ _ hrank =>
      rw [hx] at hvalid
      cases hvalid
      rw [bind_ok_eq hrank]
      exact ih (by simpa using hdistinct)
    | oversize _ hnone => rw [hnone] at hx; cases hx
    | malformed _ hall => exact absurd (hall e hx) hnew

/-! ## The adapter -/

theorem asInvalidResponse_ok {α : Type} {t : Except PyError α} {a : α} :
    asInvalidResponse t = .ok a ↔ t = .ok a := by
  cases t with
  | ok b => rfl
  | error e =>
    constructor
    · intro h
      unfold asInvalidResponse at h
      simp only at h
      split at h
      · cases h
      · cases h
    · intro h
      cases h

theorem asInvalidResponse_error {α : Type} {t : Except PyError α} {e : PyError}
    (h : asInvalidResponse t = .error e) :
    handledByWrapper e = true ∨ t = .error e ∧ ¬Malformed e := by
  cases t with
  | ok a => cases h
  | error e' =>
    unfold asInvalidResponse at h
    simp only at h
    split at h
    · cases h
      exact .inl rfl
    · rename_i hnot
      cases h
      exact .inr ⟨rfl, hnot⟩

theorem check_error {r : RerankRequest} {e : PyError} (h : r.check = .error e) :
    handledByWrapper e = true := by
  unfold RerankRequest.check at h
  split at h
  · cases h
    rfl
  · split at h
    · cases h
      rfl
    · cases h

theorem receiveBody_error {response : RerankResponse} {e : PyError} (h : receiveBody response = .error e) :
    handledByWrapper e = true := by
  cases response with
  | failure =>
    cases h
    rfl
  | answered status body =>
    unfold receiveBody at h
    simp only at h
    split at h
    · cases h
      rfl
    · rcases asInvalidResponse_error h with hhandled | ⟨hbody, hnot⟩
      · exact hhandled
      · cases body with
        | none =>
          cases hbody
          rfl
        | some body => cases hbody

theorem resultsOf_error {topN : ℕ} {body : PyValue} {e : PyError} (h : resultsOf topN body = .error e) :
    Malformed e := by
  unfold resultsOf at h
  cases hresults : body.getItem "results" with
  | error e' =>
    rw [bind_error_eq hresults] at h
    cases h
    exact getItem_error hresults
  | ok results =>
    rw [bind_ok_eq hresults] at h
    split at h
    · split at h
      · cases h
      · cases h
        simp [Malformed]
    · cases h
      simp [Malformed]

/-- The results that the adapter comes to validate. -/
def AnsweredResults (r : RerankRequest) (response : RerankResponse) (results : List PyValue) : Prop :=
  r.check = .ok () ∧ ∃ body, receiveBody response = .ok body ∧ resultsOf r.topN body = .ok results

/-- The adapter raises an error that is not handled exactly on an oversize score. -/
theorem cohereRerank_unhandled {r : RerankRequest} {response : RerankResponse} :
    (∃ e, cohereRerank r response = .error e ∧ handledByWrapper e = false) ↔
      ∃ results, AnsweredResults r response results ∧ ReachesOversize r.documents.length results := by
  have hempty : (([] : List (ℕ × ℚ)).map Prod.fst).Nodup := List.nodup_nil
  unfold cohereRerank
  constructor
  · rintro ⟨e, h, hunhandled⟩
    cases hcheck : r.check with
    | error e' =>
      rw [bind_error_eq hcheck] at h
      cases h
      rw [check_error hcheck] at hunhandled
      cases hunhandled
    | ok u =>
      rw [bind_ok_eq hcheck] at h
      cases hbody : receiveBody response with
      | error e' =>
        rw [bind_error_eq hbody] at h
        cases h
        rw [receiveBody_error hbody] at hunhandled
        cases hunhandled
      | ok body =>
        rw [bind_ok_eq hbody] at h
        rcases asInvalidResponse_error h with hhandled | ⟨h, hnot⟩
        · rw [hhandled] at hunhandled
          cases hunhandled
        · cases hresults : resultsOf r.topN body with
          | error e' =>
            rw [bind_error_eq hresults] at h
            cases h
            exact absurd (resultsOf_error hresults) hnot
          | ok results =>
            rw [bind_ok_eq hresults] at h
            refine ⟨results, ⟨hcheck, body, hbody, hresults⟩, ?_⟩
            cases hfold : results.foldlM (rankResult r.documents.length) [] with
            | ok accepted =>
              rw [bind_ok_eq hfold] at h
              cases h
            | error e' =>
              rw [bind_error_eq hfold] at h
              cases h
              exact ((rankResults_error hempty hfold).resolve_left hnot).2
  · rintro ⟨results, ⟨hcheck, body, hbody, hresults⟩, hover⟩
    have hraise : results.foldlM (rankResult r.documents.length) [] = Except.error .overflowError :=
      rankResults_oversize hover
    refine ⟨.overflowError, ?_, rfl⟩
    rw [bind_ok_eq hcheck, bind_ok_eq hbody, bind_ok_eq hresults, bind_error_eq hraise]
    rfl

/-- An accepted ranking: valid results of distinct candidates, as many as asked for. -/
theorem cohereRerank_ok {r : RerankRequest} {response : RerankResponse} {ranking : List (ℕ × ℚ)}
    (h : cohereRerank r response = .ok ranking) :
    ranking.length = r.topN ∧ (ranking.map Prod.fst).Nodup ∧ ∀ e ∈ ranking, e.1 < r.documents.length := by
  obtain ⟨_, hcheck, h⟩ := ok_of_bind h
  obtain ⟨body, hbody, h⟩ := ok_of_bind h
  obtain ⟨results, hresults, h⟩ := ok_of_bind (asInvalidResponse_ok.1 h)
  obtain ⟨accepted, haccepted, h⟩ := ok_of_bind h
  cases h
  have hempty : (([] : List (ℕ × ℚ)).map Prod.fst).Nodup := List.nodup_nil
  obtain ⟨htotal, hdistinct, hall⟩ := rankResults_ok hempty haccepted
  have hperm := ranked_permutes (fun item : ℕ × ℚ => -item.2) accepted
  have hlength : results.length = r.topN := by
    obtain ⟨value, _, hlist⟩ := ok_of_bind hresults
    split at hlist
    · split at hlist
      · cases hlist
        assumption
      · cases hlist
    · cases hlist
  refine ⟨by rw [hperm.length_eq, htotal, hlength, List.length_nil, Nat.zero_add],
    (hperm.map _).nodup_iff.2 hdistinct, fun e he => ?_⟩
  obtain ⟨x, -, hx⟩ := (hall e (hperm.mem_iff.1 he)).resolve_left List.not_mem_nil
  unfold validResult at hx
  split at hx
  · split at hx
    · obtain ⟨q, _, rfl⟩ := Option.map_eq_some_iff.1 hx
      simp only
      omega
    · cases hx
  · cases hx

/-! ## The wrapper -/

/-- The same candidate, whatever its scores. -/
def SameEvidence (h c : RetrievedHit τ) : Prop := h.text = c.text ∧ h.evidence = c.evidence

/-- The hits are at distinct places of the candidates. -/
def DistinctMembers (hits answer : List (RetrievedHit τ)) : Prop :=
  ∃ places : List ℕ, places.Nodup ∧
    List.Forall₂ (fun place h => ∃ c, hits[place]? = some c ∧ SameEvidence h c) places answer

theorem distinctMembers_take (hits : List (RetrievedHit τ)) (limit : ℕ) :
    DistinctMembers hits (hits.take limit) := by
  refine ⟨List.range (hits.take limit).length, List.nodup_range, ?_⟩
  rw [List.forall₂_iff_get]
  refine ⟨List.length_range, fun k hk hk' => ⟨(hits.take limit).get ⟨k, hk'⟩, ?_, rfl, rfl⟩⟩
  have hlt : k < hits.length := by
    rw [List.length_take] at hk'
    omega
  simp [hlt]

/-- Reranked candidates are the ranked ones with new scores. -/
theorem distinctMembers_reranked {hits candidates : List (RetrievedHit τ)} {n : ℕ}
    (hcandidates : candidates = hits.take n) {ranking : List (ℕ × ℚ)}
    (hin : ∀ e ∈ ranking, e.1 < candidates.length) :
    (ranking.filterMap (rerankedHit candidates)).length = ranking.length ∧
      List.Forall₂ (fun place h => ∃ c, hits[place]? = some c ∧ SameEvidence h c) (ranking.map Prod.fst)
        (ranking.filterMap (rerankedHit candidates)) := by
  induction ranking with
  | nil => exact ⟨rfl, .nil⟩
  | cons e ranking ih =>
    obtain ⟨hlength, hall⟩ := ih fun e he => hin e (List.mem_cons_of_mem _ he)
    have hlt := hin e List.mem_cons_self
    have hget : candidates[e.1]? = some candidates[e.1] := List.getElem?_eq_getElem hlt
    have hhit : rerankedHit candidates e = some { candidates[e.1] with
        hybridScore := some candidates[e.1].score, rerankScore := some e.2, score := e.2 } := by
      rw [rerankedHit, hget]
      rfl
    rw [List.filterMap_cons, hhit]
    refine ⟨by simp [hlength], .cons ⟨candidates[e.1], ?_, rfl, rfl⟩ hall⟩
    subst hcandidates
    rw [List.getElem?_take, if_pos] at hget
    · exact hget
    · rw [List.length_take] at hlt
      omega

theorem settings_error {c : RerankConfiguration} {e : PyError} (h : c.settings = .error e) :
    handledByWrapper e = true := by
  unfold RerankConfiguration.settings at h
  cases hid : c.connectionId with
  | none => rw [hid] at h; cases h; rfl
  | some id =>
    cases hmodel : c.model with
    | none => rw [hid, hmodel] at h; cases h; rfl
    | some model =>
      cases hlimit : c.candidateLimit with
      | none => rw [hid, hmodel, hlimit] at h; cases h; rfl
      | some limit =>
        rw [hid, hmodel, hlimit] at h
        simp only [orError, bind_ok_eq rfl] at h
        split at h
        · cases h
        · cases h
          rfl

section
variable (i : RerankInputs) (hits : List (RetrievedHit τ)) (limit : ℕ) (response : RerankResponse)

/-- The connection cannot be resolved, with an error that is not handled. -/
def UnresolvedConnection (c : RerankConfiguration) : Prop :=
  ∃ id model candidateLimit e, c.settings = .ok (id, model, candidateLimit) ∧ i.connection id = .error e ∧
    handledByWrapper e = false

/-- The validation of the response comes to an integer score beyond the floats. -/
def OversizeScore (c : RerankConfiguration) : Prop :=
  ∃ request results, rerankRequest i c hits limit = .ok request ∧ AnsweredResults request response results ∧
    ReachesOversize request.documents.length results

variable {i hits limit response}

theorem rerankRequest_unhandled {c : RerankConfiguration} :
    (∃ e, rerankRequest i c hits limit = .error e ∧ handledByWrapper e = false) ↔
      UnresolvedConnection i c := by
  unfold rerankRequest UnresolvedConnection
  constructor
  · rintro ⟨e, h, hunhandled⟩
    cases hsettings : c.settings with
    | error e' =>
      rw [bind_error_eq hsettings] at h
      cases h
      rw [settings_error hsettings] at hunhandled
      cases hunhandled
    | ok settings =>
      obtain ⟨id, model, candidateLimit⟩ := settings
      rw [bind_ok_eq hsettings] at h
      cases hconnection : i.connection id with
      | error e' =>
        simp only [bind_error_eq hconnection] at h
        cases h
        exact ⟨id, model, candidateLimit, _, rfl, hconnection, hunhandled⟩
      | ok connection =>
        simp only [bind_ok_eq hconnection] at h
        split at h
        · split at h
          · cases h
            cases hunhandled
          · cases h
        · cases h
          cases hunhandled
  · rintro ⟨id, model, candidateLimit, e, hsettings, hconnection, hunhandled⟩
    refine ⟨e, ?_, hunhandled⟩
    rw [bind_ok_eq hsettings]
    simp only [bind_error_eq hconnection]

/-- The request of a wrapper that makes one. -/
theorem rerankRequest_ok {c : RerankConfiguration} {request : RerankRequest}
    (h : rerankRequest i c hits limit = .ok request) :
    ∃ n, sentCandidates c hits = hits.take n ∧
      request.documents = (sentCandidates c hits).map (fun hit => hit.text) ∧
      request.topN = min limit (sentCandidates c hits).length := by
  unfold rerankRequest at h
  obtain ⟨⟨id, model, candidateLimit⟩, hsettings, h⟩ := ok_of_bind h
  obtain ⟨connection, -, h⟩ := ok_of_bind h
  refine ⟨candidateLimit, by rw [sentCandidates, hsettings], ?_⟩
  split at h
  · obtain ⟨-, h⟩ := ok_of_guard h
    cases h
    exact ⟨rfl, rfl⟩
  · cases h

theorem providerRanking_unhandled {c : RerankConfiguration} :
    (∃ e, providerRanking i c hits limit response = .error e ∧ handledByWrapper e = false) ↔
      UnresolvedConnection i c ∨ OversizeScore i hits limit response c := by
  unfold providerRanking
  constructor
  · rintro ⟨e, h, hunhandled⟩
    cases hrequest : rerankRequest i c hits limit with
    | error e' =>
      rw [bind_error_eq hrequest] at h
      cases h
      exact .inl (rerankRequest_unhandled.1 ⟨_, hrequest, hunhandled⟩)
    | ok request =>
      rw [bind_ok_eq hrequest] at h
      obtain ⟨results, hanswered, hover⟩ := cohereRerank_unhandled.1 ⟨e, h, hunhandled⟩
      exact .inr ⟨request, results, hrequest, hanswered, hover⟩
  · rintro (hconnection | ⟨request, results, hrequest, hanswered, hover⟩)
    · obtain ⟨e, h, hunhandled⟩ := rerankRequest_unhandled.2 hconnection
      exact ⟨e, bind_error_eq h _, hunhandled⟩
    · obtain ⟨e, h, hunhandled⟩ := cohereRerank_unhandled.2 ⟨results, hanswered, hover⟩
      exact ⟨e, (bind_ok_eq hrequest _).trans h, hunhandled⟩

/-- What an answer of the retrieval says about the candidates. -/
structure KeepsControl (i : RerankInputs) (hits : List (RetrievedHit τ)) (limit : ℕ)
    (response : RerankResponse) (answer : List (RetrievedHit τ) × RerankMetadata) : Prop where
  members : DistinctMembers hits answer.1
  bounded : answer.1.length ≤ limit
  fallback : answer.2.status ≠ "APPLIED" → answer.1 = hits.take limit
  rejected : ∀ c ∈ i.configuration, ∀ e, providerRanking i c hits limit response = .error e →
    answer.2.status ≠ "APPLIED"

theorem rerankForOwner_keepsControl {answer : List (RetrievedHit τ) × RerankMetadata}
    (h : rerankForOwner i hits limit response = .ok answer) : KeepsControl i hits limit response answer := by
  have hbounded : (hits.take limit).length ≤ limit := by
    rw [List.length_take]
    omega
  unfold rerankForOwner at h
  split at h
  · rename_i hnone
    cases h
    exact ⟨distinctMembers_take hits limit, hbounded, fun _ => rfl, fun _ _ _ _ => by
      show "DISABLED" ≠ "APPLIED"
      decide⟩
  · rename_i c hc
    split at h
    · rename_i hempty
      cases h
      have hnil : hits = [] := List.isEmpty_iff.1 hempty
      subst hnil
      exact ⟨⟨[], List.nodup_nil, .nil⟩, Nat.zero_le _, fun _ => List.take_nil.symm, fun _ _ _ _ => by
        show "SKIPPED" ≠ "APPLIED"
        decide⟩
    · simp only at h
      split at h
      · rename_i ranking hranking
        cases h
        obtain ⟨request, hrequest, hcohere⟩ := ok_of_bind hranking
        obtain ⟨n, hsent, hdocuments, htopN⟩ := rerankRequest_ok hrequest
        obtain ⟨hlength, hnodup, hin⟩ := cohereRerank_ok hcohere
        rw [hdocuments, List.length_map] at hin
        obtain ⟨hcount, hall⟩ := distinctMembers_reranked hsent hin
        refine ⟨⟨_, hnodup, hall⟩, ?_, fun hne => absurd rfl hne, fun c' hc' e he => ?_⟩
        · show (ranking.filterMap _).length ≤ limit
          rw [hcount, hlength, htopN]
          omega
        · rw [hc, Option.mem_some_iff] at hc'
          subst hc'
          rw [hranking] at he
          cases he
      · rename_i e he
        split at h
        · cases h
          exact ⟨distinctMembers_take hits limit, hbounded, fun _ => rfl, fun _ _ _ _ => by
            show "DEGRADED" ≠ "APPLIED"
            decide⟩
        · cases h

/-- The retrieval raises exactly what neither the adapter nor the wrapper handles. -/
theorem rerankForOwner_error : (∃ e, rerankForOwner i hits limit response = .error e) ↔
    hits ≠ [] ∧ ∃ c ∈ i.configuration, UnresolvedConnection i c ∨ OversizeScore i hits limit response c := by
  unfold rerankForOwner
  cases hc : i.configuration with
  | none => simp
  | some c =>
    simp only [Option.mem_some_iff, exists_eq_left', ← providerRanking_unhandled]
    cases hits with
    | nil => simp
    | cons hit hits =>
      simp only [List.isEmpty_cons, Bool.false_eq_true, if_false, ne_eq, reduceCtorEq, not_false_eq_true,
        true_and]
      cases hranking : providerRanking i c (hit :: hits) limit response with
      | ok ranking => simp
      | error e =>
        cases hhandled : handledByWrapper e <;> simp [hhandled]

end

/-- **Reranking keeps control** of the retrieval exactly when no integer score beyond the floats is come to
in the validation, and resolving the connection raises nothing unforeseen: it then returns distinct
candidates, at most `limit` of them, and the first ones in retrieval order where the provider's answer was
not applied. -/
theorem rerank_controlled_iff (i : RerankInputs) (hits : List (RetrievedHit τ)) (limit : ℕ)
    (response : RerankResponse) :
    (∃ answer, rerankForOwner i hits limit response = .ok answer ∧ KeepsControl i hits limit response answer) ↔
      ¬(hits ≠ [] ∧ ∃ c ∈ i.configuration,
        UnresolvedConnection i c ∨ OversizeScore i hits limit response c) := by
  rw [← rerankForOwner_error]
  constructor
  · rintro ⟨answer, hok, -⟩ ⟨e, herror⟩
    rw [hok] at herror
    cases herror
  · intro hnot
    cases hanswer : rerankForOwner i hits limit response with
    | ok answer => exact ⟨answer, rfl, rerankForOwner_keepsControl hanswer⟩
    | error e => exact absurd ⟨e, hanswer⟩ hnot

/-! A response whose only score is an integer beyond the floats. -/

def rerankInputs : RerankInputs where
  configuration := some ⟨some (Uuid.ofNat 1), some "rerank-v3.5", some 50, 1⟩
  connection := fun _ => .ok ⟨"COHERE", some "secret"⟩
  query := "gold"

def oversizeResponse : RerankResponse :=
  .answered 200 (some (.dict [("results", .list [.dict [("index", .int 0),
    ("relevance_score", .int (2 ^ 1024))]])]))

def goldHit : RetrievedHit Unit := { text := "gold", score := 1, evidence := () }

theorem oversize_raises :
    errorOf (rerankForOwner rerankInputs [goldHit] 1 oversizeResponse) = some .overflowError := by
  decide +kernel

/-- An integer score beyond the floats raises out of the retrieval. -/
theorem oversize_score_raises : ¬∀ (i : RerankInputs) (hits : List (RetrievedHit Unit)) (limit : ℕ)
    (response : RerankResponse), (∀ c ∈ i.configuration, ¬UnresolvedConnection i c) →
    ∃ answer, rerankForOwner i hits limit response = .ok answer ∧
      KeepsControl i hits limit response answer := by
  intro h
  have hresolved : ∀ c ∈ rerankInputs.configuration, ¬UnresolvedConnection rerankInputs c := by
    rintro c - ⟨id, model, candidateLimit, e, -, hconnection, -⟩
    cases hconnection
  obtain ⟨answer, hok, -⟩ := h rerankInputs [goldHit] 1 oversizeResponse hresolved
  exact not_returns_of_errorOf oversize_raises ⟨answer, hok⟩

end Matrades
