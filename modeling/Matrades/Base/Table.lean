import Mathlib.Data.List.Sort

/-!
# Tables of versioned rows

A row has an id, an owner, a state and a version beside its data. `get?` reads a row by id and
owner, `listed` the rows of an owner by decreasing time of their last update, `revise` replaces the
data and the state of the rows with an id and counts the version up.
-/

namespace Matrades.Base

structure Row (κ σ α : Type) where
  id : κ
  ownerId : κ
  state : σ
  version : Nat
  data : α
  updatedAt : Nat

namespace Table

variable {κ σ α : Type} [DecidableEq κ]

def get? (rows : List (Row κ σ α)) (id ownerId : κ) : Option (Row κ σ α) :=
  rows.find? fun r => r.id = id ∧ r.ownerId = ownerId

/-- The rows of an owner whose state is kept, the last updated first. -/
def listed (rows : List (Row κ σ α)) (ownerId : κ) (keep : σ → Bool) : List (Row κ σ α) :=
  (rows.filter fun r => r.ownerId = ownerId ∧ keep r.state = true).insertionSort
    fun a b => b.updatedAt ≤ a.updatedAt

/-- One row with new data and a new state. -/
def revised (r : Row κ σ α) (data : α) (state : σ) (now : Nat) : Row κ σ α :=
  { r with data, state, version := r.version + 1, updatedAt := now }

/-- The rows with the id get the data and the state. -/
def revise (rows : List (Row κ σ α)) (id : κ) (data : α) (state : σ) (now : Nat) :
    List (Row κ σ α) :=
  rows.map fun r => if r.id = id then revised r data state now else r

theorem get?_spec {rows : List (Row κ σ α)} {id ownerId : κ} {r : Row κ σ α}
    (h : get? rows id ownerId = some r) : r ∈ rows ∧ r.id = id ∧ r.ownerId = ownerId := by
  refine ⟨List.mem_of_find?_eq_some h, ?_⟩
  simpa using List.find?_some h

/-- The only element with the property is found. -/
theorem find?_only {β : Type} {l : List β} {p : β → Bool} {b : β} (hb : b ∈ l) (hp : p b = true)
    (honly : ∀ c ∈ l, p c = true → c = b) : l.find? p = some b := by
  cases h : l.find? p with
  | none => exact absurd hp (List.find?_eq_none.1 h b hb)
  | some c => rw [honly c (List.mem_of_find?_eq_some h) (List.find?_some h)]

theorem mem_listed {rows : List (Row κ σ α)} {ownerId : κ} {keep : σ → Bool} {r : Row κ σ α} :
    r ∈ listed rows ownerId keep ↔ r ∈ rows ∧ r.ownerId = ownerId ∧ keep r.state = true := by
  simp [listed]

/-- No listed row is newer than the first one with a property. -/
theorem listed_latest {rows : List (Row κ σ α)} {ownerId : κ} {keep : σ → Bool}
    {p : Row κ σ α → Bool} {r r' : Row κ σ α} (h : (listed rows ownerId keep).find? p = some r)
    (hr' : r' ∈ listed rows ownerId keep) (hp : p r' = true) : r'.updatedAt ≤ r.updatedAt := by
  obtain ⟨_, before, later, hlist, hbefore⟩ := List.find?_eq_some_iff_append.1 h
  have hsorted : (listed rows ownerId keep).Pairwise fun a b => b.updatedAt ≤ a.updatedAt :=
    List.pairwise_insertionSort _ _
  rw [hlist] at hr' hsorted
  rcases List.mem_append.1 hr' with hr' | hr'
  · have hnot := hbefore r' hr'
    simp [hp] at hnot
  · rcases List.mem_cons.1 hr' with rfl | hr'
    · exact Nat.le_refl _
    · exact (List.pairwise_cons.1 (List.pairwise_append.1 hsorted).2.1).1 r' hr'

theorem ids_revise (rows : List (Row κ σ α)) (id : κ) (data : α) (state : σ) (now : Nat) :
    (revise rows id data state now).map (·.id) = rows.map (·.id) := by
  rw [revise, List.map_map]
  refine List.map_congr_left fun r _ => ?_
  by_cases hid : r.id = id <;> simp [hid, revised]

theorem mem_revise {rows : List (Row κ σ α)} {id : κ} {data : α} {state : σ} {now : Nat}
    {r : Row κ σ α} (h : r ∈ revise rows id data state now) :
    (r ∈ rows ∧ r.id ≠ id) ∨ (r.id = id ∧ r.state = state ∧ r.data = data) := by
  obtain ⟨q, hq, rfl⟩ := List.mem_map.1 h
  by_cases hid : q.id = id
  · rw [if_pos hid]
    exact .inr ⟨hid, rfl, rfl⟩
  · rw [if_neg hid]
    exact .inl ⟨hq, hid⟩

omit [DecidableEq κ] in
/-- Where the ids differ, there is one row with an id. -/
theorem row_unique {rows : List (Row κ σ α)} (h : (rows.map (·.id)).Nodup) {r r' : Row κ σ α}
    (hr : r ∈ rows) (hr' : r' ∈ rows) (hid : r.id = r'.id) : r = r' :=
  List.inj_on_of_nodup_map h hr hr' hid

/-- Where the ids differ, one row is revised. -/
theorem mem_revise_row {rows : List (Row κ σ α)} (h : (rows.map (·.id)).Nodup) {row r : Row κ σ α}
    (hrow : row ∈ rows) {data : α} {state : σ} {now : Nat}
    (hr : r ∈ revise rows row.id data state now) :
    (r ∈ rows ∧ r.id ≠ row.id) ∨ r = revised row data state now := by
  obtain ⟨q, hq, rfl⟩ := List.mem_map.1 hr
  by_cases hid : q.id = row.id
  · obtain rfl := row_unique h hq hrow hid
    exact .inr (if_pos rfl)
  · rw [if_neg hid]
    exact .inl ⟨hq, hid⟩

/-- The rows with the revised id. -/
theorem filter_revise (rows : List (Row κ σ α)) (id : κ) (data : α)
    (state : σ) (now : Nat) : (revise rows id data state now).filter (·.id = id) =
      (rows.filter (·.id = id)).map (revised · data state now) := by
  induction rows with
  | nil => rfl
  | cons r rest ih =>
    by_cases hid : r.id = id
    · simp_all [revise, revised]
    · simp_all [revise]

/-- The row that is found is found revised. -/
theorem get?_revise {rows : List (Row κ σ α)} {id ownerId : κ} {row : Row κ σ α}
    (h : get? rows id ownerId = some row) (data : α) (state : σ) (now : Nat) :
    get? (revise rows row.id data state now) id ownerId = some (revised row data state now) := by
  have hsame : ((fun r : Row κ σ α => decide (r.id = id ∧ r.ownerId = ownerId)) ∘ fun r =>
      if r.id = row.id then revised r data state now else r) =
      fun r => decide (r.id = id ∧ r.ownerId = ownerId) := by
    funext r
    dsimp only [Function.comp]
    split <;> rfl
  unfold get? at h ⊢
  rw [revise, List.find?_map, hsame, h, Option.map_some, if_pos rfl]

/-- A row that is found is found after a revision. -/
theorem get?_isSome_revise {rows : List (Row κ σ α)} {id ownerId id' : κ} {data : α} {state : σ}
    {now : Nat} (h : (get? rows id ownerId).isSome = true) :
    (get? (revise rows id' data state now) id ownerId).isSome = true := by
  obtain ⟨r, hr⟩ := Option.isSome_iff_exists.1 h
  obtain ⟨hmem, hid, howner⟩ := get?_spec hr
  unfold get?
  rw [List.find?_isSome]
  refine ⟨_, List.mem_map.2 ⟨r, hmem, rfl⟩, ?_⟩
  split <;> simp [revised, hid, howner]

/-- The revised row is in the table. -/
theorem revised_mem {rows : List (Row κ σ α)} {row : Row κ σ α} (hrow : row ∈ rows) (data : α)
    (state : σ) (now : Nat) : revised row data state now ∈ revise rows row.id data state now :=
  List.mem_map.2 ⟨row, hrow, if_pos rfl⟩

/-- Every other row is left as it was. -/
theorem mem_revise_of_ne {rows : List (Row κ σ α)} {id : κ} {data : α} {state : σ} {now : Nat}
    {r : Row κ σ α} (h : r ∈ rows) (hid : r.id ≠ id) : r ∈ revise rows id data state now :=
  List.mem_map.2 ⟨r, h, if_neg hid⟩

end Table

end Matrades.Base
