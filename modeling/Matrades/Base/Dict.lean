import Mathlib.Algebra.BigOperators.Group.List.Basic
import Mathlib.Data.List.Nodup

/-!
# Insertion-ordered dictionaries

`Dict κ α`: the entries in insertion order, each key once. Setting a key that is present replaces
its value in place, a new key goes to the end; `update d e` sets the entries of `e` one after the
other, so on a common key `e` wins (`get?_update`). `addTo` adds to the total of a
key; the totals after a sequence of additions are sums (`total_foldl_addTo`), and so are the sums over
several keys (`sumOver_foldl_addTo`).
-/

namespace Matrades.Base

/-- A dictionary: its entries in insertion order, each key once. -/
structure Dict (κ α : Type) where
  entries : List (κ × α)
  nodup : (entries.map Prod.fst).Nodup
  deriving DecidableEq

namespace Dict

variable {κ α : Type} [DecidableEq κ]

def empty : Dict κ α := ⟨[], List.nodup_nil⟩

def keys (d : Dict κ α) : List κ := d.entries.map Prod.fst

def get? (d : Dict κ α) (k : κ) : Option α := d.entries.lookup k

/-- Replace the value of `k` in place, or append it. -/
def setEntries (k : κ) (v : α) : List (κ × α) → List (κ × α)
  | [] => [(k, v)]
  | (k', v') :: es => if k' = k then (k, v) :: es else (k', v') :: setEntries k v es

theorem mem_keys_setEntries {k x : κ} {v : α} {es : List (κ × α)} :
    x ∈ (setEntries k v es).map Prod.fst ↔ x = k ∨ x ∈ es.map Prod.fst := by
  induction es with
  | nil => simp [setEntries]
  | cons e es ih =>
    obtain ⟨k', v'⟩ := e
    unfold setEntries
    split
    · rename_i h
      subst h
      simp
    · rw [List.map_cons, List.mem_cons, ih]
      simp only [List.map_cons, List.mem_cons]
      tauto

theorem nodup_setEntries {k : κ} {v : α} {es : List (κ × α)} (h : (es.map Prod.fst).Nodup) :
    ((setEntries k v es).map Prod.fst).Nodup := by
  induction es with
  | nil => simp [setEntries]
  | cons e es ih =>
    obtain ⟨k', v'⟩ := e
    rw [List.map_cons, List.nodup_cons] at h
    unfold setEntries
    split
    · rename_i hk
      subst hk
      simpa using h
    · rename_i hk
      rw [List.map_cons, List.nodup_cons]
      refine ⟨fun hm => ?_, ih h.2⟩
      rcases mem_keys_setEntries.1 hm with he | he
      · exact hk he
      · exact h.1 he

def set (d : Dict κ α) (k : κ) (v : α) : Dict κ α :=
  ⟨setEntries k v d.entries, nodup_setEntries d.nodup⟩

def update (d e : Dict κ α) : Dict κ α := e.entries.foldl (fun d p => d.set p.1 p.2) d

theorem lookup_cons_ite (k x : κ) (v : α) (es : List (κ × α)) :
    ((k, v) :: es).lookup x = if x = k then some v else es.lookup x := by
  by_cases h : x = k
  · subst h
    simp
  · simp only [List.lookup_cons, show (x == k) = false by simpa using h, if_neg h]

theorem lookup_setEntries (k x : κ) (v : α) (es : List (κ × α)) :
    (setEntries k v es).lookup x = if x = k then some v else es.lookup x := by
  induction es with
  | nil => rw [setEntries, lookup_cons_ite]
  | cons e es ih =>
    obtain ⟨k', v'⟩ := e
    unfold setEntries
    by_cases hk : k' = k
    · subst hk
      by_cases h : x = k' <;> simp [lookup_cons_ite, h]
    · rw [if_neg hk]
      by_cases h : x = k'
      · subst h
        simp [hk]
      · simp [lookup_cons_ite, h, ih]

@[simp] theorem get?_empty (k : κ) : (empty : Dict κ α).get? k = none := rfl

theorem get?_set (d : Dict κ α) (k x : κ) (v : α) :
    (d.set k v).get? x = if x = k then some v else d.get? x :=
  lookup_setEntries k x v d.entries

@[simp] theorem get?_set_self (d : Dict κ α) (k : κ) (v : α) : (d.set k v).get? k = some v := by
  rw [get?_set, if_pos rfl]

theorem get?_set_ne (d : Dict κ α) {k x : κ} (v : α) (h : x ≠ k) :
    (d.set k v).get? x = d.get? x := by rw [get?_set, if_neg h]

theorem lookup_eq_none {es : List (κ × α)} {x : κ} (h : x ∉ es.map Prod.fst) :
    es.lookup x = none := by
  induction es with
  | nil => rfl
  | cons e es ih =>
    obtain ⟨k, v⟩ := e
    rw [List.map_cons, List.mem_cons, not_or] at h
    rw [lookup_cons_ite, if_neg h.1, ih h.2]

theorem get?_foldl_set (es : List (κ × α)) (h : (es.map Prod.fst).Nodup) (d : Dict κ α) (x : κ) :
    (es.foldl (fun d p => d.set p.1 p.2) d).get? x = (es.lookup x).or (d.get? x) := by
  induction es generalizing d with
  | nil => rfl
  | cons e es ih =>
    obtain ⟨k, v⟩ := e
    rw [List.map_cons, List.nodup_cons] at h
    rw [List.foldl_cons, ih h.2]
    by_cases hx : x = k
    · subst hx
      simp [lookup_eq_none h.1]
    · simp [lookup_cons_ite, hx, get?_set_ne]

/-- On a common key the second dictionary wins. -/
theorem get?_update (d e : Dict κ α) (x : κ) :
    (d.update e).get? x = (e.get? x).or (d.get? x) :=
  get?_foldl_set e.entries e.nodup d x

theorem get?_isSome {d : Dict κ α} {k : κ} : (d.get? k).isSome ↔ k ∈ d.keys := by
  unfold get? keys
  induction d.entries with
  | nil => simp
  | cons e es ih =>
    obtain ⟨k', v'⟩ := e
    by_cases h : k = k'
    · simp [h]
    · simp [lookup_cons_ite, h, ih]

/-- A dictionary from a list of entries, later ones winning. -/
def ofList (es : List (κ × α)) : Dict κ α := es.foldl (fun d p => d.set p.1 p.2) empty

theorem setEntries_new {k : κ} {v : α} {es : List (κ × α)} (h : k ∉ es.map Prod.fst) :
    setEntries k v es = es ++ [(k, v)] := by
  induction es with
  | nil => rfl
  | cons e es ih =>
    obtain ⟨k', v'⟩ := e
    rw [List.map_cons, List.mem_cons, not_or] at h
    rw [setEntries, if_neg (Ne.symm h.1), ih h.2, List.cons_append]

theorem map_setEntries {β : Type} (f : α → β) (k : κ) (v : α) (es : List (κ × α)) :
    (setEntries k v es).map (Prod.map id f) = setEntries k (f v) (es.map (Prod.map id f)) := by
  induction es with
  | nil => rfl
  | cons e es ih =>
    obtain ⟨k', v'⟩ := e
    simp only [setEntries, List.map_cons, Prod.map_apply, id]
    split
    · rfl
    · rw [List.map_cons, ih]
      rfl

/-- What stands before a new key is kept. -/
theorem eq_of_set_eq {d e : Dict κ α} {k : κ} {v w : α} (hd : k ∉ d.keys) (he : k ∉ e.keys)
    (h : d.set k v = e.set k w) : d = e := by
  obtain ⟨ds, hds⟩ := d
  obtain ⟨es, hes⟩ := e
  have hentries : setEntries k v ds = setEntries k w es := congrArg Dict.entries h
  rw [setEntries_new hd, setEntries_new he] at hentries
  cases List.append_inj_left' hentries rfl
  rfl

/-- Entries under new keys are appended. -/
theorem entries_foldl_set {es : List (κ × α)} {d : Dict κ α}
    (h : ((d.entries ++ es).map Prod.fst).Nodup) :
    (es.foldl (fun d p => d.set p.1 p.2) d).entries = d.entries ++ es := by
  induction es generalizing d with
  | nil => simp
  | cons e es ih =>
    have hnew : e.1 ∉ d.entries.map Prod.fst := by
      rw [List.map_append, List.map_cons] at h
      intro hmem
      exact (List.nodup_append.1 h).2.2 _ hmem _ List.mem_cons_self rfl
    have hset : (d.set e.1 e.2).entries = d.entries ++ [e] := setEntries_new hnew
    have hrest : (((d.set e.1 e.2).entries ++ es).map Prod.fst).Nodup := by
      rw [hset, List.append_assoc, List.singleton_append]
      exact h
    rw [List.foldl_cons, ih hrest, hset, List.append_assoc, List.singleton_append]

/-- A list with distinct keys is the entries of its dictionary. -/
theorem entries_ofList {es : List (κ × α)} (h : (es.map Prod.fst).Nodup) :
    (ofList es).entries = es :=
  entries_foldl_set (d := empty) (by simpa [empty] using h)

/-- An update under new keys appends its entries. -/
theorem entries_update {d e : Dict κ α} (h : ∀ k ∈ e.keys, k ∉ d.keys) :
    (d.update e).entries = d.entries ++ e.entries := by
  refine entries_foldl_set ?_
  rw [List.map_append]
  exact d.nodup.append e.nodup fun k hk hk' => h k hk' hk

/-- A dictionary that gives all its keys the same value. -/
theorem get?_ofList_const {ks : List κ} {k : κ} (v : α) (h : k ∈ ks) :
    (ofList (ks.map fun x => (x, v))).get? k = some v := by
  have hfrom : ∀ (ks : List κ) (d : Dict κ α), k ∈ ks ∨ d.get? k = some v →
      ((ks.map fun x => (x, v)).foldl (fun d p => d.set p.1 p.2) d).get? k = some v := by
    intro ks
    induction ks with
    | nil => simp
    | cons x ks ih =>
      intro d hd
      rw [List.map_cons, List.foldl_cons]
      refine ih _ ?_
      by_cases hx : k = x
      · exact .inr (by rw [hx, get?_set_self])
      · rw [List.mem_cons, or_iff_right hx] at hd
        rw [get?_set_ne _ _ hx]
        exact hd
  exact hfrom ks empty (.inl h)

/-- With distinct keys every entry of the list is looked up. -/
theorem lookup_of_mem {es : List (κ × α)} (h : (es.map Prod.fst).Nodup) {k : κ} {v : α}
    (hmem : (k, v) ∈ es) : es.lookup k = some v := by
  induction es with
  | nil => cases hmem
  | cons e es ih =>
    obtain ⟨k', v'⟩ := e
    rw [List.map_cons, List.nodup_cons] at h
    rcases List.mem_cons.1 hmem with heq | hmem
    · cases heq
      rw [lookup_cons_ite, if_pos rfl]
    · have hne : k ≠ k' := fun hk => h.1 (List.mem_map.2 ⟨(k, v), hmem, hk⟩)
      rw [lookup_cons_ite, if_neg hne, ih h.2 hmem]

theorem get?_of_mem {d : Dict κ α} {k : κ} {v : α} (h : (k, v) ∈ d.entries) :
    d.get? k = some v := lookup_of_mem d.nodup h

/-- With distinct keys every entry of the list is found. -/
theorem get?_ofList_mem {es : List (κ × α)} (h : (es.map Prod.fst).Nodup) {k : κ} {v : α}
    (hmem : (k, v) ∈ es) : (ofList es).get? k = some v := by
  rw [ofList, get?_foldl_set es h, lookup_of_mem h hmem]
  rfl

/-- The last entry of a key counts. -/
theorem get?_foldl_set_last (es : List (κ × α)) (d : Dict κ α) (x : κ) :
    (es.foldl (fun d p => d.set p.1 p.2) d).get? x = (es.reverse.lookup x).or (d.get? x) := by
  induction es generalizing d with
  | nil => rfl
  | cons e es ih =>
    obtain ⟨k, v⟩ := e
    rw [List.foldl_cons, ih, get?_set, List.reverse_cons, List.lookup_append, Option.or_assoc,
      lookup_cons_ite]
    by_cases hx : x = k
    · rw [if_pos hx, if_pos hx, Option.some_or]
    · rw [if_neg hx, if_neg hx]
      rfl

theorem get?_ofList_last (es : List (κ × α)) (x : κ) : (ofList es).get? x = es.reverse.lookup x := by
  rw [ofList, get?_foldl_set_last, get?_empty, Option.or_none]

/-! ## Values -/

def values (d : Dict κ α) : List α := d.entries.map Prod.snd

/-- Change the value of `k`, if it has one. -/
def modify (d : Dict κ α) (k : κ) (f : α → α) : Dict κ α where
  entries := d.entries.map fun e => if e.1 = k then (e.1, f e.2) else e
  nodup := by
    have hkeys : (d.entries.map fun e => if e.1 = k then (e.1, f e.2) else e).map Prod.fst =
        d.entries.map Prod.fst := by
      rw [List.map_map]
      refine List.map_congr_left fun e _ => ?_
      by_cases he : e.1 = k <;> simp [he]
    rw [hkeys]
    exact d.nodup

theorem get?_modify (d : Dict κ α) (k x : κ) (f : α → α) :
    (d.modify k f).get? x = if x = k then (d.get? x).map f else d.get? x := by
  unfold modify get?
  dsimp only
  induction d.entries with
  | nil => simp
  | cons e es ih =>
    obtain ⟨k', v⟩ := e
    rw [List.map_cons, apply_ite (· :: _), lookup_cons_ite k']
    by_cases hk : k' = k
    · subst hk
      by_cases hx : x = k' <;> simp [lookup_cons_ite, ih, hx]
    · by_cases hx : x = k'
      · subst hx
        simp [hk]
      · simp [hk, hx, lookup_cons_ite, ih]

theorem values_modify {β : Type} {d : Dict κ α} {k : κ} {f : α → α} {g : α → β} (h : ∀ v, g (f v) = g v) :
    (d.modify k f).values.map g = d.values.map g := by
  unfold values modify
  rw [List.map_map, List.map_map, List.map_map]
  refine List.map_congr_left fun e _ => ?_
  by_cases hk : e.1 = k <;> simp [hk, h]

/-- Change every value. -/
def map {β : Type} (d : Dict κ α) (f : α → β) : Dict κ β where
  entries := d.entries.map (Prod.map id f)
  nodup := by
    rw [List.map_map]
    exact d.nodup

theorem get?_map {β : Type} (d : Dict κ α) (f : α → β) (k : κ) :
    (d.map f).get? k = (d.get? k).map f := by
  unfold map get?
  dsimp only
  induction d.entries with
  | nil => rfl
  | cons e es ih =>
    obtain ⟨k', v⟩ := e
    rw [List.map_cons, Prod.map_apply, id, lookup_cons_ite, lookup_cons_ite, ih]
    split <;> rfl

/-- The entries that are kept. -/
def filter (d : Dict κ α) (keep : κ × α → Bool) : Dict κ α where
  entries := d.entries.filter keep
  nodup := d.nodup.sublist (List.filter_sublist.map _)

theorem get?_filter (d : Dict κ α) (keep : κ × α → Bool) (k : κ) :
    (d.filter keep).get? k = (d.get? k).filter fun v => keep (k, v) := by
  obtain ⟨es, hnodup⟩ := d
  unfold filter get?
  dsimp only
  induction es with
  | nil => rfl
  | cons e es ih =>
    obtain ⟨k', v⟩ := e
    rw [List.map_cons, List.nodup_cons] at hnodup
    have hrest := ih hnodup.2
    by_cases hk : k = k'
    · subst hk
      have hnone : es.lookup k = none := lookup_eq_none hnodup.1
      rw [hnone] at hrest
      by_cases hkeep : keep (k, v) = true
      · simp [hkeep, Option.filter]
      · simp [hkeep, hrest, Option.filter]
    · by_cases hkeep : keep (k', v) = true
      · simp [hkeep, lookup_cons_ite, hk, hrest]
      · simp [hkeep, lookup_cons_ite, hk, hrest]

omit [DecidableEq κ] in
theorem ext {d e : Dict κ α} (h : d.entries = e.entries) : d = e := by
  cases d
  cases e
  cases h
  rfl

theorem modify_of_none {d : Dict κ α} {k : κ} (h : d.get? k = none) (f : α → α) :
    d.modify k f = d := by
  refine ext ?_
  have hnot : ∀ e ∈ d.entries, e.1 ≠ k := by
    rintro ⟨x, v⟩ he rfl
    rw [get?_of_mem he] at h
    cases h
  unfold modify
  dsimp only
  conv_rhs => rw [← List.map_id d.entries]
  exact List.map_congr_left fun e he => if_neg (hnot e he)

/-- `setdefault`: a key that is present keeps its value. -/
def setDefault (d : Dict κ α) (k : κ) (v : α) : Dict κ α :=
  if (d.get? k).isSome then d else d.set k v

/-- `pop`: the other keys stay as they are. -/
def remove (d : Dict κ α) (k : κ) : Dict κ α := d.filter fun e => e.1 ≠ k

theorem get?_setDefault (d : Dict κ α) (k x : κ) (v : α) :
    (d.setDefault k v).get? x = if x = k then some ((d.get? k).getD v) else d.get? x := by
  unfold setDefault
  split
  · rename_i h
    obtain ⟨w, hw⟩ := Option.isSome_iff_exists.1 h
    by_cases hx : x = k
    · subst hx
      simp [hw]
    · simp [hx]
  · rename_i h
    rw [Option.not_isSome_iff_eq_none] at h
    rw [get?_set, h]
    rfl

theorem get?_setDefault_ne (d : Dict κ α) {k x : κ} (v : α) (h : x ≠ k) :
    (d.setDefault k v).get? x = d.get? x := by
  rw [get?_setDefault, if_neg h]

/-- A value that is there stays. -/
theorem get?_setDefault_some {d : Dict κ α} {x : κ} {w : α} (h : d.get? x = some w) (k : κ) (v : α) :
    (d.setDefault k v).get? x = some w := by
  rw [get?_setDefault]
  split
  · rename_i hx
    subst hx
    rw [h]
    rfl
  · exact h

theorem setDefault_of_some {d : Dict κ α} {k : κ} (v : α) (h : (d.get? k).isSome) :
    d.setDefault k v = d := if_pos h

/-- A second default does nothing. -/
theorem setDefault_setDefault (d : Dict κ α) (k : κ) (v w : α) :
    (d.setDefault k v).setDefault k w = d.setDefault k v := by
  apply setDefault_of_some
  rw [get?_setDefault, if_pos rfl]
  rfl

theorem mem_keys_setDefault {d : Dict κ α} {k x : κ} {v : α} :
    x ∈ (d.setDefault k v).keys ↔ x = k ∨ x ∈ d.keys := by
  rw [← get?_isSome, ← get?_isSome, get?_setDefault]
  by_cases hx : x = k
  · simp [hx]
  · simp [hx]

/-- Removing a key that was new undoes its default. -/
theorem remove_setDefault {d : Dict κ α} {k : κ} (v : α) (h : d.get? k = none) :
    (d.setDefault k v).remove k = d := by
  have hnot : k ∉ d.keys := by
    rw [← get?_isSome, h]
    simp
  apply ext
  have hset : (d.setDefault k v).entries = d.entries ++ [(k, v)] := by
    unfold setDefault
    rw [h]
    exact setEntries_new hnot
  change (d.setDefault k v).entries.filter (fun e => decide (e.1 ≠ k)) = d.entries
  rw [hset, List.filter_append]
  have hkeep : d.entries.filter (fun e => decide (e.1 ≠ k)) = d.entries := by
    apply List.filter_eq_self.2
    intro e he
    have hne : e.1 ≠ k := fun heq => hnot (heq ▸ List.mem_map_of_mem he)
    simpa using hne
  rw [hkeep]
  simp

theorem remove_of_none {d : Dict κ α} {k : κ} (h : d.get? k = none) : d.remove k = d := by
  have hnot : k ∉ d.keys := by
    rw [← get?_isSome, h]
    simp
  apply ext
  apply List.filter_eq_self.2
  intro e he
  have hne : e.1 ≠ k := fun heq => hnot (heq ▸ List.mem_map_of_mem he)
  simpa using hne

theorem mem_setEntries {k : κ} {v : α} {es : List (κ × α)} {e : κ × α}
    (h : e ∈ setEntries k v es) : e = (k, v) ∨ e ∈ es := by
  induction es with
  | nil => exact .inl (List.mem_singleton.1 h)
  | cons e' es ih =>
    obtain ⟨k', v'⟩ := e'
    unfold setEntries at h
    split at h
    · rcases List.mem_cons.1 h with h | h
      · exact .inl h
      · exact .inr (List.mem_cons_of_mem _ h)
    · rcases List.mem_cons.1 h with h | h
      · exact .inr (h ▸ List.mem_cons_self)
      · rcases ih h with h | h
        · exact .inl h
        · exact .inr (List.mem_cons_of_mem _ h)

theorem mem_of_lookup {es : List (κ × α)} {k : κ} {v : α} (h : es.lookup k = some v) :
    (k, v) ∈ es := by
  induction es with
  | nil => cases h
  | cons e es ih =>
    obtain ⟨k', v'⟩ := e
    rw [lookup_cons_ite] at h
    split at h
    · rename_i hk
      cases h
      exact hk ▸ List.mem_cons_self
    · exact List.mem_cons_of_mem _ (ih h)

/-- An entry after setting a key is the new one, or an old one for another key. -/
theorem mem_set {d : Dict κ α} {k : κ} {v : α} {e : κ × α} (h : e ∈ (d.set k v).entries) :
    e = (k, v) ∨ e ∈ d.entries ∧ e.1 ≠ k := by
  by_cases hk : e.1 = k
  · have hnew : (k, v) ∈ (d.set k v).entries := mem_of_lookup (get?_set_self d k v)
    exact .inl (List.inj_on_of_nodup_map (d.set k v).nodup h hnew hk)
  · refine .inr ⟨(mem_setEntries h).resolve_left ?_, hk⟩
    rintro rfl
    exact hk rfl

/-- The values after setting a key are the new one and old ones. -/
theorem mem_values_set {d : Dict κ α} {k : κ} {v w : α} (h : w ∈ (d.set k v).values) :
    w = v ∨ w ∈ d.values := by
  obtain ⟨e, he, rfl⟩ := List.mem_map.1 h
  rcases mem_setEntries he with rfl | he
  · exact .inl rfl
  · exact .inr (List.mem_map_of_mem he)

/-- A new key brings its value to the end. -/
theorem values_set_new {d : Dict κ α} {k : κ} (v : α) (h : d.get? k = none) :
    (d.set k v).values = d.values ++ [v] := by
  have hnot : k ∉ d.entries.map Prod.fst := by
    intro hmem
    have hsome := get?_isSome.2 hmem
    rw [h] at hsome
    cases hsome
  have hentries : (d.set k v).entries = d.entries ++ [(k, v)] := setEntries_new hnot
  rw [values, hentries, List.map_append]
  rfl

theorem mem_values_modify {d : Dict κ α} {k : κ} {f : α → α} {w : α}
    (h : w ∈ (d.modify k f).values) :
    w ∈ d.values ∨ ∃ v, (k, v) ∈ d.entries ∧ w = f v := by
  obtain ⟨e', he', rfl⟩ := List.mem_map.1 h
  obtain ⟨e, he, rfl⟩ := List.mem_map.1 he'
  by_cases hk : e.1 = k
  · subst hk
    exact .inr ⟨e.2, he, by simp⟩
  · rw [if_neg hk]
    exact .inl (List.mem_map_of_mem he)

/-- A dictionary is made again of values that carry their keys. -/
theorem ofList_values {d : Dict κ α} {key : α → κ} (h : ∀ e ∈ d.entries, key e.2 = e.1) :
    ofList (d.values.map fun v => (key v, v)) = d := by
  have hentries : (d.values.map fun v => (key v, v)) = d.entries := by
    rw [values, List.map_map]
    calc d.entries.map ((fun v => (key v, v)) ∘ Prod.snd)
        = d.entries.map id := List.map_congr_left fun e he => Prod.ext (h e he) rfl
      _ = d.entries := List.map_id _
  rw [hentries]
  cases d with
  | mk entries nodup =>
    have he := entries_ofList nodup
    cases hd : ofList entries with
    | mk entries' _ =>
      rw [hd] at he
      subst he
      rfl

/-! ## Totals by key -/

section Totals
variable [AddCommMonoid α]

/-- The value of a key, 0 where it has none. -/
def total (d : Dict κ α) (k : κ) : α := (d.get? k).getD 0

/-- Add `v` to the total of `k`. -/
def addTo (d : Dict κ α) (k : κ) (v : α) : Dict κ α := d.set k (d.total k + v)

/-- What the contributions `xs` add to the key `k`. -/
def contribution (xs : List (κ × α)) (k : κ) : α :=
  ((xs.filter (·.1 = k)).map Prod.snd).sum

@[simp] theorem total_empty (k : κ) : (empty : Dict κ α).total k = 0 := rfl

theorem total_addTo (d : Dict κ α) (k x : κ) (v : α) :
    (d.addTo k v).total x = d.total x + if x = k then v else 0 := by
  unfold total addTo
  rw [get?_set]
  by_cases h : x = k
  · subst h
    simp [total]
  · simp [h]

theorem contribution_cons (k x : κ) (v : α) (xs : List (κ × α)) :
    contribution ((k, v) :: xs) x = (if x = k then v else 0) + contribution xs x := by
  unfold contribution
  by_cases h : x = k
  · subst h
    simp
  · simp [h, Ne.symm h]

theorem contribution_append (xs ys : List (κ × α)) (k : κ) :
    contribution (xs ++ ys) k = contribution xs k + contribution ys k := by
  simp [contribution]

theorem contribution_eq_zero {xs : List (κ × α)} {k : κ} (h : k ∉ xs.map Prod.fst) :
    contribution xs k = 0 := by
  unfold contribution
  rw [List.filter_eq_nil_iff.2 fun p hp he => h (List.mem_map.2 ⟨p, hp, by simpa using he⟩)]
  rfl

theorem contribution_perm {xs ys : List (κ × α)} (h : xs.Perm ys) (k : κ) :
    contribution xs k = contribution ys k := ((h.filter _).map _).sum_eq

/-- With distinct keys a key gets the value of its entry. -/
theorem contribution_eq_lookup {xs : List (κ × α)} (h : (xs.map Prod.fst).Nodup) (k : κ) :
    contribution xs k = (xs.lookup k).getD 0 := by
  induction xs with
  | nil => rfl
  | cons x xs ih =>
    obtain ⟨k', v⟩ := x
    rw [List.map_cons, List.nodup_cons] at h
    rw [contribution_cons, lookup_cons_ite]
    by_cases hk : k = k'
    · subst hk
      rw [if_pos rfl, if_pos rfl, contribution_eq_zero h.1, add_zero]
      rfl
    · rw [if_neg hk, if_neg hk, zero_add, ih h.2]

/-- Totals after a sequence of additions. -/
theorem total_foldl_addTo (xs : List (κ × α)) (d : Dict κ α) (k : κ) :
    (xs.foldl (fun d p => d.addTo p.1 p.2) d).total k = d.total k + contribution xs k := by
  induction xs generalizing d with
  | nil => simp [contribution]
  | cons x xs ih =>
    obtain ⟨k', v⟩ := x
    rw [List.foldl_cons, ih, total_addTo, contribution_cons, add_assoc]

/-- The sum of the values under some keys. -/
def sumOver (d : Dict κ α) (keep : κ → Bool) : α :=
  ((d.entries.filter fun e => keep e.1).map Prod.snd).sum

omit [DecidableEq κ] in
theorem sumOver_cons (keep : κ → Bool) (k : κ) (v : α) (es : List (κ × α)) :
    (((((k, v) :: es).filter fun e => keep e.1).map Prod.snd).sum) =
      (if keep k then v else 0) + ((es.filter fun e => keep e.1).map Prod.snd).sum := by
  rw [List.filter_cons]
  cases keep k with
  | true => rfl
  | false => exact (zero_add _).symm

theorem sumOver_addTo (d : Dict κ α) (keep : κ → Bool) (k : κ) (v : α) :
    (d.addTo k v).sumOver keep = d.sumOver keep + if keep k then v else 0 := by
  unfold sumOver addTo total get? set
  dsimp only
  induction d.entries with
  | nil => simp [setEntries, sumOver_cons]
  | cons e es ih =>
    obtain ⟨k', v'⟩ := e
    unfold setEntries
    rw [lookup_cons_ite]
    by_cases hk : k' = k
    · subst hk
      rw [if_pos rfl, if_pos rfl, Option.getD_some, sumOver_cons, sumOver_cons]
      by_cases hkeep : keep k' = true
      · rw [if_pos hkeep, if_pos hkeep, if_pos hkeep, add_right_comm]
      · rw [if_neg hkeep, if_neg hkeep, if_neg hkeep, add_zero]
    · rw [if_neg hk, if_neg (Ne.symm hk), sumOver_cons, sumOver_cons, ih, add_assoc]

theorem sumOver_foldl_addTo (xs : List (κ × α)) (d : Dict κ α) (keep : κ → Bool) :
    (xs.foldl (fun d p => d.addTo p.1 p.2) d).sumOver keep =
      d.sumOver keep + ((xs.filter fun e => keep e.1).map Prod.snd).sum := by
  induction xs generalizing d with
  | nil => simp
  | cons x xs ih =>
    obtain ⟨k, v⟩ := x
    rw [List.foldl_cons, ih, sumOver_addTo, sumOver_cons, add_assoc]

/-- A total is 0, or the value of an entry. -/
theorem total_mem (d : Dict κ α) (k : κ) : d.total k = 0 ∨ (k, d.total k) ∈ d.entries := by
  unfold total get?
  cases hk : d.entries.lookup k with
  | none => exact .inl rfl
  | some v => exact .inr (mem_of_lookup hk)

/-- What holds of 0 and of the additions, and is kept by sums, holds of every value. -/
theorem foldl_addTo_forall {P : α → Prop} (h0 : P 0) (hadd : ∀ a b, P a → P b → P (a + b))
    {xs : List (κ × α)} (hxs : ∀ x ∈ xs, P x.2) {d : Dict κ α} (hd : ∀ e ∈ d.entries, P e.2) :
    ∀ e ∈ (xs.foldl (fun d p => d.addTo p.1 p.2) d).entries, P e.2 := by
  induction xs generalizing d with
  | nil => exact hd
  | cons x xs ih =>
    refine ih (fun y hy => hxs y (List.mem_cons_of_mem _ hy)) fun e he => ?_
    rcases mem_setEntries he with rfl | he
    · refine hadd _ _ ?_ (hxs x List.mem_cons_self)
      rcases total_mem d x.1 with hzero | hmem
      · rw [hzero]
        exact h0
      · exact hd _ hmem
    · exact hd e he

end Totals

/-- A value that is there is replaced in place. -/
theorem keys_set_of_some {d : Dict κ α} {k : κ} {v w : α} (h : d.get? k = some v) :
    (d.set k w).keys = d.keys := by
  have hmem : k ∈ d.keys := get?_isSome.1 (by rw [h]; rfl)
  show (setEntries k w d.entries).map Prod.fst = d.entries.map Prod.fst
  unfold keys at hmem
  generalize d.entries = es at hmem ⊢
  induction es with
  | nil => cases hmem
  | cons e es ih =>
    obtain ⟨k', v'⟩ := e
    by_cases hk : k' = k
    · simp [setEntries, hk]
    · have hrest : k ∈ es.map Prod.fst := by
        rcases List.mem_cons.1 hmem with heq | hmem
        · exact absurd heq.symm hk
        · exact hmem
      rw [setEntries, if_neg hk, List.map_cons, List.map_cons, ih hrest]

/-! ## Groups -/

/-- The elements by key: the keys in the order of their first elements. -/
def grouped {ι : Type} (key : ι → κ) (xs : List ι) : Dict κ (List ι) :=
  xs.foldl (fun d x => d.set (key x) ((d.get? (key x)).getD [] ++ [x])) empty

theorem get?_foldl_group {ι : Type} (key : ι → κ) (k : κ) (xs : List ι) (d : Dict κ (List ι)) :
    (xs.foldl (fun d x => d.set (key x) ((d.get? (key x)).getD [] ++ [x])) d).get? k =
      if xs.filter (fun x => key x = k) = [] then d.get? k
      else some ((d.get? k).getD [] ++ xs.filter fun x => key x = k) := by
  induction xs generalizing d with
  | nil => rfl
  | cons x xs ih =>
    rw [List.foldl_cons, ih, List.filter_cons]
    by_cases hx : key x = k
    · subst hx
      by_cases hrest : xs.filter (fun y => key y = key x) = []
      · simp [hrest]
      · simp [hrest]
    · rw [get?_set_ne _ _ (Ne.symm hx)]
      simp [hx]

/-- A group is what has its key, in the order of the list. -/
theorem get?_grouped {ι : Type} (key : ι → κ) (xs : List ι) (k : κ) :
    (grouped key xs).get? k =
      if xs.filter (fun x => key x = k) = [] then none else some (xs.filter fun x => key x = k) := by
  rw [grouped, get?_foldl_group]
  rfl

theorem mem_grouped {ι : Type} {key : ι → κ} {xs : List ι} {k : κ} {group : List ι} :
    (k, group) ∈ (grouped key xs).entries ↔ group = xs.filter (fun x => key x = k) ∧ group ≠ [] := by
  have hget : (k, group) ∈ (grouped key xs).entries ↔ (grouped key xs).get? k = some group :=
    ⟨get?_of_mem, mem_of_lookup⟩
  rw [hget, get?_grouped]
  split
  · rename_i hnil
    rw [hnil]
    constructor
    · intro h
      cases h
    · rintro ⟨rfl, hne⟩
      exact absurd rfl hne
  · rename_i hne
    rw [Option.some_inj]
    constructor
    · rintro rfl
      exact ⟨rfl, hne⟩
    · rintro ⟨rfl, -⟩
      rfl

end Dict

end Matrades.Base
