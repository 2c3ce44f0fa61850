import Matrades.Base.Dict

/-!
# Adding what is missing

A loop that looks up the key of each of its entries and inserts those it does not find. The table then
holds what it held, and of the others the first entry of each key (`get?_addMissing`). Running the loop
again changes nothing (`addMissing_again`). `firstByKey` keeps of a list the first element of each key.
-/

namespace Matrades.Base.Dict

variable {κ α : Type} [DecidableEq κ]

def addMissing (d : Dict κ α) (es : List (κ × α)) : Dict κ α :=
  es.foldl (fun d e => d.setDefault e.1 e.2) d

@[simp] theorem addMissing_nil (d : Dict κ α) : d.addMissing [] = d := rfl

@[simp] theorem addMissing_cons (d : Dict κ α) (e : κ × α) (es : List (κ × α)) :
    d.addMissing (e :: es) = (d.setDefault e.1 e.2).addMissing es := rfl

theorem setDefault_of_none {d : Dict κ α} {k : κ} (v : α) (h : d.get? k = none) :
    d.setDefault k v = d.set k v := by
  unfold setDefault
  rw [h]
  rfl

theorem get?_addMissing (d : Dict κ α) (es : List (κ × α)) (k : κ) :
    (d.addMissing es).get? k = (d.get? k).or (es.lookup k) := by
  induction es generalizing d with
  | nil => simp
  | cons e es ih =>
    rw [addMissing_cons, ih, get?_setDefault, lookup_cons_ite]
    cases hk : d.get? k <;> by_cases heq : k = e.1 <;> simp_all

theorem addMissing_of_isSome {d : Dict κ α} {es : List (κ × α)}
    (h : ∀ e ∈ es, (d.get? e.1).isSome = true) : d.addMissing es = d := by
  induction es with
  | nil => rfl
  | cons e es ih =>
    rw [addMissing_cons, setDefault_of_some e.2 (h e List.mem_cons_self)]
    exact ih fun e' he' => h e' (List.mem_cons_of_mem e he')

/-- Every key of the entries is in the table afterwards. -/
theorem isSome_addMissing {d : Dict κ α} {es : List (κ × α)} {k : κ} (h : k ∈ es.map Prod.fst) :
    ((d.addMissing es).get? k).isSome = true := by
  rw [get?_addMissing, Option.isSome_or, Bool.or_eq_true]
  right
  obtain ⟨e, he, rfl⟩ := List.mem_map.1 h
  cases hlookup : es.lookup e.1 with
  | some v => rfl
  | none => exact absurd (List.lookup_eq_none_iff.1 hlookup e he) (by simp)

/-- A second loop over entries with the same keys changes nothing. -/
theorem addMissing_again (d : Dict κ α) {es es' : List (κ × α)}
    (h : es'.map Prod.fst = es.map Prod.fst) : (d.addMissing es).addMissing es' = d.addMissing es := by
  apply addMissing_of_isSome
  intro e he
  apply isSome_addMissing
  rw [← h]
  exact List.mem_map_of_mem he

/-- Of each key the first element. -/
def firstByKey (key : α → κ) (xs : List α) : List α :=
  (Dict.empty.addMissing (xs.map fun x => (key x, x))).values

section
variable {key : α → κ} {xs : List α} {a b : α}

theorem mem_of_lookup_map {k : κ} (h : (xs.map fun x => (key x, x)).lookup k = some a) :
    a ∈ xs ∧ key a = k := by
  obtain ⟨x, hx, heq⟩ := List.mem_map.1 (mem_of_lookup h)
  cases heq
  exact ⟨hx, rfl⟩

theorem mem_firstByKey : a ∈ firstByKey key xs ↔ (xs.map fun x => (key x, x)).lookup (key a) = some a := by
  have hget : ∀ k, (Dict.empty.addMissing (xs.map fun x => (key x, x))).get? k =
      (xs.map fun x => (key x, x)).lookup k := fun k => by
    rw [get?_addMissing, show (Dict.empty : Dict κ α).get? k = none from rfl, Option.none_or]
  constructor
  · intro h
    obtain ⟨⟨k, v⟩, hentry, rfl⟩ := List.mem_map.1 h
    have hlookup := get?_of_mem hentry
    rw [hget] at hlookup
    rw [(mem_of_lookup_map hlookup).2]
    exact hlookup
  · intro h
    rw [← hget] at h
    exact List.mem_map_of_mem (mem_of_lookup h)

theorem firstByKey_subset (h : a ∈ firstByKey key xs) : a ∈ xs := (mem_of_lookup_map (mem_firstByKey.1 h)).1

theorem firstByKey_inj (ha : a ∈ firstByKey key xs) (hb : b ∈ firstByKey key xs) (h : key a = key b) :
    a = b := by
  rw [mem_firstByKey, h] at ha
  rw [mem_firstByKey, ha] at hb
  exact Option.some.inj hb

/-- Where no two elements have one key, nothing is left out. -/
theorem mem_firstByKey_of_inj (hinj : ∀ x ∈ xs, ∀ y ∈ xs, key x = key y → x = y) (h : a ∈ xs) :
    a ∈ firstByKey key xs := by
  rw [mem_firstByKey]
  cases hlookup : (xs.map fun x => (key x, x)).lookup (key a) with
  | none => exact absurd (List.lookup_eq_none_iff.1 hlookup _ (List.mem_map_of_mem h)) (by simp)
  | some b =>
    obtain ⟨hb, hkey⟩ := mem_of_lookup_map hlookup
    rw [hinj b hb a h hkey]

/-- Every key is kept. -/
theorem exists_firstByKey (h : a ∈ xs) : ∃ b ∈ firstByKey key xs, key b = key a := by
  cases hlookup : (xs.map fun x => (key x, x)).lookup (key a) with
  | none => exact absurd (List.lookup_eq_none_iff.1 hlookup _ (List.mem_map_of_mem h)) (by simp)
  | some b =>
    obtain ⟨_, hkey⟩ := mem_of_lookup_map hlookup
    exact ⟨b, mem_firstByKey.2 (by rw [hkey, hlookup]), hkey⟩

/-- Of a sorted list, what is kept for a key comes from the least element that has it. -/
theorem firstByKey_least {σ : Type} {R : σ → σ → Prop} (hrefl : ∀ x, R x x) {f : σ → Option α}
    {ys : List σ} (hsorted : ys.Pairwise R) (h : a ∈ firstByKey key (ys.filterMap f)) :
    ∃ x ∈ ys, f x = some a ∧ ∀ y ∈ ys, ∀ b, f y = some b → key b = key a → R x y := by
  rw [mem_firstByKey] at h
  induction ys with
  | nil => cases h
  | cons x ys ih =>
    obtain ⟨hfirst, hsorted⟩ := List.pairwise_cons.1 hsorted
    cases hx : f x with
    | none =>
      rw [List.filterMap_cons_none hx] at h
      obtain ⟨z, hz, hza, hleast⟩ := ih hsorted h
      refine ⟨z, List.mem_cons_of_mem x hz, hza, fun y hy b hb hkey => ?_⟩
      rcases List.mem_cons.1 hy with rfl | hy
      · rw [hx] at hb
        cases hb
      · exact hleast y hy b hb hkey
    | some c =>
      rw [List.filterMap_cons_some hx, List.map_cons, lookup_cons_ite] at h
      by_cases hc : key a = key c
      · rw [if_pos hc] at h
        refine ⟨x, List.mem_cons_self, hx.trans h, fun y hy b hb hkey => ?_⟩
        rcases List.mem_cons.1 hy with rfl | hy
        · exact hrefl y
        · exact hfirst y hy
      · rw [if_neg hc] at h
        obtain ⟨z, hz, hza, hleast⟩ := ih hsorted h
        refine ⟨z, List.mem_cons_of_mem x hz, hza, fun y hy b hb hkey => ?_⟩
        rcases List.mem_cons.1 hy with rfl | hy
        · rw [hx] at hb
          cases hb
          exact absurd hkey.symm hc
        · exact hleast y hy b hb hkey

theorem firstByKey_nodup (key : α → κ) (xs : List α) : (firstByKey key xs).Nodup := by
  have hkeys : ∀ e ∈ (Dict.empty.addMissing (xs.map fun x => (key x, x))).entries, e.1 = key e.2 := by
    rintro ⟨k, v⟩ he
    have hlookup := get?_of_mem he
    rw [get?_addMissing, show (Dict.empty : Dict κ α).get? k = none from rfl, Option.none_or] at hlookup
    exact (mem_of_lookup_map hlookup).2.symm
  have hnodup : ((Dict.empty.addMissing (xs.map fun x => (key x, x))).entries.map
      fun e => key e.2).Nodup := by
    rw [← List.map_congr_left hkeys]
    exact (Dict.empty.addMissing (xs.map fun x => (key x, x))).nodup
  unfold firstByKey values
  rw [show (fun e : κ × α => key e.2) = key ∘ Prod.snd from rfl, ← List.map_map] at hnodup
  exact hnodup.of_map

end

end Matrades.Base.Dict
