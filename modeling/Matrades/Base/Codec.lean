import Matrades.Base.Json
import Matrades.Base.Numeral
import Mathlib.Logic.Equiv.Defs

/-!
# Values stored as JSON

A `Codec` writes the values of a type as JSON and reads them back. What is read back (`back`) may be
another value, but it is written the same way. A `Record` does so for the fields of an object, looked up
by their keys; `both` puts two records side by side, and a `Record` with distinct keys is the codec of an
object.
-/

namespace Matrades.Base

structure Codec (α : Type) where
  dump : α → Json
  load : Json → Option α
  back : α → α
  load_dump : ∀ a, load (dump a) = some (back a)
  dump_back : ∀ a, dump (back a) = dump a

namespace Codec

variable {α β : Type}

def text : Codec String where
  dump := .str
  load
    | .str s => some s
    | _ => none
  back := id
  load_dump := fun _ => rfl
  dump_back := fun _ => rfl

/-- A decimal is stored as its text; a JSON number is read as one too. -/
def decimal : Codec Written where
  dump d := .str d.str
  load
    | .str s => Written.read s.toList
    | .num n => Written.read n.text
    | _ => none
  back := id
  load_dump := Written.read_str
  dump_back := fun _ => rfl

def bool : Codec Bool where
  dump := .bool
  load
    | .bool b => some b
    | _ => none
  back := id
  load_dump := fun _ => rfl
  dump_back := fun _ => rfl

/-- The text of a whole number. -/
def intText (z : ℤ) : List Char := signedDecimal (z < 0) (Nat.toDigits 10 z.natAbs) []

theorem scanNumber_intText (z : ℤ) : scanNumber (intText z) = some ((z : ℚ), []) := by
  have hvalue : (ofDigits ((Nat.toDigits 10 z.natAbs ++ []).map digitOf) : ℚ) = (z.natAbs : ℤ) := by
    rw [List.append_nil, ofDigits_map, Nat.ofDigitChars_ten_toDigits, Int.cast_natCast]
  unfold intText
  rw [scanNumber_signedDecimal (fun c hc => Nat.isDigit_of_mem_toDigits (by decide) (by decide) hc)
    Nat.toDigits_ne_nil fun _ hc => absurd hc List.not_mem_nil, hvalue, List.length_nil, pow_zero, div_one]
  rcases lt_or_ge z 0 with hneg | hnonneg
  · simp only [hneg, decide_true, if_true, Int.ofNat_natAbs_of_nonpos hneg.le, Int.cast_neg, neg_mul,
      one_mul, neg_neg]
  · simp only [not_lt.2 hnonneg, decide_false, Bool.false_eq_true, if_false,
      Int.natAbs_of_nonneg hnonneg, one_mul]

theorem numeralChar_intText (z : ℤ) : (intText z).all numeralChar = true := by
  rw [List.all_eq_true]
  intro c hc
  simp only [intText, signedDecimal, List.isEmpty_nil, if_true, List.append_nil, List.mem_append] at hc
  rcases hc with hc | hc
  · split at hc
    · rw [List.mem_singleton.1 hc]
      decide
    · cases hc
  · simp [numeralChar, Nat.isDigit_of_mem_toDigits (by decide) (by decide) hc]

/-- A whole number is stored as a numeral. -/
def int : Codec ℤ where
  dump z := .num ⟨intText z, numeralChar_intText z, by rw [scanNumber_intText]; rfl⟩
  load
    | .num n => if n.value.isInt then some n.value.num else none
    | _ => none
  back := id
  load_dump := by
    intro z
    have hvalue : Numeral.value ⟨intText z, numeralChar_intText z, by rw [scanNumber_intText]; rfl⟩ = z := by
      unfold Numeral.value
      rw [scanNumber_intText]
      rfl
    dsimp only
    rw [hvalue]
    simp [Rat.isInt]
  dump_back := fun _ => rfl

/-- A value of an enumeration, stored by its name. -/
def named (values : List α) (name : α → String)
    (find_name : ∀ a, values.find? (fun b => name b = name a) = some a) : Codec α where
  dump a := .str (name a)
  load
    | .str s => values.find? fun b => name b = s
    | _ => none
  back := id
  load_dump := find_name
  dump_back := fun _ => rfl

/-- A missing value is stored as null. -/
def optional (c : Codec α) (dump_ne : ∀ a, c.dump a ≠ .null) : Codec (Option α) where
  dump
    | none => .null
    | some a => c.dump a
  load
    | .null => some none
    | j => (c.load j).map some
  back := Option.map c.back
  load_dump := by
    intro o
    cases o with
    | none => rfl
    | some a =>
      have hload := c.load_dump a
      have hne := dump_ne a
      revert hload hne
      dsimp only
      generalize c.dump a = j
      intro hload hne
      cases j with
      | null => exact absurd rfl hne
      | _ => exact congrArg (Option.map some) hload
  dump_back := by
    intro o
    cases o with
    | none => rfl
    | some a => exact c.dump_back a

theorem mapM_load_dump (c : Codec α) (as : List α) :
    (as.map c.dump).mapM c.load = some (as.map c.back) := by
  induction as with
  | nil => rfl
  | cons a as ih =>
    rw [List.map_cons, List.mapM_cons, c.load_dump, ih]
    rfl

def list (c : Codec α) : Codec (List α) where
  dump as := .arr (as.map c.dump)
  load
    | .arr items => items.mapM c.load
    | _ => none
  back as := as.map c.back
  load_dump := c.mapM_load_dump
  dump_back := by
    intro as
    rw [List.map_map]
    exact congrArg Json.arr (List.map_congr_left fun a _ => c.dump_back a)

/-- An entry of an object. -/
def loadEntry (c : Codec α) (entry : String × Json) : Option (String × α) :=
  (c.load entry.2).map fun a => (entry.1, a)

theorem mapM_loadEntry (c : Codec α) (es : List (String × α)) :
    (es.map fun e => (e.1, c.dump e.2)).mapM c.loadEntry = some (es.map fun e => (e.1, c.back e.2)) := by
  induction es with
  | nil => rfl
  | cons e es ih =>
    rw [List.map_cons, List.mapM_cons, loadEntry, c.load_dump, ih]
    rfl

/-- A dictionary is stored as an object. -/
def dict (c : Codec α) : Codec (Dict String α) where
  dump d := .obj (d.map c.dump).entries
  load
    | .obj fields => (fields.mapM c.loadEntry).map Dict.ofList
    | _ => none
  back d := d.map c.back
  load_dump := by
    intro d
    have hentries : Dict.ofList (d.map c.back).entries = d.map c.back :=
      Dict.ext (Dict.entries_ofList (d.map c.back).nodup)
    show ((d.map c.dump).entries.mapM c.loadEntry).map Dict.ofList = _
    rw [show (d.map c.dump).entries = d.entries.map fun e => (e.1, c.dump e.2) from rfl,
      mapM_loadEntry]
    exact congrArg some hentries
  dump_back := by
    intro d
    have hentries : ((d.map c.back).map c.dump).entries = (d.map c.dump).entries := by
      show (d.entries.map fun e => (e.1, c.back e.2)).map (fun e => (e.1, c.dump e.2)) =
        d.entries.map fun e => (e.1, c.dump e.2)
      rw [List.map_map]
      refine List.map_congr_left fun e _ => ?_
      rw [Function.comp_apply, c.dump_back]
    exact congrArg Json.obj hentries

/-- Values that pass a check; what is read is checked again. -/
def checked (c : Codec α) (check : α → Bool) (check_back : ∀ a, check (c.back a) = check a) :
    Codec {a // check a = true} where
  dump a := c.dump a.1
  load j := (c.load j).bind fun a => if h : check a = true then some ⟨a, h⟩ else none
  back a := ⟨c.back a.1, (check_back a.1).trans a.2⟩
  load_dump := by
    intro a
    rw [c.load_dump, Option.bind_some, dif_pos ((check_back a.1).trans a.2)]
  dump_back := fun a => c.dump_back a.1

end Codec

/-! ## Records -/

structure Record (α : Type) where
  keys : List String
  write : α → List (String × Json)
  read : List (String × Json) → Option α
  back : α → α
  keys_write : ∀ a, (write a).map Prod.fst = keys
  /-- The fields around those of the record do not matter. -/
  read_write : ∀ a before after, keys.Nodup → (∀ k ∈ keys, k ∉ before.map Prod.fst) →
    read (before ++ (write a ++ after)) = some (back a)
  write_back : ∀ a, write (back a) = write a

theorem lookup_append {before : List (String × Json)} {key : String}
    (h : key ∉ before.map Prod.fst) (fields : List (String × Json)) :
    (before ++ fields).lookup key = fields.lookup key := by
  induction before with
  | nil => rfl
  | cons e es ih =>
    rw [List.map_cons, List.mem_cons, not_or] at h
    rw [List.cons_append, Dict.lookup_cons_ite, if_neg h.1, ih h.2]

namespace Record

variable {α β : Type}

/-- One field; it may be missing where it has a default. -/
def field (key : String) (c : Codec α) (default : Option α := none) : Record α where
  keys := [key]
  write a := [(key, c.dump a)]
  read fields := ((fields.lookup key).map c.load).getD default
  back := c.back
  keys_write := fun _ => rfl
  read_write := by
    intro a before after _ hbefore
    rw [lookup_append (hbefore key List.mem_cons_self), List.singleton_append, Dict.lookup_cons_ite,
      if_pos rfl]
    exact c.load_dump a
  write_back := fun a => by rw [c.dump_back]

/-- Two records side by side. -/
def both (r : Record α) (q : Record β) : Record (α × β) where
  keys := r.keys ++ q.keys
  write a := r.write a.1 ++ q.write a.2
  read fields := (r.read fields).bind fun a => (q.read fields).map fun b => (a, b)
  back a := (r.back a.1, q.back a.2)
  keys_write := fun a => by rw [List.map_append, r.keys_write, q.keys_write]
  read_write := by
    intro a before after hnodup hbefore
    obtain ⟨hr, hq, hapart⟩ := List.nodup_append.1 hnodup
    have hfirst := r.read_write a.1 before (q.write a.2 ++ after) hr fun k hk =>
      hbefore k (List.mem_append_left _ hk)
    have hsecond := q.read_write a.2 (before ++ r.write a.1) after hq fun k hk => by
      rw [List.map_append, List.mem_append, r.keys_write]
      rintro (hk' | hk')
      · exact hbefore k (List.mem_append_right _ hk) hk'
      · exact hapart k hk' k hk rfl
    rw [List.append_assoc] at hsecond ⊢
    rw [hfirst, hsecond]
    rfl
  write_back := fun a => by rw [r.write_back, q.write_back]

/-- The same fields as another type of values. -/
def as (r : Record α) (e : α ≃ β) : Record β where
  keys := r.keys
  write b := r.write (e.symm b)
  read fields := (r.read fields).map e
  back b := e (r.back (e.symm b))
  keys_write := fun b => r.keys_write _
  read_write := by
    intro b before after hnodup hbefore
    rw [r.read_write _ before after hnodup hbefore]
    rfl
  write_back := fun b => by rw [Equiv.symm_apply_apply, r.write_back]

/-- A record with distinct keys as an object. -/
def object (r : Record α) (nodup : r.keys.Nodup) : Codec α where
  dump a := .obj (r.write a)
  load
    | .obj fields => r.read fields
    | _ => none
  back := r.back
  load_dump := by
    intro a
    have h := r.read_write a [] [] nodup fun _ _ => List.not_mem_nil
    rw [List.nil_append, List.append_nil] at h
    exact h
  dump_back := fun a => congrArg Json.obj (r.write_back a)

end Record

/-! ## Values that come back -/

/-- Every value is read back as it was. -/
class Codec.Exact {α : Type} (c : Codec α) : Prop where
  back_eq : ∀ a, c.back a = a

class Record.Exact {α : Type} (r : Record α) : Prop where
  back_eq : ∀ a, r.back a = a

theorem Codec.Exact.load_dump {α : Type} (c : Codec α) [c.Exact] (a : α) : c.load (c.dump a) = some a := by
  rw [c.load_dump, Exact.back_eq]

theorem Codec.Exact.back_id {α : Type} (c : Codec α) [c.Exact] : c.back = id := funext Exact.back_eq

section
variable {α β : Type}

instance : Codec.text.Exact := ⟨fun _ => rfl⟩
instance : Codec.decimal.Exact := ⟨fun _ => rfl⟩
instance : Codec.bool.Exact := ⟨fun _ => rfl⟩
instance : Codec.int.Exact := ⟨fun _ => rfl⟩

instance (values : List α) (name : α → String) (h : ∀ a, values.find? (fun b => name b = name a) = some a) :
    (Codec.named values name h).Exact := ⟨fun _ => rfl⟩

instance (c : Codec α) [c.Exact] (h : ∀ a, c.dump a ≠ .null) : (Codec.optional c h).Exact where
  back_eq o := by
    show o.map c.back = o
    rw [Codec.Exact.back_id, Option.map_id]
    rfl

instance (c : Codec α) [c.Exact] : (Codec.list c).Exact where
  back_eq as := by
    show as.map c.back = as
    rw [Codec.Exact.back_id, List.map_id]

instance (c : Codec α) [c.Exact] : (Codec.dict c).Exact where
  back_eq d := by
    show d.map c.back = d
    rw [Codec.Exact.back_id]
    exact Dict.ext (List.map_id _)

instance (c : Codec α) [c.Exact] (check : α → Bool) (h : ∀ a, check (c.back a) = check a) :
    (c.checked check h).Exact where
  back_eq a := Subtype.ext (Codec.Exact.back_eq a.1)

/-- Values that pass a check, of a type whose values come back. -/
def Codec.restricted (c : Codec α) [c.Exact] (check : α → Bool) : Codec {a // check a = true} :=
  c.checked check fun a => congrArg check (Exact.back_eq a)

instance (c : Codec α) [c.Exact] (check : α → Bool) : (c.restricted check).Exact :=
  inferInstanceAs (c.checked check _).Exact

instance (key : String) (c : Codec α) [c.Exact] (default : Option α) : (Record.field key c default).Exact :=
  ⟨Codec.Exact.back_eq (c := c)⟩

instance (r : Record α) (q : Record β) [r.Exact] [q.Exact] : (r.both q).Exact where
  back_eq a := Prod.ext (Record.Exact.back_eq a.1) (Record.Exact.back_eq a.2)

instance (r : Record α) (e : α ≃ β) [r.Exact] : (r.as e).Exact where
  back_eq b := by
    show e (r.back (e.symm b)) = b
    rw [Record.Exact.back_eq, Equiv.apply_symm_apply]

instance (r : Record α) (nodup : r.keys.Nodup) [r.Exact] : (r.object nodup).Exact :=
  ⟨Record.Exact.back_eq (r := r)⟩

end

/-! ## What has been read -/

/-- A value is read only from what it is written as. -/
class Codec.Plain {α : Type} (c : Codec α) : Prop where
  dump_of_load : ∀ {j : Json} {a : α}, c.load j = some a → c.dump a = j

section
variable {α β : Type}

instance : Codec.text.Plain where
  dump_of_load {j a} h := by
    cases j with
    | str s =>
      cases h
      rfl
    | _ => cases h

instance (values : List α) (name : α → String) (h : ∀ a, values.find? (fun b => name b = name a) = some a) :
    (Codec.named values name h).Plain where
  dump_of_load {j a} hload := by
    cases j with
    | str s =>
      have hname := List.find?_some hload
      exact congrArg Json.str (of_decide_eq_true hname)
    | _ => cases hload

instance (c : Codec α) [c.Plain] (h : ∀ a, c.dump a ≠ .null) : (Codec.optional c h).Plain where
  dump_of_load {j o} hload := by
    cases j with
    | null =>
      cases hload
      rfl
    | _ =>
      obtain ⟨a, ha, rfl⟩ := Option.map_eq_some_iff.1 hload
      exact Codec.Plain.dump_of_load (c := c) ha

/-- A field that may be missing is written as it was found, and as null where it was missing. -/
theorem Record.dump_of_read {c : Codec α} {h : ∀ a, c.dump a ≠ .null} [c.Plain] {key : String}
    {fields : List (String × Json)} {o : Option α}
    (hread : (Record.field key (c.optional h) (some none)).read fields = some o) :
    (c.optional h).dump o = (fields.lookup key).getD .null := by
  have hvalue : ((fields.lookup key).map (c.optional h).load).getD (some none) = some o := hread
  cases hlookup : fields.lookup key with
  | none =>
    rw [hlookup] at hvalue
    cases hvalue
    rfl
  | some j =>
    rw [hlookup] at hvalue
    exact Codec.Plain.dump_of_load (c := c.optional h) hvalue

theorem Record.both_read_eq_some {r : Record α} {q : Record β} {fields : List (String × Json)}
    {a : α} {b : β} :
    (r.both q).read fields = some (a, b) ↔ r.read fields = some a ∧ q.read fields = some b := by
  show ((r.read fields).bind fun a => (q.read fields).map fun b => (a, b)) = some (a, b) ↔ _
  cases hr : r.read fields with
  | none => simp
  | some a' => simp [and_comm]

theorem Record.as_read_eq_some {r : Record α} {e : α ≃ β} {fields : List (String × Json)} {b : β} :
    (r.as e).read fields = some b ↔ r.read fields = some (e.symm b) := by
  show (r.read fields).map e = some b ↔ _
  rw [Option.map_eq_some_iff]
  constructor
  · rintro ⟨a, ha, rfl⟩
    rw [ha, e.symm_apply_apply]
  · intro h
    exact ⟨_, h, e.apply_symm_apply b⟩

theorem Codec.checked_load_eq_some {c : Codec α} {check : α → Bool}
    {h : ∀ a, check (c.back a) = check a} {j : Json} {a : {a // check a = true}}
    (hload : (c.checked check h).load j = some a) : c.load j = some a.1 := by
  obtain ⟨b, hb, hcheck⟩ := Option.bind_eq_some_iff.1 hload
  split at hcheck
  · cases hcheck
    exact hb
  · cases hcheck

end

/-- What a list of keys with values holds at one of the keys. -/
theorem lookup_filterMap {α : Type} {keys : List String} {value : String → Option α} {key : String}
    (h : key ∈ keys) :
    (keys.filterMap fun k => (value k).map fun v => (k, v)).lookup key = value key := by
  induction keys with
  | nil => cases h
  | cons k keys ih =>
    rw [List.filterMap_cons]
    by_cases hk : key = k
    · subst hk
      cases hvalue : value key with
      | some v => simp
      | none =>
        simp only [Option.map_none]
        by_cases hlater : key ∈ keys
        · rw [ih hlater, hvalue]
        · rw [List.lookup_eq_none_iff]
          intro entry hentry
          obtain ⟨k, hk, hentry⟩ := List.mem_filterMap.1 hentry
          obtain ⟨v, _, rfl⟩ := Option.map_eq_some_iff.1 hentry
          simp only [bne_iff_ne, ne_eq]
          rintro rfl
          exact hlater hk
    · have hmem : key ∈ keys := (List.mem_cons.1 h).resolve_left hk
      cases hvalue : value k with
      | some v => simp only [Option.map_some, Dict.lookup_cons_ite, if_neg hk, ih hmem]
      | none => simp only [Option.map_none, ih hmem]

/-! ## Records of bytes -/

/-- The word of the first four bytes. -/
def readWord : List UInt8 → BitVec 32
  | a :: b :: c :: d :: _ =>
    BitVec.ofNat 32 (((a.toNat * 256 + b.toNat) * 256 + c.toNat) * 256 + d.toNat)
  | _ => 0

def writeWord (w : BitVec 32) : List UInt8 :=
  [UInt8.ofNat (w.toNat / 16777216), UInt8.ofNat (w.toNat / 65536), UInt8.ofNat (w.toNat / 256),
    UInt8.ofNat w.toNat]

@[simp] theorem writeWord_length (w : BitVec 32) : (writeWord w).length = 4 := rfl

@[simp] theorem readWord_writeWord (w : BitVec 32) (rest : List UInt8) :
    readWord (writeWord w ++ rest) = w := by
  have hw := w.isLt
  apply BitVec.eq_of_toNat_eq
  simp only [writeWord, List.cons_append, List.nil_append, readWord, BitVec.toNat_ofNat,
    UInt8.toNat_ofNat']
  omega

@[simp] theorem drop_writeWord (w : BitVec 32) (rest : List UInt8) :
    (writeWord w ++ rest).drop 4 = rest := rfl

theorem writeWord_readWord {bytes : List UInt8} (h : 4 ≤ bytes.length) :
    writeWord (readWord bytes) = bytes.take 4 := by
  match bytes, h with
  | a :: b :: c :: d :: rest, _ =>
    have ha := a.toNat_lt
    have hb := b.toNat_lt
    have hc := c.toNat_lt
    have hd := d.toNat_lt
    have hbyte : ∀ (x : UInt8) (n : ℕ), n % 256 = x.toNat → UInt8.ofNat n = x := by
      intro x n hn
      apply UInt8.toNat_inj.1
      rw [UInt8.toNat_ofNat']
      exact hn
    simp only [readWord, writeWord, BitVec.toNat_ofNat, List.take_succ_cons, List.take_zero]
    rw [hbyte a _ (by omega), hbyte b _ (by omega), hbyte c _ (by omega), hbyte d _ (by omega)]

section
variable {α : Type} (width : ℕ) (read : List UInt8 → α) (write : α → List UInt8)

/-- The first `n` records. -/
def unpack : ℕ → List UInt8 → List α
  | 0, _ => []
  | n + 1, bytes => read bytes :: unpack n (bytes.drop width)

def pack (records : List α) : List UInt8 := records.flatMap write

variable {width read write}

theorem pack_length (hwidth : ∀ a, (write a).length = width) (records : List α) :
    (pack write records).length = records.length * width := by
  induction records with
  | nil => simp [pack]
  | cons a records ih =>
    unfold pack at ih ⊢
    rw [List.flatMap_cons, List.length_append, ih, hwidth, List.length_cons, Nat.succ_mul, Nat.add_comm]

theorem unpack_pack (hwidth : ∀ a, (write a).length = width)
    (hread : ∀ a rest, read (write a ++ rest) = a) (records : List α) :
    unpack width read records.length (pack write records) = records := by
  induction records with
  | nil => rfl
  | cons a records ih =>
    unfold pack at ih ⊢
    rw [List.flatMap_cons, List.length_cons, unpack, hread, List.drop_left' (hwidth a), ih]

theorem pack_unpack (hwrite : ∀ bytes, width ≤ bytes.length → write (read bytes) = bytes.take width)
    (n : ℕ) {bytes : List UInt8} (hlength : bytes.length = n * width) :
    pack write (unpack width read n bytes) = bytes := by
  induction n generalizing bytes with
  | zero =>
    rw [Nat.zero_mul] at hlength
    rw [List.length_eq_zero_iff.1 hlength]
    rfl
  | succ n ih =>
    rw [Nat.succ_mul] at hlength
    have hrest : (bytes.drop width).length = n * width := by
      rw [List.length_drop]
      omega
    have hpacked := ih hrest
    unfold pack at hpacked ⊢
    rw [unpack, List.flatMap_cons, hpacked, hwrite bytes (by omega), List.take_append_drop]

theorem unpack_length (n : ℕ) (bytes : List UInt8) : (unpack width read n bytes).length = n := by
  induction n generalizing bytes with
  | zero => rfl
  | succ n ih => rw [unpack, List.length_cons, ih]

end

end Matrades.Base
