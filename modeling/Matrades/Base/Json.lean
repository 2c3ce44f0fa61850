import Mathlib.Data.List.Sort
import Matrades.Base.Decimal
import Matrades.Base.Dict

/-!
# JSON values and their texts

A number carries the numeral it is written with. `Json.eqv` is equality of the values: numbers by
what they denote, a boolean as 0 or 1, objects without regard to order. `Json.write` is the compact
text (no blanks after separators, only the mandatory escapes), `Json.sortedText` the text in ASCII with
sorted keys.
-/

namespace Matrades.Base

/-- Is this a character of a JSON numeral? -/
def numeralChar (c : Char) : Bool :=
  c.isDigit || c = '+' || c = '-' || c = '.' || c = 'e' || c = 'E'

/-- A numeral: its text, which the number scanner reads to the end. -/
structure Numeral where
  text : List Char
  chars : text.all numeralChar = true
  scans : (scanNumber text).map Prod.snd = some []

namespace Numeral

def value (n : Numeral) : ℚ := ((scanNumber n.text).map Prod.fst).getD 0

end Numeral

inductive Json
  | null
  | bool (b : Bool)
  | num (n : Numeral)
  | str (s : String)
  | arr (items : List Json)
  | obj (fields : List (String × Json))

namespace Json

/-! ## Equality of values -/

mutual

def eqv : Json → Json → Bool
  | null, null => true
  | bool a, bool b => a = b
  | bool a, num n => (if a then 1 else 0) = n.value
  | num n, bool a => (if a then 1 else 0) = n.value
  | num a, num b => a.value = b.value
  | str a, str b => a = b
  | arr as, arr bs => eqvItems as bs
  | obj as, obj bs => as.length = bs.length && eqvFields as bs
  | _, _ => false

def eqvItems : List Json → List Json → Bool
  | [], [] => true
  | a :: as, b :: bs => eqv a b && eqvItems as bs
  | _, _ => false

/-- Every field of the first list is in the second, with an equal value. -/
def eqvFields : List (String × Json) → List (String × Json) → Bool
  | [], _ => true
  | (k, v) :: as, bs =>
    (match bs.lookup k with
      | some w => eqv v w
      | none => false) && eqvFields as bs

end

/-- Equality of two dictionaries of values. -/
def eqvDict (d e : Dict String Json) : Bool := eqv (obj d.entries) (obj e.entries)

theorem eqv_str {v : Json} {text : String} (h : eqv v (.str text) = true) : v = .str text := by
  cases v <;> simp_all [eqv]

theorem lookup_of_eqvFields {as bs : List (String × Json)} (h : eqvFields as bs = true)
    {key : String} {v : Json} (hv : (key, v) ∈ as) :
    ∃ w, bs.lookup key = some w ∧ eqv v w = true := by
  induction as with
  | nil => cases hv
  | cons a as ih =>
    obtain ⟨k, u⟩ := a
    rw [eqvFields, Bool.and_eq_true] at h
    rcases List.mem_cons.1 hv with heq | hv
    · cases heq
      cases hw : bs.lookup key with
      | none =>
        rw [hw] at h
        cases h.1
      | some w =>
        rw [hw] at h
        exact ⟨w, rfl, h.1⟩
    · exact ih h.2 hv

/-- A dictionary has the texts of an equal one. -/
theorem eqvDict_text {d e : Dict String Json} (h : eqvDict d e = true) {key text : String}
    (he : e.get? key = some (.str text)) : d.get? key = some (.str text) := by
  unfold eqvDict at h
  rw [eqv, Bool.and_eq_true, decide_eq_true_eq] at h
  obtain ⟨hlength, hfields⟩ := h
  have hsub : d.keys ⊆ e.keys := by
    intro k hk
    obtain ⟨⟨k', v⟩, hmem, rfl⟩ := List.mem_map.1 hk
    obtain ⟨w, hw, _⟩ := lookup_of_eqvFields hfields hmem
    exact Dict.get?_isSome.1 (Option.isSome_iff_exists.2 ⟨w, hw⟩)
  have hperm : d.keys.Perm e.keys := by
    apply (List.Nodup.subperm d.nodup hsub).perm_of_length_le
    simp [Dict.keys, hlength]
  have hkey : key ∈ d.keys :=
    hperm.mem_iff.2 (Dict.get?_isSome.1 (Option.isSome_iff_exists.2 ⟨_, he⟩))
  obtain ⟨⟨key, v⟩, hmem, rfl⟩ := List.mem_map.1 hkey
  obtain ⟨w, hw, heqv⟩ := lookup_of_eqvFields hfields hmem
  have hsame : w = .str text := Option.some.inj (hw.symm.trans he)
  rw [hsame] at heqv
  rw [Dict.get?_of_mem hmem, eqv_str heqv]

/-! ## Looked-up values -/

/-- Is the value missing or null? -/
def absent : Option Json → Bool
  | none => true
  | some null => true
  | _ => false

/-- Is the value this text? -/
def isText (value : Option Json) (text : String) : Bool :=
  match value with
  | some (str s) => s = text
  | _ => false

/-- The decimal the value's own text denotes. -/
def decimal? : Json → Option Dec
  | num n => some (.fin n.value)
  | str s => parseDec s.toList
  | _ => none

/-! ## Text -/

def hexDigit (n : Nat) : Char := Nat.digitChar n

/-- One character of a string, escaped. -/
def escape (c : Char) : List Char :=
  if c = '"' then ['\\', '"']
  else if c = '\\' then ['\\', '\\']
  else if c = '\n' then ['\\', 'n']
  else if c = '\r' then ['\\', 'r']
  else if c = '\t' then ['\\', 't']
  else if c.toNat = 8 then ['\\', 'b']
  else if c.toNat = 12 then ['\\', 'f']
  else if c.toNat < 32 then ['\\', 'u', '0', '0', hexDigit (c.toNat / 16), hexDigit (c.toNat % 16)]
  else [c]

def writeString (s : String) : List Char := '"' :: (s.toList.flatMap escape ++ ['"'])

mutual

def write : Json → List Char
  | null => "null".toList
  | bool true => "true".toList
  | bool false => "false".toList
  | num n => n.text
  | str s => writeString s
  | arr items => '[' :: (writeItems items ++ [']'])
  | obj fields => '{' :: (writeFields fields ++ ['}'])

def writeItems : List Json → List Char
  | [] => []
  | [v] => write v
  | v :: w :: items => write v ++ ',' :: writeItems (w :: items)

def writeFields : List (String × Json) → List Char
  | [] => []
  | [(k, v)] => writeString k ++ ':' :: write v
  | (k, v) :: f :: fields => writeString k ++ ':' :: (write v ++ ',' :: writeFields (f :: fields))

end

theorem write_null : write null = "null".toList := rfl

theorem write_bool (b : Bool) : write (bool b) = (if b then "true" else "false").toList := by
  cases b <;> rfl

theorem write_num (n : Numeral) : write (num n) = n.text := rfl

theorem write_string (s : String) : write (str s) = writeString s := rfl

theorem write_arr (items : List Json) : write (arr items) = '[' :: (writeItems items ++ [']']) := rfl

theorem write_obj (fields : List (String × Json)) :
    write (obj fields) = '{' :: (writeFields fields ++ ['}']) := rfl

/-- The text of a dictionary as an object. -/
def writeDict (d : Dict String Json) : List Char := write (obj d.entries)

/-! ## Sorted text -/

def unicodeEscape (n : Nat) : List Char :=
  ['\\', 'u', hexDigit (n / 4096 % 16), hexDigit (n / 256 % 16), hexDigit (n / 16 % 16),
    hexDigit (n % 16)]

/-- One character of a string in ASCII; one behind the first plane is a pair of surrogates. -/
def escapeAscii (c : Char) : List Char :=
  if c.toNat < 127 then escape c
  else if c.toNat < 65536 then unicodeEscape c.toNat
  else unicodeEscape (55296 + (c.toNat - 65536) / 1024) ++
    unicodeEscape (56320 + (c.toNat - 65536) % 1024)

def writeAscii (s : String) : List Char := '"' :: (s.toList.flatMap escapeAscii ++ ['"'])

mutual

/-- Every object with its fields in the order of their keys. -/
def sortKeys : Json → Json
  | arr items => arr (sortKeysItems items)
  | obj fields => obj ((sortKeysFields fields).insertionSort fun a b => a.1 ≤ b.1)
  | j => j

def sortKeysItems : List Json → List Json
  | [] => []
  | v :: items => sortKeys v :: sortKeysItems items

def sortKeysFields : List (String × Json) → List (String × Json)
  | [] => []
  | (k, v) :: fields => (k, sortKeys v) :: sortKeysFields fields

end

mutual

/-- The text in ASCII, with a blank behind every separator. -/
def dumps : Json → List Char
  | null => "null".toList
  | bool true => "true".toList
  | bool false => "false".toList
  | num n => n.text
  | str s => writeAscii s
  | arr items => '[' :: (dumpsItems items ++ [']'])
  | obj fields => '{' :: (dumpsFields fields ++ ['}'])

def dumpsItems : List Json → List Char
  | [] => []
  | [v] => dumps v
  | v :: w :: items => dumps v ++ ',' :: ' ' :: dumpsItems (w :: items)

def dumpsFields : List (String × Json) → List Char
  | [] => []
  | [(k, v)] => writeAscii k ++ ':' :: ' ' :: dumps v
  | (k, v) :: f :: fields =>
    writeAscii k ++ ':' :: ' ' :: (dumps v ++ ',' :: ' ' :: dumpsFields (f :: fields))

end

/-- `json.dumps(value, sort_keys=True)` -/
def sortedText (value : Json) : List Char := dumps (sortKeys value)

example : sortedText (obj [("b", arr [null, bool true]), ("a", str "é")]) =
    "\x7b\"a\": \"\\u00e9\", \"b\": [null, true]\x7d".toList := by decide

end Json

end Matrades.Base
