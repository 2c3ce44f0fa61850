import Matrades.Base.Json
import Matrades.Base.Text

/-!
# Scanning a JSON text for a key

A reader that looks for the text `"key":` in a compact JSON text, without parsing it. In the text of plain
fields (`Json.Plain`: scalars and lists of scalars whose strings have no quote, no backslash and no closing
brace) such a marker occurs where the field with that key stands and nowhere else, so the search finds the
value of the key (`after_present`) or nothing (`seek_absent`).
-/

namespace Matrades.Base

/-! ## Searching -/

theorem seek_cons_of_not {needle cs : List Char} {c : Char} (h : ¬needle <+: c :: cs) :
    seek needle (c :: cs) = seek needle cs := by
  rw [seek, if_neg]
  rwa [List.isPrefixOf_iff_prefix]

theorem seek_found {needle cs : List Char} {c : Char} (h : needle <+: c :: cs) :
    seek needle (c :: cs) = some (c :: cs) := by
  rw [seek, if_pos (List.isPrefixOf_iff_prefix.2 h)]

/-- A part without the first character of the needle is skipped. -/
theorem seek_skip {d : Char} {ds part rest : List Char} (h : d ∉ part) :
    seek (d :: ds) (part ++ rest) = seek (d :: ds) rest := by
  induction part with
  | nil => rfl
  | cons c part ih =>
    simp only [List.mem_cons, not_or] at h
    rw [List.cons_append, seek_cons_of_not, ih h.2]
    intro hprefix
    exact h.1 (List.cons_prefix_cons.1 hprefix).1

/-- Two quoted texts agree up to their closing quotes only if they are equal. -/
theorem quoted_agree {k s x y : List Char} (hk : '"' ∉ k) (hs : '"' ∉ s) :
    k ++ '"' :: x <+: s ++ '"' :: y ↔ k = s ∧ x <+: y := by
  induction k generalizing s with
  | nil =>
    cases s with
    | nil => simp
    | cons c s =>
      simp only [List.mem_cons, not_or] at hs
      simp [List.cons_prefix_cons, hs.1]
  | cons d k ih =>
    simp only [List.mem_cons, not_or] at hk
    cases s with
    | nil => simp [List.cons_prefix_cons, Ne.symm hk.1]
    | cons c s =>
      simp only [List.mem_cons, not_or] at hs
      simp [List.cons_prefix_cons, ih hk.2 hs.2, and_assoc]

theorem upTo_append {stop : Char → Bool} {part rest : List Char} {c : Char}
    (hpart : ∀ d ∈ part, stop d = false) (hc : stop c = true) :
    upTo stop (part ++ c :: rest) = part := by
  unfold upTo
  rw [List.takeWhile_append_of_pos fun d hd => by simp [hpart d hd]]
  simp [hc]

theorem dropWhile_append {stop : Char → Bool} {part rest : List Char} {c : Char}
    (hpart : ∀ d ∈ part, stop d = false) (hc : stop c = true) :
    (part ++ c :: rest).dropWhile (fun d => !stop d) = c :: rest := by
  rw [List.dropWhile_append_of_pos fun d hd => by simp [hpart d hd]]
  simp [hc]

/-! ## Markers -/

/-- A character behind a token. -/
def delimiter (c : Char) : Bool := c = ',' || c = ':' || c = '}' || c = ']'

/-- A key that is written as it is and has no delimiter. -/
structure Markable (key : List Char) : Prop where
  nonempty : key ≠ []
  unquoted : ∀ c ∈ key, c ≠ '"' ∧ c ≠ '\\' ∧ 32 ≤ c.toNat
  token : ∀ c ∈ key, delimiter c = false

/-- The text `"key":` with what the value starts with. -/
def marker (key start : List Char) : List Char := '"' :: (key ++ '"' :: ':' :: start)

variable {key start : List Char}

theorem Markable.quote_not_mem (hkey : Markable key) : '"' ∉ key :=
  fun h => (hkey.unquoted _ h).1 rfl

/-- No marker starts at a closing quote. -/
theorem Markable.not_prefix_closing (hkey : Markable key) {c : Char} (hc : delimiter c = true)
    (rest : List Char) : ¬marker key start <+: '"' :: c :: rest := by
  intro h
  obtain ⟨-, h⟩ := List.cons_prefix_cons.1 h
  cases key with
  | nil => exact hkey.nonempty rfl
  | cons d key =>
    obtain ⟨hd, -⟩ := List.cons_prefix_cons.1 h
    have hnot := hkey.token d List.mem_cons_self
    rw [hd, hc] at hnot
    cases hnot

/-- A quoted token that is not the marker's is skipped. -/
theorem seek_token (hkey : Markable key) {token rest : List Char} {c : Char} (htoken : '"' ∉ token)
    (hc : delimiter c = true) (hother : token = key → ¬(':' :: start <+: c :: rest)) :
    seek (marker key start) ('"' :: (token ++ '"' :: c :: rest)) =
      seek (marker key start) (c :: rest) := by
  have hopening : ¬marker key start <+: '"' :: (token ++ '"' :: c :: rest) := by
    intro h
    obtain ⟨heq, htail⟩ := (quoted_agree hkey.quote_not_mem htoken).1 (List.cons_prefix_cons.1 h).2
    exact hother heq.symm htail
  rw [seek_cons_of_not hopening, marker, seek_skip htoken, ← marker,
    seek_cons_of_not (hkey.not_prefix_closing hc rest)]

/-- A marker is found at its token. -/
theorem seek_marker {rest : List Char} (h : start <+: rest) :
    seek (marker key start) ('"' :: (key ++ '"' :: ':' :: rest)) =
      some ('"' :: (key ++ '"' :: ':' :: rest)) := by
  refine seek_found ?_
  obtain ⟨tail, rfl⟩ := h
  exact ⟨tail, by simp [marker]⟩

theorem seek_delimiter {c : Char} (hc : c ≠ '"') (rest : List Char) :
    seek (marker key start) (c :: rest) = seek (marker key start) rest :=
  @seek_skip _ _ [c] rest (by simpa using hc.symm)

/-! ## Plain values -/

/-- A character that needs no escape and closes no object. -/
def plainChar (c : Char) : Bool := c ≠ '"' && c ≠ '\\' && c ≠ '}'

def PlainText (s : String) : Prop := s.toList.all plainChar = true

instance (s : String) : Decidable (PlainText s) :=
  inferInstanceAs (Decidable (s.toList.all plainChar = true))

theorem PlainText.char {s : String} (h : PlainText s) {c : Char} (hc : c ∈ s.toList) :
    plainChar c = true := List.all_eq_true.1 h c hc

namespace Json

/-- A scalar, its string plain. -/
def PlainScalar : Json → Prop
  | null | bool _ | num _ => True
  | str s => PlainText s
  | _ => False

/-- A scalar or a list of scalars, the strings plain. -/
def Plain : Json → Prop
  | arr items => ∀ item ∈ items, item.PlainScalar
  | value => value.PlainScalar

/-- Fields with plain keys and values. -/
def PlainFields (fields : List (String × Json)) : Prop :=
  ∀ field ∈ fields, PlainText field.1 ∧ field.2.Plain

theorem digitChar_plain : ∀ n < 16, plainChar (Nat.digitChar n) = true := by decide

/-- An escaped plain character has no quote and no closing brace. -/
theorem mem_escape {c d : Char} (hc : plainChar c = true) (hd : d ∈ escape c) : d ≠ '"' ∧ d ≠ '}' := by
  have hdigit (n : Nat) (hn : n < 16) : hexDigit n ≠ '"' ∧ hexDigit n ≠ '}' := by
    have hplain := digitChar_plain n hn
    simp only [plainChar, Bool.and_eq_true, decide_eq_true_eq] at hplain
    exact ⟨hplain.1.1, hplain.2⟩
  simp only [plainChar, Bool.and_eq_true, decide_eq_true_eq] at hc
  unfold escape at hd
  rw [if_neg hc.1.1, if_neg hc.1.2] at hd
  by_cases hlow : c.toNat < 32
  · have hhigh := hdigit (c.toNat / 16) (by omega)
    have hrest := hdigit (c.toNat % 16) (by omega)
    grind
  · grind

/-- The text between the quotes. -/
def inner (s : String) : List Char := s.toList.flatMap escape

theorem inner_plain {s : String} (h : PlainText s) : '"' ∉ inner s ∧ '}' ∉ inner s := by
  constructor
  · intro hmem
    obtain ⟨c, hc, hd⟩ := List.mem_flatMap.1 hmem
    exact (mem_escape (h.char hc) hd).1 rfl
  · intro hmem
    obtain ⟨c, hc, hd⟩ := List.mem_flatMap.1 hmem
    exact (mem_escape (h.char hc) hd).2 rfl

theorem escape_plain {c : Char} (hc : plainChar c = true) (hge : 32 ≤ c.toNat) : escape c = [c] := by
  simp only [plainChar, Bool.and_eq_true, decide_eq_true_eq] at hc
  have hne (d : Char) (hd : d.toNat < 32) : c ≠ d := by
    intro heq
    rw [heq] at hge
    omega
  rw [escape, if_neg hc.1.1, if_neg hc.1.2, if_neg (hne _ (by decide)), if_neg (hne _ (by decide)),
    if_neg (hne _ (by decide)), if_neg (by omega), if_neg (by omega), if_neg (by omega)]

/-- A control character is escaped. -/
theorem escape_control {c : Char} (hlow : c.toNat < 32) : '\\' ∈ escape c := by
  unfold escape
  grind

theorem inner_of_unescaped {s : String} (h : ∀ c ∈ s.toList, escape c = [c]) : inner s = s.toList := by
  unfold inner
  generalize s.toList = cs at h
  induction cs with
  | nil => rfl
  | cons c cs ih =>
    rw [List.flatMap_cons, h c List.mem_cons_self, ih fun d hd => h d (List.mem_cons_of_mem c hd)]
    rfl

/-- A plain text without control characters is written as it is. -/
theorem inner_eq {s : String} (h : PlainText s) (hcontrol : ∀ c ∈ s.toList, 32 ≤ c.toNat) :
    inner s = s.toList := by
  exact inner_of_unescaped fun c hc => escape_plain (h.char hc) (hcontrol c hc)

/-- A plain text that is written without a backslash is written as it is. -/
theorem inner_eq_of_not_mem {s : String} (h : PlainText s) (hbackslash : '\\' ∉ inner s) :
    inner s = s.toList := by
  refine inner_of_unescaped fun c hc => ?_
  refine escape_plain (h.char hc) (not_lt.1 fun hlow => ?_)
  exact hbackslash (List.mem_flatMap.2 ⟨c, hc, escape_control hlow⟩)

theorem numeral_not_mem (n : Numeral) {c : Char} (hc : numeralChar c = false) : c ∉ n.text := by
  intro hmem
  have hall := List.all_eq_true.1 n.chars c hmem
  rw [hc] at hall
  cases hall

theorem write_str (s : String) (rest : List Char) :
    write (str s) ++ rest = '"' :: (inner s ++ '"' :: rest) := by
  rw [write_string, writeString, inner]
  simp

/-! ## Skipping a value -/

section
variable {key start : List Char}

theorem seek_scalar (hkey : Markable key) {value : Json} (h : value.PlainScalar) {c : Char}
    (hc : delimiter c = true) (hcolon : c ≠ ':') (rest : List Char) :
    seek (marker key start) (write value ++ c :: rest) = seek (marker key start) (c :: rest) := by
  cases value with
  | null => exact seek_skip (by decide)
  | bool b => cases b <;> exact seek_skip (by decide)
  | num n => exact seek_skip (numeral_not_mem n (by decide))
  | str s =>
    rw [write_str]
    refine seek_token hkey (inner_plain h).1 hc fun _ hprefix => ?_
    exact hcolon (List.cons_prefix_cons.1 hprefix).1.symm
  | arr items => exact h.elim
  | obj fields => exact h.elim

theorem seek_items (hkey : Markable key) {items : List Json} (h : ∀ item ∈ items, item.PlainScalar)
    (rest : List Char) : seek (marker key start) (writeItems items ++ ']' :: rest) =
      seek (marker key start) (']' :: rest) := by
  induction items with
  | nil => rfl
  | cons v items ih =>
    have hv := h v List.mem_cons_self
    have hitems := fun item hitem => h item (List.mem_cons_of_mem v hitem)
    cases items with
    | nil => exact seek_scalar hkey hv (by decide) (by decide) rest
    | cons w items =>
      rw [writeItems, List.append_assoc, List.cons_append,
        seek_scalar hkey hv (by decide) (by decide), seek_delimiter (by decide), ih hitems]

theorem seek_value (hkey : Markable key) {value : Json} (h : value.Plain) {c : Char}
    (hc : delimiter c = true) (hcolon : c ≠ ':') (rest : List Char) :
    seek (marker key start) (write value ++ c :: rest) = seek (marker key start) (c :: rest) := by
  cases value with
  | arr items =>
    rw [write_arr, List.cons_append, seek_delimiter (by decide), List.append_assoc, List.singleton_append,
      seek_items hkey h, seek_delimiter (by decide)]
  | null => exact @seek_scalar _ _ hkey null h _ hc hcolon rest
  | bool b => exact @seek_scalar _ _ hkey (bool b) h _ hc hcolon rest
  | num n => exact @seek_scalar _ _ hkey (num n) h _ hc hcolon rest
  | str s => exact @seek_scalar _ _ hkey (str s) h _ hc hcolon rest
  | obj fields => exact @seek_scalar _ _ hkey (obj fields) h _ hc hcolon rest

end

/-! ## Closing braces -/

theorem writeString_no_brace {s : String} (h : PlainText s) : '}' ∉ writeString s := by
  have hinner : '}' ∉ s.toList.flatMap escape := (inner_plain h).2
  simp [writeString, hinner]

theorem scalar_no_brace {value : Json} (h : value.PlainScalar) : '}' ∉ write value := by
  cases value with
  | null => decide
  | bool b => cases b <;> decide
  | num n => exact numeral_not_mem n (by decide)
  | str s => exact writeString_no_brace h
  | arr items => exact h.elim
  | obj fields => exact h.elim

theorem items_no_brace {items : List Json} (h : ∀ item ∈ items, item.PlainScalar) :
    '}' ∉ writeItems items := by
  induction items with
  | nil => exact List.not_mem_nil
  | cons v items ih =>
    have hv := scalar_no_brace (h v List.mem_cons_self)
    have hitems := ih fun item hitem => h item (List.mem_cons_of_mem v hitem)
    cases items with
    | nil => exact hv
    | cons w items => simp [writeItems, hv, hitems]

theorem value_no_brace {value : Json} (h : value.Plain) : '}' ∉ write value := by
  cases value with
  | arr items => simp [write_arr, items_no_brace h]
  | null => exact @scalar_no_brace null h
  | bool b => exact @scalar_no_brace (bool b) h
  | num n => exact @scalar_no_brace (num n) h
  | str s => exact @scalar_no_brace (str s) h
  | obj fields => exact h.elim

/-- Plain fields are written without a closing brace. -/
theorem fields_no_brace {fields : List (String × Json)} (h : PlainFields fields) :
    '}' ∉ writeFields fields := by
  induction fields with
  | nil => exact List.not_mem_nil
  | cons field fields ih =>
    obtain ⟨k, v⟩ := field
    obtain ⟨hk, hv⟩ := h (k, v) List.mem_cons_self
    have hkey := writeString_no_brace hk
    have hvalue := value_no_brace hv
    have hfields := ih fun f hf => h f (List.mem_cons_of_mem _ hf)
    cases fields with
    | nil => simp [writeFields, hkey, hvalue]
    | cons next fields => simp [writeFields, hkey, hvalue, hfields]

/-! ## Finding a field -/

/-- The text behind a value that the fields follow. -/
def closing : List (String × Json) → List Char → List Char
  | [], rest => '}' :: rest
  | field :: fields, rest => ',' :: (writeFields (field :: fields) ++ '}' :: rest)

theorem writeFields_cons (k : String) (v : Json) (fields : List (String × Json)) (rest : List Char) :
    writeFields ((k, v) :: fields) ++ '}' :: rest =
      '"' :: (inner k ++ '"' :: ':' :: (write v ++ closing fields rest)) := by
  cases fields <;> simp [writeFields, writeString, closing, inner]

section
variable {key : String} {start : List Char}

theorem inner_key (hkey : Markable key.toList) : inner key = key.toList := by
  refine inner_of_unescaped fun c hc => ?_
  have hunquoted := hkey.unquoted c hc
  have hbrace : c ≠ '}' := by
    intro heq
    have htoken := hkey.token c hc
    rw [heq] at htoken
    cases htoken
  exact escape_plain (by simp [plainChar, hunquoted, hbrace]) hunquoted.2.2

/-- Only the key itself is written as the key. -/
theorem inner_ne (hkey : Markable key.toList) {k : String} (hk : PlainText k) (hne : k ≠ key) :
    inner k ≠ key.toList := by
  intro heq
  have hbackslash : '\\' ∉ inner k := by
    rw [heq]
    exact fun hmem => (hkey.unquoted _ hmem).2.1 rfl
  rw [inner_eq_of_not_mem hk hbackslash] at heq
  exact hne (String.toList_inj.1 heq)

theorem seek_behind (hkey : Markable key.toList) {v : Json} (hv : v.Plain)
    (fields : List (String × Json)) (rest : List Char) :
    seek (marker key.toList start) (write v ++ closing fields rest) =
      seek (marker key.toList start)
        (if fields.isEmpty then '}' :: rest else writeFields fields ++ '}' :: rest) := by
  cases fields with
  | nil => exact seek_value hkey hv (by decide) (by decide) rest
  | cons field fields =>
    rw [closing, seek_value hkey hv (by decide) (by decide), seek_delimiter (by decide)]
    rfl

/-- A field with another key is skipped. -/
theorem seek_other (hkey : Markable key.toList) {k : String} {v : Json} (hk : PlainText k)
    (hv : v.Plain) (hne : k ≠ key) (fields : List (String × Json)) (rest : List Char) :
    seek (marker key.toList start) (writeFields ((k, v) :: fields) ++ '}' :: rest) =
      seek (marker key.toList start)
        (if fields.isEmpty then '}' :: rest else writeFields fields ++ '}' :: rest) := by
  rw [writeFields_cons, seek_token hkey (inner_plain hk).1 (by decide)
    (fun heq => absurd heq (inner_ne hkey hk hne)), seek_delimiter (by decide), seek_behind hkey hv]

/-- Where no field has the key, nothing is found in the object. -/
theorem seek_absent (hkey : Markable key.toList) {fields : List (String × Json)}
    (hplain : PlainFields fields) (habsent : ∀ field ∈ fields, field.1 ≠ key) (rest : List Char) :
    seek (marker key.toList start) (writeFields fields ++ '}' :: rest) =
      seek (marker key.toList start) ('}' :: rest) := by
  induction fields with
  | nil => rfl
  | cons field fields ih =>
    have hfield := hplain field List.mem_cons_self
    rw [seek_other hkey hfield.1 hfield.2 (habsent field List.mem_cons_self)]
    cases fields with
    | nil => rfl
    | cons next fields =>
      exact ih (fun f hf => hplain f (List.mem_cons_of_mem _ hf))
        fun f hf => habsent f (List.mem_cons_of_mem _ hf)

/-- The fields before the one with the key are skipped. -/
theorem seek_present (hkey : Markable key.toList) {before : List (String × Json)}
    (hplain : PlainFields before) (habsent : ∀ field ∈ before, field.1 ≠ key) (v : Json)
    (fields : List (String × Json)) (rest : List Char) :
    seek (marker key.toList start) (writeFields (before ++ (key, v) :: fields) ++ '}' :: rest) =
      seek (marker key.toList start)
        ('"' :: (key.toList ++ '"' :: ':' :: (write v ++ closing fields rest))) := by
  induction before with
  | nil => rw [List.nil_append, writeFields_cons, inner_key hkey]
  | cons field before ih =>
    have hfield := hplain field List.mem_cons_self
    rw [List.cons_append, seek_other hkey hfield.1 hfield.2 (habsent field List.mem_cons_self),
      if_neg (by simp)]
    exact ih (fun f hf => hplain f (List.mem_cons_of_mem _ hf))
      fun f hf => habsent f (List.mem_cons_of_mem _ hf)

/-- The field with the key is found if its value starts as it should. -/
theorem after_present (hkey : Markable key.toList) {before : List (String × Json)}
    (hplain : PlainFields before) (habsent : ∀ field ∈ before, field.1 ≠ key) {v : Json}
    {fields : List (String × Json)} {rest tail : List Char}
    (hstart : write v ++ closing fields rest = start ++ tail) :
    after (marker key.toList start) (writeFields (before ++ (key, v) :: fields) ++ '}' :: rest) =
      some tail := by
  rw [after, seek_present hkey hplain habsent, hstart, seek_marker ⟨tail, rfl⟩, Option.map_some]
  have happend : '"' :: (key.toList ++ '"' :: ':' :: (start ++ tail)) = marker key.toList start ++ tail := by
    simp [marker]
  rw [happend, List.drop_left]

/-- The field with the key is passed over if its value starts otherwise, and no other is found. -/
theorem seek_otherwise (hkey : Markable key.toList) {before fields : List (String × Json)}
    (hplain : PlainFields (before ++ fields)) (habsent : ∀ field ∈ before ++ fields, field.1 ≠ key)
    {v : Json} (hv : v.Plain) {rest : List Char} (hstart : ¬start <+: write v ++ closing fields rest) :
    seek (marker key.toList start) (writeFields (before ++ (key, v) :: fields) ++ '}' :: rest) =
      seek (marker key.toList start) ('}' :: rest) := by
  have hbefore : PlainFields before := fun f hf => hplain f (List.mem_append_left _ hf)
  have hafter : PlainFields fields := fun f hf => hplain f (List.mem_append_right _ hf)
  rw [seek_present hkey hbefore fun f hf => habsent f (List.mem_append_left _ hf),
    seek_token hkey hkey.quote_not_mem (by decide)
      (fun _ hprefix => hstart (List.cons_prefix_cons.1 hprefix).2),
    seek_delimiter (by decide), seek_behind hkey hv]
  cases fields with
  | nil => rfl
  | cons field fields =>
    exact seek_absent hkey hafter (fun f hf => habsent f (List.mem_append_right _ hf)) rest

/-- A value that is no string does not start with a quote. -/
theorem write_not_quoted {v : Json} (hv : v.Plain) (hnot : ∀ s, v ≠ str s)
    (fields : List (String × Json)) (rest : List Char) : ¬['"'] <+: write v ++ closing fields rest := by
  intro h
  obtain ⟨tail, htail⟩ := h
  have hhead : (write v ++ closing fields rest).head? = some '"' := by
    rw [← htail]
    rfl
  cases v with
  | null => cases hhead
  | bool b => cases b <;> cases hhead
  | num n =>
    have hquote := numeral_not_mem n (c := '"') (by decide)
    cases htext : n.text with
    | nil =>
      rw [write_num, htext] at hhead
      cases fields <;> cases hhead
    | cons c cs =>
      rw [write_num, htext] at hhead
      rw [htext] at hquote
      simp only [List.cons_append, List.head?_cons, Option.some.injEq] at hhead
      exact hquote (by simp [hhead])
  | str s => exact hnot s rfl
  | arr items => cases hhead
  | obj fields => exact hv.elim

end

end Json

end Matrades.Base
