import Matrades.Base.Scan
import Matrades.Bridge.Advisor
import Matrades.Bridge.Proof.Envelope

/-!
# The advisor decodes what the bridge encodes

A poll answers with the compact JSON text of its objects. The advisor cuts the text at closing braces and
finds a field by its marker. Over plain commands (`PlainCommand`) it cuts exactly one text per command, and
its readers find the values of the command's own fields (`poll_decoded`): a string as the encoder writes
it, so with its control characters escaped, and a number exactly.
-/

namespace Matrades

open Base

/-! ## What is read -/

/-- The fields that are read as text. -/
def textFields : List String :=
  ["command_id", "account_id", "idempotency_key", "action", "authorization_digest", "instrument",
    "direction"]

/-- The fields that are read as a number. -/
def numberFields : List String :=
  ["quantity", "stop_loss", "take_profit", "max_loss_account_currency"]

/-- A decimal string: a numeral and nothing else. -/
def DecimalText (s : String) (value : ℚ) : Prop :=
  s.toList.all numeralChar = true ∧ scanNumber s.toList = some (value, [])

/-- The number that a value carries. -/
def CarriesNumber (value : Json) (number : ℚ) : Prop :=
  (∃ n, value = .num n ∧ n.value = number) ∨ ∃ s, value = .str s ∧ DecimalText s number

/-- Is the value a string or a number? -/
def textOrNumber : Json → Bool
  | .str _ | .num _ => true
  | _ => false

/-- The readers give what the object carries: a string as it is written, exactly without control
characters, a number exactly, and nothing where it carries none. -/
structure Decodes (command : List Char) (object : Dict String Json) : Prop where
  text : ∀ key ∈ textFields, ∀ s, object.get? key = some (.str s) →
    jsonString command key = Json.inner s
  exact : ∀ key ∈ textFields, ∀ s, object.get? key = some (.str s) → (∀ c ∈ s.toList, 32 ≤ c.toNat) →
    jsonString command key = s.toList
  noText : ∀ key ∈ textFields, (∀ s, object.get? key ≠ some (.str s)) → jsonString command key = []
  number : ∀ key ∈ numberFields, ∀ value ∈ object.get? key, ∀ number, CarriesNumber value number →
    jsonNumber command key = number
  noNumber : ∀ key ∈ numberFields, (∀ value ∈ object.get? key, textOrNumber value = false) →
    jsonNumber command key = 0

/-! ## The readers on an object -/

/-- The text of a command, from its first field to its closing brace. -/
def objectText (object : Dict String Json) : List Char := Json.writeFields object.entries ++ ['}']

section
variable {object : Dict String Json} {key : String} {value : Json}

/-- An entry of an object among the others, which have other keys. -/
theorem entries_split (h : object.get? key = some value) : ∃ before fields,
    object.entries = before ++ (key, value) :: fields ∧
      ∀ field ∈ before ++ fields, field.1 ≠ key := by
  obtain ⟨before, fields, hentries⟩ := List.append_of_mem (Dict.mem_of_lookup h)
  refine ⟨before, fields, hentries, fun field hfield heq => ?_⟩
  have hnodup := object.nodup
  rw [hentries, List.map_append, List.map_cons] at hnodup
  have hnot := (List.nodup_middle.1 hnodup).notMem
  rw [← List.map_append] at hnot
  exact hnot (List.mem_map.2 ⟨field, hfield, heq⟩)

theorem plain_split {before fields : List (String × Json)}
    (h : object.entries = before ++ (key, value) :: fields)
    (hplain : Json.PlainFields object.entries) :
    Json.PlainFields (before ++ fields) ∧ Json.PlainFields before ∧ value.Plain := by
  rw [h] at hplain
  refine ⟨fun field hfield => hplain field ?_, fun field hfield => hplain field ?_,
    (hplain (key, value) (by simp)).2⟩
  · rcases List.mem_append.1 hfield with hmem | hmem
    · exact List.mem_append_left _ hmem
    · exact List.mem_append_right _ (List.mem_cons_of_mem _ hmem)
  · exact List.mem_append_left _ hfield

/-- The text of the value with what follows it. -/
theorem after_value (hkey : Markable key.toList) (hplain : Json.PlainFields object.entries)
    (h : object.get? key = some value) : ∃ fields, ∀ start tail,
      Json.write value ++ Json.closing fields [] = start ++ tail →
        after (marker key.toList start) (objectText object) = some tail := by
  obtain ⟨before, fields, hentries, hother⟩ := entries_split h
  obtain ⟨-, hbefore, -⟩ := plain_split hentries hplain
  refine ⟨fields, fun start tail hstart => ?_⟩
  unfold objectText
  rw [hentries]
  exact Json.after_present hkey hbefore (fun f hf => hother f (List.mem_append_left _ hf)) hstart

/-- No other text is found behind a key's marker. -/
theorem after_eq_none {start : List Char} (hkey : Markable key.toList)
    (hplain : Json.PlainFields object.entries)
    (h : ∀ value ∈ object.get? key, ∀ fields, ¬start <+: Json.write value ++ Json.closing fields []) :
    after (marker key.toList start) (objectText object) = none := by
  have hnone : seek (marker key.toList start) (objectText object) = none := by
    have hend : seek (marker key.toList start) ['}'] = none := by
      rw [seek_delimiter (by decide)]
      rfl
    cases hget : object.get? key with
    | none =>
      unfold objectText
      refine (Json.seek_absent hkey hplain (fun field hfield heq => ?_) []).trans hend
      have hmem : key ∈ object.keys := List.mem_map.2 ⟨field, hfield, heq⟩
      rw [← Dict.get?_isSome, hget] at hmem
      cases hmem
    | some value =>
      obtain ⟨before, fields, hentries, hother⟩ := entries_split hget
      obtain ⟨hothers, -, hvalue⟩ := plain_split hentries hplain
      unfold objectText
      rw [hentries]
      exact (Json.seek_otherwise hkey hothers hother hvalue (h value hget fields)).trans hend
  rw [after, hnone]
  rfl

theorem jsonString_some {body rest : List Char}
    (h : after (marker key.toList ['"']) body = some rest) (hquote : rest.contains '"' = true) :
    jsonString body key = upTo (· = '"') rest := by
  have hfound : after ('"' :: key.toList ++ "\":\"".toList) body = some rest := h
  unfold jsonString
  rw [hfound]
  exact if_pos hquote

theorem jsonString_none {body : List Char} (h : after (marker key.toList ['"']) body = none) :
    jsonString body key = [] := by
  have hnone : after ('"' :: key.toList ++ "\":\"".toList) body = none := h
  unfold jsonString
  rw [hnone]

theorem jsonString_text (hkey : Markable key.toList) (hplain : Json.PlainFields object.entries)
    {s : String} (h : object.get? key = some (.str s)) :
    jsonString (objectText object) key = Json.inner s := by
  obtain ⟨fields, hafter⟩ := after_value hkey hplain h
  obtain ⟨before, later, hentries, -⟩ := entries_split h
  have hs : PlainText s := (plain_split hentries hplain).2.2
  have hfound := hafter ['"'] (Json.inner s ++ '"' :: Json.closing fields [])
    (Json.write_str s _)
  have hquote : (Json.inner s ++ '"' :: Json.closing fields []).contains '"' = true := by simp
  rw [jsonString_some hfound hquote]
  refine upTo_append (fun d hd => ?_) (by simp)
  simpa using fun heq : d = '"' => (Json.inner_plain hs).1 (heq ▸ hd)

theorem jsonString_other (hkey : Markable key.toList) (hplain : Json.PlainFields object.entries)
    (h : ∀ s, object.get? key ≠ some (.str s)) : jsonString (objectText object) key = [] := by
  have hnone := @after_eq_none object key ['"'] hkey hplain fun value hvalue fields => by
    obtain ⟨before, later, hentries, -⟩ := entries_split hvalue
    refine Json.write_not_quoted (plain_split hentries hplain).2.2 (fun s heq => ?_) fields []
    exact h s (heq ▸ hvalue)
  exact jsonString_none hnone

theorem jsonNumber_some_quote {body rest : List Char}
    (h : after (marker key.toList []) body = some ('"' :: rest)) :
    jsonNumber body key = toDouble (upTo (· = '"') rest) := by
  have hfound : after ('"' :: key.toList ++ "\":".toList) body = some ('"' :: rest) := h
  unfold jsonNumber
  rw [hfound]
  rfl

theorem jsonNumber_some {body rest : List Char} (h : after (marker key.toList []) body = some rest)
    (hquote : ¬['"'] <+: rest) :
    jsonNumber body key = toDouble (upTo (fun c => c = ',' || c = '}' || c = ']') rest) := by
  have hfound : after ('"' :: key.toList ++ "\":".toList) body = some rest := h
  unfold jsonNumber
  split
  · rename_i tail heq
    rw [hfound] at heq
    cases heq
    exact absurd ⟨tail, rfl⟩ hquote
  · rename_i text _ heq
    rw [hfound] at heq
    cases heq
    rfl
  · rename_i heq
    rw [hfound] at heq
    cases heq

theorem jsonNumber_none {body : List Char} (h : after (marker key.toList []) body = none) :
    jsonNumber body key = 0 := by
  have hnone : after ('"' :: key.toList ++ "\":".toList) body = none := h
  unfold jsonNumber
  rw [hnone]

theorem jsonNumber_absent (hkey : Markable key.toList) (hplain : Json.PlainFields object.entries)
    (h : object.get? key = none) : jsonNumber (objectText object) key = 0 := by
  have hnone := @after_eq_none object key [] hkey hplain fun value hvalue => by
    rw [h] at hvalue
    cases hvalue
  exact jsonNumber_none hnone

/-- A quoted number is read up to its closing quote. -/
theorem jsonNumber_quoted (hkey : Markable key.toList) (hplain : Json.PlainFields object.entries)
    {s : String} (h : object.get? key = some (.str s)) :
    jsonNumber (objectText object) key = toDouble (Json.inner s) := by
  obtain ⟨fields, hafter⟩ := after_value hkey hplain h
  obtain ⟨before, later, hentries, -⟩ := entries_split h
  have hs : PlainText s := (plain_split hentries hplain).2.2
  have hfound := hafter [] _ (Json.write_str s (Json.closing fields []))
  rw [jsonNumber_some_quote hfound, upTo_append (fun d hd => ?_) (by simp)]
  simpa using fun heq : d = '"' => (Json.inner_plain hs).1 (heq ▸ hd)

/-- Any other value is read up to the end of it or of its first item. -/
theorem jsonNumber_unquoted (hkey : Markable key.toList) (hplain : Json.PlainFields object.entries)
    (h : object.get? key = some value) (hnot : ∀ s, value ≠ .str s) : ∃ fields,
      jsonNumber (objectText object) key = toDouble (upTo (fun c => c = ',' || c = '}' || c = ']')
        (Json.write value ++ Json.closing fields [])) := by
  obtain ⟨fields, hafter⟩ := after_value hkey hplain h
  obtain ⟨before, later, hentries, -⟩ := entries_split h
  have hvalue := (plain_split hentries hplain).2.2
  exact ⟨fields, jsonNumber_some (hafter [] _ rfl) (Json.write_not_quoted hvalue hnot fields [])⟩

theorem closing_eq (fields : List (String × Json)) : ∃ c rest, Json.closing fields [] = c :: rest ∧
    (c = ',' ∨ c = '}') := by
  cases fields with
  | nil => exact ⟨'}', [], rfl, .inr rfl⟩
  | cons field fields => exact ⟨',', _, rfl, .inl rfl⟩

/-- A word is read up to what follows it. -/
theorem upTo_word {word rest : List Char} {c : Char} (hword : word.all (fun d => d.isAlpha) = true)
    (hc : c = ',' ∨ c = '}') :
    upTo (fun c => c = ',' || c = '}' || c = ']') (word ++ c :: rest) = word := by
  refine upTo_append (fun d hd => ?_) (by rcases hc with rfl | rfl <;> rfl)
  have halpha := List.all_eq_true.1 hword d hd
  have hne (e : Char) (he : e.isAlpha = false) : d ≠ e := by
    intro heq
    rw [heq, he] at halpha
    cases halpha
  simp [hne ',' (by decide), hne '}' (by decide), hne ']' (by decide)]

theorem jsonNumber_num (hkey : Markable key.toList) (hplain : Json.PlainFields object.entries)
    {n : Numeral} (h : object.get? key = some (.num n)) :
    jsonNumber (objectText object) key = toDouble n.text := by
  obtain ⟨fields, hread⟩ := jsonNumber_unquoted hkey hplain h fun s => by simp
  obtain ⟨c, rest, hclosing, hc⟩ := closing_eq fields
  rw [hread, hclosing, Json.write_num, upTo_append (fun d hd => ?_) (by rcases hc with rfl | rfl <;> rfl)]
  have hne (e : Char) (he : numeralChar e = false) : d ≠ e :=
    fun heq => Json.numeral_not_mem n he (heq ▸ hd)
  simp [hne ',' (by decide), hne '}' (by decide), hne ']' (by decide)]

/-- A boolean, a null or a list is read as 0. -/
theorem jsonNumber_other (hkey : Markable key.toList) (hplain : Json.PlainFields object.entries)
    (h : object.get? key = some value) (hnot : textOrNumber value = false) :
    jsonNumber (objectText object) key = 0 := by
  obtain ⟨before, later, hentries, -⟩ := entries_split h
  have hvalue := (plain_split hentries hplain).2.2
  obtain ⟨fields, hread⟩ := jsonNumber_unquoted hkey hplain h fun s heq => by
    rw [heq] at hnot
    cases hnot
  obtain ⟨c, rest, hclosing, hc⟩ := closing_eq fields
  rw [hread, hclosing]
  cases value with
  | null =>
    rw [Json.write_null, upTo_word (by decide) hc]
    decide
  | bool b =>
    rw [Json.write_bool]
    cases b
    · rw [if_neg Bool.false_ne_true, upTo_word (by decide) hc]
      decide
    · rw [if_pos rfl, upTo_word (by decide) hc]
      decide
  | num n => cases hnot
  | str s => cases hnot
  | arr items => rfl
  | obj fields => exact hvalue.elim

end

/-! ## Numbers -/

theorem numeralChar_visible {c : Char} (h : numeralChar c = true) :
    plainChar c = true ∧ 32 ≤ c.toNat ∧ c.isWhitespace = false := by
  have hne (d : Char) (hd : numeralChar d = false) : c ≠ d := by
    intro heq
    rw [heq, hd] at h
    cases h
  refine ⟨?_, ?_, ?_⟩
  · simp [plainChar, hne '"' (by decide), hne '\\' (by decide), hne '}' (by decide)]
  · simp only [numeralChar, Char.isDigit, Bool.or_eq_true, Bool.and_eq_true, decide_eq_true_eq] at h
    rcases h with ((((⟨hdigit, -⟩ | rfl) | rfl) | rfl) | rfl) | rfl
    · have hge : (48 : UInt32).toNat ≤ c.val.toNat := UInt32.le_iff_toNat_le.1 hdigit
      exact le_trans (by decide) hge
    all_goals decide
  · simp [Char.isWhitespace, hne ' ' (by decide), hne '\t' (by decide), hne '\r' (by decide),
      hne '\n' (by decide)]

/-- A numeral is read exactly. -/
theorem toDouble_numeral {cs : List Char} {value : ℚ} (hchars : cs.all numeralChar = true)
    (hscan : scanNumber cs = some (value, [])) : toDouble cs = value := by
  have hstart : cs.dropWhile Char.isWhitespace = cs := by
    cases cs with
    | nil => rfl
    | cons c cs =>
      have hc := (numeralChar_visible (List.all_eq_true.1 hchars c List.mem_cons_self)).2.2
      rw [List.dropWhile_cons, hc]
      rfl
  unfold toDouble
  rw [hstart, hscan]

theorem numeral_scan (n : Numeral) : scanNumber n.text = some (n.value, []) := by
  have hscans := n.scans
  unfold Numeral.value
  cases h : scanNumber n.text with
  | none =>
    rw [h] at hscans
    cases hscans
  | some pair =>
    obtain ⟨value, rest⟩ := pair
    rw [h] at hscans
    have hrest : rest = [] := Option.some.inj hscans
    rw [hrest]
    rfl

theorem DecimalText.inner_eq {s : String} {value : ℚ} (h : DecimalText s value) :
    Json.inner s = s.toList := by
  refine Json.inner_of_unescaped fun c hc => ?_
  obtain ⟨hplain, hge, -⟩ := numeralChar_visible (List.all_eq_true.1 h.1 c hc)
  exact Json.escape_plain hplain hge

/-! ## One object -/

theorem fields_markable : ∀ key ∈ textFields ++ numberFields, Markable key.toList := by
  have hnonempty : ∀ key ∈ textFields ++ numberFields, key.toList ≠ [] := by decide
  have hchars : ∀ key ∈ textFields ++ numberFields, key.toList.all (fun c =>
      plainChar c && decide (32 ≤ c.toNat) && !delimiter c) = true := by decide
  intro key hkey
  have hchar (c : Char) (hc : c ∈ key.toList) := List.all_eq_true.1 (hchars key hkey) c hc
  simp only [plainChar, Bool.and_eq_true, decide_eq_true_eq, Bool.not_eq_true'] at hchar
  refine ⟨hnonempty key hkey, fun c hc => ?_, fun c hc => (hchar c hc).2⟩
  exact ⟨(hchar c hc).1.1.1.1, (hchar c hc).1.1.1.2, (hchar c hc).1.2⟩

/-- The readers on the text of a plain object. -/
theorem decodes_object {object : Dict String Json} (hplain : Json.PlainFields object.entries) :
    Decodes (objectText object) object where
  text key hkey s h := jsonString_text (fields_markable key (List.mem_append_left _ hkey)) hplain h
  exact key hkey s h hcontrol := by
    have hmarkable := fields_markable key (List.mem_append_left _ hkey)
    obtain ⟨before, later, hentries, -⟩ := entries_split h
    rw [jsonString_text hmarkable hplain h]
    exact Json.inner_eq (plain_split hentries hplain).2.2 hcontrol
  noText key hkey h := jsonString_other (fields_markable key (List.mem_append_left _ hkey)) hplain h
  number key hkey value hvalue number hcarries := by
    have hmarkable := fields_markable key (List.mem_append_right _ hkey)
    rcases hcarries with ⟨n, rfl, rfl⟩ | ⟨s, rfl, hdecimal⟩
    · rw [jsonNumber_num hmarkable hplain hvalue]
      exact toDouble_numeral n.chars (numeral_scan n)
    · rw [jsonNumber_quoted hmarkable hplain hvalue, hdecimal.inner_eq]
      exact toDouble_numeral hdecimal.1 hdecimal.2
  noNumber key hkey h := by
    have hmarkable := fields_markable key (List.mem_append_right _ hkey)
    cases hget : object.get? key with
    | none => exact jsonNumber_absent hmarkable hplain hget
    | some value => exact jsonNumber_other hmarkable hplain hget (h value hget)

/-! ## The texts of a response -/

/-- The response of a poll. -/
def pollText (objects : List (Dict String Json)) : List Char :=
  Json.write (.arr (objects.map fun object => .obj object.entries))

theorem commandTexts_cons {response command rest : List Char}
    (h : nextCommand response = some (command, rest)) :
    commandTexts response = command :: commandTexts rest := by
  rw [commandTexts, scanTexts, h]
  simp only [scanTexts_of_lt (nextCommand_length_lt h)]

theorem commandTexts_nil {response : List Char} (h : nextCommand response = none) :
    commandTexts response = [] := by
  rw [commandTexts, scanTexts, h]

/-- An object with a command's id first. -/
structure CommandObject (object : Dict String Json) : Prop where
  first : ∃ id fields, object.entries = ("command_id", .str id) :: fields
  plain : Json.PlainFields object.entries

/-- The first object of a text is cut out at its closing brace. -/
theorem nextCommand_object {object : Dict String Json} (h : CommandObject object) {c : Char}
    (hc : c ≠ '"') (rest : List Char) :
    nextCommand (c :: '{' :: (objectText object ++ rest)) = some (objectText object, rest) := by
  have hbrace : ∀ d ∈ Json.writeFields object.entries, (decide (d = '}')) = false := by
    intro d hd
    simpa using fun heq : d = '}' => Json.fields_no_brace h.plain (heq ▸ hd)
  have htext : objectText object ++ rest = Json.writeFields object.entries ++ '}' :: rest := by
    simp [objectText]
  have hseek : seek commandMarker (c :: '{' :: (objectText object ++ rest)) =
      some (objectText object ++ rest) := by
    obtain ⟨id, fields, hentries⟩ := h.first
    have hkey : Markable "command_id".toList := fields_markable "command_id" (by decide)
    show seek (marker "command_id".toList ['"']) _ = _
    rw [seek_delimiter hc, seek_delimiter (by decide), htext, hentries, Json.writeFields_cons,
      Json.inner_key hkey]
    refine seek_marker ?_
    rw [Json.write_str]
    exact ⟨_, rfl⟩
  have hcontains : (Json.writeFields object.entries ++ '}' :: rest).contains '}' = true := by simp
  unfold nextCommand
  rw [hseek, htext]
  simp only [hcontains, if_true]
  rw [upTo_append hbrace (by decide)]
  have hdrop := @dropWhile_append (fun d => decide (d = '}')) _ rest '}' hbrace (by decide)
  have hsame : (fun d : Char => decide (d ≠ '}')) = fun d => !decide (d = '}') := by
    funext d
    simp
  rw [hsame, hdrop]
  rfl

/-- One text is cut out of a list for each object. -/
theorem commandTexts_items {objects : List (Dict String Json)}
    (h : ∀ object ∈ objects, CommandObject object) {c : Char} (hc : c ≠ '"') :
    commandTexts (c :: (Json.writeItems (objects.map fun object => .obj object.entries) ++ [']'])) =
      objects.map objectText := by
  induction objects generalizing c with
  | nil =>
    refine commandTexts_nil ?_
    have hnone : seek commandMarker (c :: [']']) = none := by
      show seek (marker "command_id".toList ['"']) _ = none
      rw [seek_delimiter hc, seek_delimiter (by decide)]
      rfl
    show nextCommand (c :: [']']) = none
    unfold nextCommand
    rw [hnone]
  | cons object objects ih =>
    have hobject := h object List.mem_cons_self
    have hobjects := fun o ho => h o (List.mem_cons_of_mem object ho)
    have hwrite (rest : List Char) : Json.write (.obj object.entries) ++ rest =
        '{' :: (objectText object ++ rest) := by
      simp [Json.write_obj, objectText]
    cases objects with
    | nil =>
      show commandTexts (c :: (Json.write (.obj object.entries) ++ [']'])) = [objectText object]
      rw [hwrite, commandTexts_cons (nextCommand_object hobject hc _)]
      exact congrArg _ (commandTexts_nil rfl)
    | cons next objects =>
      rw [List.map_cons, List.map_cons, Json.writeItems, List.append_assoc, List.cons_append, hwrite,
        commandTexts_cons (nextCommand_object hobject hc _)]
      exact congrArg _ (ih hobjects (by decide))

/-! ## Commands -/

/-- A command whose strings are plain, whose payload has plain values under keys of its own. -/
structure PlainCommand (c : BridgeCommand) : Prop where
  action : PlainText c.action
  key : PlainText c.idempotencyKey
  state : PlainText c.state
  digest : ∀ digest ∈ c.authorizationDigest, PlainText digest
  version : ∀ version ∈ c.expectedBrokerVersion, PlainText version
  payload : Json.PlainFields c.payload.entries
  disjoint : ∀ key ∈ c.payload.keys, key ∉ (envelope c).keys

theorem hexDigits_plain (len n : Nat) : ∀ c ∈ Uuid.hexDigits len n, plainChar c = true := by
  induction len generalizing n with
  | zero => exact fun c hc => absurd hc List.not_mem_nil
  | succ len ih =>
    intro c hc
    rcases List.mem_append.1 hc with hc | hc
    · exact ih (n / 16) c hc
    · rw [List.mem_singleton.1 hc]
      exact Json.digitChar_plain (n % 16) (by omega)

theorem uuid_plain (u : Uuid) : PlainText u.str := by
  refine List.all_eq_true.2 fun c hc => ?_
  rw [Uuid.str, String.toList_ofList, Uuid.chars] at hc
  have hdigits := hexDigits_plain 32 u.bits.toNat
  have htake {m n : Nat} (h : c ∈ (((Uuid.hexDigits 32 u.bits.toNat).drop m).take n)) :
      plainChar c = true := hdigits c (List.mem_of_mem_drop (List.mem_of_mem_take h))
  simp only [List.mem_append, List.mem_cons] at hc
  rcases hc with hc | rfl | hc | rfl | hc | rfl | hc | rfl | hc
  · exact hdigits c (List.mem_of_mem_take hc)
  · decide
  · exact htake hc
  · decide
  · exact htake hc
  · decide
  · exact htake hc
  · decide
  · exact hdigits c (List.mem_of_mem_drop hc)

theorem twoDigits_plain (n : Nat) : ∀ c ∈ twoDigits n, plainChar c = true := by
  intro c hc
  simp only [twoDigits, List.mem_cons, List.not_mem_nil, or_false] at hc
  rcases hc with rfl | rfl
  · exact Json.digitChar_plain _ (by omega)
  · exact Json.digitChar_plain _ (by omega)

theorem isoTime_plain (t : Time) : PlainText (String.ofList (isoTime t)) := by
  refine List.all_eq_true.2 fun c hc => ?_
  rw [String.toList_ofList] at hc
  simp only [isoTime, List.mem_append, List.mem_cons, List.not_mem_nil, or_false] at hc
  rcases hc with (hc | hc) | rfl | hc | rfl | hc | rfl | hc | rfl | hc | rfl | hc | rfl
  all_goals first
    | exact twoDigits_plain _ c hc
    | decide

theorem envelope_entries (c : BridgeCommand) : (envelope c).entries = [
    ("command_id", .str c.commandId.str),
    ("account_id", .str c.accountId.str),
    ("action", .str c.action),
    ("idempotency_key", .str c.idempotencyKey),
    ("authorization_id", optionJson (c.authorizationId.map Uuid.str)),
    ("authorization_digest", optionJson c.authorizationDigest),
    ("expected_broker_version", optionJson c.expectedBrokerVersion),
    ("state", .str c.state),
    ("lease_expires_at", optionJson (c.leaseExpiresAt.map fun t => String.ofList (isoTime t)))] := by
  refine Dict.entries_ofList ?_
  simp only [List.map]
  decide

theorem optionJson_plain {value : Option String} (h : ∀ s ∈ value, PlainText s) :
    (optionJson value).Plain := by
  cases value with
  | none => trivial
  | some s => exact h s rfl

/-- An envelope is plain. -/
theorem envelope_plain {c : BridgeCommand} (h : PlainCommand c) :
    Json.PlainFields (envelope c).entries := by
  have hkeys : ∀ key ∈ ["command_id", "account_id", "action", "idempotency_key", "authorization_id",
      "authorization_digest", "expected_broker_version", "state", "lease_expires_at"],
      PlainText key := by decide
  have hid : (optionJson (c.authorizationId.map Uuid.str)).Plain := by
    refine optionJson_plain fun s hs => ?_
    obtain ⟨u, -, rfl⟩ := Option.map_eq_some_iff.1 hs
    exact uuid_plain u
  have hlease : (optionJson (c.leaseExpiresAt.map fun t => String.ofList (isoTime t))).Plain := by
    refine optionJson_plain fun s hs => ?_
    obtain ⟨t, -, rfl⟩ := Option.map_eq_some_iff.1 hs
    exact isoTime_plain t
  have hvalues : ∀ field ∈ (envelope c).entries, field.2.Plain := by
    rw [envelope_entries]
    simp only [List.forall_mem_cons, List.not_mem_nil, IsEmpty.forall_iff, implies_true, and_true]
    exact ⟨uuid_plain c.commandId, uuid_plain c.accountId, h.action, h.key, hid,
      optionJson_plain h.digest, optionJson_plain h.version, h.state, hlease⟩
  intro field hfield
  refine ⟨hkeys field.1 ?_, hvalues field hfield⟩
  have hmem : field.1 ∈ (envelope c).entries.map Prod.fst := List.mem_map.2 ⟨field, hfield, rfl⟩
  rw [envelope_entries] at hmem
  exact hmem

/-- The object of a plain command. -/
theorem flatten_object {c : BridgeCommand} (h : PlainCommand c) : CommandObject (flatten c) := by
  have hentries : (flatten c).entries = (envelope c).entries ++ c.payload.entries :=
    Dict.entries_update h.disjoint
  constructor
  · rw [hentries, envelope_entries]
    exact ⟨_, _, rfl⟩
  · rw [hentries]
    intro field hfield
    rcases List.mem_append.1 hfield with hfield | hfield
    · exact envelope_plain h field hfield
    · exact h.payload field hfield

theorem decodes_forall₂ {objects : List (Dict String Json)}
    (h : ∀ object ∈ objects, CommandObject object) :
    List.Forall₂ Decodes (objects.map objectText) objects := by
  induction objects with
  | nil => exact .nil
  | cons object objects ih =>
    exact .cons (decodes_object (h object List.mem_cons_self).plain)
      (ih fun o ho => h o (List.mem_cons_of_mem object ho))

/-- A queued entry for the instrument. -/
def entryFor (instrument : String) : BridgeCommand where
  commandId := .ofNat 30
  accountId := .ofNat 1
  action := "PLACE_ORDER"
  idempotencyKey := "entry:20"
  payload := .ofList [
    ("instrument", .str instrument), ("direction", .str "BUY"), ("quantity", .str "0.10"),
    ("stop_loss", .str "1.05"), ("targets", .arr [.str "1.2", .str "1.3"]), ("take_profit", .str "1.2"),
    ("max_loss_account_currency", .null)]
  authorizationId := some (.ofNat 40)
  authorizationDigest := some "d"
  expectedBrokerVersion := none

def queueOf (c : BridgeCommand) : BridgeCommandQueue :=
  { BridgeCommandQueue.empty with pending := .ofList [(c.commandId, c)] }

theorem entryFor_payload (instrument : String) : (entryFor instrument).payload.entries = [
    ("instrument", .str instrument), ("direction", .str "BUY"), ("quantity", .str "0.10"),
    ("stop_loss", .str "1.05"), ("targets", .arr [.str "1.2", .str "1.3"]), ("take_profit", .str "1.2"),
    ("max_loss_account_currency", .null)] := by
  refine Dict.entries_ofList ?_
  simp only [List.map]
  decide

theorem entryFor_plain {instrument : String} (h : PlainText instrument) (deadline : Time) :
    PlainCommand (BridgeCommandQueue.leased deadline (entryFor instrument)) where
  action := by
    show PlainText "PLACE_ORDER"
    decide
  key := by
    show PlainText "entry:20"
    decide
  state := by
    show PlainText "LEASED"
    decide
  digest := by
    show ∀ digest ∈ some "d", PlainText digest
    decide
  version := by
    show ∀ version ∈ (none : Option String), PlainText version
    decide
  payload := by
    show Json.PlainFields (entryFor instrument).payload.entries
    have hkeys : ∀ key ∈ ["instrument", "direction", "quantity", "stop_loss", "targets", "take_profit",
        "max_loss_account_currency"], PlainText key := by decide
    have htexts : ∀ text ∈ ["BUY", "0.10", "1.05", "1.2", "1.3"], PlainText text := by decide
    unfold Json.PlainFields
    rw [entryFor_payload]
    simp only [List.forall_mem_cons, List.not_mem_nil, IsEmpty.forall_iff, implies_true, and_true] at *
    exact ⟨⟨hkeys.1, h⟩, ⟨hkeys.2.1, htexts.1⟩, ⟨hkeys.2.2.1, htexts.2.1⟩, ⟨hkeys.2.2.2.1, htexts.2.2.1⟩,
      ⟨hkeys.2.2.2.2.1, by
        simp only [Json.Plain, List.forall_mem_cons, List.not_mem_nil, IsEmpty.forall_iff,
          implies_true, and_true]
        exact ⟨htexts.2.2.2.1, htexts.2.2.2.2⟩⟩,
      ⟨hkeys.2.2.2.2.2.1, htexts.2.2.2.1⟩, ⟨hkeys.2.2.2.2.2.2, trivial⟩⟩
  disjoint := by
    show ∀ key ∈ (entryFor instrument).payload.entries.map Prod.fst, key ∉
      (envelope (BridgeCommandQueue.leased deadline (entryFor instrument))).entries.map Prod.fst
    rw [entryFor_payload, envelope_entries]
    simp only [List.map]
    decide

theorem polled_plain {instrument : String} (h : PlainText instrument) :
    ∀ c ∈ ((queueOf (entryFor instrument)).poll 0 (.ofNat 1) (min 10 50)).2, PlainCommand c := by
  intro c hc
  obtain ⟨d, hd, rfl⟩ := List.mem_map.1 hc
  obtain ⟨id, hmem, -⟩ := pollEntries_selected hd
  obtain ⟨-, rfl⟩ := Prod.mk.inj (List.mem_singleton.1 hmem)
  exact entryFor_plain h _

end Matrades
