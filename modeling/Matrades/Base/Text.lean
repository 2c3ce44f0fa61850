/-!
# Searching in text

Texts are lists of characters. `seek needle text` is the part of `text` that starts with the first
occurrence of `needle`, `after needle text` the part behind it, `upTo stop text` the part before
the first character that satisfies `stop`.
-/

namespace Matrades.Base

/-- The text from the first occurrence of `needle` on. -/
def seek (needle : List Char) : List Char → Option (List Char)
  | [] => if needle.isEmpty then some [] else none
  | c :: cs => if needle.isPrefixOf (c :: cs) then some (c :: cs) else seek needle cs

/-- The text behind the first occurrence of `needle`. -/
def after (needle text : List Char) : Option (List Char) :=
  (seek needle text).map (·.drop needle.length)

/-- The text before the first character satisfying `stop`. -/
def upTo (stop : Char → Bool) (text : List Char) : List Char := text.takeWhile (fun c => !stop c)

/-- The order of sorted texts: the first difference decides, a prefix comes first. -/
def notBehind : List Char → List Char → Bool
  | [], _ => true
  | _ :: _, [] => false
  | c :: cs, d :: ds => c.toNat < d.toNat || (c = d && notBehind cs ds)

theorem seek_suffix {needle text rest : List Char} (h : seek needle text = some rest) :
    rest <:+ text := by
  induction text with
  | nil =>
    unfold seek at h
    split at h
    · cases h; exact List.suffix_refl _
    · cases h
  | cons c cs ih =>
    unfold seek at h
    split at h
    · cases h; exact List.suffix_refl _
    · exact (ih h).trans (List.suffix_cons c cs)

theorem seek_length_le {needle text rest : List Char} (h : seek needle text = some rest) :
    rest.length ≤ text.length := (seek_suffix h).length_le

theorem seek_prefix {needle text rest : List Char} (h : seek needle text = some rest) :
    needle <+: rest := by
  induction text with
  | nil =>
    unfold seek at h
    split at h
    · rename_i hn
      cases h
      simpa using hn
    · cases h
  | cons c cs ih =>
    unfold seek at h
    split at h
    · rename_i hp
      cases h
      exact List.isPrefixOf_iff_prefix.1 hp
    · exact ih h

end Matrades.Base
