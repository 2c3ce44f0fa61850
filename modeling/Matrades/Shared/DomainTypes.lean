import Mathlib.Data.Rat.Floor
import Matrades.Base.Decimal

/-!
# Value types shared by the services

Identifiers, instants and the enumerations of `packages/shared/domain_types.py`, with the texts
(`value`) they have in stored records and on the wire. An instant is its microseconds since the
epoch, UTC. Decimals are exact rationals; `roundDown` is the source's rounding to an increment.
-/

namespace Matrades

open Base

/-! ## Identifiers -/

structure Uuid where
  bits : BitVec 128
  deriving DecidableEq, Repr

namespace Uuid

/-- The `len` low hexadecimal digits of `n`, most significant first. -/
def hexDigits : Nat → Nat → List Char
  | 0, _ => []
  | len + 1, n => hexDigits len (n / 16) ++ [Nat.digitChar (n % 16)]

/-- `str(uuid)`: 8-4-4-4-12 hexadecimal digits. -/
def chars (u : Uuid) : List Char :=
  let h := hexDigits 32 u.bits.toNat
  h.take 8 ++ '-' :: ((h.drop 8).take 4 ++ '-' :: ((h.drop 12).take 4 ++ '-' ::
    ((h.drop 16).take 4 ++ '-' :: h.drop 20)))

def str (u : Uuid) : String := String.ofList u.chars

/-- The identifier with the given low bits. -/
def ofNat (n : Nat) : Uuid := ⟨BitVec.ofNat 128 n⟩

def hexValue (c : Char) : Option Nat :=
  if c.isDigit then some (c.toNat - '0'.toNat)
  else if 'a' ≤ c ∧ c ≤ 'f' then some (c.toNat - 'a'.toNat + 10)
  else if 'A' ≤ c ∧ c ≤ 'F' then some (c.toNat - 'A'.toNat + 10)
  else none

/-- Is the text hyphenated as 8-4-4-4-12? -/
def hyphenated (cs : List Char) : Bool :=
  cs.length = 36 && [8, 13, 18, 23].all fun i => cs[i]? = some '-'

/-- `UUID(text)`: hyphenated or plain hexadecimal digits. -/
def parse? (cs : List Char) : Option Uuid :=
  let digits := if hyphenated cs then cs.filter (· ≠ '-') else cs
  if digits.length = 32 then
    (digits.mapM hexValue).map fun ds => ofNat (ds.foldl (fun n d => 16 * n + d) 0)
  else none

example : parse? (ofNat 0x1234).chars = some (ofNat 0x1234) := by decide

@[simp] theorem hexDigits_length (len n : Nat) : (hexDigits len n).length = len := by
  induction len generalizing n with
  | zero => rfl
  | succ len ih => simp [hexDigits, ih]

theorem chars_length (u : Uuid) : u.chars.length = 36 := by
  simp [chars]

/-- The text of an identifier is never the text of a missing one. -/
theorem str_ne_none (u : Uuid) : u.str ≠ "None" := by
  intro h
  have hc : u.chars = "None".toList := by
    rw [← h, str, String.toList_ofList]
  have hl := chars_length u
  rw [hc] at hl
  exact absurd hl (by decide)

end Uuid

/-- `str(value)` of an optional identifier. -/
def strOption : Option Uuid → String
  | some u => u.str
  | none => "None"

/-! ## Instants -/

/-- Microseconds since the epoch. -/
abbrev Time := Nat

def second : Time := 1000000

def minute : Time := 60 * second

/-- Two digits, zero padded. -/
def twoDigits (n : Nat) : List Char := [Nat.digitChar (n / 10 % 10), Nat.digitChar (n % 10)]

/-- Year, month and day of a day number since the epoch. -/
def civil (days : Nat) : Nat × Nat × Nat :=
  let z := days + 719468
  let doe := z % 146097
  let yoe := (doe - doe / 1460 + doe / 36524 - doe / 146096) / 365
  let doy := doe - (365 * yoe + yoe / 4 - yoe / 100)
  let mp := (5 * doy + 2) / 153
  let m := if mp < 10 then mp + 3 else mp - 9
  (yoe + z / 146097 * 400 + (if m ≤ 2 then 1 else 0), m, doy - (153 * mp + 2) / 5 + 1)

/-- The text of an instant with whole seconds, as JSON serialisation writes it. -/
def isoTime (t : Time) : List Char :=
  let s := t / second
  let (y, m, d) := civil (s / 86400)
  twoDigits (y / 100) ++ twoDigits y ++ '-' :: (twoDigits m ++ '-' :: (twoDigits d ++ 'T' ::
    (twoDigits (s % 86400 / 3600) ++ ':' :: (twoDigits (s % 3600 / 60) ++ ':' ::
      (twoDigits (s % 60) ++ ['Z'])))))

example : isoTime (1767225600 * second) = "2026-01-01T00:00:00Z".toList := by decide

/-! ## Decimals -/

/-- `round_down`: an increment must be positive. -/
def roundDown (value increment : ℚ) : Except String ℚ :=
  if increment ≤ 0 then .error "increment must be positive" else .ok (floorTo value increment)

/-! ## Enumerations -/

inductive AssetClass
  | forex | metals | cryptocurrency | stocks
  deriving DecidableEq, Repr

def AssetClass.value : AssetClass → String
  | forex => "FOREX"
  | metals => "METALS"
  | cryptocurrency => "CRYPTOCURRENCY"
  | stocks => "STOCKS"

inductive InstrumentType
  | spot | cfd | futures
  deriving DecidableEq, Repr

def InstrumentType.value : InstrumentType → String
  | spot => "SPOT"
  | cfd => "CFD"
  | futures => "FUTURES"

inductive QuantityUnit
  | units | shares | lots | contracts
  deriving DecidableEq, Repr

def QuantityUnit.value : QuantityUnit → String
  | units => "UNITS"
  | shares => "SHARES"
  | lots => "LOTS"
  | contracts => "CONTRACTS"

inductive Direction
  | buy | sell
  deriving DecidableEq, Repr

def Direction.value : Direction → String
  | buy => "BUY"
  | sell => "SELL"

inductive ExecutionAction
  | placeOrder | cancelOrder | setOrChangeStopLoss | setOrChangeTakeProfit | partialClose | fullExit
  deriving DecidableEq, Repr

def ExecutionAction.value : ExecutionAction → String
  | placeOrder => "PLACE_ORDER"
  | cancelOrder => "CANCEL_ORDER"
  | setOrChangeStopLoss => "SET_OR_CHANGE_STOP_LOSS"
  | setOrChangeTakeProfit => "SET_OR_CHANGE_TAKE_PROFIT"
  | partialClose => "PARTIAL_CLOSE"
  | fullExit => "FULL_EXIT"

inductive TradePlanState
  | constructed | validating | blocked | ready | authorized | executionPending | executing | active
  | expired | cancelled | revalidationRequired
  deriving DecidableEq, Repr

inductive CommandState
  | created | validating | blocked | authorized | queued | dispatching | acknowledged
  | partiallyApplied | applied | rejected | superseded | outcomeUnknown | reconciling
  | noEffectConfirmed | blockedAmbiguous | expired
  deriving DecidableEq, Repr

def CommandState.value : CommandState → String
  | created => "CREATED"
  | validating => "VALIDATING"
  | blocked => "BLOCKED"
  | authorized => "AUTHORIZED"
  | queued => "QUEUED"
  | dispatching => "DISPATCHING"
  | acknowledged => "ACKNOWLEDGED"
  | partiallyApplied => "PARTIALLY_APPLIED"
  | applied => "APPLIED"
  | rejected => "REJECTED"
  | superseded => "SUPERSEDED"
  | outcomeUnknown => "OUTCOME_UNKNOWN"
  | reconciling => "RECONCILING"
  | noEffectConfirmed => "NO_EFFECT_CONFIRMED"
  | blockedAmbiguous => "BLOCKED_AMBIGUOUS"
  | expired => "EXPIRED"

inductive OutcomeCertainty
  | none | uncertain | confirmed
  deriving DecidableEq, Repr

end Matrades
