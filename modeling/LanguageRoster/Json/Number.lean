import LanguageRoster.Json.Basic

/-!
# Numbers of a JSON document

A number is read digit by digit. Its first digits are collected as long as they fit in 64 bits; what is dropped of the
digits behind them only moves the point.

* `Json.Number` : what has been read of a number; `Number.next` reads one character more
* `Json.Number.value?` : the number, unless it is out of range
-/

namespace LanguageRoster.Json

set_option autoImplicit false

/-- The greatest natural number that stays an integer, the last of 64 bits; no further digits are collected beyond
it. -/
def greatestInteger : Nat := 0xFFFFFFFFFFFFFFFF

def leastInteger : Nat := 0x8000000000000000

def greatestExponent : Nat := 0x7FFFFFFF

/-- What has been read of a number, without its sign. -/
inductive Number where
  | sign
  | zero
  | whole (n : Nat)
  | long (n dropped : Nat)
  /-- Behind the point: `n * 10 ^ (dropped - places)`. -/
  | decimals (n dropped places : Nat)
  /-- Behind the point, more digits than fit: `n * 10 ^ e`. -/
  | longDecimals (n : Nat) (e : Int)
  | mark (n : Nat) (e : Int)
  | markSign (n : Nat) (e : Int) (down : Bool)
  | exponent (n : Nat) (e : Int) (down : Bool) (x : Nat)
  /-- An exponent too great for all numbers but zero, or too small for all. -/
  | vanishing
  deriving DecidableEq, Repr

namespace Number

def digit? (c : Char) : Option Nat := if c.isDigit then some (c.toNat - '0'.toNat) else none

inductive Fault where
  | invalid
  | outOfRange

def nextMark (n : Nat) (e : Int) (c : Char) : Option Number := if c = 'e' ∨ c = 'E' then some (.mark n e) else none

def nextPoint (n dropped : Nat) (c : Char) : Option Number :=
  if c = '.' then some (.decimals n dropped 0) else nextMark n dropped c

def nextExponent (n : Nat) (e : Int) (down : Bool) (x d : Nat) : Except Fault Number :=
  if x * 10 + d ≤ greatestExponent then .ok (.exponent n e down (x * 10 + d))
  else if n ≠ 0 ∧ !down then .error .outOfRange
  else .ok .vanishing

/-- Reads one character more; nothing is left to read if the number ends before the character. -/
def next (s : Number) (c : Char) : Except Fault (Option Number) :=
  match s, digit? c with
  | .sign, some d => .ok (if d = 0 then some .zero else some (.whole d))
  | .sign, none => .error .invalid
  | .zero, some _ => .error .invalid
  | .zero, none => .ok (nextPoint 0 0 c)
  | .whole n, some d => .ok (if n * 10 + d ≤ greatestInteger then some (.whole (n * 10 + d)) else some (.long n 1))
  | .whole n, none => .ok (nextPoint n 0 c)
  | .long n dropped, some _ => .ok (some (.long n (dropped + 1)))
  | .long n dropped, none => .ok (nextPoint n dropped c)
  | .decimals n dropped places, some d =>
    .ok (if n * 10 + d ≤ greatestInteger then some (.decimals (n * 10 + d) dropped (places + 1))
      else some (.longDecimals n (dropped - places)))
  | .decimals _ _ 0, none => .error .invalid
  | .decimals n dropped places, none => .ok (nextMark n (dropped - places) c)
  | .longDecimals n e, some _ => .ok (some (.longDecimals n e))
  | .longDecimals n e, none => .ok (nextMark n e c)
  | .mark n e, some d => some <$> nextExponent n e false 0 d
  | .mark n e, none =>
    if c = '+' then .ok (some (.markSign n e false))
    else if c = '-' then .ok (some (.markSign n e true))
    else .error .invalid
  | .markSign n e down, some d => some <$> nextExponent n e down 0 d
  | .markSign .., none => .error .invalid
  | .exponent n e down x, some d => some <$> nextExponent n e down x d
  | .exponent .., none => .ok none
  | .vanishing, some _ => .ok (some .vanishing)
  | .vanishing, none => .ok none

def complete : Number → Bool
  | .sign | .decimals _ _ 0 | .mark .. | .markSign .. => false
  | _ => true

/-! ## The value -/

/-- The magnitude times `10 ^ e`, rounded once for every power of ten that it is multiplied with or divided by: these
reach up to `10 ^ 308`. -/
def shifted? : (fuel : Nat) → Binary64 → Int → Option Binary64
  | 0, x, _ => some x
  | fuel + 1, x, e =>
    if x.significand = 0 then some x
    else if e < -308 then do shifted? fuel (← x.over? (← Binary64.powerOfTen? 308)) (e + 308)
    else if e < 0 then do x.over? (← Binary64.powerOfTen? (-e).toNat)
    else if e ≤ 308 then do x.times? (← Binary64.powerOfTen? e.toNat)
    else none

def float? (negative : Bool) (n : Nat) (e : Int) : Option Json := do
  let x ← shifted? 4 (← Binary64.nearest? n 1) e
  return .float (x.withSign negative)

def whole? (negative : Bool) (n : Nat) : Option Json :=
  if !negative then some (.integer n)
  else if n ≠ 0 ∧ n ≤ leastInteger then some (.integer (-n))
  else float? true n 0

def value? (negative : Bool) : Number → Option Json
  | .sign | .mark .. | .markSign .. => none
  | .zero => whole? negative 0
  | .whole n => whole? negative n
  | .long n dropped => float? negative n dropped
  | .decimals n dropped places => float? negative n (dropped - places)
  | .longDecimals n e => float? negative n e
  | .exponent n e down x => float? negative n (if down then e - x else e + x)
  | .vanishing => some (.float (Binary64.zero negative))

end Number

end LanguageRoster.Json
