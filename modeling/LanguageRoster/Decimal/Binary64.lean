/-!
# Binary fractions of double precision

The finite numbers of the binary64 format, in exact arithmetic.

* `Binary64` : a sign, a significand below `2 ^ 53`, and the exponent of its last bit
* `Binary64.nearest?` : the number nearest to a quotient, ties to the even significand; none beyond the largest
* `Binary64.ofDecimal?` : the number nearest to a decimal
* `Binary64.times?`, `Binary64.over?` : product and quotient, rounded to nearest
-/

namespace LanguageRoster

set_option autoImplicit false

/-- A finite number `± significand * 2 ^ exponent`. Below `2 ^ 52` the significand goes with the least exponent, so
that each number has one form. -/
structure Binary64 where
  negative : Bool
  significand : Nat
  exponent : Int
  deriving DecidableEq, Repr

namespace Binary64

def precision : Nat := 53

def leastExponent : Int := -1074

def greatestExponent : Int := 971

def zero (negative : Bool) : Binary64 := ⟨negative, 0, leastExponent⟩

def withSign (negative : Bool) (x : Binary64) : Binary64 := { x with negative }

/-! ## Rounding -/

def roundDiv (num den : Nat) : Nat :=
  let q := num / den
  let r := num % den
  if den < 2 * r ∨ (2 * r = den ∧ q % 2 = 1) then q + 1 else q

def scaled (num den : Nat) (e : Int) : Nat × Nat :=
  if 0 ≤ e then (num, den * Nat.pow 2 e.toNat) else (num * Nat.pow 2 (-e).toNat, den)

/-- The exponent with which the quotient has a full significand, or the least one. -/
def exponentFor (num den : Nat) : Int :=
  let e := max leastExponent ((num.log2 : Int) - den.log2 - precision)
  let (n, d) := scaled num den e
  if n / d < Nat.pow 2 precision then e else e + 1

/-- The number nearest to the quotient, unless it lies beyond the largest. -/
def nearest? (num den : Nat) : Option Binary64 :=
  if num = 0 then some (zero false)
  else
    let e := exponentFor num den
    let (n, d) := scaled num den e
    let m := roundDiv n d
    let x : Binary64 := if m = Nat.pow 2 precision then ⟨false, Nat.pow 2 (precision - 1), e + 1⟩ else ⟨false, m, e⟩
    if x.exponent ≤ greatestExponent then some x else none

def powerOfTen? (e : Nat) : Option Binary64 := nearest? (Nat.pow 10 e) 1

/-- The number nearest to `n * 10 ^ e`, where `n` has `digits` digits. Far beyond either end of the range the power is
not formed. -/
def ofDecimal? (n digits : Nat) (e : Int) : Option Binary64 :=
  if n = 0 ∨ digits + e < -400 then some (zero false)
  else if 400 < digits + e then none
  else if 0 ≤ e then nearest? (n * Nat.pow 10 e.toNat) 1
  else nearest? n (Nat.pow 10 (-e).toNat)

/-! ## Arithmetic of magnitudes -/

def ratio (x : Binary64) : Nat × Nat := scaled x.significand 1 (-x.exponent)

def times? (x y : Binary64) : Option Binary64 := nearest? (x.ratio.1 * y.ratio.1) (x.ratio.2 * y.ratio.2)

def over? (x y : Binary64) : Option Binary64 := nearest? (x.ratio.1 * y.ratio.2) (x.ratio.2 * y.ratio.1)

end Binary64

end LanguageRoster
