import LanguageRoster.Text.Basic
import LanguageRoster.Decimal.Binary64

/-!
# The shortest decimal of a binary fraction

Among the decimals that round to a given number, `Binary64.shortest` takes one with the fewest digits, and of those the
nearest. `DecimalStyle` says how such a decimal is written.
-/

namespace LanguageRoster

set_option autoImplicit false

/-- The decimal `0.d₁d₂… * 10 ^ point`. -/
structure Digits where
  digits : Text
  point : Int
  deriving DecidableEq, Repr

/-- Where a decimal in the middle between two of the shortest ones goes. -/
inductive Tie where
  | toEven
  | up
  deriving DecidableEq, Repr

namespace Binary64

/-- The interval of the numbers that round to `x`, and `x` itself, as numerators over four times the denominator of
its ratio. The interval is narrower below a power of two. -/
def interval (x : Binary64) : Nat × Nat × Nat :=
  let unit := (scaled 1 1 (-x.exponent)).1
  let value := 4 * (x.significand * unit)
  let below := if x.significand = Nat.pow 2 (precision - 1) ∧ leastExponent < x.exponent then unit else 2 * unit
  (value - below, value, value + 2 * unit)

/-- The number of digits before the point of a quotient of at least one, by trial from `k` on. -/
def wholeDigits (num den : Nat) : (fuel k : Nat) → Nat
  | 0, k => k
  | fuel + 1, k => if num < den * Nat.pow 10 k then k else wholeDigits num den fuel (k + 1)

/-- The number of zeros behind the point of a quotient below one, by trial from `k` on. -/
def leadingZeros (num den : Nat) : (fuel k : Nat) → Nat
  | 0, k => k
  | fuel + 1, k => if den ≤ num * Nat.pow 10 (k + 1) then k else leadingZeros num den fuel (k + 1)

def pointOf (num den : Nat) : Int :=
  if den ≤ num then wholeDigits num den 310 1 else -leadingZeros num den 325 0

/-- The decimal of `n` digits that rounds to `x`, if there is one; of two, the nearer. -/
def ofDigits? (tie : Tie) (x : Binary64) (point : Int) (n : Nat) : Option Nat :=
  let (low, value, high) := x.interval
  let den := 4 * x.ratio.2
  let shift := point - n
  let grid := if 0 ≤ shift then den * Nat.pow 10 shift.toNat else den
  let lift := if 0 ≤ shift then 1 else Nat.pow 10 (-shift).toNat
  let floor := value * lift / grid
  let fits (k : Nat) : Bool :=
    if x.significand % 2 = 0 then low * lift ≤ k * grid ∧ k * grid ≤ high * lift
    else low * lift < k * grid ∧ k * grid < high * lift
  match fits floor, fits (floor + 1) with
  | false, false => none
  | true, false => some floor
  | false, true => some (floor + 1)
  | true, true =>
    let twice := 2 * (value * lift)
    let middle := (2 * floor + 1) * grid
    if twice < middle then some floor
    else if middle < twice then some (floor + 1)
    else match tie with
      | .up => some (floor + 1)
      | .toEven => some (if floor % 2 = 0 then floor else floor + 1)

/-- The first of the numbers of digits from `n` on with which a decimal rounds to `x`. -/
def digitsFrom (tie : Tie) (x : Binary64) (point : Int) : (fuel n : Nat) → Digits
  | 0, _ => ⟨['0'], point⟩
  | fuel + 1, n =>
    match x.ofDigits? tie point n with
    | some k => ⟨Text.dropEnd (· == '0') (Text.ofNat k), if k = Nat.pow 10 n then point + 1 else point⟩
    | none => digitsFrom tie x point fuel (n + 1)

def shortest (tie : Tie) (x : Binary64) : Digits :=
  if x.significand = 0 then ⟨['0'], 1⟩
  else digitsFrom tie x (pointOf x.ratio.1 x.ratio.2) 17 1

end Binary64

/-! ## Writing decimals -/

structure DecimalStyle where
  tie : Tie
  pointed : Bool
  /-- The positions of the point that are written without an exponent; without bounds, all are. -/
  plain : Option (Int × Int)

namespace DecimalStyle

def positional (pointed : Bool) (d : Digits) : Text :=
  let count : Int := d.digits.length
  if d.point ≤ 0 then ['0', '.'] ++ List.replicate (-d.point).toNat '0' ++ d.digits
  else if count ≤ d.point then
    d.digits ++ List.replicate (d.point - count).toNat '0' ++ if pointed then ['.', '0'] else []
  else d.digits.take d.point.toNat ++ '.' :: d.digits.drop d.point.toNat

/-- The decimal with one digit before the point and a signed exponent. -/
def scientific (d : Digits) : Text :=
  let e := d.point - 1
  let whole := d.digits.take 1
  let rest := d.digits.drop 1
  whole ++ (if rest = [] then [] else '.' :: rest) ++ 'e' :: (if e < 0 then [] else ['+']) ++ Text.ofInt e

def write (f : DecimalStyle) (x : Binary64) : Text :=
  let d := x.shortest f.tie
  let inPlain := f.plain.all fun (low, high) => low ≤ d.point ∧ d.point ≤ high
  (if x.negative then ['-'] else []) ++ if inPlain then positional f.pointed d else scientific d

end DecimalStyle

end LanguageRoster
