import LanguageRoster.Toml.Basic

/-!
# Numbers, dates and words of TOML

A value without quotes or brackets reaches as far as the characters that may stand in one; `Toml.scalar?` reads it
whole. Only between a date and a time a blank may stand.
-/

namespace LanguageRoster.Toml

set_option autoImplicit false

/-! ## Digits -/

/-- Digits with single underscores between them, without the underscores. -/
def grouped? (isDigit : Char → Bool) : Text → Option Text
  | [] => none
  | [c] => if isDigit c then some [c] else none
  | c :: '_' :: t => if isDigit c then (grouped? isDigit t).map (c :: ·) else none
  | c :: t => if isDigit c then (grouped? isDigit t).map (c :: ·) else none

def digitValue (c : Char) : Nat :=
  if c.isDigit then c.toNat - '0'.toNat
  else if 'a' ≤ c ∧ c ≤ 'f' then c.toNat - 'a'.toNat + 10
  else if 'A' ≤ c ∧ c ≤ 'F' then c.toNat - 'A'.toNat + 10
  else 16

def ofDigits (base : Nat) (t : Text) : Nat := t.foldl (fun n c => n * base + digitValue c) 0

def signed : Text → Bool × Text
  | '-' :: t => (true, t)
  | '+' :: t => (false, t)
  | t => (false, t)

/-- Decimal digits of a whole number, which start with a zero only if it is the only one. -/
def wholeDigits? (t : Text) : Option Text :=
  match grouped? Char.isDigit t with
  | some ('0' :: _ :: _) => none
  | digits => digits

/-! ## Integers -/

def inRange? (n : Int) : Option Toml :=
  if -0x8000000000000000 ≤ n ∧ n < 0x8000000000000000 then some (.integer n) else none

def inBase? (base : Nat) (t : Text) : Option Toml := do
  inRange? (ofDigits base (← grouped? (fun c => digitValue c < base) t))

def integer? (t : Text) : Option Toml :=
  match t with
  | '0' :: 'x' :: t => inBase? 16 t
  | '0' :: 'o' :: t => inBase? 8 t
  | '0' :: 'b' :: t => inBase? 2 t
  | _ => do
    let (negative, t) := signed t
    let n := ofDigits 10 (← wholeDigits? t)
    inRange? (if negative then -n else n)

/-! ## Fractions -/

def exponent? (t : Text) : Option Int := do
  let (negative, t) := signed t
  let n := ofDigits 10 (← grouped? Char.isDigit t)
  return if negative then -n else n

/-- The fraction of the digits before and behind the point and an exponent; those beyond the largest are infinite, and
only with a minus sign allowed. -/
def fraction? (negative : Bool) (whole places : Text) (e : Int) : Option Toml :=
  let digits := (whole ++ places).dropWhile (· == '0')
  match Binary64.ofDecimal? (ofDigits 10 digits) digits.length (e - places.length) with
  | some x => some (.float (.finite (x.withSign negative)))
  | none => if negative then some (.float (.infinite true)) else none

def isMark (c : Char) : Bool := c == 'e' || c == 'E'

def float? (t : Text) : Option Toml := do
  let (negative, t) := signed t
  if t = ['i', 'n', 'f'] then return .float (.infinite negative)
  if t = ['n', 'a', 'n'] then return .float .notANumber
  let inside (c : Char) : Bool := c.isDigit || c == '_'
  let whole ← wholeDigits? (t.takeWhile inside)
  match t.dropWhile inside with
  | '.' :: t =>
    let places ← grouped? Char.isDigit (t.takeWhile inside)
    match t.dropWhile inside with
    | [] => fraction? negative whole places 0
    | c :: t => if isMark c then fraction? negative whole places (← exponent? t) else none
  | c :: t => if isMark c then fraction? negative whole [] (← exponent? t) else none
  | [] => none

/-! ## Dates and times -/

def digits? (count : Nat) (t : Text) : Option (Nat × Text) :=
  let front := t.take count
  if front.length = count ∧ front.all Char.isDigit then some (ofDigits 10 front, t.drop count) else none

def twoDigits? (low high : Nat) (t : Text) : Option (Nat × Text) := do
  let (n, t) ← digits? 2 t
  if low ≤ n ∧ n ≤ high then return (n, t) else none

def behind? (c : Char) : Text → Option Text
  | d :: t => if c = d then some t else none
  | [] => none

def daysOf (year month : Nat) : Nat :=
  if month = 2 then if year % 4 = 0 ∧ (year % 100 ≠ 0 ∨ year % 400 = 0) then 29 else 28
  else if month = 4 ∨ month = 6 ∨ month = 9 ∨ month = 11 then 30
  else 31

def padded (n : Nat) : Text := if n < 10 then '0' :: Text.ofNat n else Text.ofNat n

def date? (t : Text) : Option (Text × Text) := do
  let (year, rest) ← digits? 4 t
  let (month, rest) ← twoDigits? 1 12 (← behind? '-' rest)
  let (day, rest) ← twoDigits? 1 31 (← behind? '-' rest)
  if day ≤ daysOf year month then return (t.take 4 ++ '-' :: padded month ++ '-' :: padded day, rest) else none

def secondPlaces (t : Text) : Text := Text.dropEnd (· == '0') (t.take 9)

/-- How far the parts of a time may go. -/
structure ClockBounds where
  hour : Nat
  offsetHour : Nat
  offsetMinute : Nat
  deriving DecidableEq, Repr

def ClockBounds.strict : ClockBounds := ⟨23, 23, 59⟩

def ClockBounds.spelled : ClockBounds := ⟨24, 99, 99⟩

def largestOffset : Nat := 24 * 60

/-- A time in the standard form; a minute may have a leap second. -/
def time? (b : ClockBounds) (t : Text) : Option (Text × Text) := do
  let (hour, t) ← twoDigits? 0 b.hour t
  let (minute, t) ← twoDigits? 0 59 (← behind? ':' t)
  let (second, t) ← twoDigits? 0 60 (← behind? ':' t)
  let clock := padded hour ++ ':' :: padded minute ++ ':' :: padded second
  match t with
  | '.' :: t =>
    let places := t.takeWhile Char.isDigit
    if places = [] then none
    else
      let kept := secondPlaces places
      return (if kept = [] then clock else clock ++ '.' :: kept, t.dropWhile Char.isDigit)
  | t => return (clock, t)

def offset? (b : ClockBounds) (t : Text) : Option (Text × Text) :=
  match t with
  | 'Z' :: t | 'z' :: t => some (['Z'], t)
  | c :: t =>
    if c = '+' ∨ c = '-' then do
      let (hours, t) ← twoDigits? 0 b.offsetHour t
      let (minutes, t) ← twoDigits? 0 b.offsetMinute (← behind? ':' t)
      let all := hours * 60 + minutes
      let sign := if c = '-' ∧ all ≠ 0 then '-' else '+'
      if all ≤ largestOffset then return (sign :: padded (all / 60) ++ ':' :: padded (all % 60), t) else none
    else none
  | [] => none

/-- A time with or without its distance from universal time, as the whole of the text. -/
def clock? (b : ClockBounds) (t : Text) : Option Text := do
  let (time, t) ← time? b t
  if t = [] then return time
  let (offset, t) ← offset? b t
  if t = [] then return time ++ offset else none

/-- A date, a time, or both, as the whole of the text. -/
def moment? (b : ClockBounds) (t : Text) : Option Toml :=
  match date? t with
  | some (date, []) => some (.moment date)
  | some (date, c :: t) =>
    if c = 'T' ∨ c = 't' ∨ c = ' ' then (clock? b t).map fun time => .moment (date ++ 'T' :: time) else none
  | none =>
    match time? b t with
    | some (time, []) => some (.moment time)
    | _ => none

/-! ## All of them -/

def inScalar (c : Char) : Bool := c.isAlphanum || c == '+' || c == '-' || c == '_' || c == '.' || c == ':'

def whole? (t : Text) : Option Toml :=
  if t = ['t', 'r', 'u', 'e'] then some (.bool true)
  else if t = ['f', 'a', 'l', 's', 'e'] then some (.bool false)
  else moment? .strict t <|> float? t <|> integer? t

def startsTime : Text → Bool
  | a :: b :: ':' :: _ => a.isDigit && b.isDigit
  | _ => false

def scalar? (t : Text) : Option (Toml × Text) :=
  let front := t.takeWhile inScalar
  let rest := t.dropWhile inScalar
  match date? front, rest with
  | some (_, []), ' ' :: more =>
    if startsTime more then
      (whole? (front ++ ' ' :: more.takeWhile inScalar)).map (·, more.dropWhile inScalar)
    else (whole? front).map (·, rest)
  | _, _ => (whole? front).map (·, rest)

end LanguageRoster.Toml
