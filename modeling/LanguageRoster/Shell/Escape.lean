import LanguageRoster.Shell.Arithmetic
import LanguageRoster.Text.Utf8

/-!
# Written bytes

How a shell's commands spell bytes in a text.

* `Shell.unescape` : the bytes of a text with escapes, as `echo` shows it
* `Shell.Format` : a format of `printf`; `Format.read` reads one, and `Format.apply` puts arguments into it
-/

namespace LanguageRoster.Shell

set_option autoImplicit false

/-! ## Escapes -/

/-- The byte that a letter behind a backslash stands for. -/
def letter? (c : Char) : Option UInt8 :=
  match c with
  | 'a' => some 7
  | 'b' => some 8
  | 'e' => some 27
  | 'f' => some 12
  | 'n' => some 10
  | 'r' => some 13
  | 't' => some 9
  | 'v' => some 11
  | '\\' => some 92
  | _ => none

def isOctal (c : Char) : Bool := '0' ≤ c && c ≤ '7'

def octal (t : Text) : UInt8 × Text :=
  let digits := (t.take 3).takeWhile isOctal
  (UInt8.ofNat (ofDigits 8 digits), t.drop digits.length)

def escape (t : Text) : Bytes × Text :=
  match t with
  | [] => ([92], [])
  | c :: rest =>
    if isOctal c then ([(octal t).1], (octal t).2)
    else match letter? c with
      | some b => ([b], rest)
      | none => ([92], t)

/-- The bytes that a text with escapes stands for, and whether it asks to end there. -/
def unescape : (fuel : Nat) → Text → Bytes × Bool
  | 0, _ => ([], false)
  | fuel + 1, t =>
    let goOn (front : Bytes) (t : Text) : Bytes × Bool :=
      let (more, ended) := unescape fuel t
      (front ++ more, ended)
    match t with
    | [] => ([], false)
    | '\\' :: 'c' :: _ => ([], true)
    | '\\' :: '0' :: t => goOn [(octal t).1] (octal t).2
    | '\\' :: t => goOn (escape t).1 (escape t).2
    | c :: t => goOn (Text.bytes [c]) t

/-! ## Formats -/

inductive Measure where
  | fixed (n : Nat)
  | given
  deriving DecidableEq, Repr

inductive Format where
  | bytes (b : Bytes)
  /-- A place for an argument, with a least width, a precision, and the letter of the kind. -/
  | place (flags : Text) (width precision : Option Measure) (kind : Char)
  | invalid (words : Text)
  deriving DecidableEq, Repr

namespace Format

def isFlag (c : Char) : Bool := c == '#' || c == '-' || c == '+' || c == ' ' || c == '0'

def isWhole (c : Char) : Bool := c == 'd' || c == 'i' || c == 'u' || c == 'o' || c == 'x' || c == 'X'

def isKind (c : Char) : Bool := isWhole c || c == 's' || c == 'b' || c == 'c' || c == 'f'

def measure (t : Text) : Option Measure × Text :=
  match t with
  | '*' :: t => (some .given, t)
  | t =>
    let digits := t.takeWhile Char.isDigit
    (if digits = [] then none else some (.fixed (ofDigits 10 digits)), t.drop digits.length)

/-- The place behind a percent sign, and the rest. -/
def readPlace (t : Text) : Format × Text :=
  let flags := t.takeWhile isFlag
  let (width, behind) := measure (t.drop flags.length)
  let (precision, behind) := match behind with
    | '.' :: behind => (some ((measure behind).1.getD (.fixed 0)), (measure behind).2)
    | behind => (none, behind)
  match behind with
  | [] => (.invalid "missing format character".toList, [])
  | c :: rest =>
    if isKind c then (.place flags width precision c, rest)
    else (.invalid ('%' :: t.take (t.length - rest.length) ++ ": invalid directive".toList), rest)

def read : (fuel : Nat) → Text → List Format
  | 0, _ => []
  | fuel + 1, t =>
    match t with
    | [] => []
    | '%' :: '%' :: t => .bytes [37] :: read fuel t
    | '%' :: t => (readPlace t).1 :: read fuel (readPlace t).2
    | '\\' :: t => .bytes (escape t).1 :: read fuel (escape t).2
    | c :: t => .bytes (Text.bytes [c]) :: read fuel t

/-! ## Arguments -/

structure Shown where
  out : Bytes := []
  complaints : List Text := []
  code : Nat := 0
  args : List Text
  stopped : Bool := false

/-- The number that an argument stands for, and a complaint if it does not, or not all of it. -/
def numberOf (arg : Text) : Int × Option Text :=
  match arg with
  | '\'' :: c :: _ | '"' :: c :: _ => (c.toNat, none)
  | ['\''] | ['"'] => (0, none)
  | arg =>
    let t := arg.dropWhile Text.isSpace
    let (negative, digits) := match t with
      | '-' :: t => (true, t)
      | '+' :: t => (false, t)
      | t => (false, t)
    if arg = [] then (0, none)
    else if !digits.head?.any Char.isDigit then (0, some (arg ++ ": expected numeric value".toList))
    else
      let (n, rest) := literal digits
      let n : Int := if negative then -n else n
      if n < -largest - 1 ∨ largest < n then
        (if n < 0 then -largest - 1 else largest, some (arg ++ ": Numerical result out of range".toList))
      else (n, if rest = [] then none else some (arg ++ ": not completely converted".toList))

def digitsOf (kind : Char) (n : Nat) : Text :=
  match kind with
  | 'o' => Nat.toDigits 8 n
  | 'x' => Nat.toDigits 16 n
  | 'X' => (Nat.toDigits 16 n).map Char.toUpper
  | _ => Nat.toDigits 10 n

def pad (left zeros : Bool) (width : Nat) (sign digits : Bytes) : Bytes :=
  let missing := width - (sign.length + digits.length)
  if left then sign ++ digits ++ List.replicate missing 32
  else if zeros then sign ++ List.replicate missing 48 ++ digits
  else List.replicate missing 32 ++ sign ++ digits

def signOf (flags : Text) (negative : Bool) : Text :=
  if negative then ['-'] else if flags.contains '+' then ['+'] else if flags.contains ' ' then [' '] else []

/-- A whole number in a place. -/
def whole (flags : Text) (width : Nat) (precision : Option Nat) (kind : Char) (n : Int) : Bytes :=
  let signed := kind = 'd' ∨ kind = 'i'
  let magnitude := if signed then n.natAbs else Formula.bits n
  let digits := if precision = some 0 ∧ magnitude = 0 then [] else digitsOf kind magnitude
  let digits := List.replicate (precision.getD 0 - digits.length) '0' ++ digits
  let marked := flags.contains '#' ∧ magnitude ≠ 0
  let sign :=
    if signed then signOf flags (n < 0)
    else if marked ∧ (kind = 'x' ∨ kind = 'X') then ['0', kind]
    else []
  let digits := if marked ∧ kind = 'o' ∧ digits.head? ≠ some '0' then '0' :: digits else digits
  pad (flags.contains '-') (flags.contains '0' && precision.isNone) width (Text.bytes sign) (Text.bytes digits)

/-- The digits, the number of them behind the point, and a complaint. -/
def decimalOf (arg : Text) : Bool × Nat × Nat × Option Text :=
  let (negative, t) := match arg with
    | '-' :: t => (true, t)
    | '+' :: t => (false, t)
    | t => (false, t)
  let front := t.takeWhile Char.isDigit
  let (back, rest) := match t.drop front.length with
    | '.' :: t => (t.takeWhile Char.isDigit, t.dropWhile Char.isDigit)
    | t => ([], t)
  let words : Option Text :=
    if arg = [] then none
    else if front ++ back = [] then some (arg ++ ": expected numeric value".toList)
    else if rest = [] then none
    else some (arg ++ ": not completely converted".toList)
  (negative, ofDigits 10 (front ++ back), back.length, words)

def tens : Nat → Nat
  | 0 => 1
  | n + 1 => 10 * tens n

def nearest (a b : Nat) : Nat :=
  let q := a / b
  let r := 2 * (a % b)
  if b < r ∨ r = b ∧ q % 2 = 1 then q + 1 else q

def pointed (flags : Text) (width places : Nat) (negative : Bool) (digits behind : Nat) : Bytes :=
  let n := nearest (digits * tens places) (tens behind)
  let back := digitsOf 'd' (n % tens places)
  let t := Text.ofNat (n / tens places) ++
    if places = 0 then [] else '.' :: List.replicate (places - back.length) '0' ++ back
  pad (flags.contains '-') (flags.contains '0') width (Text.bytes (signOf flags negative)) (Text.bytes t)

/-- An argument in a place, a complaint, and whether the argument asks to end there. -/
def fill (flags : Text) (width : Nat) (precision : Option Nat) (kind : Char) (arg : Text) :
    Bytes × Option Text × Bool :=
  let text (b : Bytes) : Bytes := pad (flags.contains '-') false width [] b
  let cut (b : Bytes) : Bytes := match precision with
    | some n => b.take n
    | none => b
  if kind = 's' then (text (cut (Text.bytes arg)), none, false)
  else if kind = 'b' then
    let (b, stopped) := unescape (arg.length + 1) arg
    (text (cut b), none, stopped)
  else if kind = 'c' then (text (if arg = [] then [0] else (Text.bytes arg).take 1), none, false)
  else if kind = 'f' then
    let (negative, digits, behind, words) := decimalOf arg
    (pointed flags width (precision.getD 6) negative digits behind, words, false)
  else
    let (n, words) := numberOf arg
    (whole flags width precision kind n, words, false)

def Measure.read (m : Option Measure) (args : List Text) : Option Int × List Text :=
  match m with
  | none => (none, args)
  | some (.fixed n) => (some n, args)
  | some .given => (some (numberOf (args.headD [])).1, args.drop 1)

def applyOnce : List Format → (args : List Text) → Shown
  | [], args => { args }
  | .bytes b :: more, args =>
    let r := applyOnce more args
    { r with out := b ++ r.out }
  | .invalid words :: _, args => { complaints := [words], code := 2, args, stopped := true }
  | .place flags width precision kind :: more, args =>
    let (width, args) := Measure.read width args
    let (precision, args) := Measure.read precision args
    let flags := if width.any (· < 0) then '-' :: flags else flags
    let precision := if precision.any (· < 0) then none else precision.map Int.toNat
    let (b, words, stopped) := fill flags (width.getD 0).natAbs precision kind (args.headD [])
    if stopped then { out := b, args, stopped }
    else
      let r := applyOnce more (args.drop 1)
      { r with
        out := b ++ r.out
        complaints := words.toList ++ r.complaints
        code := max r.code (if words.isSome then 1 else 0) }

def applyAll : (fuel : Nat) → List Format → (args : List Text) → Shown
  | 0, _, args => { args }
  | fuel + 1, fs, args =>
    let r := applyOnce fs args
    if r.stopped ∨ r.args = [] ∨ r.args.length = args.length then r
    else
      let s := applyAll fuel fs r.args
      { s with out := r.out ++ s.out, complaints := r.complaints ++ s.complaints, code := max r.code s.code }

def apply (format : Text) (args : List Text) : Shown :=
  applyAll (args.length + 1) (read (format.length + 1) format) args

end Format

end LanguageRoster.Shell
