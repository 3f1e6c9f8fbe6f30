import LanguageRoster.Record
import LanguageRoster.Text.Basic

/-!
# Arithmetic

The expressions of a shell, on integers of 64 bits.

* `Formula` : an expression; `Formula.read` reads one
* `Formula.value` : its value, and the variables behind it
* `integer?` : the integer that a text stands for
-/

namespace LanguageRoster.Shell

set_option autoImplicit false

abbrev Environment := List (Text × Text)

/-! ## Numbers -/

def wrap (n : Int) : Int := n.bmod 0x10000000000000000

def largest : Int := 0x7FFFFFFFFFFFFFFF

def digit? (base : Nat) (c : Char) : Option Nat :=
  let n :=
    if c.isDigit then c.toNat - '0'.toNat
    else if 'a' ≤ c ∧ c ≤ 'z' then c.toNat - 'a'.toNat + 10
    else if 'A' ≤ c ∧ c ≤ 'Z' then c.toNat - 'A'.toNat + 10
    else base
  if n < base then some n else none

def ofDigits (base : Nat) (t : Text) : Nat := t.foldl (fun n c => n * base + (digit? base c).getD 0) 0

def literal (t : Text) : Nat × Text :=
  let inBase (base : Nat) (t : Text) : Nat × Text :=
    let inside (c : Char) : Bool := (digit? base c).isSome
    (ofDigits base (t.takeWhile inside), t.dropWhile inside)
  match t with
  | '0' :: 'x' :: c :: more | '0' :: 'X' :: c :: more =>
    if (digit? 16 c).isSome then inBase 16 (c :: more) else inBase 8 t
  | '0' :: _ => inBase 8 t
  | t => inBase 10 t

/-- The integer that the text stands for, with white space around it or not. An empty text stands for zero. -/
def integer? (t : Text) : Option Int :=
  let t := t.trim
  let (negative, digits) := match t with
    | '-' :: t => (true, t)
    | '+' :: t => (false, t)
    | t => (false, t)
  if t = [] then some 0
  else if digits.head?.any Char.isDigit then
    let (n, rest) := literal digits
    if rest = [] then some (max (-largest - 1) (min (if negative then -(n : Int) else n) largest)) else none
  else none

/-! ## Expressions -/

inductive Formula where
  | number (n : Int)
  | parameter (name : Text)
  | unary (operator : Char) (a : Formula)
  | binary (operator : Text) (a b : Formula)
  | choice (condition a b : Formula)
  /-- Sets the variable, to its old value and the new one under the operator if there is one. -/
  | assign (name operator : Text) (a : Formula)
  deriving Repr

namespace Formula

inductive Objection where
  | noPrimary
  | noEnding
  | noParenthesis
  | noColon
  | zeroDivisor
  | noNumber (t : Text)
  deriving DecidableEq, Repr

inductive Piece where
  | number (n : Int)
  | name (t : Text)
  | operator (t : Text)
  deriving DecidableEq, Repr

def operators : List Text := ["<<=", ">>=", "&&", "||", "==", "!=", "<=", ">=", "<<", ">>", "+=", "-=", "*=", "/=",
  "%=", "&=", "^=", "|=", "+", "-", "*", "/", "%", "<", ">", "=", "!", "~", "&", "^", "|", "?", ":", "(",
  ")"].map String.toList

def inName (c : Char) : Bool := c.isAlphanum || c == '_'

/-- The pieces of the text; one that is none of them is the operator of no characters. -/
def pieces : (fuel : Nat) → Text → List Piece
  | 0, _ => []
  | fuel + 1, t =>
    match t with
    | [] => []
    | c :: rest =>
      if c = ' ' ∨ c = '\t' ∨ c = '\n' then pieces fuel rest
      else if c.isDigit then
        let (n, rest) := literal t
        .number (min n largest) :: pieces fuel rest
      else if inName c then .name (t.takeWhile inName) :: pieces fuel (t.dropWhile inName)
      else match operators.find? fun o => o.isPrefixOf t with
        | some o => .operator o :: pieces fuel (t.drop o.length)
        | none => [.operator []]

/-- How strongly an operator between two expressions binds them; the strongest at zero. -/
def rank? (operator : Text) : Option Nat :=
  match String.ofList operator with
  | "*" | "/" | "%" => some 0
  | "+" | "-" => some 1
  | "<<" | ">>" => some 2
  | "<" | ">" | "<=" | ">=" => some 3
  | "==" | "!=" => some 4
  | "&" => some 5
  | "^" => some 6
  | "|" => some 7
  | "&&" => some 8
  | "||" => some 9
  | _ => none

def lastRank : Nat := 9

def assignment? (operator : Text) : Option Text :=
  if operator = ['='] then some []
  else if operator.getLast? = some '=' ∧ (rank? operator).isNone then some operator.dropLast
  else none

mutual

/-- An expression with its assignments. -/
def whole : (fuel : Nat) → List Piece → Except Objection (Formula × List Piece)
  | 0, _ => .error .noPrimary
  | fuel + 1, ps => do
    match ps with
    | .name t :: .operator o :: rest =>
      match assignment? o with
      | some o =>
        let (a, rest) ← whole fuel rest
        return (.assign t o a, rest)
      | none => chosen fuel ps
    | ps => chosen fuel ps

/-- An expression, or a choice between two of them. -/
def chosen : (fuel : Nat) → List Piece → Except Objection (Formula × List Piece)
  | 0, _ => .error .noPrimary
  | fuel + 1, ps => do
    let (c, rest) ← ranked fuel lastRank ps
    match rest with
    | .operator ['?'] :: rest =>
      let (a, rest) ← whole fuel rest
      match rest with
      | .operator [':'] :: rest =>
        let (b, rest) ← chosen fuel rest
        return (.choice c a b, rest)
      | _ => .error .noColon
    | rest => return (c, rest)

def ranked : (fuel rank : Nat) → List Piece → Except Objection (Formula × List Piece)
  | 0, _, _ => .error .noPrimary
  | fuel + 1, rank, ps => do
    let (a, rest) ← match rank with
      | 0 => primary fuel ps
      | rank + 1 => ranked fuel rank ps
    rankedBehind fuel rank a rest

/-- The expression with those that operators of the rank bind to it. -/
def rankedBehind : (fuel rank : Nat) → Formula → List Piece → Except Objection (Formula × List Piece)
  | 0, _, _, _ => .error .noPrimary
  | fuel + 1, rank, a, ps => do
    match ps with
    | .operator o :: rest =>
      if rank? o = some rank then
        let (b, rest) ← match rank with
          | 0 => primary fuel rest
          | rank + 1 => ranked fuel rank rest
        rankedBehind fuel rank (.binary o a b) rest
      else return (a, ps)
    | ps => return (a, ps)

/-- A number, a variable, an expression in parentheses, or a sign before one of these. -/
def primary : (fuel : Nat) → List Piece → Except Objection (Formula × List Piece)
  | 0, _ => .error .noPrimary
  | fuel + 1, ps => do
    match ps with
    | .number n :: rest => return (.number n, rest)
    | .name t :: rest => return (.parameter t, rest)
    | .operator ['('] :: rest =>
      let (a, rest) ← whole fuel rest
      match rest with
      | .operator [')'] :: rest => return (a, rest)
      | _ => .error .noParenthesis
    | .operator [c] :: rest =>
      if c = '+' ∨ c = '-' ∨ c = '!' ∨ c = '~' then
        let (a, rest) ← primary fuel rest
        return (.unary c a, rest)
      else .error .noPrimary
    | _ => .error .noPrimary

end

def stepsEach : Nat := 2 * lastRank + 8

def read (t : Text) : Except Objection Formula :=
  let ps := pieces (t.length + 1) t
  match whole (stepsEach * (ps.length + 1)) ps with
  | .ok (a, []) => .ok a
  | .ok _ => .error .noEnding
  | .error o => .error o

/-! ## Values -/

def truth (b : Bool) : Int := if b then 1 else 0

def bits (n : Int) : Nat := (n % 0x10000000000000000).toNat

def apply (operator : Text) (a b : Int) : Except Objection Int :=
  match String.ofList operator with
  | "*" => .ok (wrap (a * b))
  | "/" => if b = 0 then .error .zeroDivisor else .ok (wrap (a.tdiv b))
  | "%" => if b = 0 then .error .zeroDivisor else .ok (a.tmod b)
  | "+" => .ok (wrap (a + b))
  | "-" => .ok (wrap (a - b))
  | "<<" => .ok (wrap (Nat.shiftLeft (bits a) (bits b % 64)))
  | ">>" => .ok (Int.shiftRight a (bits b % 64))
  | "<" => .ok (truth (a < b))
  | ">" => .ok (truth (b < a))
  | "<=" => .ok (truth (a ≤ b))
  | ">=" => .ok (truth (b ≤ a))
  | "==" => .ok (truth (a == b))
  | "!=" => .ok (truth (a != b))
  | "&" => .ok (wrap (Nat.land (bits a) (bits b)))
  | "^" => .ok (wrap (Nat.xor (bits a) (bits b)))
  | "|" => .ok (wrap (Nat.lor (bits a) (bits b)))
  | _ => .ok b

def lookup (e : Environment) (name : Text) : Except Objection Int :=
  let t := (List.lookup name e).getD []
  match integer? t with
  | some n => .ok n
  | none => .error (.noNumber t)

/-- The value of an expression, and the variables behind it. What a choice or a condition leaves out does nothing. -/
def value (e : Environment) : Formula → Except Objection (Int × Environment)
  | .number n => .ok (n, e)
  | .parameter name => do return (← lookup e name, e)
  | .unary c a => do
    let (n, e) ← value e a
    return (if c = '-' then wrap (-n) else if c = '!' then truth (n == 0) else if c = '~' then -n - 1 else n, e)
  | .binary o a b => do
    let (m, e) ← value e a
    if o = ['&', '&'] ∧ m = 0 then return (0, e)
    if o = ['|', '|'] ∧ m ≠ 0 then return (1, e)
    let (n, e) ← value e b
    if o = ['&', '&'] ∨ o = ['|', '|'] then return (truth (n != 0), e)
    return (← apply o m n, e)
  | .choice c a b => do
    let (n, e) ← value e c
    if n ≠ 0 then value e a else value e b
  | .assign name o a => do
    let (n, e) ← value e a
    let n ← if o = [] then pure n else apply o (← lookup e name) n
    return (n, Record.set name (Text.ofInt n) e)

def Objection.message (o : Objection) (expression : Text) : Text :=
  let about (words : String) : Text :=
    "arithmetic expression: ".toList ++ words.toList ++ ": \"".toList ++ expression ++ ['"']
  match o with
  | .noPrimary => about "expecting primary"
  | .noEnding => about "expecting EOF"
  | .noParenthesis => about "expecting ')'"
  | .noColon => about "expecting ':'"
  | .zeroDivisor => about "division by zero"
  | .noNumber t => "Illegal number: ".toList ++ t

end Formula

end LanguageRoster.Shell
