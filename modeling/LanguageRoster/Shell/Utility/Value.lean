import LanguageRoster.Shell.Condition
import LanguageRoster.Shell.Utility.Search

/-!
# The values of expressions

`Utility.expr` shows the value of an expression that its arguments make.
-/

namespace LanguageRoster.Shell.Utility

set_option autoImplicit false

def counts (v : Text) : Bool := v ≠ [] && (wholeNumber? v) ≠ some 0

/-- The value of two values under an operator of an expression. -/
def combine (operator : String) (a b : Text) : Except Text Text :=
  let numbers (f : Int → Int → Except Text Int) : Except Text Text :=
    match wholeNumber? a, wholeNumber? b with
    | some m, some n => (f m n).map Text.ofInt
    | _, _ => .error "non-integer argument".toList
  let compare (p : Ordering → Bool) : Except Text Text :=
    let o : Ordering := match wholeNumber? a, wholeNumber? b with
      | some m, some n => if m < n then .lt else if m = n then .eq else .gt
      | _, _ => if a = b then .eq else if Condition.isBefore a b then .lt else .gt
    .ok (if p o then ['1'] else ['0'])
  let divided (f : Int → Int → Int) : Except Text Text :=
    numbers fun m n => if n = 0 then .error "division by zero".toList else .ok (f m n)
  match operator with
  | "+" => numbers fun m n => .ok (m + n)
  | "-" => numbers fun m n => .ok (m - n)
  | "*" => numbers fun m n => .ok (m * n)
  | "/" => divided Int.tdiv
  | "%" => divided Int.tmod
  | "<" => compare (· == .lt)
  | "<=" => compare (· != .gt)
  | "=" | "==" => compare (· == .eq)
  | "!=" => compare (· != .eq)
  | ">=" => compare (· != .lt)
  | ">" => compare (· == .gt)
  | "|" => .ok (if counts a then a else if counts b then b else ['0'])
  | "&" => .ok (if counts a ∧ counts b then a else ['0'])
  | _ =>
    match Regex.read false (wideText b) with
    | none => .error "Invalid regular expression".toList
    | some r =>
      let m := Regex.find? false (.both .atStart r) [] (wideText a)
      if ((Text.splitOn '\\' b).drop 1).any fun p => p.head? = some '(' then
        .ok (((m.bind fun m => m.groups.lookup 1).map fun t => Text.decodeLossy (narrow t)).getD [])
      else .ok (Text.ofNat ((m.map fun m => m.found.length).getD 0))

def expressionRanks : List (List String) :=
  [["|"], ["&"], ["<", "<=", "=", "==", "!=", ">=", ">"], ["+", "-"], ["*", "/", "%"], [":"]]

mutual

def ranked : (fuel : Nat) → List (List String) → List Text → Except Text (Text × List Text)
  | 0, _, _ => .error "syntax error".toList
  | fuel + 1, ranks, args =>
    match ranks with
    | [] => single fuel args
    | operators :: tighter => do
      let (a, rest) ← ranked fuel tighter args
      chained fuel operators tighter a rest

/-- The value behind operators of one rank. -/
def chained : (fuel : Nat) → List String → List (List String) → Text → List Text → Except Text (Text × List Text)
  | 0, _, _, _, _ => .error "syntax error".toList
  | fuel + 1, operators, tighter, a, args => do
    match args with
    | o :: rest =>
      if operators.contains (String.ofList o) then
        if rest = [] then throw ("syntax error: missing argument after ".toList ++ quoted o)
        let (b, rest) ← ranked fuel tighter rest
        chained fuel operators tighter (← combine (String.ofList o) a b) rest
      else return (a, args)
    | [] => return (a, [])

/-- A value, a call of a function on text, or an expression in parentheses. -/
def single : (fuel : Nat) → List Text → Except Text (Text × List Text)
  | 0, _ => .error "syntax error".toList
  | fuel + 1, args => do
    match args with
    | [] => throw "syntax error: missing argument".toList
    | ['('] :: rest =>
      let (a, rest) ← ranked fuel expressionRanks rest
      match rest with
      | [')'] :: rest => return (a, rest)
      | _ => throw "syntax error: expecting ')'".toList
    | ['+'] :: a :: rest => return (a, rest)
    | a :: rest =>
      match String.ofList a, rest with
      | "length", t :: rest => return (Text.ofNat t.size, rest)
      | "match", t :: p :: rest => return (← combine ":" t p, rest)
      | "index", t :: cs :: rest =>
        let i := (t.takeWhile fun c => !cs.contains c).length
        return (Text.ofNat (if i < t.length then i + 1 else 0), rest)
      | "substr", t :: m :: n :: rest =>
        match wholeNumber? m, wholeNumber? n with
        | some m, some n =>
          return (if 0 < m ∧ 0 < n then (t.drop (m.toNat - 1)).take n.toNat else [], rest)
        | _, _ => return ([], rest)
      | _, rest => return (a, rest)

end

def expr : Utility := fun t c =>
  match c.args with
  | [] => Finished.complaint t (withHint c.name "missing operand".toList) 2
  | args =>
    match ranked (16 * (args.length + 2)) expressionRanks args with
    | .error words => Finished.complaint t (c.name ++ ": ".toList ++ words) 2
    | .ok (v, []) =>
      { (Finished.output t (Text.bytes (v ++ ['\n']))).leaving c with ending := .code (if counts v then 0 else 1) }
    | .ok (_, a :: _) =>
      Finished.complaint t (c.name ++ ": syntax error: unexpected argument ".toList ++ quoted a) 2

end LanguageRoster.Shell.Utility
