import LanguageRoster.Shell.System

/-!
# Conditions

What `test` decides: whether its arguments make a condition that holds.

* `Condition.unary`, `Condition.binary` : the tests of one argument and of two
* `Condition.holds` : the arguments as a whole, or what is wrong with them
-/

namespace LanguageRoster.Shell.Condition

set_option autoImplicit false

def isBinary (t : Text) : Bool :=
  ["=", "!=", "<", ">", "-eq", "-ne", "-gt", "-ge", "-lt", "-le", "-nt", "-ot", "-ef"].contains (String.ofList t)

def isUnary (t : Text) : Bool :=
  match t with
  | ['-', c] => "rwxefdcbpugksSLhtnzOG".contains c
  | _ => false

def number (t : Text) : Except Text Int :=
  let body := Text.trim t
  let digits := match body with
    | '-' :: d | '+' :: d => d
    | d => d
  if digits ≠ [] ∧ digits.all Char.isDigit then
    let n : Int := ofDigits 10 digits
    .ok (if body.head? = some '-' then -n else n)
  else .error ("Illegal number: ".toList ++ t)

def isLike (t : Tree) (path : Text) (p : Entry → Bool) : Bool :=
  match look t path with
  | .ok e => p e
  | .error _ => false

def permits (may : Nat → Bool) : Entry → Bool
  | .file mode _ | .directory mode => may mode
  | .link _ => true

def isLink (t : Tree) (path : Text) : Bool :=
  match t.resolve (Path.directory path), (Path.names path).getLast? with
  | .ok p, some name =>
    match t.get? (p ++ [name]) with
    | some (.link _) => path.getLast? ≠ some '/'
    | _ => false
  | _, _ => false

def unary (t : Tree) (operator : Char) (a : Text) : Bool :=
  let isDevice := (device? a).isSome
  match operator with
  | 'n' => a ≠ []
  | 'z' => a = []
  | 'e' => isDevice || isLike t a fun _ => true
  | 'f' => isLike t a fun
    | .file .. => true
    | _ => false
  | 'd' => isLike t a Entry.isDirectory
  | 's' => isLike t a fun
    | .file _ content => content ≠ []
    | _ => true
  | 'r' => isDevice || isLike t a (permits mayRead)
  | 'w' => isDevice || isLike t a (permits mayWrite)
  | 'x' => isLike t a (permits mayEnter)
  | 'L' | 'h' => isLink t a
  | 'O' | 'G' => isLike t a fun _ => true
  | 'u' => isLike t a (permits fun m => m.testBit 11)
  | 'g' => isLike t a (permits fun m => m.testBit 10)
  | 'k' => isLike t a (permits fun m => m.testBit 9)
  | 'c' => a = nullFile
  | _ => false

def isBefore : Text → Text → Bool
  | _, [] => false
  | [], _ :: _ => true
  | c :: s, d :: t => if c = d then isBefore s t else c.toNat < d.toNat

def binary (t : Tree) (operator a b : Text) : Except Text Bool :=
  let compare (p : Int → Int → Bool) : Except Text Bool := do return p (← number a) (← number b)
  match String.ofList operator with
  | "=" => .ok (a == b)
  | "!=" => .ok (a != b)
  | "<" => .ok (isBefore a b)
  | ">" => .ok (isBefore b a)
  | "-eq" => compare (· == ·)
  | "-ne" => compare (· != ·)
  | "-gt" => compare fun m n => n < m
  | "-ge" => compare fun m n => n ≤ m
  | "-lt" => compare fun m n => m < n
  | "-le" => compare fun m n => m ≤ n
  | "-ef" => .ok ((t.resolve a).isOk && (t.resolve a).toOption == (t.resolve b).toOption)
  | _ => .ok false

def standsAlone : List Text → Bool
  | [_] => true
  | [_, _] => false
  | _ :: a :: b :: _ => isBinary a && b ≠ [')']
  | [] => true

def isUsed (args : List Text) : Bool :=
  match args with
  | [] => false
  | a :: rest => if isUnary a then !standsAlone args else if a = ['('] then rest ≠ [] else true

def lacking (operator : Text) : Text := operator ++ ": argument expected".toList

mutual

def any (t : Tree) : (fuel : Nat) → List Text → Except Text (Bool × Text × List Text)
  | 0, args => .ok (false, [], args)
  | fuel + 1, args => do
    let (a, last, rest) ← all t fuel args
    match rest with
    | ['-', 'o'] :: rest =>
      let (b, last, rest) ← any t fuel rest
      return (a || b, last, rest)
    | rest => return (a, last, rest)

def all (t : Tree) : (fuel : Nat) → List Text → Except Text (Bool × Text × List Text)
  | 0, args => .ok (false, [], args)
  | fuel + 1, args => do
    let (a, last, rest) ← one t fuel args
    match rest with
    | ['-', 'a'] :: rest =>
      let (b, last, rest) ← all t fuel rest
      return (a && b, last, rest)
    | rest => return (a, last, rest)

def one (t : Tree) : (fuel : Nat) → List Text → Except Text (Bool × Text × List Text)
  | 0, args => .ok (false, [], args)
  | fuel + 1, args => do
    match args with
    | [] => return (false, [], [])
    | ['!'] :: rest =>
      let (a, last, rest) ← one t fuel rest
      return (!a, last, rest)
    | a :: rest =>
      if a = ['('] ∧ isUsed args then
        match rest with
        | [')'] :: rest => return (false, [')'], rest)
        | rest =>
          let (a, _, rest) ← any t fuel rest
          match rest with
          | [')'] :: rest => return (a, [')'], rest)
          | _ => throw "closing paren expected".toList
      else if isUnary a ∧ isUsed args then
        match a, rest with
        | ['-', c], b :: rest => return (unary t c b, b, rest)
        | _, _ => throw (lacking a)
      else match rest with
        | o :: rest =>
          if isBinary o then
            match rest with
            | b :: rest => return (← binary t o a b, b, rest)
            | [] => throw (lacking o)
          else return (a ≠ [], a, o :: rest)
        | [] => return (a ≠ [], a, [])

end

def whole (t : Tree) (args : List Text) : Except Text Bool := do
  let (a, last, rest) ← any t (3 * args.length + 4) args
  if rest ≠ [] then throw (last ++ ": unexpected operator".toList)
  return a

/-- The arguments make a condition that holds. With three of them, one between the others is an operator if it can
be. -/
def holds (t : Tree) (args : List Text) : Except Text Bool :=
  match args with
  | [] => .ok false
  | [a, o, b] =>
    if isBinary o then binary t o a b
    else if a = ['('] ∧ b = [')'] then .ok (o ≠ [])
    else whole t args
  | [['('], a, b, [')']] => whole t [a, b]
  | args => whole t args

end LanguageRoster.Shell.Condition
