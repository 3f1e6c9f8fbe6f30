import LanguageRoster.Shell.Pattern

/-!
# Regular expressions

* `Regex` : an expression; `Regex.read` reads one, in its basic or its extended spelling
* `Regex.find?` : the first place in a text that an expression matches
-/

namespace LanguageRoster.Shell

set_option autoImplicit false

inductive Regex where
  | nothing
  | set (negated : Bool) (s : CharSet)
  | any
  | atStart
  | atEnd
  | both (a b : Regex)
  | either (a b : Regex)
  | times (least : Nat) (most : Option Nat) (a : Regex)
  | group (n : Nat) (a : Regex)
  | again (n : Nat)
  deriving Repr

namespace Regex

/-! ## Reading -/

inductive Piece where
  | item (r : Regex)
  | times (least : Nat) (most : Option Nat)
  | opening
  | closing
  | bar
  deriving Repr

def one (c : Char) : Regex := .set false [(c, c)]

def wordSet : CharSet := [('a', 'z'), ('A', 'Z'), ('0', '9'), ('_', '_')]

def spaceSet : CharSet := [('\t', '\r'), (' ', ' ')]

/-- The number of times between braces, and what is behind them. -/
def bounds (t : Text) : Option (Piece × Text) :=
  let least := t.takeWhile Char.isDigit
  let number (d : Text) : Nat := d.foldl (fun n c => n * 10 + (c.toNat - '0'.toNat)) 0
  let most := match t.drop least.length with
    | ',' :: more =>
      let digits := more.takeWhile Char.isDigit
      (if digits = [] then none else some (number digits), more.drop digits.length)
    | more => (some (number least), more)
  match most.2 with
  | '}' :: rest => some (.times (number least) most.1, rest)
  | '\\' :: '}' :: rest => some (.times (number least) most.1, rest)
  | _ => none

def bracket? (t : Text) : Option (Regex × Text) :=
  let (negated, inner) := match t with
    | '^' :: inner => (true, inner)
    | inner => (false, inner)
  (members? (inner.length + 1) false (glyphs true inner)).map fun (s, rest) => (.set negated s, plainText rest)

def sign? (c : Char) (rest : Text) : Option (Piece × Text) :=
  match c with
  | '(' => some (.opening, rest)
  | ')' => some (.closing, rest)
  | '|' => some (.bar, rest)
  | '+' => some (.times 1 none, rest)
  | '?' => some (.times 0 (some 1), rest)
  | '\x7b' => bounds rest
  | _ => none

/-- The pieces of an expression; `atFront` tells that a new part begins. -/
def pieces (extended : Bool) : (fuel : Nat) → (atFront : Bool) → Text → Option (List Piece)
  | 0, _, _ => some []
  | fuel + 1, atFront, t =>
    let goOn (p : Piece) (rest : Text) : Option (List Piece) :=
      let front := match p with
        | .opening | .bar => true
        | _ => false
      (pieces extended fuel front rest).map (p :: ·)
    match t with
    | [] => some []
    | '\\' :: c :: rest =>
      match if extended then none else sign? c rest with
      | some (p, rest) => goOn p rest
      | none =>
        if c.isDigit ∧ c ≠ '0' then goOn (.item (.again (c.toNat - '0'.toNat))) rest
        else match c with
          | 'w' => goOn (.item (.set false wordSet)) rest
          | 'W' => goOn (.item (.set true wordSet)) rest
          | 's' => goOn (.item (.set false spaceSet)) rest
          | 'S' => goOn (.item (.set true spaceSet)) rest
          | 'n' => goOn (.item (one '\n')) rest
          | 't' => goOn (.item (one '\t')) rest
          | c => goOn (.item (one c)) rest
    | ['\\'] => none
    | '[' :: rest =>
      match bracket? rest with
      | some (r, rest) => goOn (.item r) rest
      | none => none
    | '.' :: rest => goOn (.item .any) rest
    | '*' :: rest => goOn (if atFront then .item (one '*') else .times 0 none) rest
    | '^' :: rest =>
      if extended ∨ atFront then (pieces extended fuel true rest).map (.item .atStart :: ·)
      else goOn (.item (one '^')) rest
    | '$' :: rest =>
      let last := extended ∨ rest = [] ∨ rest.take 2 = ['\\', ')'] ∨ rest.take 2 = ['\\', '|']
      goOn (.item (if last then .atEnd else one '$')) rest
    | c :: rest =>
      match if extended then sign? c rest else none with
      | some (p, rest) => goOn p rest
      | none => goOn (.item (one c)) rest

mutual

def alternatives : (fuel n : Nat) → List Piece → Regex × Nat × List Piece
  | 0, n, ps => (.nothing, n, ps)
  | fuel + 1, n, ps =>
    let (a, n, rest) := sequence fuel n ps
    match rest with
    | .bar :: rest =>
      let (b, n, rest) := alternatives fuel n rest
      (.either a b, n, rest)
    | rest => (a, n, rest)

/-- The items up to the next alternative. -/
def sequence : (fuel n : Nat) → List Piece → Regex × Nat × List Piece
  | 0, n, ps => (.nothing, n, ps)
  | fuel + 1, n, ps =>
    match ps with
    | [] | .closing :: _ | .bar :: _ => (.nothing, n, ps)
    | .times .. :: rest => sequence fuel n rest
    | .item r :: rest => repeated fuel n r rest
    | .opening :: rest =>
      let (a, m, rest) := alternatives fuel (n + 1) rest
      repeated fuel m (.group n a) (rest.drop 1)

def repeated : (fuel n : Nat) → Regex → List Piece → Regex × Nat × List Piece
  | 0, n, a, ps => (a, n, ps)
  | fuel + 1, n, a, ps =>
    match ps with
    | .times least most :: rest => repeated fuel n (.times least most a) rest
    | ps =>
      let (b, n, rest) := sequence fuel n ps
      (.both a b, n, rest)

end

def read (extended : Bool) (t : Text) : Option Regex :=
  (pieces extended (t.length + 1) true t).bind fun ps =>
    match alternatives (3 * ps.length + 3) 1 ps with
    | (r, _, []) => some r
    | _ => none

/-! ## Matching -/

structure Cursor where
  before : Text := []
  rest : Text
  groups : List (Nat × Text) := []

def takes (anyCase : Bool) (s : CharSet) (c : Char) : Bool :=
  s.has c || anyCase && (s.has c.toLower || s.has c.toUpper)

def run (anyCase : Bool) : (fuel : Nat) → Regex → Cursor → (Cursor → Option Cursor) → Option Cursor
  | 0, _, _, _ => none
  | fuel + 1, r, here, next =>
    let step (p : Char → Bool) : Option Cursor :=
      match here.rest with
      | c :: rest => if p c then next { here with before := c :: here.before, rest } else none
      | [] => none
    match r with
    | .nothing => next here
    | .set negated s => step fun c => takes anyCase s c != negated
    | .any => step fun _ => true
    | .atStart => if here.before = [] then next here else none
    | .atEnd => if here.rest = [] then next here else none
    | .both a b => run anyCase fuel a here fun m => run anyCase fuel b m next
    | .either a b => (run anyCase fuel a here next).or (run anyCase fuel b here next)
    | .group n a => run anyCase fuel a here fun m =>
        next { m with groups := (n, here.rest.take (here.rest.length - m.rest.length)) :: m.groups }
    | .again n =>
      match Text.after? ((here.groups.lookup n).getD []) here.rest with
      | some rest =>
        let taken := here.rest.take (here.rest.length - rest.length)
        next { here with before := taken.reverse ++ here.before, rest }
      | none => none
    | .times least most a =>
      let more : Option Cursor :=
        if most = some 0 then none
        else run anyCase fuel a here fun m =>
          if m.rest.length = here.rest.length ∧ least = 0 then none
          else run anyCase fuel (.times (least - 1) (most.map (· - 1)) a) m next
      more.or (if least = 0 then next here else none)

def size : Regex → Nat
  | .both a b | .either a b => a.size + b.size + 1
  | .group _ a => a.size + 1
  | .times least _ a => (least + 1) * (a.size + 1)
  | _ => 1

structure Match where
  before : Text
  found : Text
  behind : Text
  groups : List (Nat × Text)

def find? (anyCase : Bool) (r : Regex) (before : Text) : Text → Option Match
  | [] => at? []
  | c :: t => (at? (c :: t)).or (find? anyCase r (c :: before) t)
where
  /-- The match right there. -/
  at? (t : Text) : Option Match :=
    (run anyCase ((t.length + 2) * (r.size + 2)) r { before, rest := t } some).map fun m =>
      ⟨before.reverse, t.take (t.length - m.rest.length), m.rest, m.groups⟩

end Regex

end LanguageRoster.Shell
