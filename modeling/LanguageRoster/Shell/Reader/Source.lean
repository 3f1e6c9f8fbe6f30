import LanguageRoster.Shell.Syntax

/-!
# The source of a script

* `Token` : a sign or a word of a script
* `Source` : what is left of a script, with the number of the line
* `Reader` : reads something from a source, or has a complaint
* `Reader.take`, `Reader.peek` : the next character, where lines that end with a backslash go on
-/

namespace LanguageRoster.Shell

set_option autoImplicit false

/-! ## Sources -/

inductive Token where
  | ending
  | newline
  | sign (t : Text)
  | keyword (t : Text)
  | word (w : Word)
  | redirect (descriptor : Option Nat) (sign : Text)

def Token.title : Token → Text
  | .ending => "end of file".toList
  | .newline => "newline".toList
  | .sign t | .keyword t => '"' :: t ++ ['"']
  | .word _ => "word".toList
  | .redirect .. => "redirection".toList

structure Source where
  rest : Text
  line : Nat := 1
  skipped : Nat := 0
  putBack : Option Token := none

structure Complaint where
  line : Nat
  words : Text
  deriving DecidableEq, Repr

abbrev Reader (α : Type) : Type := StateT Source (Except Complaint) α

namespace Reader

def fail {α : Type} (words : Text) : Reader α := do throw ⟨(← get).line, words⟩

def unexpected {α : Type} (t : Token) (wanted : Option Token) : Reader α :=
  fail (t.title ++ " unexpected".toList ++ match wanted with
    | some w => " (expecting ".toList ++ w.title ++ [')']
    | none => [])

/-! ## Characters -/

def joinLines : Text → Text × Nat
  | '\\' :: '\n' :: t => ((joinLines t).1, (joinLines t).2 + 1)
  | t => (t, 0)

/-- Takes a character as it is. -/
def takeRaw : Reader (Option Char) := do
  let s ← get
  match s.rest with
  | [] => return none
  | '\n' :: t =>
    set { s with rest := t, line := s.line + 1 + s.skipped, skipped := 0 }
    return some '\n'
  | c :: t =>
    set { s with rest := t }
    return some c

def join : Reader Unit := do
  let s ← get
  let (rest, count) := joinLines s.rest
  if count = 0 then return ()
  set { s with rest, line := s.line + count + s.skipped, skipped := 0 }

def take : Reader (Option Char) := do
  join
  takeRaw

def peek : Reader (Option Char) := do
  join
  return (← get).rest.head?

def takeIf (c : Char) : Reader Bool := do
  if (← peek) = some c then
    let _ ← take
    return true
  else return false

def takeWhile (p : Char → Bool) : (fuel : Nat) → Reader Text
  | 0 => return []
  | fuel + 1 => do
    match ← peek with
    | some c =>
      if p c then
        let _ ← take
        return c :: (← takeWhile p fuel)
      else return []
    | none => return []

def budget : Reader Nat := do return (← get).rest.length + 1

end Reader

end LanguageRoster.Shell
