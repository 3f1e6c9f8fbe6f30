import LanguageRoster.Text.Basic

/-!
# Shell scripts

What a script says to the shell.

* `Shell.Part`, `Shell.Word` : a word and its parts, which stand for text in several ways
* `Shell.Redirect` : where a descriptor of a command leads
* `Shell.Command` : simple commands, and those that are made of others
-/

namespace LanguageRoster.Shell

set_option autoImplicit false

inductive Opening where
  | read
  | write
  | overwrite
  | append
  | both
  deriving DecidableEq, Repr

mutual

inductive Part where
  | plain (t : Text)
  | quoted (t : Text)
  | parameter (name : Text) (use : Use) (inQuotes : Bool)
  | output (body : List Command) (inQuotes : Bool)
  | number (expression : List Part) (inQuotes : Bool)

inductive Use where
  | value
  | size
  | fallback (orEmpty : Bool) (w : List Part)
  | assign (orEmpty : Bool) (w : List Part)
  | demand (orEmpty : Bool) (w : List Part)
  | alternative (orEmpty : Bool) (w : List Part)
  | trim (atEnd longest : Bool) (pattern : List Part)
  | invalid

inductive Redirect where
  | file (descriptor : Nat) (opening : Opening) (path : List Part)
  | copy (descriptor : Nat) (source : List Part)
  | text (descriptor : Nat) (body : List Part)

inductive Command where
  | simple (line : Nat) (words : List (List Part)) (redirects : List Redirect)
  | pipeline (stages : List Command)
  | negation (c : Command)
  | both (first second : Command)
  | either (first second : Command)
  | background (c : Command)
  | group (body : List Command)
  | inside (line : Nat) (body : List Command)
  | redirected (line : Nat) (c : Command) (redirects : List Redirect)
  | choice (condition body otherwise : List Command)
  | loop (negated : Bool) (condition body : List Command)
  /-- The body once for each of the words, or of the arguments if there are none. -/
  | each (line : Nat) (name : Text) (words : Option (List (List Part))) (body : List Command)
  | select (line : Nat) (subject : List Part) (arms : List (List (List Part) × List Command))
  | function (name : Text) (body : Command)

end

abbrev Word := List Part

instance : Inhabited Part := ⟨.plain []⟩

instance : Inhabited Command := ⟨.group []⟩

def Word.consPlain (c : Char) : Word → Word
  | .plain t :: w => .plain (c :: t) :: w
  | w => .plain [c] :: w

def Word.consQuoted (c : Char) : Word → Word
  | .quoted t :: w => .quoted (c :: t) :: w
  | w => .quoted [c] :: w

/-! ## Names -/

def startsName (c : Char) : Bool := c.isAlpha || c == '_'

def inName (c : Char) : Bool := c.isAlphanum || c == '_'

def isName (t : Text) : Bool := t.head?.any startsName && t.all inName

def isSpecial (c : Char) : Bool :=
  c == '*' || c == '@' || c == '#' || c == '?' || c == '$' || c == '!' || c == '-' || c.isDigit

def Word.assignment? : Word → Option (Text × Word)
  | .plain t :: w =>
    let name := t.takeWhile inName
    match t.dropWhile inName with
    | '=' :: value =>
      if isName name then some (name, if value = [] then w else .plain value :: w) else none
    | _ => none
  | _ => none

def Word.plain? : Word → Option Text
  | [.plain t] => some t
  | _ => none

end LanguageRoster.Shell
