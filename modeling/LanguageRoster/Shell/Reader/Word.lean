import LanguageRoster.Shell.Reader.Source

/-!
# Reading words

* `Reader.word` : a word with its quotes and expansions
* `Reader.quotedParts`, `Reader.bareParts`, `Reader.dollar` : its parts in quotes and outside, and the uses of
  parameters

The commands inside of a word are read by `body`, which is given.
-/

namespace LanguageRoster.Shell.Reader

set_option autoImplicit false

/-! ## Words -/

def endsWord (c : Char) : Bool :=
  Text.isBlank c || c == '\n' || c == ';' || c == '&' || c == '|' || c == '<' || c == '>' || c == '(' || c == ')'

def unterminated {α : Type} : Reader α := fail "Unterminated quoted string".toList

def singleQuoted : (fuel : Nat) → Reader Text
  | 0 => unterminated
  | fuel + 1 => do
    match ← takeRaw with
    | none => unterminated
    | some '\'' => return []
    | some c => return c :: (← singleQuoted fuel)

/-- The text up to a backquote. A backslash goes away before the signs that it hides there. -/
def backquoted (inQuotes : Bool) : (fuel : Nat) → Reader Text
  | 0 => fail "EOF in backquote substitution".toList
  | fuel + 1 => do
    match ← takeRaw with
    | none => fail "EOF in backquote substitution".toList
    | some '`' => return []
    | some '\\' =>
      match ← takeRaw with
      | none => fail "EOF in backquote substitution".toList
      | some '\n' => backquoted inQuotes fuel
      | some c =>
        let hidden := c = '\\' ∨ c = '`' ∨ c = '$' ∨ (inQuotes ∧ c = '"')
        return (if hidden then [c] else ['\\', c]) ++ (← backquoted inQuotes fuel)
    | some c => return c :: (← backquoted inQuotes fuel)

def inside {α : Type} (t : Text) (r : Reader α) : Reader α := do
  let s ← get
  match r.run { rest := t, line := s.line } with
  | .ok (a, _) => return a
  | .error e => throw e

inductive Closing where
  | quote
  | brace
  | parentheses (depth : Nat)
  | ending

def Closing.isHidden (closing : Closing) (c : Char) : Bool :=
  c == '$' || c == '`' || c == '\\' ||
    match closing with
    | .quote => c == '"'
    | .brace => c == '"' || c == '}'
    | .parentheses _ => c == '"'
    | .ending => false

def useOf (operator : Char) (orEmpty : Bool) (w : Word) : Use :=
  match operator with
  | '-' => .fallback orEmpty w
  | '=' => .assign orEmpty w
  | '?' => .demand orEmpty w
  | '+' => .alternative orEmpty w
  | _ => .invalid

def inParentheses (body : Reader (List Command)) : Reader (List Command) := do
  let commands ← body
  match (← get).putBack with
  | some t =>
    if t.title = (Token.sign [')']).title then
      modify fun s => { s with putBack := none }
      return commands
    else unexpected t (some (.sign [')']))
  | none => return commands

/-- The name of a parameter in braces, and whether its size is asked for. -/
def bracedName : Reader (Text × Bool) := do
  match ← peek with
  | some '#' =>
    let _ ← take
    match ← peek with
    | some '}' => return (['#'], false)
    | some c =>
      if inName c then return (← takeWhile inName (← budget), true)
      else if isSpecial c then
        let rest := (← get).rest
        if rest[1]? = some '}' then
          let _ ← take
          return ([c], true)
        else return (['#'], false)
      else return (['#'], false)
    | none => return (['#'], false)
  | some c =>
    if startsName c then return (← takeWhile inName (← budget), false)
    else if c.isDigit then return (← takeWhile Char.isDigit (← budget), false)
    else if isSpecial c then
      let _ ← take
      return ([c], false)
    else return ([], false)
  | none => return ([], false)

mutual

def quotedParts (body : Reader (List Command)) (closing : Closing) : (fuel : Nat) → Reader Word
  | 0 => unterminated
  | fuel + 1 => do
    let more (c : Char) : Reader Word := do return Word.consQuoted c (← quotedParts body closing fuel)
    match ← takeRaw, closing with
    | none, .ending => return []
    | none, .parentheses _ => fail "Missing '))'".toList
    | none, _ => unterminated
    | some '"', .quote => return []
    | some '"', .brace =>
      let inner ← quotedParts body .quote fuel
      return inner ++ (← quotedParts body closing fuel)
    | some '}', .brace => return []
    | some '(', .parentheses n =>
      return Word.consQuoted '(' (← quotedParts body (.parentheses (n + 1)) fuel)
    | some ')', .parentheses (n + 1) =>
      return Word.consQuoted ')' (← quotedParts body (.parentheses n) fuel)
    | some ')', .parentheses 0 => if ← takeIf ')' then return [] else more ')'
    | some '\\', _ =>
      match ← takeRaw with
      | none => return Word.consQuoted '\\' (← quotedParts body closing fuel)
      | some '\n' => quotedParts body closing fuel
      | some c =>
        if closing.isHidden c then more c
        else return Word.consQuoted '\\' (← more c)
    | some '$', _ =>
      let part ← dollar body true fuel
      return part :: (← quotedParts body closing fuel)
    | some '`', _ =>
      let t ← backquoted true (← budget)
      let commands ← inside t body
      return .output commands true :: (← quotedParts body closing fuel)
    | some c, _ => more c

/-- The parts of a word outside quotes, up to what ends it: a sign between words, or a brace. -/
def bareParts (body : Reader (List Command)) (inBraces : Bool) : (fuel : Nat) → Reader Word
  | 0 => return []
  | fuel + 1 => do
    match ← peek with
    | none => if inBraces then fail "Missing '\x7d'".toList else return []
    | some c =>
      if !inBraces ∧ endsWord c then return []
      else
        let _ ← take
        match c with
        | '}' => if inBraces then return [] else return Word.consPlain c (← bareParts body inBraces fuel)
        | '\'' =>
          let t ← singleQuoted (← budget)
          return .quoted t :: (← bareParts body inBraces fuel)
        | '"' =>
          let w ← quotedParts body .quote fuel
          return (if w.isEmpty then [.quoted []] else w) ++ (← bareParts body inBraces fuel)
        | '\\' =>
          match ← takeRaw with
          | none => return [.quoted ['\\']]
          | some c => return .quoted [c] :: (← bareParts body inBraces fuel)
        | '$' =>
          let part ← dollar body false fuel
          return part :: (← bareParts body inBraces fuel)
        | '`' =>
          let t ← backquoted false (← budget)
          let commands ← inside t body
          return .output commands false :: (← bareParts body inBraces fuel)
        | c => return Word.consPlain c (← bareParts body inBraces fuel)

def dollar (body : Reader (List Command)) (inQuotes : Bool) : (fuel : Nat) → Reader Part
  | 0 => return .plain ['$']
  | fuel + 1 => do
    match ← peek with
    | some '(' =>
      let _ ← take
      if ← takeIf '(' then return .number (← quotedParts body (.parentheses 0) fuel) inQuotes
      else return .output (← inParentheses body) inQuotes
    | some '{' =>
      let _ ← take
      let (name, sized) ← bracedName
      let rest : Reader Word := if inQuotes then quotedParts body .brace fuel else bareParts body true fuel
      let invalid : Reader Part := do
        let _ ← rest
        return .parameter name .invalid inQuotes
      if name = [] then invalid
      else if sized then
        if ← takeIf '}' then return .parameter name .size inQuotes else invalid
      else if ← takeIf '}' then return .parameter name .value inQuotes
      else match ← take with
        | some '%' =>
          let longest ← takeIf '%'
          return .parameter name (.trim true longest (← bareParts body true fuel)) inQuotes
        | some '#' =>
          let longest ← takeIf '#'
          return .parameter name (.trim false longest (← bareParts body true fuel)) inQuotes
        | some ':' =>
          match ← take with
          | some c => return .parameter name (useOf c true (← rest)) inQuotes
          | none => invalid
        | some c => return .parameter name (useOf c false (← rest)) inQuotes
        | none => invalid
    | some c =>
      if startsName c then return .parameter (← takeWhile inName (← budget)) .value inQuotes
      else if isSpecial c then
        let _ ← take
        return .parameter [c] .value inQuotes
      else return if inQuotes then .quoted ['$'] else .plain ['$']
    | none => return if inQuotes then .quoted ['$'] else .plain ['$']

end

def word (body : Reader (List Command)) : Reader Word := do bareParts body false (← budget)

end LanguageRoster.Shell.Reader
