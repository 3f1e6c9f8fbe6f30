import LanguageRoster.Shell.Reader.Token

/-!
# Reading scripts

A shell reads a script as it goes: one complete command, with all that belongs to it, after another.

* `Reader.list`, `Reader.command` : commands, one inside of another
* `Reader.line` : all commands up to the end of a line, or nothing at the end of the script
-/

namespace LanguageRoster.Shell.Reader

set_option autoImplicit false

def endsList : Token → Bool
  | .ending => true
  | .sign t => t = [')'] || t = [';', ';']
  | .keyword t => ["do", "done", "elif", "else", "esac", "fi", "then", "\x7d"].contains (String.ofList t)
  | _ => false

def reserved : List Text := [".", ":", "break", "continue", "eval", "exec", "exit", "export", "readonly", "return",
  "set", "shift", "times", "trap", "unset"].map String.toList

def isKeyword (t : Token) (k : String) : Bool :=
  match t with
  | .keyword t => String.ofList t == k
  | _ => false

def isSign (t : Token) (s : String) : Bool :=
  match t with
  | .sign t => String.ofList t == s
  | _ => false

def keywordToken (k : String) : Token := .keyword k.toList

def loopWords (body : Reader (List Command)) : (fuel : Nat) → Reader (List Word)
  | 0 => return []
  | fuel + 1 => do
    match ← token body false false fuel with
    | .word w => return w :: (← loopWords body fuel)
    | .newline => return []
    | t => if isSign t ";" then return [] else unexpected t none

/-- The patterns of an arm, up to the parenthesis; the first has been read. -/
def patterns (body : Reader (List Command)) : (fuel : Nat) → Token → Reader (List Word)
  | 0, _ => return []
  | fuel + 1, first => do
    let w : Word := match first with
      | .word w => w
      | .keyword t => [.plain t]
      | _ => []
    let t ← token body false false fuel
    if isSign t "|" then return w :: (← patterns body fuel (← token body false false fuel))
    else if isSign t ")" then return [w]
    else unexpected t (some (.sign [')']))

def redirections (body : Reader (List Command)) : (fuel : Nat) → Reader (List Redirect)
  | 0 => return []
  | fuel + 1 => do
    match ← token body true false fuel with
    | .redirect descriptor sign =>
      let r ← redirection body descriptor sign
      return r :: (← redirections body fuel)
    | t =>
      putBack t
      return []

def simple (body : Reader (List Command)) : (fuel : Nat) → Reader (List Word × List Redirect)
  | 0 => return ([], [])
  | fuel + 1 => do
    match ← token body false false fuel with
    | .word w =>
      let (words, redirects) ← simple body fuel
      return (w :: words, redirects)
    | .redirect descriptor sign =>
      let r ← redirection body descriptor sign
      let (words, redirects) ← simple body fuel
      return (words, r :: redirects)
    | t =>
      putBack t
      return ([], [])

mutual

def list : (fuel : Nat) → (mayBeEmpty : Bool) → Reader (List Command)
  | 0, _ => return []
  | fuel + 1, mayBeEmpty => do
    let t ← token (list fuel true) true true fuel
    putBack t
    match t with
    | .ending => return []
    | t =>
      if mayBeEmpty && endsList t then return []
      let (c, t) ← linked fuel
      if isSign t ";" ∨ isSign t "&" then return c :: (← list fuel true)
      else match t with
        | .newline => return c :: (← list fuel true)
        | t =>
          putBack t
          return [c]

def linked : (fuel : Nat) → Reader (Command × Token)
  | 0 => return (.group [], .ending)
  | fuel + 1 => do
    let c ← pipeline fuel false
    let (c, t) ← links fuel c
    return (if isSign t "&" then .background c else c, t)

def links : (fuel : Nat) → Command → Reader (Command × Token)
  | 0, c => return (c, .ending)
  | fuel + 1, c => do
    let t ← token (list fuel true) false false fuel
    if isSign t "&&" then links fuel (.both c (← pipeline fuel true))
    else if isSign t "||" then links fuel (.either c (← pipeline fuel true))
    else return (c, t)

def pipeline : (fuel : Nat) → (overLines : Bool) → Reader Command
  | 0, _ => return .group []
  | fuel + 1, overLines => do
    let t ← token (list fuel true) true overLines fuel
    let negated := isKeyword t "!"
    if !negated then putBack t
    let first ← command fuel false
    let more ← stages fuel
    let c := if more.isEmpty then first else .pipeline (first :: more)
    return if negated then .negation c else c

/-- The commands behind the first one of a pipeline. -/
def stages : (fuel : Nat) → Reader (List Command)
  | 0 => return []
  | fuel + 1 => do
    let t ← token (list fuel true) false false fuel
    if isSign t "|" then
      let c ← command fuel true
      return c :: (← stages fuel)
    else
      putBack t
      return []

def command : (fuel : Nat) → (overLines : Bool) → Reader Command
  | 0, _ => return .group []
  | fuel + 1, overLines => do
    let body := list fuel true
    let start := (← get).line
    let t ← token body true overLines fuel
    match t with
    | .word w =>
      let here := (← get).line
      let next ← token body false false fuel
      if isSign next "(" ∧ (Word.assignment? w).isNone then definition fuel w
      else
        putBack next
        let (words, redirects) ← simple body fuel
        return .simple here (w :: words) redirects
    | .redirect .. =>
      let here := (← get).line
      putBack t
      let (words, redirects) ← simple body fuel
      return .simple here words redirects
    | t =>
      let c ←
        if isKeyword t "if" then condition fuel
        else if isKeyword t "while" then loop fuel false
        else if isKeyword t "until" then loop fuel true
        else if isKeyword t "for" then each fuel start
        else if isKeyword t "case" then select fuel start
        else if isKeyword t "\x7b" then do
          let body ← block fuel (keywordToken "\x7d")
          pure (.group body)
        else if isSign t "(" then do
          let body ← block fuel (.sign [')'])
          pure (.inside start body)
        else unexpected t none
      let redirects ← redirections body fuel
      return if redirects.isEmpty then c else .redirected start c redirects

/-- A function, behind its name and a parenthesis. -/
def definition : (fuel : Nat) → Word → Reader Command
  | 0, _ => return .group []
  | fuel + 1, w => do
    let body := list fuel true
    let t ← token body false false fuel
    if !isSign t ")" then unexpected t (some (.sign [')']))
    match w.plain? with
    | some name =>
      if isName name ∧ !reserved.contains name then return .function name (← command fuel true)
      else fail "Bad function name".toList
    | none => fail "Bad function name".toList

def block : (fuel : Nat) → (last : Token) → Reader (List Command)
  | 0, _ => return []
  | fuel + 1, last => do
    let commands ← list fuel false
    let t ← token (list fuel true) true false fuel
    if t.title = last.title then return commands else unexpected t (some last)

/-- A choice, behind its first word. -/
def condition : (fuel : Nat) → Reader Command
  | 0 => return .group []
  | fuel + 1 => do
    let test ← block fuel (keywordToken "then")
    let body ← list fuel false
    let t ← token (list fuel true) true false fuel
    if isKeyword t "elif" then return .choice test body [← condition fuel]
    else if isKeyword t "else" then return .choice test body (← block fuel (keywordToken "fi"))
    else if isKeyword t "fi" then return .choice test body []
    else unexpected t (some (keywordToken "fi"))

def loop : (fuel : Nat) → (negated : Bool) → Reader Command
  | 0, _ => return .group []
  | fuel + 1, negated => do
    let test ← block fuel (keywordToken "do")
    return .loop negated test (← block fuel (keywordToken "done"))

/-- A loop over words, behind its first word. -/
def each : (fuel : Nat) → (start : Nat) → Reader Command
  | 0, _ => return .group []
  | fuel + 1, start => do
    let body := list fuel true
    let name ← match ← token body false false fuel with
      | .word w =>
        match w.plain? with
        | some name => if isName name then pure name else fail "Bad for loop variable".toList
        | none => fail "Bad for loop variable".toList
      | _ => fail "Bad for loop variable".toList
    let t ← token body true true fuel
    let words ←
      if isKeyword t "in" then do pure (some (← loopWords body fuel))
      else do
        if !isSign t ";" then putBack t
        pure none
    let t ← token body true true fuel
    if !isKeyword t "do" then unexpected t (some (keywordToken "do"))
    return .each start name words (← block fuel (keywordToken "done"))

/-- A selection, behind its first word. -/
def select : (fuel : Nat) → (start : Nat) → Reader Command
  | 0, _ => return .group []
  | fuel + 1, start => do
    let body := list fuel true
    let subject ← match ← token body false false fuel with
      | .word w => pure w
      | t => unexpected t (some (.word []))
    let t ← token body true true fuel
    if !isKeyword t "in" then unexpected t (some (keywordToken "in"))
    return .select start subject (← arms fuel)

/-- The arms of a selection up to its end. -/
def arms : (fuel : Nat) → Reader (List (List Word × List Command))
  | 0 => return []
  | fuel + 1 => do
    let body := list fuel true
    let t ← token body true true fuel
    if isKeyword t "esac" then return []
    let first ← if isSign t "(" then token body false false fuel else pure t
    let ps ← patterns body fuel first
    let commands ← list fuel true
    let t ← token body true true fuel
    if isKeyword t "esac" then return [(ps, commands)]
    else if isSign t ";;" then return (ps, commands) :: (← arms fuel)
    else unexpected t (some (.sign [';', ';']))

end

def stepsEach : Nat := 16

/-- The commands up to the end of a line; nothing at the end of the script. -/
def line : (fuel : Nat) → List Command → Reader (Option (List Command))
  | 0, _ => return none
  | fuel + 1, before => do
    let depth := stepsEach * (← budget)
    let t ← token (list depth true) true false depth
    match t with
    | .newline => return some before
    | .ending => return if before.isEmpty then none else some before
    | t =>
      putBack t
      let (c, t) ← linked depth
      let done := before ++ [c]
      if isSign t ";" ∨ isSign t "&" then line fuel done
      else match t with
        | .newline | .ending => return some done
        | t => unexpected t none

end LanguageRoster.Shell.Reader
