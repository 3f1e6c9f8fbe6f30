import LanguageRoster.Shell.Reader.Word

/-!
# Reading tokens

* `Reader.token` : the next token, in which words can be keywords
* `Reader.redirection` : a redirection behind its sign, with the text that it may bring along
-/

namespace LanguageRoster.Shell.Reader

set_option autoImplicit false

/-! ## Tokens -/

def keywords : List Text := ["!", "case", "do", "done", "elif", "else", "esac", "fi", "for", "if", "in", "then",
  "until", "while", "\x7b", "\x7d"].map String.toList

def keyword? (w : Word) : Option Text :=
  match w.plain? with
  | some t => if keywords.contains t then some t else none
  | none => none

def redirectSign : Reader Text := do
  if ← takeIf '>' then
    if ← takeIf '>' then return ['>', '>']
    if ← takeIf '|' then return ['>', '|']
    if ← takeIf '&' then return ['>', '&']
    return ['>']
  let _ ← take
  if ← takeIf '<' then
    if ← takeIf '-' then return ['<', '<', '-']
    return ['<', '<']
  if ← takeIf '&' then return ['<', '&']
  if ← takeIf '>' then return ['<', '>']
  return ['<']

/-- The next token is a redirection, and the number in front of it. -/
def redirectAhead : Reader (Option (Option Nat)) := do
  join
  match (← get).rest with
  | '<' :: _ | '>' :: _ => return some none
  | c :: d :: _ =>
    if c.isDigit ∧ (d = '<' ∨ d = '>') then
      let _ ← take
      return some (some (c.toNat - '0'.toNat))
    else return none
  | _ => return none

def skipBlanks : Reader Unit := do
  let _ ← takeWhile Text.isBlank (← budget)
  let s ← get
  match s.rest with
  | '#' :: t => set { s with rest := t.dropWhile (· ≠ '\n') }
  | _ => return ()

def freshToken (body : Reader (List Command)) : Reader Token := do
  skipBlanks
  match ← redirectAhead with
  | some descriptor => return .redirect descriptor (← redirectSign)
  | none =>
    match ← peek with
    | none => return .ending
    | some '\n' =>
      let _ ← take
      return .newline
    | some c =>
      if c = '(' ∨ c = ')' then
        let _ ← take
        return .sign [c]
      else if c = ';' ∨ c = '&' ∨ c = '|' then
        let _ ← take
        return .sign (if ← takeIf c then [c, c] else [c])
      else return .word (← word body)

/-- The next token. Where a command may start, words can be keywords; where a line may go on, line breaks are passed
over. -/
def token (body : Reader (List Command)) (atCommand overLines : Bool) : (fuel : Nat) → Reader Token
  | 0 => return .ending
  | fuel + 1 => do
    let s ← get
    let t ← match s.putBack with
      | some t => do
        set { s with putBack := none }
        pure t
      | none => freshToken body
    match t with
    | .newline => if overLines then token body atCommand overLines fuel else return .newline
    | .word w =>
      match keyword? w with
      | some k => return if atCommand then .keyword k else .word w
      | none => return .word w
    | t => return t

def putBack (t : Token) : Reader Unit := modify fun s => { s with putBack := some t }

/-! ## Redirections -/

/-- The mark at the end of a text within a script, and whether any of it is quoted. -/
def endMark : (fuel : Nat) → Reader (Text × Bool)
  | 0 => return ([], false)
  | fuel + 1 => do
    match ← peek with
    | none => return ([], false)
    | some c =>
      if endsWord c then return ([], false)
      let _ ← take
      let (front, isQuoted) : Text × Bool ← match c with
        | '\'' => do pure (← singleQuoted (← budget), true)
        | '"' => do
          let w ← quotedParts (pure []) .quote (← budget)
          pure (w.flatMap fun
            | .quoted t => t
            | _ => [], true)
        | '\\' => do pure ((← takeRaw).toList, true)
        | c => pure ([c], false)
      let (more, more_isQuoted) ← endMark fuel
      return (front ++ more, isQuoted || more_isQuoted)

def linesUpTo (mark : Text) (withoutTabs : Bool) : List Text → List Text × List Text
  | [] => ([], [])
  | l :: lines =>
    let l := if withoutTabs then l.dropWhile (· = '\t') else l
    if l = mark ∨ l = mark ++ ['\n'] then ([], lines)
    else
      let (front, rest) := linesUpTo mark withoutTabs lines
      (l :: front, rest)

def textUpTo (mark : Text) (withoutTabs : Bool) : Reader Text := do
  let s ← get
  let (line, behind) := Text.splitLine s.rest
  let lines := Text.lines behind
  let (front, rest) := linesUpTo mark withoutTabs lines
  set { s with rest := line ++ rest.flatten, skipped := s.skipped + (lines.length - rest.length) }
  return front.flatten

def redirection (body : Reader (List Command)) (descriptor : Option Nat) (sign : Text) : Reader Redirect := do
  let target : Reader Word := do
    match ← token body false false (← budget) with
    | .word w => return w
    | t => unexpected t none
  match String.ofList sign with
  | "<<" | "<<-" =>
    skipBlanks
    let (mark, isQuoted) ← endMark (← budget)
    let s ← get
    if mark = [] ∧ !isQuoted then unexpected (← token body false false (← budget)) none
    let t ← textUpTo mark (sign.length = 3)
    if isQuoted then return .text (descriptor.getD 0) [.quoted t]
    else return .text (descriptor.getD 0) (← inside t (quotedParts body .ending (t.length + s.rest.length + 1)))
  | ">&" => return .copy (descriptor.getD 1) (← target)
  | "<&" => return .copy (descriptor.getD 0) (← target)
  | ">>" => return .file (descriptor.getD 1) .append (← target)
  | ">|" => return .file (descriptor.getD 1) .overwrite (← target)
  | "<>" => return .file (descriptor.getD 0) .both (← target)
  | "<" => return .file (descriptor.getD 0) .read (← target)
  | _ => return .file (descriptor.getD 1) .write (← target)

end LanguageRoster.Shell.Reader
