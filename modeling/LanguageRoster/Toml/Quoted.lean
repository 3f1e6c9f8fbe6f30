import LanguageRoster.Toml.Scalar

/-!
# Quoted text of TOML

Text in double quotes has escapes, text in single quotes has none. Either may stand in three quotes and then go over
several lines.
-/

namespace LanguageRoster.Toml

set_option autoImplicit false

def inQuotes (quote c : Char) : Bool := inComment c && c != quote

def numbered? (digits : Text) (count : Nat) : Option Char :=
  let n := ofDigits 16 digits
  if digits.length = count ∧ digits.all (fun c => digitValue c < 16) ∧ n.isValidChar then some (Char.ofNat n) else none

def escape? : Text → Option (Char × Text)
  | 'b' :: t => some ('\x08', t)
  | 't' :: t => some ('\t', t)
  | 'n' :: t => some ('\n', t)
  | 'f' :: t => some ('\x0c', t)
  | 'r' :: t => some ('\r', t)
  | '"' :: t => some ('"', t)
  | '\\' :: t => some ('\\', t)
  | 'u' :: t => (numbered? (t.take 4) 4).map (·, t.drop 4)
  | 'U' :: t => (numbered? (t.take 8) 8).map (·, t.drop 8)
  | _ => none

/-- The text up to the quote that ends its line; `escapes` says whether a backslash has a meaning. -/
def line? (quote : Char) (escapes : Bool) : (fuel : Nat) → Text → Option (Text × Text)
  | 0, _ => none
  | _ + 1, [] => none
  | fuel + 1, c :: t =>
    if c = quote then some ([], t)
    else if escapes ∧ c = '\\' then do
      let (d, t) ← escape? t
      let (read, t) ← line? quote escapes fuel t
      return (d :: read, t)
    else if inQuotes quote c then do
      let (read, t) ← line? quote escapes fuel t
      return (c :: read, t)
    else none

/-- The text without all the blanks and line breaks at its front. -/
def skipLines : (fuel : Nat) → Text → Text
  | 0, t => t
  | fuel + 1, t =>
    match lineBreak? (skipBlanks t) with
    | some t => skipLines fuel t
    | none => skipBlanks t

/-- The text up to the three quotes that end it. One or two quotes alone stand for themselves, also right before the
end. A backslash at the end of a line takes the break and all blanks behind it away. -/
def lines? (quote : Char) (escapes : Bool) : (fuel : Nat) → Text → Option (Text × Text)
  | 0, _ => none
  | _ + 1, [] => none
  | fuel + 1, c :: t =>
    let goOn (read : Text) (t : Text) : Option (Text × Text) := do
      let (more, t) ← lines? quote escapes fuel t
      return (read ++ more, t)
    if c = quote then
      let run := (c :: t).takeWhile (· == quote)
      let rest := (c :: t).dropWhile (· == quote)
      if run.length < 3 then goOn run rest
      else if run.length ≤ 5 then some (run.drop 3, rest)
      else none
    else if escapes ∧ c = '\\' then
      match lineBreak? (skipBlanks t) with
      | some t => goOn [] (skipLines t.length t)
      | none => do
        let (d, t) ← escape? t
        goOn [d] t
    else if inQuotes quote c then goOn [c] t
    else do goOn ['\n'] (← lineBreak? (c :: t))

/-- The text in quotes at the front of a text; `multi` says whether three quotes have a meaning. -/
def quoted? (multi : Bool) (t : Text) : Option (Text × Text) :=
  match t with
  | c :: rest =>
    if c = '"' ∨ c = '\'' then
      match rest with
      | d :: e :: more =>
        if multi ∧ c = d ∧ c = e then
          lines? c (c == '"') (more.length + 1) ((lineBreak? more).getD more)
        else line? c (c == '"') (rest.length + 1) rest
      | _ => line? c (c == '"') (rest.length + 1) rest
    else none
  | [] => none

end LanguageRoster.Toml
