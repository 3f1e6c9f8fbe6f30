import LanguageRoster.Language

/-!
# The choice of languages in a grammar source

The source of a grammar names its languages one to a line, in a choice under a marker comment:

```text
    // These are target languages
    languageName: (_$) =>
      choice(
        'grit',
        'js',
      ),
```

* `Choice.Pattern` : how to know the choice, by its marker, its rule and its first member
* `Choice.Member` : one line of the choice, cut into its parts
* `Choice.Block` : a whole document cut into the choice and what stands around it; `Block.render` puts it together
* `Choice.Mismatch` : why a document has no such block
-/

namespace LanguageRoster.Choice

set_option autoImplicit false

/-- What identifies the choice in a document. -/
structure Pattern where
  /-- The comment line directly above the rule. -/
  marker : Text := "// These are target languages".toList
  /-- The name of the rule. -/
  rule : Text := "languageName".toList
  /-- The member that has to come first. -/
  anchor : Text := "grit".toList
  deriving DecidableEq, Repr

/-! ## Members -/

/-- A member line: blanks, the value in quotes with a comma, blanks, and the end of the line. -/
structure Member where
  indent : Text
  value : Text
  padding : Text := []
  ending : Text := ['\n']
  deriving DecidableEq, Repr

def Member.render (m : Member) : Text := m.indent ++ '\'' :: m.value ++ '\'' :: ',' :: m.padding ++ m.ending

def inValue (c : Char) : Bool := c != '\'' && c != '\\' && c != '\r' && c != '\n'

/-- The end of a line: carriage returns, and a line feed unless the text ends here. -/
def isEnding (t : Text) : Bool :=
  let rest := t.dropWhile (· == '\r')
  rest == [] || rest == ['\n']

def Member.read? (line : Text) : Option Member :=
  match line.dropWhile Text.isBlank with
  | '\'' :: inner =>
    match inner.takeWhile inValue, inner.dropWhile inValue with
    | c :: value, '\'' :: ',' :: tail =>
      if isEnding (tail.dropWhile Text.isBlank) then
        some ⟨line.takeWhile Text.isBlank, c :: value, tail.takeWhile Text.isBlank, tail.dropWhile Text.isBlank⟩
      else none
    | _, _ => none
  | _ => none

/-- Cuts the line that closes the choice into the line proper and its end. -/
def closing? (line : Text) : Option (Text × Text) :=
  match line.dropWhile Text.isBlank with
  | ')' :: ',' :: tail =>
    if isEnding (tail.dropWhile Text.isBlank) then
      some (line.takeWhile Text.isBlank ++ ')' :: ',' :: tail.takeWhile Text.isBlank, tail.dropWhile Text.isBlank)
    else none
  | _ => none

/-! ## Blocks -/

/-- A document that holds the choice, cut at the ends of the choice and of its lines. -/
structure Block where
  before : Text
  header : Text
  members : List Member
  closing : Text
  after : Text
  deriving DecidableEq, Repr

namespace Block

/-- The choice itself, from the marker to the closing line. -/
def excerpt (b : Block) : Text := b.header ++ b.members.flatMap Member.render ++ b.closing

def render (b : Block) : Text := b.before ++ b.excerpt ++ b.after

def values (b : Block) : List Text := b.members.map Member.value

/-- The number of the first member's line; the first line of the document is line 1. -/
def firstLine (b : Block) : Nat := 1 + Text.lineFeeds (b.before ++ b.header)

def numbered (b : Block) : List (Member × Nat) := b.members.zipIdx b.firstLine

def lists (b : Block) (l : Language) : Bool := b.values.contains l.name

/-- The line for one more language: it is indented as the line above it, and ends as that line does. -/
def nextMember (b : Block) (l : Language) : Member :=
  match b.members.getLast? with
  | some last => ⟨last.indent, l.name, [], if last.ending = ['\r', '\n'] then ['\r', '\n'] else ['\n']⟩
  | none => ⟨[], l.name, [], ['\n']⟩

/-- The document with the language behind the last member, listed already or not. All else stays as it is. -/
def insert (b : Block) (l : Language) : Block := { b with members := b.members ++ [b.nextMember l] }

end Block

/-! ## Mismatches -/

/-- Why a document holds no choice of the pattern. -/
inductive Mismatch where
  | headerNotFound (marker rule : Text)
  | ambiguous (rule : Text) (count : Nat)
  | unexpectedLine (line : Nat) (content : Text)
  | unterminated (line : Nat) (rule : Text)
  /-- The choice starts with `found`, a value and the number of its line, or is empty. -/
  | missingAnchor (rule anchor : Text) (found : Option (Text × Nat))
  | noLanguages (rule anchor : Text)
  deriving DecidableEq, Repr

def foundInWords : Option (Text × Nat) → String
  | none => "an empty choice"
  | some (value, line) => "'" ++ String.ofList value ++ "' on line " ++ toString line

def Mismatch.message : Mismatch → String
  | .headerNotFound marker rule =>
    "could not find `" ++ String.ofList marker ++ "` followed by `" ++ String.ofList rule ++ ": (_$) =>` and `choice(`"
  | .ambiguous rule count =>
    "the `" ++ String.ofList rule ++ "` choice header appears " ++ toString count ++ " times; expected exactly one"
  | .unexpectedLine line content =>
    "line " ++ toString line ++ ": expected `'<language>',` or `),`, found `" ++ String.ofList content ++ "`"
  | .unterminated line rule =>
    "line " ++ toString line ++ ": end of file inside the `" ++ String.ofList rule ++ "` choice"
  | .missingAnchor rule anchor found =>
    "the `" ++ String.ofList rule ++ "` choice must start with '" ++ String.ofList anchor ++ "', found " ++
      foundInWords found
  | .noLanguages rule anchor =>
    "the `" ++ String.ofList rule ++ "` choice lists no languages after '" ++ String.ofList anchor ++ "'"

end LanguageRoster.Choice
