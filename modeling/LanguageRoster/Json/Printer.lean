import LanguageRoster.Json.Basic
import LanguageRoster.Decimal.Shortest

/-!
# Writing JSON

* `Json.quoted` : a text as a JSON string
* `Json.compact` : a document without any white space
* `Json.pretty` : a document with one item or field to a line, two blanks further in than its bracket
-/

namespace LanguageRoster.Json

set_option autoImplicit false

/-- Binary fractions have as few digits as read back. A point always stands in them, unless they need an exponent:
from `10 ^ 16` on, and below `10 ^ -5`. -/
def fractions : DecimalStyle := ⟨.toEven, true, some (-4, 16)⟩

def controlDigits (n : Nat) : Text := [Nat.digitChar (n / 16), Nat.digitChar (n % 16)]

def quotedChar (c : Char) : Text :=
  if c = '"' ∨ c = '\\' then ['\\', c]
  else if c = '\x08' then ['\\', 'b']
  else if c = '\x0c' then ['\\', 'f']
  else if c = '\n' then ['\\', 'n']
  else if c = '\r' then ['\\', 'r']
  else if c = '\t' then ['\\', 't']
  else if c.toNat < 0x20 then ['\\', 'u', '0', '0'] ++ controlDigits c.toNat
  else [c]

def quoted (t : Text) : Text := '"' :: t.flatMap quotedChar ++ ['"']

def scalar : Json → Text
  | .null => ['n', 'u', 'l', 'l']
  | .bool true => ['t', 'r', 'u', 'e']
  | .bool false => ['f', 'a', 'l', 's', 'e']
  | .integer n => Text.ofInt n
  | .float x => fractions.write x
  | .string t => quoted t
  | .list _ => ['[', ']']
  | .object _ => ['{', '}']

/-! ## Compact -/

mutual

def compact : Json → Text
  | .list (v :: items) => '[' :: compact v ++ compactItems items ++ [']']
  | .object ((k, v) :: fields) => '{' :: quoted k ++ ':' :: compact v ++ compactFields fields ++ ['}']
  | v => scalar v

def compactItems : List Json → Text
  | [] => []
  | v :: items => ',' :: compact v ++ compactItems items

def compactFields : List (Text × Json) → Text
  | [] => []
  | (k, v) :: fields => ',' :: quoted k ++ ':' :: compact v ++ compactFields fields

end

/-! ## Pretty -/

def newLine (depth : Nat) : Text := '\n' :: List.replicate (2 * depth) ' '

mutual

/-- The document with a line to each item and field, inside `depth` brackets. -/
def prettyAt (depth : Nat) : Json → Text
  | .list (v :: items) =>
    '[' :: newLine (depth + 1) ++ prettyAt (depth + 1) v ++ prettyItems (depth + 1) items ++ newLine depth ++ [']']
  | .object ((k, v) :: fields) =>
    '{' :: newLine (depth + 1) ++ quoted k ++ ':' :: ' ' :: prettyAt (depth + 1) v ++
      prettyFields (depth + 1) fields ++ newLine depth ++ ['}']
  | v => scalar v

def prettyItems (depth : Nat) : List Json → Text
  | [] => []
  | v :: items => ',' :: newLine depth ++ prettyAt depth v ++ prettyItems depth items

def prettyFields (depth : Nat) : List (Text × Json) → Text
  | [] => []
  | (k, v) :: fields =>
    ',' :: newLine depth ++ quoted k ++ ':' :: ' ' :: prettyAt depth v ++ prettyFields depth fields

end

def pretty (v : Json) : Text := prettyAt 0 v

end LanguageRoster.Json
