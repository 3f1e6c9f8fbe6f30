import LanguageRoster.Decimal.Extended

/-!
# TOML documents

* `Toml` : a value of a TOML document
* `Toml.lineBreak?`, `Toml.lineEnd?`, `Toml.gap` : what stands between values
-/

namespace LanguageRoster

set_option autoImplicit false

/-- A value of a TOML document. Dates and times are kept as they are written in the standard form. -/
inductive Toml where
  | text (t : Text)
  | integer (n : Int)
  | float (x : Extended)
  | bool (b : Bool)
  | moment (t : Text)
  | list (items : List Toml)
  | table (fields : List (Text × Toml))
  deriving Repr

namespace Toml

def depthLimit : Nat := 80

/-! ## Between values -/

def skipBlanks (t : Text) : Text := t.dropWhile Text.isBlank

def lineBreak? : Text → Option Text
  | '\n' :: t => some t
  | '\r' :: '\n' :: t => some t
  | _ => none

def inComment (c : Char) : Bool := c == '\t' || (0x20 ≤ c.toNat && c.toNat ≤ 0x7E) || 0x80 ≤ c.toNat

def skipComment : Text → Text
  | '#' :: t => t.dropWhile inComment
  | t => t

/-- The text behind the end of its first line, where only blanks and a comment stand before it. -/
def lineEnd? (t : Text) : Option Text :=
  match skipComment (skipBlanks t) with
  | [] => some []
  | t => lineBreak? t

/-- The text without the blanks, comments and line breaks at its front. A comment needs a line break behind it. -/
def gap : (fuel : Nat) → Text → Option Text
  | 0, t => some t
  | fuel + 1, t =>
    match skipBlanks t with
    | '#' :: t =>
      match lineBreak? (t.dropWhile inComment) with
      | some t => gap fuel t
      | none => none
    | t =>
      match lineBreak? t with
      | some t => gap fuel t
      | none => some t

end Toml

end LanguageRoster
