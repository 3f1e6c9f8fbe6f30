import LanguageRoster.Text.Hidden

/-!
# Quoted text

`Text.quoted` shows a text in double quotes so that every character can be told from the outside: a quote and a
backslash get a backslash, the four most common controls go by name, and a hidden character by its number.
-/

namespace LanguageRoster

set_option autoImplicit false

namespace Text

def byNumber (c : Char) : Text := ['\\', 'u', '{'] ++ Nat.toDigits 16 c.toNat ++ ['}']

def quotedChar (c : Char) : Text :=
  if c = '"' ∨ c = '\\' then ['\\', c]
  else if c = '\x00' then ['\\', '0']
  else if c = '\t' then ['\\', 't']
  else if c = '\r' then ['\\', 'r']
  else if c = '\n' then ['\\', 'n']
  else if c.toNat < 0x20 then byNumber c
  else if c.toNat < 0x7F then [c]
  else if isHidden c then byNumber c
  else [c]

def quoted (t : Text) : Text := '"' :: t.flatMap quotedChar ++ ['"']

end Text

end LanguageRoster
