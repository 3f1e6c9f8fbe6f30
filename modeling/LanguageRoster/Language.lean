import LanguageRoster.Text.Quoted

/-!
# Languages

A `Language` is a name that a single-quoted literal of the grammar source can hold and give back unchanged.

* `Language.objection?` : what speaks against a name, the first objection if there are several
* `Language.ofName` : the language of a name, or the objection to it
* `Language.literal` : the name in single quotes
-/

namespace LanguageRoster

set_option autoImplicit false

namespace Language

/-- Why a name cannot stand in a single-quoted literal. -/
inductive Objection where
  | empty
  | lineBreak
  | singleQuote
  | backslash
  deriving DecidableEq, Repr

def Objection.reason : Objection → String
  | .empty => "name is empty"
  | .lineBreak => "name contains a line break"
  | .singleQuote => "name contains a single quote"
  | .backslash => "name contains a backslash"

/-- The first objection to a name: it is empty, it breaks the line, it ends the literal, or it starts an escape. -/
def objection? (name : Text) : Option Objection :=
  if name = [] then some .empty
  else if name.any (fun c => c == '\n' || c == '\r') then some .lineBreak
  else if name.contains '\'' then some .singleQuote
  else if name.contains '\\' then some .backslash
  else none

/-- A name that was refused, with the objection to it. -/
structure Refused where
  name : Text
  objection : Objection
  deriving DecidableEq, Repr

def Refused.message (r : Refused) : String :=
  "invalid language name " ++ String.ofList r.name.quoted ++ ": " ++ r.objection.reason

end Language

/-- A language, known by a name to which there is no objection. -/
structure Language where
  name : Text
  unopposed : Language.objection? name = none
  deriving DecidableEq, Repr

namespace Language

def ofName (name : Text) : Except Refused Language :=
  match h : objection? name with
  | none => .ok ⟨name, h⟩
  | some o => .error ⟨name, o⟩

def literal (l : Language) : Text := '\'' :: l.name ++ ['\'']

end Language

end LanguageRoster
