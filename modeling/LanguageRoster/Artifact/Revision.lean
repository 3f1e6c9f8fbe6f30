import LanguageRoster.Artifact.Table
import LanguageRoster.Json.Reader
import LanguageRoster.Json.Printer

/-!
# Revising an artifact

* `Table.add` : the document with an entry for a language at the end of its list, unless it has one
* `Table.revise` : the same for the text of a document; a document that stays as it is has no new text
-/

namespace LanguageRoster.Table

set_option autoImplicit false

/-- What was done about the language in an artifact. -/
inductive Reconciled where
  | added
  | alreadyPresent
  deriving DecidableEq, Repr

/-- Why a text is no artifact of the table. -/
inductive Unusable where
  | malformed (m : Json.Malformed)
  | lacking (l : Lack)
  deriving DecidableEq, Repr

/-- The document with an entry for the language behind the others; nothing, if one of them is the language's. -/
def add (t : Table) (l : Language) (doc : Json) : Except Lack (Option Json) :=
  match t.entries doc with
  | .error lack => .error lack
  | .ok items => .ok (if items.any (t.lists l) then none else some (t.withEntries (items ++ [t.entry l]) doc))

def render (doc : Json) : Text := doc.pretty ++ ['\n']

/-- The new text of the artifact; nothing, if it lists the language already. -/
def revise (t : Table) (l : Language) (text : Text) : Except Unusable (Option Text) :=
  match Json.read text with
  | .error m => .error (.malformed m)
  | .ok doc =>
    match t.add l doc with
    | .error lack => .error (.lacking lack)
    | .ok changed => .ok (changed.map render)

end LanguageRoster.Table
