import LanguageRoster.Language
import LanguageRoster.Json.Basic

/-!
# Tables of languages

Each generated artifact has a list in which every language has an entry.

* `Table` : the two kinds of artifact
* `Table.entries` : the list of a document, or what the document lacks
* `Table.withEntries` : the document with another list in its place
* `Table.lists`, `Table.entry` : how the entry of a language is known, and what a new one looks like
-/

namespace LanguageRoster

set_option autoImplicit false

/-- An artifact with a list of languages: the description of a grammar, whose list stands under a rule, or the list of
node types, which is a whole document. -/
inductive Table where
  | grammar (rule : Text)
  | nodeTypes
  deriving DecidableEq, Repr

namespace Table

/-- What a document lacks. -/
inductive Lack where
  | noRules
  | noRule (rule : Text)
  | noMembers (rule : Text)
  | noList
  deriving DecidableEq, Repr

def Lack.message : Lack → String
  | .noRules => "no `rules` object"
  | .noRule rule => "no `rules." ++ String.ofList rule ++ "` rule"
  | .noMembers rule => "`rules." ++ String.ofList rule ++ "` has no `members` list"
  | .noList => "expected a top-level list of node types"

def rulesKey : Text := ['r', 'u', 'l', 'e', 's']

def membersKey : Text := ['m', 'e', 'm', 'b', 'e', 'r', 's']

def typeKey : Text := ['t', 'y', 'p', 'e']

def valueKey : Text := ['v', 'a', 'l', 'u', 'e']

def namedKey : Text := ['n', 'a', 'm', 'e', 'd']

def entries (t : Table) (doc : Json) : Except Lack (List Json) :=
  match t with
  | .nodeTypes =>
    match doc with
    | .list items => .ok items
    | _ => .error .noList
  | .grammar rule =>
    match doc.field? rulesKey with
    | none => .error .noRules
    | some rules =>
      match rules.field? rule with
      | none => .error (.noRule rule)
      | some body =>
        match body.field? membersKey with
        | some (.list items) => .ok items
        | _ => .error (.noMembers rule)

/-- The document with its list replaced; all else stays as it is. -/
def withEntries (t : Table) (items : List Json) (doc : Json) : Json :=
  match t with
  | .nodeTypes => .list items
  | .grammar rule =>
    doc.update rulesKey fun rules => rules.update rule fun body => body.update membersKey fun _ => .list items

/-- The entry stands for the language. -/
def lists (t : Table) (l : Language) (entry : Json) : Bool :=
  let key := match t with
    | .grammar _ => valueKey
    | .nodeTypes => typeKey
  (entry.field? key).bind Json.text? == some l.name

/-- A new entry for the language: a literal of the grammar, or the type of a literal. -/
def entry (t : Table) (l : Language) : Json :=
  match t with
  | .grammar _ => .object [(typeKey, .string ['S', 'T', 'R', 'I', 'N', 'G']), (valueKey, .string l.name)]
  | .nodeTypes => .object [(typeKey, .string l.name), (namedKey, .bool false)]

end Table

end LanguageRoster
