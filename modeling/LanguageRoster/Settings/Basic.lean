import LanguageRoster.Decimal.Extended
import LanguageRoster.Record
import LanguageRoster.Text.LowerCase
import LanguageRoster.Toml.Basic

/-!
# Settings

A tree of settings, each with the file it comes from.

* `Scalar`, `Setting` : a single value, and a tree of them
* `Setting.merge` : a setting put under a name; tables grow together, all else is replaced
* `Setting.ofToml` : the setting of a value in a file
-/

namespace LanguageRoster

set_option autoImplicit false

inductive Scalar where
  | nothing
  | bool (b : Bool)
  | integer (n : Int)
  | float (x : Extended)
  | text (t : Text)
  deriving DecidableEq, Repr

/-- A value, a list or a table of settings, with the file it comes from, if it comes from one. -/
inductive Setting where
  | scalar (origin : Option Text) (v : Scalar)
  | list (origin : Option Text) (items : List Setting)
  | table (origin : Option Text) (fields : List (Text × Setting))
  deriving Repr

namespace Setting

def nothing : Setting := .scalar none .nothing

/-- The fields of a table, and where it comes from; all else is taken for a new table. -/
def asTable : Setting → Option Text × List (Text × Setting)
  | .table origin fields => (origin, fields)
  | _ => (none, [])

/-- The items of a list, and where it comes from; all else is taken for a new list. -/
def asList : Setting → Option Text × List Setting
  | .list origin items => (origin, items)
  | _ => (none, [])

def field? (s : Setting) (key : Text) : Option Setting := s.asTable.2.lookup key

/-! ## Merging -/

mutual

/-- The table `target` with the setting under the name, in lower case. A table goes into the one that is there. -/
def merge (key : Text) (v : Setting) (target : Setting) : Setting :=
  let (origin, fields) := target.asTable
  match v with
  | .table _ incoming =>
    let old := (fields.lookup key.toLower).getD (.table none [])
    .table origin (Record.set key.toLower (mergeAll incoming old) fields)
  | .scalar o v => .table origin (Record.set key.toLower (.scalar o v) fields)
  | .list o items => .table origin (Record.set key.toLower (.list o items) fields)

def mergeAll : List (Text × Setting) → Setting → Setting
  | [], target => target
  | (key, v) :: more, target => mergeAll more (merge key v target)

end

/-! ## Files -/

mutual

def ofToml (origin : Option Text) : Toml → Setting
  | .text t => .scalar origin (.text t)
  | .integer n => .scalar origin (.integer n)
  | .float x => .scalar origin (.float x)
  | .bool b => .scalar origin (.bool b)
  | .moment t => .scalar origin (.text t)
  | .list items => .list origin (ofItems origin items)
  | .table fields => .table origin (ofFields origin fields)

def ofItems (origin : Option Text) : List Toml → List Setting
  | [] => []
  | v :: items => ofToml origin v :: ofItems origin items

def ofFields (origin : Option Text) : List (Text × Toml) → List (Text × Setting)
  | [] => []
  | (key, v) :: fields => (key, ofToml origin v) :: ofFields origin fields

end

end Setting

end LanguageRoster
