import LanguageRoster.Toml.Basic
import LanguageRoster.Record

/-!
# Tables in the making

A table of a document is put together from several places: its own header, headers below it, and dotted keys. Each of
them may only do so where no other has closed the table.

* `Toml.Making` : what a table has come from
* `Toml.Node` : a value, a table in the making, or a list of tables
* `Toml.descend` : a change to the table at the end of a path
* `Toml.assign`, `Toml.openTable`, `Toml.openItem` : what a key with a value, a header, and a header of a list do
-/

namespace LanguageRoster.Toml

set_option autoImplicit false

inductive Making where
  | header
  | path
  | dotted
  deriving DecidableEq, Repr

inductive Node where
  | value (v : Toml)
  | table (m : Making) (fields : List (Text × Node))
  /-- A list of tables, the latest first; only that one can still grow. -/
  | tables (latest : List (Text × Node)) (earlier : List (List (Text × Node)))

abbrev Fields := List (Text × Node)

/-- Changes the table at the end of the path, and makes those on the way that are not there. A dotted path may not lead
through a table with a header of its own. -/
def descend (dotted : Bool) (path : List Text) (m : Making) (fields : Fields)
    (change : Making → Fields → Option Fields) : Option Fields :=
  match path with
  | [] => change m fields
  | key :: path =>
    match fields.lookup key with
    | none => do
      let m := if dotted then .dotted else .path
      return Record.set key (.table m (← descend dotted path m [] change)) fields
    | some (.value _) => none
    | some (.tables latest earlier) => do
      return Record.set key (.tables (← descend dotted path .header latest change) earlier) fields
    | some (.table m inner) =>
      if dotted ∧ m = .header then none
      else do return Record.set key (.table m (← descend dotted path m inner change)) fields

/-- The fields with a value set, which must be new. A dotted key ends in a table made by dotted keys only, and a plain
one in a table that was not. -/
def assign (key : List Text) (v : Toml) (m : Making) (fields : Fields) : Option Fields :=
  match key.getLast? with
  | none => none
  | some name =>
    let path := key.dropLast
    descend (!path.isEmpty) path m fields fun m fields =>
      if (m == .dotted) == path.isEmpty then none
      else if (fields.lookup name).isSome then none
      else some (Record.set name (.value v) fields)

/-- The fields with the table of the header, which must be new, or known from headers below it only. Then it moves
behind the others. -/
def openTable (header : List Text) (fields : Fields) : Option Fields :=
  match header.getLast? with
  | none => none
  | some name => descend false header.dropLast .header fields fun _ fields =>
    match fields.lookup name with
    | none => some (Record.set name (.table .header []) fields)
    | some (.table .path inner) => some ((fields.filter fun f => f.1 ≠ name) ++ [(name, .table .header inner)])
    | some _ => none

/-- The fields with one more table in the list of the header. -/
def openItem (header : List Text) (fields : Fields) : Option Fields :=
  match header.getLast? with
  | none => none
  | some name => descend false header.dropLast .header fields fun _ fields =>
    match fields.lookup name with
    | none => some (Record.set name (.tables [] []) fields)
    | some (.tables latest earlier) => some (Record.set name (.tables [] (latest :: earlier)) fields)
    | some _ => none

/-! ## The finished table -/

mutual

def Node.finish : Node → Toml
  | .value v => v
  | .table _ fields => .table (finishFields fields)
  | .tables latest earlier => .list ((.table (finishFields latest) :: finishTables earlier).reverse)

def finishFields : List (Text × Node) → List (Text × Toml)
  | [] => []
  | (k, n) :: fields => (k, n.finish) :: finishFields fields

def finishTables : List (List (Text × Node)) → List Toml
  | [] => []
  | fields :: more => .table (finishFields fields) :: finishTables more

end

end LanguageRoster.Toml
