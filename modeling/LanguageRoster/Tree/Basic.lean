import LanguageRoster.Path
import LanguageRoster.Record
import LanguageRoster.Text.Utf8

/-!
# File trees

A tree of directories, files and symbolic links, with the directory in which a program works.

* `Place` : where an entry stands, as the names on the way from the root
* `Entry` : what stands there; `mayRead`, `mayWrite`, `mayEnter` tell what its mode permits
* `Tree.get?`, `Tree.put`, `Tree.erase` : the entry at a place; `get?_put` and `get?_erase` say that no other changes
-/

namespace LanguageRoster

set_option autoImplicit false

abbrev Place := List Text

def Place.path (p : Place) : Text := if p = [] then ['/'] else p.flatMap ('/' :: ·)

theorem Place.isAbsolute_path (p : Place) : Path.isAbsolute p.path = true := by
  cases p <;> rfl

/-- What stands at a place. -/
inductive Entry where
  | directory (mode : Nat)
  | file (mode : Nat) (content : Bytes)
  | link (target : Text)
  deriving DecidableEq

def Entry.isDirectory : Entry → Bool
  | .directory _ => true
  | _ => false

theorem Entry.isDirectory_iff {e : Entry} : e.isDirectory = true ↔ ∃ mode, e = .directory mode := by
  cases e <;> simp [isDirectory]

def Entry.mode? : Entry → Option Nat
  | .directory mode => some mode
  | .file mode _ => some mode
  | .link _ => none

/-! ## Permissions

All programs run as the owner of all entries, so that of a mode only the owner's part matters. -/

def mayRead (mode : Nat) : Bool := mode.testBit 8

def mayWrite (mode : Nat) : Bool := mode.testBit 7

/-- The mode lets the owner run a file, or go through a directory. -/
def mayEnter (mode : Nat) : Bool := mode.testBit 6

def directoryMode : Nat := 0o755

/-! ## Trees -/

/-- The entries of a file system below its root, and the directory in which paths start that do not start at the
root. -/
structure Tree where
  entries : List (Place × Entry)
  here : Place

namespace Tree

def get? (t : Tree) (p : Place) : Option Entry := if p = [] then some (.directory directoryMode) else t.entries.lookup p

def put (t : Tree) (p : Place) (e : Entry) : Tree := { t with entries := Record.set p e t.entries }

def erase (t : Tree) (p : Place) : Tree := { t with entries := t.entries.filter fun x => x.1 ≠ p }

def namesIn (t : Tree) (p : Place) : List Text :=
  t.entries.filterMap fun (q, _) => if q.length = p.length + 1 ∧ p.isPrefixOf q then q.getLast? else none

@[simp] theorem here_put (t : Tree) (p : Place) (e : Entry) : (t.put p e).here = t.here := rfl

@[simp] theorem here_erase (t : Tree) (p : Place) : (t.erase p).here = t.here := rfl

theorem get?_put (t : Tree) (p q : Place) (e : Entry) (hp : p ≠ []) :
    (t.put p e).get? q = if q = p then some e else t.get? q := by
  by_cases hq : q = []
  · simp [get?, hq, Ne.symm hp]
  · simp [get?, hq, put, Record.lookup_set]

theorem get?_put_self (t : Tree) {p : Place} (hp : p ≠ []) (e : Entry) : (t.put p e).get? p = some e := by
  rw [get?_put _ _ _ _ hp, if_pos rfl]

theorem get?_erase (t : Tree) (p q : Place) (hq : q ≠ []) :
    (t.erase p).get? q = if q = p then none else t.get? q := by
  simp only [get?, hq, if_false, erase]
  exact Record.lookup_filter_ne p q t.entries

end Tree

end LanguageRoster
