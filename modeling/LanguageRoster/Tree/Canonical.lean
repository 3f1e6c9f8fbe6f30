import LanguageRoster.Tree.Resolve

/-!
# Canonical places

The place of a path can be worked out name by name, each entry looked up by its absolute path. That is another walk than
the one by which the system follows a path: a step up takes the last name away and asks no directory, a walk from the
working directory needs all directories above it, and each place on the way has to have a path that is short enough.

* `Tree.barred?` : why the absolute path of a place leads nowhere, if so
* `Tree.look?` : the entry that the absolute path of a place names
* `Tree.canonical?` : the place that the path comes to
-/

namespace LanguageRoster.Tree

set_option autoImplicit false

/-- Why a walk from the place `p` through directories alone does not come to the last name, if so. -/
def barredFrom? (t : Tree) (p : Place) : List Text → Option Fault
  | [] => none
  | name :: rest =>
    match t.get? p with
    | some (.directory mode) => if mayEnter mode then barredFrom? t (p ++ [name]) rest else some .denied
    | some _ => some .notDirectory
    | none => some .notFound

def barred? (t : Tree) (p : Place) : Option Fault := t.barredFrom? [] p

def look? (t : Tree) (p : Place) : Option Entry :=
  if isTooLong p.path ∨ (t.barred? p).isSome then none else t.get? p

/-- The names ask of the entry before them that it is a directory: they go up from it, or stay in it to the end. -/
def askDirectory : List Text → Bool
  | [] => false
  | name :: rest => if name = Path.dot then rest.isEmpty || askDirectory rest else name == Path.dotDot

def takes (p : Place) (e : Entry) (names : List Text) : Bool :=
  !askDirectory names || e.isDirectory && !isTooLong (p.path ++ ['/'])

/-- Takes the names from the place `p`; `follow` goes on where a link sends the walk. -/
def canonicalWalk (t : Tree) (follow : Place → List Text → Option Place) (p : Place) : List Text → Option Place
  | [] => some p
  | name :: rest =>
    if name = Path.dot then canonicalWalk t follow p rest
    else if name = Path.dotDot then canonicalWalk t follow p.dropLast rest
    else if longestName < name.size then none
    else match t.look? (p ++ [name]) with
      | none => none
      | some (.link target) => follow (if Path.isAbsolute target then [] else p) (steps target ++ rest)
      | some e => if takes (p ++ [name]) e rest then canonicalWalk t follow (p ++ [name]) rest else none

/-- Takes the names and the links among them, as long as there are no more than `links` links. -/
def canonicalLinks (t : Tree) : (links : Nat) → Place → List Text → Option Place
  | 0 => canonicalWalk t fun _ _ => none
  | links + 1 => canonicalWalk t (canonicalLinks t links)

def canonical? (t : Tree) (path : Text) : Option Place :=
  if path.contains '\x00' ∨ path = [] then none else t.canonicalLinks mostLinks (t.origin path) (steps path)

end LanguageRoster.Tree
