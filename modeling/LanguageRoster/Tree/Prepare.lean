import LanguageRoster.Tree.Resolve

/-!
# Preparing and comparing trees

* `Tree.makeDirectories`, `Tree.write`, `Tree.makeLink`, `Tree.setMode`, `Tree.remove` : the plain changes to a tree;
  one that cannot be made leaves the tree as it is
* `Tree.changes` : the files and links below a place in which two trees differ
-/

namespace LanguageRoster.Tree

set_option autoImplicit false

def plainMode : Nat := 0o644

def permissions (mode : Nat) : Nat := mode % 0o10000

/-- Makes the directories along the names that are not there, from the place on; the place reached comes with the
tree. -/
def makeAlong (t : Tree) (p : Place) : List Text → Option (Tree × Place)
  | [] => some (t, p)
  | name :: rest =>
    if name = Path.dot then makeAlong t p rest
    else if name = Path.dotDot then makeAlong t p.dropLast rest
    else match t.get? (p ++ [name]) with
      | none => makeAlong (t.put (p ++ [name]) (.directory directoryMode)) (p ++ [name]) rest
      | some (.directory _) => makeAlong t (p ++ [name]) rest
      | some (.file ..) => none
      | some (.link _) =>
        match t.walkLinks mostLinks p [name, Path.dot] with
        | .ok p => makeAlong t p rest
        | .error _ => none

/-- Makes the directory of the path, and those on the way. -/
def makeDirectories (t : Tree) (path : Text) : Tree :=
  match t.makeAlong (t.origin path) (Path.names path) with
  | some (t, _) => t
  | none => t

/-- Makes the directories on the way to the last name of the path; the place of that name comes with the tree. -/
def makeParents (t : Tree) (path : Text) : Option (Tree × Place) := do
  let names := Path.names path
  let (t, p) ← t.makeAlong (t.origin path) names.dropLast
  return (t, p ++ [← names.getLast?])

/-- Where a file is written that has the name at the place: there, or where a link there leads in the end. -/
def written (t : Tree) : (links : Nat) → Place → Option Place
  | 0, _ => none
  | links + 1, p =>
    match t.get? p with
    | some (.link target) =>
      let p := if Path.isAbsolute target then [] else p.dropLast
      let names := steps target
      match t.walkLinks mostLinks p (names.dropLast ++ [Path.dot]), names.getLast? with
      | .ok p, some name => written t links (p ++ [name])
      | _, _ => none
    | some (.directory _) => none
    | _ => some p

/-- Writes a file at the path, and makes the directories on the way. -/
def write (t : Tree) (path : Text) (content : Bytes) : Tree :=
  match t.makeParents path with
  | none => t
  | some (t, p) =>
    match t.written mostLinks p with
    | none => t
    | some p => t.put p (.file plainMode content)

/-- Makes a link at the path, if nothing is there, and the directories on the way. -/
def makeLink (t : Tree) (path target : Text) : Tree :=
  match t.makeParents path with
  | none => t
  | some (t, p) => if (t.get? p).isSome ∨ target = [] then t else t.put p (.link target)

/-- Sets the permissions of the file or directory that the path leads to. -/
def setMode (t : Tree) (path : Text) (mode : Nat) : Tree :=
  match t.resolve path with
  | .error _ => t
  | .ok p =>
    match t.get? p with
    | some (.file _ content) => t.put p (.file (permissions mode) content)
    | some (.directory _) => t.put p (.directory (permissions mode))
    | _ => t

/-- Removes the file or link at the path; a link goes itself and not what it leads to. -/
def remove (t : Tree) (path : Text) : Tree :=
  let names := steps path
  match t.walkLinks mostLinks (t.origin path) (names.dropLast ++ [Path.dot]), names.getLast? with
  | .ok p, some name =>
    match t.get? (p ++ [name]) with
    | some (.directory _) | none => t
    | some _ => t.erase (p ++ [name])
  | _, _ => t

/-! ## Differences -/

def leaves (t : Tree) (root : Place) : List Place :=
  (t.entries.filter fun (p, e) => root.isPrefixOf p && !e.isDirectory).map Prod.fst

def leaf? (t : Tree) (p : Place) : Option Entry := (t.get? p).filter (!·.isDirectory)

/-- The files and links below `root` that differ from those of the tree `old`, with what is there now. -/
def changes (old new : Tree) (root : Place) : List (Place × Option Entry) :=
  let gone := (old.leaves root).filter fun p => (new.leaf? p).isNone
  let fresh := (new.leaves root).filter fun p => new.leaf? p ≠ old.leaf? p
  gone.map (·, none) ++ fresh.map fun p => (p, new.leaf? p)

end LanguageRoster.Tree
