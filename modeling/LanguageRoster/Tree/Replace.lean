import LanguageRoster.Tree.Canonical

/-!
# Replacing files

A file is replaced in one step: the new content is made ready under a temporary name in the same directory and then
takes the old one's place, so that either all of it is there or nothing has changed. Which file that is, is worked out
name by name; where this comes to nothing, the path's own last name is taken.

* `Tree.NotReplaced` : why a file was not replaced
* `Tree.staging` : the directory in which the new content is made ready
* `Tree.lastPlace`, `Tree.landing` : where a path's last name stands, and the place that the new content takes
* `Tree.spot` : that place, with the mode of the new content
* `Tree.replace` : the tree with the file replaced
-/

namespace LanguageRoster.Tree

set_option autoImplicit false

/-- The name under which new content is made ready; its last characters are chosen anew each time. -/
def temporaryName : Text := ".tmpXXXXXX".toList

def freshMode : Nat := 0o600

/-- Why a file was not replaced: the new content could not be made ready in the directory, or did not get into its
place. -/
inductive NotReplaced where
  | notReady (f : Fault) (temporary : Text)
  | notPlaced (f : Fault)
  deriving DecidableEq, Repr

def NotReplaced.fault : NotReplaced → Fault
  | .notReady f _ => f
  | .notPlaced f => f

/-! ## Making ready -/

/-- Why no new file can be made in what stands at the place, if so. -/
def noRoom? (t : Tree) (p : Place) : Option Fault :=
  match t.get? p with
  | some (.directory mode) => if mayWrite mode && mayEnter mode then none else some .denied
  | _ => some .notDirectory

/-- The place, if its absolute path leads to the directory in which it stands. -/
def reach (t : Tree) (p : Place) : Except Fault Place :=
  match t.barred? p with
  | some f => .error f
  | none => .ok p

/-- The place that the path leads to, taken from the absolute path of the working directory. -/
def traceAbsolute (t : Tree) (path : Text) : Except Fault Place :=
  if path.contains '\x00' then .error .zeroByte
  else if Path.isAbsolute path then t.trace path
  else match t.barred? t.here with
    | some f => .error f
    | none => t.trace path

/-- The directory of the temporary file as it is asked for, from the working directory, and its place. -/
def stagingAt (t : Tree) (path : Text) : Text × Except Fault Place :=
  match t.canonical? path with
  -- No directory is above the root: the temporary file is then made in the one where the program works.
  | some [] => (Path.dot, t.reach t.here)
  | some p => (Place.path p.dropLast, t.reach p.dropLast)
  | none => (Path.directory path, t.traceAbsolute (Path.directory path))

/-- The directory in which the new content is made ready. -/
def staging (t : Tree) (path : Text) : Except NotReplaced Place :=
  let (directory, place) := t.stagingAt path
  let temporary := Path.join (Path.join t.here.path directory) temporaryName
  if isTooLong temporary ∧ !temporary.contains '\x00' then .error (.notReady .nameTooLong temporary)
  else match place with
    | .error f => .error (.notReady f temporary)
    | .ok d =>
      match t.noRoom? d with
      | some f => .error (.notReady f temporary)
      | none => .ok d

/-! ## Taking the place -/

/-- The place of the entry that the last name of the path names; a link that stands there is not followed. -/
def lastPlace (t : Tree) (path : Text) : Except Fault Place :=
  if path.contains '\x00' then .error .invalid
  else if path = [] then .error .notFound
  else if isTooLong path then .error .nameTooLong
  else match (Path.names path).getLast? with
    | none => .error .busy
    | some name =>
      match t.walkLinks mostLinks (t.origin path) ((Path.names path).dropLast ++ [Path.dot]) with
      | .error f => .error f
      | .ok directory =>
        if name = Path.dot ∨ name = Path.dotDot then .error .busy
        else if longestName < name.size then .error .nameTooLong
        else if path.getLast? = some '/' then .error .notDirectory
        else match t.get? (directory ++ [name]) with
          | some (.directory _) => .error .isDirectory
          | _ => .ok (directory ++ [name])

/-- The place that the new content takes: the one worked out, where a file has to stand, or the path's last name. -/
def landing (t : Tree) (aim : Option Place) (path : Text) : Except Fault Place :=
  match aim with
  | some [] => .error .busy
  | some p =>
    match t.get? p with
    | some (.file ..) => .ok p
    -- Of the places worked out, only the working directory and those above can have paths that are too long.
    | _ => .error (if isTooLong p.path then .nameTooLong else .isDirectory)
  | none => t.lastPlace path

/-- The mode that the new content takes over, if anything is there that has one. -/
def adopted? (t : Tree) (aim : Option Place) (path : Text) : Option Nat :=
  match aim with
  | some p => (t.get? p).bind Entry.mode?
  | none => (t.resolve path).toOption.bind fun p => (t.get? p).bind Entry.mode?

def spot (t : Tree) (path : Text) : Except NotReplaced (Place × Nat) :=
  match t.staging path with
  | .error e => .error e
  | .ok _ =>
    match t.landing (t.canonical? path) path with
    | .error f => .error (.notPlaced f)
    | .ok p => .ok (p, (t.adopted? (t.canonical? path) path).getD freshMode)

/-- The tree with the content of the file replaced that the path comes to. Where it comes to nothing, a file is put in
the place of its last name. -/
def replace (t : Tree) (path : Text) (content : Bytes) : Except NotReplaced Tree :=
  match t.spot path with
  | .error e => .error e
  | .ok (p, mode) => .ok (t.put p (.file mode content))

end LanguageRoster.Tree
