import LanguageRoster.Tree.Basic

/-!
# Following paths

* `Tree.Fault` : why a path does not lead to what was asked for
* `Tree.trace`, `Tree.resolve` : the place that a path leads to, through all links on the way; the system takes no path
  that is too long
* `Tree.readBytes`, `Tree.readText` : the content of the file that a path leads to
-/

namespace LanguageRoster.Tree

set_option autoImplicit false

/-- Why a path does not lead to what was asked for. -/
inductive Fault where
  | notFound
  | notDirectory
  | isDirectory
  | tooManyLinks
  | nameTooLong
  | busy
  | denied
  | zeroByte
  | invalid
  | notText
  deriving DecidableEq, Repr

def Fault.message : Fault → String
  | .notFound => "No such file or directory (os error 2)"
  | .notDirectory => "Not a directory (os error 20)"
  | .isDirectory => "Is a directory (os error 21)"
  | .tooManyLinks => "Too many levels of symbolic links (os error 40)"
  | .nameTooLong => "File name too long (os error 36)"
  | .busy => "Device or resource busy (os error 16)"
  | .denied => "Permission denied (os error 13)"
  | .invalid => "Invalid argument (os error 22)"
  | .zeroByte => "file name contained an unexpected NUL byte"
  | .notText => "stream did not contain valid UTF-8"

def longestName : Nat := 255

def pathLimit : Nat := 4096

def mostLinks : Nat := 40

/-- The names to follow along the path. A slash at its end asks for a directory, as a dot would. -/
def steps (path : Text) : List Text := Path.names path ++ if path.getLast? = some '/' then [Path.dot] else []

/-- Follows the names from the place `p`; `follow` goes on where a link sends the walk. -/
def walk (t : Tree) (follow : Place → List Text → Except Fault Place) (p : Place) : List Text → Except Fault Place
  | [] => .ok p
  | name :: rest =>
    match t.get? p with
    | some (.directory mode) =>
      if !mayEnter mode then .error .denied
      else if name = Path.dot then walk t follow p rest
      else if name = Path.dotDot then walk t follow p.dropLast rest
      else if longestName < name.size then .error .nameTooLong
      else match t.get? (p ++ [name]) with
        | none => .error .notFound
        | some (.link target) => follow (if Path.isAbsolute target then [] else p) (steps target ++ rest)
        | some _ => walk t follow (p ++ [name]) rest
    | _ => .error .notDirectory

/-- Follows the names and the links among them, as long as there are no more than `links` links. -/
def walkLinks (t : Tree) : (links : Nat) → Place → List Text → Except Fault Place
  | 0 => walk t fun _ _ => .error .tooManyLinks
  | links + 1 => walk t (walkLinks t links)

def isTooLong (path : Text) : Bool := pathLimit ≤ path.size

def origin (t : Tree) (path : Text) : Place := if Path.isAbsolute path then [] else t.here

/-- The place that a path of any length leads to. No link stands there. -/
def trace (t : Tree) (path : Text) : Except Fault Place :=
  if path.contains '\x00' then .error .zeroByte
  else if path = [] then .error .notFound
  else t.walkLinks mostLinks (t.origin path) (steps path)

/-- The place that the path leads to. No link stands there. -/
def resolve (t : Tree) (path : Text) : Except Fault Place :=
  if isTooLong path ∧ !path.contains '\x00' then .error .nameTooLong else t.trace path

def readBytes (t : Tree) (path : Text) : Except Fault Bytes :=
  match t.resolve path with
  | .error f => .error f
  | .ok p =>
    match t.get? p with
    | some (.file mode content) => if mayRead mode then .ok content else .error .denied
    | some (.directory mode) => .error (if mayRead mode then .isDirectory else .denied)
    | _ => .error .notFound

/-- The text that the file holds to which the path leads. -/
def readText (t : Tree) (path : Text) : Except Fault Text :=
  match t.readBytes path with
  | .error f => .error f
  | .ok content =>
    match Text.decode? content with
    | some text => .ok text
    | none => .error .notText

end LanguageRoster.Tree
