import LanguageRoster.Text.Basic

/-!
# Paths

A path is a text: names with slashes between them. This module reads paths as they are spelled; what they lead to is a
matter of the tree.

* `Path.names` : the names of a path
* `Path.join` : a path taken from a directory
* `Path.fileName?`, `Path.parent?` : the last name of a path, and the path without it
* `Path.directory` : the directory of the last name
* `Path.same` : the two spellings have the same names
* `Path.relative` : a path as it is seen from a directory
-/

namespace LanguageRoster.Path

set_option autoImplicit false

def isAbsolute (path : Text) : Bool := path.head? == some '/'

def names (path : Text) : List Text := (Text.splitOn '/' path).filter (· ≠ [])

def dot : Text := ['.']

def dotDot : Text := ['.', '.']

/-- The path as taken from the directory `root`; an absolute one stays. -/
def join (root path : Text) : Text :=
  if isAbsolute path then path
  else if root = [] ∨ root.getLast? = some '/' then root ++ path
  else root ++ '/' :: path

/-- The names that tell paths apart: a dot does so only at the start. -/
def parts (path : Text) : List Text :=
  match names path with
  | [] => []
  | first :: rest =>
    (if first = dot ∧ isAbsolute path then [] else if first = dot then [dot] else [first]) ++ rest.filter (· ≠ dot)

def same (a b : Text) : Bool := isAbsolute a == isAbsolute b && parts a == parts b

/-- The last name of the path, if it names an entry of a directory. -/
def fileName? (path : Text) : Option Text :=
  match ((names path).filter (· ≠ dot)).getLast? with
  | some name => if name = dotDot then none else some name
  | none => none

/-- The start of the path that is no entry of a directory: the root, or the dot of the directory itself. -/
def start (path : Text) : Text × Text :=
  match path with
  | '/' :: rest => (['/'], rest)
  | ['.'] => (['.'], [])
  | '.' :: '/' :: rest => (['.'], '/' :: rest)
  | _ => ([], path)

/-- The pieces without those at the end that do not lead anywhere. -/
def settled (pieces : List Text) : List Text := (pieces.reverse.dropWhile fun p => p = [] ∨ p = dot).reverse

def settle (path : Text) : Text :=
  let (head, body) := start path
  head ++ Text.join ['/'] (settled (Text.splitOn '/' body))

/-- The path without its last part; the root and the empty path have none. -/
def parent? (path : Text) : Option Text :=
  let (head, body) := start path
  match settled (Text.splitOn '/' body) with
  | [] => if head = ['.'] then some [] else none
  | pieces => some (head ++ Text.join ['/'] (settled pieces.dropLast))

/-- The directory in which the last part of the path stands. -/
def directory (path : Text) : Text :=
  match parent? path with
  | some [] | none => dot
  | some above => above

/-- The parts of a path behind those it shares with the directory, behind a step up for each part it does not. -/
def relative (directory path : List Text) : List Text :=
  match directory, path with
  | d :: directory, p :: path =>
    if d = p then relative directory path else dotDot :: directory.map (fun _ => dotDot) ++ p :: path
  | directory, path => directory.map (fun _ => dotDot) ++ path

end LanguageRoster.Path
