import LanguageRoster.Shell.System
import LanguageRoster.Tree.Prepare

/-!
# Arguments and files of utilities

* `Given` : the options and the operands among the arguments of a program; `Given.read` finds them
* `Utility.content` : what a program reads under a name
* `Utility.overFiles` : a program that does the same to all of its files
-/

namespace LanguageRoster.Shell

set_option autoImplicit false

/-! ## Options -/

structure Given where
  options : List (Char × Text) := []
  operands : List Text := []
  lacking : Option Char := none

namespace Given

def cluster (valued : Text) : Text → List (Char × Text) × Option Char
  | [] => ([], none)
  | c :: more =>
    if !valued.contains c then ((c, []) :: (cluster valued more).1, (cluster valued more).2)
    else if more = [] then ([], some c)
    else ([(c, more)], none)

/-- The options and operands among the arguments; those of the letters in `valued` have values. `pending` waits for
one. -/
def read (valued : Text) : (pending : Option Char) → List Text → Given
  | pending, [] => { lacking := pending }
  | some c, a :: args =>
    let g := read valued none args
    { g with options := (c, a) :: g.options }
  | none, a :: args =>
    match a with
    | ['-', '-'] => { operands := args }
    | '-' :: '-' :: name =>
      let g := read valued none args
      { g with options := ('-', name) :: g.options }
    | '-' :: c :: more =>
      let (front, pending) := cluster valued (c :: more)
      let g := read valued pending args
      { g with options := front ++ g.options }
    | a =>
      let g := read valued none args
      { g with operands := a :: g.operands }

def has (g : Given) (c : Char) : Bool := g.options.any fun o => o.1 == c

def value? (g : Given) (c : Char) : Option Text := (g.options.filter fun o => o.1 == c).getLast?.map Prod.snd

def files (g : Given) : List Text := if g.operands = [] then [['-']] else g.operands

end Given

namespace Utility

def wholeNumber? (t : Text) : Option Int :=
  let digits := match t with
    | '-' :: d | '+' :: d => d
    | d => d
  if digits = [] ∨ !digits.all Char.isDigit then none
  else if t.head? = some '-' then some (-(ofDigits 10 digits : Int))
  else some (ofDigits 10 digits)

/-! ## Complaints -/

def quoted (t : Text) : Text := if t.contains '\'' then '"' :: t ++ ['"'] else '\'' :: t ++ ['\'']

def isShellSign (c : Char) : Bool := " !\"$&'()*;<=>?[\\^\x60|\t\n".toList.contains c

def named (t : Text) : Text :=
  if t = [] ∨ t.any isShellSign ∨ t.head? = some '#' ∨ t.head? = some '~' then quoted t else t

def about (program file : Text) (f : Tree.Fault) : Text :=
  program ++ ": ".toList ++ named file ++ ": ".toList ++ faultWords f

def cannot (program verb file : Text) (f : Tree.Fault) : Text :=
  program ++ ": ".toList ++ verb ++ [' '] ++ quoted file ++ ": ".toList ++ faultWords f

def withHint (program words : Text) : Text :=
  program ++ ": ".toList ++ words ++ "\nTry '".toList ++ program ++ " --help' for more information.".toList

def wrongOption? (program known : Text) (g : Given) : Option Text :=
  match g.options.find? fun o => !known.contains o.1 with
  | some ('-', name) => some (withHint program ("unrecognized option '--".toList ++ name ++ ['\'']))
  | some (c, _) => some (withHint program ("invalid option -- ".toList ++ quoted [c]))
  | none => g.lacking.map fun c => withHint program ("option requires an argument -- ".toList ++ quoted [c])

def withOptions (flags valued : String) (code : Nat) (run : Tree → Call → Given → Finished) : Utility := fun t c =>
  let g := Given.read valued.toList none c.args
  match wrongOption? c.name (flags.toList ++ valued.toList) g with
  | some words => Finished.complaint t words code
  | none => run t c g

def missingOperand (t : Tree) (c : Call) : Finished := Finished.complaint t (withHint c.name "missing operand".toList) 1

/-! ## Files -/

def content (t : Tree) (c : Call) (file : Text) : Except Tree.Fault Bytes :=
  if file = ['-'] then .ok c.input
  else match device? file with
    | some (some 0) => .ok c.input
    | some _ => .ok []
    | none => t.readBytes file

def overFiles (code : Nat) (wrong : Text → Tree.Fault → Text) (shown : Text → Bytes → Bytes) (t : Tree) (c : Call)
    (files : List Text) : Finished :=
  files.foldl (fun r file =>
    match content t c file with
    | .ok b => r.say (shown file b)
    | .error f => r.complain (wrong file f) code) { tree := t }

/-- The place where a file of the name would be, in a directory in which it can be made. -/
def freshPlace (t : Tree) (path : Text) : Except Tree.Fault Place :=
  match t.resolve (Path.directory path), (Path.names path).getLast? with
  | .error f, _ => .error f
  | .ok _, none => .error .isDirectory
  | .ok p, some name =>
    match t.get? p with
    | some (.directory mode) =>
      if Tree.longestName < name.size then .error .nameTooLong
      else if mayWrite mode && mayEnter mode then .ok (p ++ [name]) else .error .denied
    | _ => .error .notDirectory

def masked (mode mask : Nat) : Nat := mode - (mode &&& mask)

/-- The place of the file that is opened to be written, and the tree with the file; a new one has the mode. -/
def opened (t : Tree) (mode : Nat) (path : Text) : Except Tree.Fault (Tree × Place) :=
  match t.resolve path with
  | .ok p =>
    match t.get? p with
    | some (.file mode _) => if mayWrite mode then .ok (t, p) else .error .denied
    | _ => .error .isDirectory
  | .error .notFound =>
    if path = [] then .error .notFound
    else if path.getLast? = some '/' then .error .isDirectory
    else match freshPlace t path with
      | .error f => .error f
      | .ok p =>
        match t.written Tree.mostLinks p with
        | some q => .ok (t.put q (.file mode []), q)
        | none => .error .notFound
  | .error f => .error f

def fillAt (t : Tree) (p : Place) (content : Bytes) : Tree :=
  match t.get? p with
  | some (.file mode _) => t.put p (.file mode content)
  | _ => t

def writeFile (t : Tree) (mode : Nat) (path : Text) (content : Bytes) : Except Tree.Fault Tree :=
  match device? path with
  | some _ => .ok t
  | none =>
    match opened t mode path with
    | .ok (t, p) => .ok (fillAt t p content)
    | .error f => .error f

/-- The place of a path whose last name is not followed if it is a link. -/
def ownPlace (t : Tree) (path : Text) : Except Tree.Fault Place :=
  match (Path.names path).getLast? with
  | none => t.resolve path
  | some name =>
    if name = Path.dot ∨ name = Path.dotDot ∨ path.getLast? = some '/' then t.resolve path
    else match t.resolve (Path.directory path) with
      | .error f => .error f
      | .ok p =>
        match t.get? p with
        | some (.directory mode) =>
          if !mayEnter mode then .error .denied
          else if (t.get? (p ++ [name])).isSome then .ok (p ++ [name]) else .error .notFound
        | _ => .error .notDirectory

/-! ## Lines -/

def linesOf : Bytes → List Bytes
  | [] => []
  | b :: more =>
    match linesOf more with
    | [] => [[b]]
    | l :: ls => if b = 10 then [b] :: l :: ls else (b :: l) :: ls

def bare (l : Bytes) : Bytes := if l.getLast? = some 10 then l.dropLast else l

def ended (l : Bytes) : Bytes := bare l ++ [10]

def column (width n : Nat) : Text :=
  let digits := Text.ofNat n
  List.replicate (width - digits.length) ' ' ++ digits

end Utility

end LanguageRoster.Shell
