import LanguageRoster.Shell.Own.Basic

/-!
# Commands on variables

Those that hand variables on, keep them as they are, remove them, hide them in a function, or read a line into them.
-/

namespace LanguageRoster.Shell.Own

set_option autoImplicit false

/-! ## Variables -/

/-- Sets variables as the arguments say, and marks each of them. -/
def declare (word : Text) (listed : State → List Text) (mark : State → Text → State) : Own := fun _ s args => do
  let (letters, args) ← options "p" args
  if args = [] ∨ letters ≠ [] then fine (showSettings s word (listed s))
  else
    let s ← args.foldlM (fun s a => do
      let (name, value) := setting a
      if !isName name then throw (name ++ ": bad variable name".toList)
      match value with
      | some v =>
        changeable s name
        return mark (s.setVariable name v) name
      | none => return mark s name) s
    fine s

def markExported (s : State) (name : Text) : State :=
  if s.exported.contains name then s else { s with exported := s.exported ++ [name] }

def markFixed (s : State) (name : Text) : State :=
  if s.fixed.contains name then s else { s with fixed := s.fixed ++ [name] }

def declareExported : Own := declare "export ".toList State.exported markExported

def declareFixed : Own := declare "readonly ".toList State.fixed markFixed

def unset : Own := fun _ s args => do
  let (letters, names) ← options "vf" args
  if letters.getLast? = some 'f' then
    fine { s with functions := s.functions.filter fun f => !names.contains f.1 }
  else
    let s ← names.foldlM (fun s name => do
      changeable s name
      return s.unset name) s
    fine s

def declareLocal : Own := fun _ s args =>
  match s.hidden with
  | [] => .error "not in a function".toList
  | frame :: frames => do
    let (frame, s) ← args.foldlM (fun (frame, s) a => do
      let (name, value) := setting a
      if !isName name then throw (name ++ ": bad variable name".toList)
      let frame := if (frame.lookup name).isSome then frame else frame ++ [(name, s.assigned.lookup name)]
      match value with
      | some v => return (frame, s.setVariable name v)
      | none => return (frame, s)) (frame, s)
    fine { s with hidden := frame :: frames }

/-! ## Reading -/

abbrev Taken := Char × Bool

/-- The line at the front of the bytes, as it is read with backslashes or without; what is left, and whether the line
has an end. -/
def takeLine (raw : Bool) : (fuel : Nat) → Text → List Taken × Text × Bool
  | 0, t => ([], t, false)
  | fuel + 1, t =>
    let goOn (x : List Taken) (t : Text) : List Taken × Text × Bool :=
      let (more, rest, hasEnd) := takeLine raw fuel t
      (x ++ more, rest, hasEnd)
    match t with
    | [] => ([], [], false)
    | '\n' :: t => ([], t, true)
    | '\\' :: c :: t =>
      if raw then goOn [('\\', false)] (c :: t)
      else if c = '\n' then goOn [] t
      else goOn [(c, true)] t
    | c :: t => goOn [(c, false)] t

/-- The parts of a line for variables, the last of which takes all that is left. -/
def divide (separators : Text) (line : List Taken) : List Text → List (Text × Text)
  | [] => []
  | name :: names =>
    let separates (x : Taken) : Bool := !x.2 && separators.contains x.1
    let isSpace (x : Taken) : Bool := separates x && State.plainSeparators.contains x.1
    let line := line.dropWhile isSpace
    if names = [] then
      let short := (line.reverse.dropWhile isSpace).reverse
      let shorter := match short.reverse with
        | x :: front => if separates x ∧ !isSpace x ∧ !front.any separates then front.reverse else short
        | [] => short
      [(name, shorter.map Prod.fst)]
    else
      let first := line.takeWhile (!separates ·)
      let rest := (line.drop first.length).dropWhile isSpace
      let rest := match rest with
        | x :: more => if separates x then more else rest
        | [] => []
      (name, first.map Prod.fst) :: divide separators rest names

def readOptions (raw : Bool) : List Text → Except Text (Bool × List Text)
  | ['-', 'r'] :: args => readOptions true args
  | ['-', 'p'] :: _ :: args => readOptions raw args
  | ['-', '-'] :: args => .ok (raw, args)
  | ('-' :: c :: _) :: _ => .error ("Illegal option -".toList ++ [c])
  | args => .ok (raw, args)

def read : Own := fun _ s args => do
  let (raw, names) ← readOptions false args
  if names = [] then throw "arg count".toList
  let text := Text.decodeLossy (s.input 0)
  let (line, rest, hasEnd) := takeLine raw (text.length + 1) text
  let s := s.keepInput 0 (Text.bytes rest)
  let s ← (divide s.separators line names).foldlM (fun s (name, v) => do
    changeable s name
    return s.setVariable name v) s
  leave s (if hasEnd then 0 else 1)

end LanguageRoster.Shell.Own
