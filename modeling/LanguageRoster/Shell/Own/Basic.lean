import LanguageRoster.Shell.Expand

/-!
# The shell's own commands

* `Hands` : what such a command needs to run others
* `Own` : a command that changes the shell itself
* `Own.options`, `Own.number` : its arguments
-/

namespace LanguageRoster.Shell

set_option autoImplicit false

structure Hands extends Deeper where
  start : Start
  script : State → Text → State

abbrev Own : Type := Hands → State → List Text → Except Text State

namespace Own

def fine (s : State) : Except Text State := .ok { s with status := 0 }

def leave (s : State) (code : Nat) : Except Text State := .ok { s with status := code }

def say (s : State) (t : Text) : State := s.write results (Text.bytes (t ++ ['\n']))

/-! ## Arguments -/

/-- The letters of the options at the front, and the other arguments. -/
def options (known : String) : List Text → Except Text (Text × List Text)
  | [] => .ok ([], [])
  | a :: args =>
    match a with
    | ['-', '-'] => .ok ([], args)
    | '-' :: c :: more =>
      match (c :: more).find? fun c => !known.toList.contains c with
      | some c => .error ("Illegal option -".toList ++ [c])
      | none => (options known args).map fun (front, rest) => (c :: more ++ front, rest)
    | _ => .ok ([], a :: args)

def number (t : Text) : Except Text Nat :=
  if t ≠ [] ∧ t.all Char.isDigit ∧ ofDigits 10 t ≤ 0x7FFFFFFF then .ok (ofDigits 10 t)
  else .error ("Illegal number: ".toList ++ t)

def changeable (s : State) (name : Text) : Except Text Unit :=
  if !isName name then .error (name ++ ": bad variable name".toList)
  else if s.fixed.contains name then .error (name ++ ": is read only".toList)
  else .ok ()

def setting (a : Text) : Text × Option Text :=
  let name := a.takeWhile (· ≠ '=')
  (name, if name.length = a.length then none else some (a.drop (name.length + 1)))

def inQuotes (t : Text) : Text := '\'' :: t.flatMap (fun c => if c = '\'' then "'\"'\"'".toList else [c]) ++ ['\'']

def showSettings (s : State) (word : Text) (names : List Text) : State :=
  (names.mergeSort State.before).foldl (fun s name =>
    say s (word ++ name ++ match s.assigned.lookup name with
      | some v => '=' :: inQuotes v
      | none => [])) s

end Own

end LanguageRoster.Shell
