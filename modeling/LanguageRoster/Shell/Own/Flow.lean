import LanguageRoster.Shell.Own.Basic
import LanguageRoster.Shell.System

/-!
# Commands that go on elsewhere

Those that leave loops, functions and the shell, and those that run a text or a file as a script.
-/

namespace LanguageRoster.Shell.Own

set_option autoImplicit false

def jump (target : Nat → Jump) : Own := fun _ s args => do
  let n ← match args with
    | [] => pure 1
    | a :: _ => number a
  if n = 0 then throw "Illegal number: 0".toList
  let n := min n s.loops
  if n = 0 then fine s else fine { s with jump := some (target n) }

def leaveFunction : Own := fun _ s args => do
  let n ← match args with
    | [] => pure s.status
    | a :: _ => number a
  leave { s with jump := some .back } n

def exit : Own := fun _ s args => do
  let n ← match args with
    | [] => pure (s.leaving.getD s.status)
    | a :: _ => number a
  return { s with ended := some (.code (n % 256)) }

def eval : Own := fun k s args =>
  let old := s.line
  if args.all (· = []) then fine s
  else
    let t := k.script { s with status := 0, title := "eval: ".toList } (Text.join [' '] args)
    .ok { t with title := s.title, line := old }

def scriptPath? (s : State) (word : Text) : Option Text :=
  if word.contains '/' then some word
  else
    (((s.assigned.lookup pathVariable).map (Text.splitOn ':')).getD searchPath).map (programIn · word) |>.find?
      fun path => (s.tree.readBytes path).isOk

def source : Own := fun k s args =>
  match args with
  | [] => .error "arg count".toList
  | word :: _ =>
    match scriptPath? s word with
    | none => .error (word ++ ": not found".toList)
    | some path =>
      let content : Except Tree.Fault Bytes := match device? path with
        | some none => .ok []
        | some (some 0) => .ok (s.input 0)
        | _ => s.tree.readBytes path
      match content with
      | .error .isDirectory => fine s
      | .error f =>
        let words := match f with
          | .notFound | .notDirectory => "No such file".toList
          | f => faultWords f
        .error ("cannot open ".toList ++ path ++ ": ".toList ++ words)
      | .ok b =>
        let t := k.script { s with status := 0, title := path ++ ": ".toList } (Text.decodeLossy b)
        .ok { t with
          title := s.title
          line := s.line
          jump := if t.jump = some .back then none else t.jump }

end LanguageRoster.Shell.Own
