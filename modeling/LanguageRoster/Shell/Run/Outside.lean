import LanguageRoster.Shell.Run.Redirect

/-!
# Running programs

`Ground.outside` runs the program that a name stands for; a file without a format is a script.
-/

namespace LanguageRoster.Shell.Ground

set_option autoImplicit false

def isControl (b : UInt8) : Bool := (b < 32 && !(9 ≤ b && b ≤ 13)) || b == 127

def isBinary (content : Bytes) : Bool := (content.takeWhile (· ≠ 10)).any isControl

def refusalOf : Tool.Refusal → Text × Nat
  | .notPermitted | .fault .denied => ("Permission denied".toList, 126)
  | .noFormat => ("Exec format error".toList, 126)
  | .fault .tooManyLinks => (faultWords .tooManyLinks, 127)
  | .fault .nameTooLong => (faultWords .nameTooLong, 127)
  | _ => ("not found".toList, 127)

def startAt (g : Ground) (s : State) (path name : Text) (args : List Text) : Except Tool.Refusal Finished :=
  let call : Call := { path, name, args, environment := s.environment, input := s.input 0, mask := s.mask }
  match g.start s.tree call with
  | .error .noFormat =>
    if (s.tree.readBytes path).toOption.any isBinary then .error .noFormat
    else
      let shell := "/bin/sh".toList
      g.start s.tree { call with path := shell, name := shell, args := path :: args }
  | r => r

/-- Runs a program. With `replaces`, the shell ends with it. -/
def outside (g : Ground) (replaces : Bool) (s : State) (name : Text) (args : List Text) : State :=
  let fail (words : Text) (code : Nat) : State :=
    if replaces ∧ name ≠ [] then s.abort words code else s.complain words code
  match Environment.locate? s.assigned s.tree name with
  | none =>
    if Environment.isBarred s.assigned s.tree name then fail (name ++ ": Permission denied".toList) 127
    else fail (name ++ ": not found".toList) 127
  | some path =>
    match g.startAt s path name args with
    | .error r => fail (name ++ ": ".toList ++ (refusalOf r).1) (refusalOf r).2
    | .ok f =>
      let s := { s with tree := { f.tree with here := s.tree.here } }
      let s := f.written.foldl (fun s (outlet, b) => s.write outlet b) (s.keepInput 0 f.rest)
      if replaces then { s with ended := some f.ending } else s.takeOver f.ending

end LanguageRoster.Shell.Ground
