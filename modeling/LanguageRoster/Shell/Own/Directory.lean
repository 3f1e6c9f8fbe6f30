import LanguageRoster.Shell.Own.Basic
import LanguageRoster.Shell.Utility.Files

/-!
# Commands on the directory at hand

Those that go to another directory and show the one at hand, and the one on the permissions of new files.
-/

namespace LanguageRoster.Shell.Own

set_option autoImplicit false

def straightened (path : Text) : Text :=
  Place.path ((Path.names path).foldl (fun p n =>
    if n = Path.dot then p else if n = Path.dotDot then p.dropLast else p ++ [n]) [])

def cd : Own := fun _ s args => do
  let (letters, args) ← options "LP" args
  let home := (s.assigned.lookup State.homeName).getD []
  let asked := args.headD home
  let oldName := "OLDPWD".toList
  let back := asked = ['-'] && args ≠ []
  let target := if back then (s.assigned.lookup oldName).getD s.directory else asked
  let fails : Except Text State := .error ("can't cd to ".toList ++ asked)
  if target = [] then
    if args = [] then fine s
    else fine ((s.setVariable oldName s.directory).setVariable State.directoryName s.directory)
  else
    let path := straightened (Path.join s.directory target)
    let found := (s.tree.resolve (if letters.getLast? = some 'P' then target else path)).toOption
    match found.bind fun p => (s.tree.get? p).map fun e => (p, e) with
    | some (p, .directory mode) =>
      if !mayEnter mode then fails
      else
        let directory := if letters.getLast? = some 'P' then p.path else path
        let t := { s with tree := { s.tree with here := p }, directory }
        let t := (t.setVariable oldName s.directory).setVariable State.directoryName directory
        fine (if back then say t directory else t)
    | _ => fails

def pwd : Own := fun _ s args => do
  let (letters, _) ← options "LP" args
  fine (say s (if letters.getLast? = some 'P' then s.tree.here.path else s.directory))

/-- Shows or sets the permissions that files do not get. -/
def umask : Own := fun _ s args => do
  let (letters, args) ← options "S" args
  let digits (n : Nat) : Text := let d := Nat.toDigits 8 n; List.replicate (4 - d.length) '0' ++ d
  let lettersOf (n : Nat) : Text :=
    (if n.testBit 2 then [] else ['r']) ++ (if n.testBit 1 then [] else ['w']) ++ (if n.testBit 0 then [] else ['x'])
  match args with
  | [] =>
    if letters = [] then fine (say s (digits s.mask))
    else
      let classes := [('u', s.mask >>> 6), ('g', s.mask >>> 3), ('o', s.mask)]
      fine (say s (Text.join [','] (classes.map fun (c, n) => c :: '=' :: lettersOf n)))
  | a :: _ =>
    if a.head?.any Char.isDigit then
      if a.all isOctal ∧ ofDigits 8 a ≤ 0o777 then fine { s with mask := ofDigits 8 a }
      else .error ("Illegal number: ".toList ++ a)
    else match Utility.modeOf? a 0 (0o777 - s.mask) false with
      | some mode => fine { s with mask := 0o777 - (mode &&& 0o777) }
      | none => .error ("Illegal mode: ".toList ++ a)

end LanguageRoster.Shell.Own
