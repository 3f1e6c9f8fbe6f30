import LanguageRoster.Shell.Start

/-!
# Installed tools

`Tool.Installed.boxWith` runs programs, by whatever means they are started. One that is called by a name of a single
part is looked for in the directories of the search path; any other is a path, taken from the directory in which it is
to run. `Tool.Installed.box` is the instance with the system's own programs.
-/

namespace LanguageRoster.Tool.Installed

set_option autoImplicit false

/-- Where the program is, for one that is to run in the directory. Names are looked for in the directories `search`. -/
def locate? (search : List Text) (t : Tree) (directory program : Text) : Option Text :=
  if Path.isAbsolute program ∧ Path.parts program ≠ [] ∨ 1 < (Path.parts program).length then
    let path := Path.join directory program
    if Shell.isProgram t path then some path else none
  else Shell.find? t search program

/-- The place of the directory in which a program is to run. -/
def enter (t : Tree) (directory : Text) : Except Refusal Place :=
  match t.resolve directory with
  | .error f => .error (.fault f)
  | .ok p =>
    match t.get? p with
    | some (.directory mode) => if mayEnter mode then .ok p else .error (.fault .denied)
    | _ => .error (.fault .notDirectory)

/-- A zero byte, which no program, argument or directory can hold. -/
def hasZero (directory path : Text) (args : List Text) : Bool := (directory :: path :: args).any (·.contains '\x00')

def output (f : Shell.Finished) : Output :=
  let code : Option Int := match f.ending with
    | .code n => some n
    | .signal _ => none
  ⟨code = some 0, code, Text.decodeLossy (f.on Shell.results), Text.decodeLossy (f.on Shell.complaints)⟩

/-- The toolbox of the programs that `start` starts. A path to a program is followed again in the directory in which it
runs. -/
def boxWith (search : List Text) (start : Shell.Start) : Toolbox Unit := fun directory i (_, tree) =>
  match locate? search tree directory i.program with
  | none => (.error .noProgram, (), tree)
  | some path =>
    if hasZero directory path i.args then (.error .zeroByte, (), tree)
    else match enter tree directory with
      | .error r => (.error r, (), tree)
      | .ok p =>
        let call : Shell.Call := { path, name := path, args := i.args, environment := Shell.environment search }
        match start { tree with here := p } call with
        | .error r => (.error r, (), tree)
        | .ok f => (.ok (output f), (), { f.tree with here := tree.here })

def box : Toolbox Unit := boxWith Shell.searchPath (Shell.start Shell.mostLevels)

end LanguageRoster.Tool.Installed
