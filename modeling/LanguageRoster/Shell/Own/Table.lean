import LanguageRoster.Shell.Own.Directory
import LanguageRoster.Shell.Own.Flow
import LanguageRoster.Shell.Own.Options
import LanguageRoster.Shell.Own.Signal
import LanguageRoster.Shell.Reader.Script
import LanguageRoster.Shell.Utility.Output

/-!
# The table of the shell's own commands

* `Own.ofUtility` : a utility as a command of the shell
* `Own.named?` : the command of a name
* `Own.isSpecial` : the commands that end the shell where they go wrong
* `Own.describe` : what the shell knows a name as
-/

namespace LanguageRoster.Shell.Own

set_option autoImplicit false

/-! ## Utilities -/

def ofUtility (name : Text) (u : Utility) : Own := fun _ s args =>
  let f := u s.tree
    { path := name, name := [], args, environment := s.environment, input := s.input 0, mask := s.mask }
  let refuse (s : State) (words : Text) (code : Nat) : State := s.complainAs (name ++ ": ".toList) words code
  let s := f.written.foldl (fun s (outlet, b) =>
    if outlet = complaints then refuse s ((Text.decodeLossy b.dropLast).drop 2) s.status else s.write outlet b)
    { s with tree := f.tree }
  if (f.on results) ≠ [] ∧ (s.channel? results).isNone then .ok (refuse s (name ++ ": I/O error".toList) 1)
  else .ok { s with status := State.codeOf f.ending }

def printf : Own := fun k s args => do
  let (_, args) ← options "" args
  match args with
  | [] => throw "usage: printf format [arg ...]".toList
  | format :: args => ofUtility "printf".toList (fun t c => Utility.printfAs ": ".toList t c format args) k s args

/-! ## Names -/

def isSpecial (name : Text) : Bool :=
  [".", ":", "break", "continue", "eval", "exec", "exit", "export", "local", "readonly", "return", "set", "shift",
    "times", "trap", "unset"].contains (String.ofList name)

def isDeclaring (name : Text) : Bool := ["export", "readonly", "local"].contains (String.ofList name)

def isCaller (name : Text) : Bool := ["exec", "command", "type"].contains (String.ofList name)

def named? (name : Text) : Option Own :=
  match String.ofList name with
  | ":" | "true" => some fun _ s _ => fine s
  | "false" => some fun _ s _ => leave s 1
  | "." => some source
  | "break" => some (jump .leave)
  | "continue" => some (jump .again)
  | "eval" => some eval
  | "exit" => some exit
  | "export" => some declareExported
  | "readonly" => some declareFixed
  | "return" => some leaveFunction
  | "set" => some set
  | "shift" => some shift
  | "trap" => some trap
  | "unset" => some unset
  | "cd" | "chdir" => some cd
  | "echo" => some (ofUtility name Utility.echoEscaped)
  | "getopts" => some getopts
  | "ulimit" | "jobs" => some fun _ s _ => fine s
  | "bg" | "fg" => some fun _ _ _ => .error "No current job".toList
  | "hash" => some hash
  | "times" => some fun _ s _ => fine (say (say s "0m0.000000s 0m0.000000s".toList) "0m0.000000s 0m0.000000s".toList)
  | "kill" => some kill
  | "local" => some declareLocal
  | "printf" => some printf
  | "pwd" => some pwd
  | "read" => some read
  | "test" => some (ofUtility name Utility.test)
  | "[" => some (ofUtility name Utility.bracket)
  | "umask" => some umask
  | "wait" => some wait
  | _ => none

def isOwn (name : Text) : Bool := isCaller name || (named? name).isSome

/-- What the shell knows a name as, in words; the path of a program comes with it. -/
def describe (s : State) (name : Text) : Except Text (Text × Text) :=
  if Reader.keywords.contains name then .ok (name, " is a shell keyword".toList)
  else if s.functions.any (·.1 = name) then .ok (name, " is a shell function".toList)
  else if isOwn name then
    .ok (name, (if isSpecial name then " is a special shell builtin" else " is a shell builtin").toList)
  else match Environment.locate? s.assigned s.tree name with
    | some path =>
      if name.contains '/' ∧ !(look s.tree path).isOk then .error (name ++ ": not found".toList)
      else .ok (path, " is ".toList ++ path)
    | none => .error (name ++ ": not found".toList)

end LanguageRoster.Shell.Own
