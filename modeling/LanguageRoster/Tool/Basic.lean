import LanguageRoster.Tree.Resolve

/-!
# Tools

* `Tool.Invocation` : a program with its arguments
* `Tool.Output` : what a program that ran has left; `Output.status` and `Output.combined` sum it up
* `Tool.Refusal` : why a program could not be run
* `Toolbox` : a way to run programs, which may change the tree
* `Generator` : the program that generates the artifacts
-/

namespace LanguageRoster.Tool

set_option autoImplicit false

structure Invocation where
  program : Text
  args : List Text
  deriving DecidableEq, Repr

def Invocation.display (i : Invocation) : Text := Text.join [' '] (i.program :: i.args)

/-- The outcome of a program that ran. One that a signal ended has no code. -/
structure Output where
  success : Bool
  code : Option Int
  stdout : Text
  stderr : Text
  deriving DecidableEq, Repr

namespace Output

def status (o : Output) : Text :=
  match o.code with
  | some code => "exit code ".toList ++ Text.ofInt code
  | none => "terminated by signal".toList

/-- What the program wrote: complaints first, without the white space around either stream. -/
def combined (o : Output) : Text := Text.join ['\n'] ([o.stderr.trim, o.stdout.trim].filter (· ≠ []))

end Output

inductive Refusal where
  | unknown
  | denied (text : Text)
  /-- There is no such program where programs are looked for. -/
  | noProgram
  /-- The directory to run in, or the program itself, cannot be reached. -/
  | fault (f : Tree.Fault)
  | noFormat
  | notPermitted
  /-- A zero byte in the program, an argument or the directory. -/
  | zeroByte
  deriving DecidableEq, Repr

def Refusal.message : Refusal → String
  | .unknown => "no such program"
  | .denied text => String.ofList text
  | .noProgram => "cannot find binary path"
  | .fault f => f.message
  | .noFormat => "Exec format error (os error 8)"
  | .notPermitted => "Permission denied (os error 13)"
  | .zeroByte => "nul byte found in provided data"

end LanguageRoster.Tool

namespace LanguageRoster

set_option autoImplicit false

/-- Runs a program in a directory; it may change the tree and what the toolbox remembers. -/
abbrev Toolbox (σ : Type) : Type :=
  (directory : Text) → Tool.Invocation → σ × Tree → Except Tool.Refusal Tool.Output × σ × Tree

/-- The program that generates the artifacts from the grammar source. -/
structure Generator where
  version : Tool.Invocation := ⟨"tree-sitter".toList, ["--version".toList]⟩
  generate : Tool.Invocation := ⟨"tree-sitter".toList, ["generate".toList]⟩
  /-- How the program can be had where it is missing. -/
  installHint : Text := "npm install -g tree-sitter-cli".toList
  deriving DecidableEq, Repr

namespace Generator

def name (g : Generator) : Text := g.generate.program

/-- Why the program counts as missing: it cannot be run, or does not tell its version. -/
inductive Missing where
  | refused (i : Tool.Invocation) (r : Tool.Refusal)
  | failed (i : Tool.Invocation) (o : Tool.Output)
  deriving DecidableEq, Repr

def Missing.message : Missing → String
  | .refused i r => "could not run `" ++ String.ofList i.display ++ "`: " ++ r.message
  | .failed i o => "`" ++ String.ofList i.display ++ "` failed (" ++ String.ofList o.status ++ ")"

def versionOf (g : Generator) : Except Tool.Refusal Tool.Output → Except Missing Text
  | .ok o => if o.success then .ok o.stdout.trim else .error (.failed g.version o)
  | .error r => .error (.refused g.version r)

end Generator

end LanguageRoster
