import LanguageRoster.Arguments
import LanguageRoster.Run.Workflow
import LanguageRoster.Settings.Loader

/-!
# The command line

What the program does that adds a language to the repository of the grammar: it reads the arguments and the settings,
and runs.

* `Trouble` : what can keep the program from its end
* `CommandLine.run` : the exit code, what is written, and the tree behind the program
-/

namespace LanguageRoster

set_option autoImplicit false

inductive Trouble where
  | settings (p : Problem)
  | language (r : Language.Refused)
  | run (f : Failure)
  deriving DecidableEq, Repr

def Trouble.message : Trouble → Text
  | .settings p => "configuration: ".toList ++ p.message
  | .language r => r.message.toList
  | .run f => f.message.toList

namespace CommandLine

structure Result (σ : Type) where
  code : Nat
  stdout : Bytes
  stderr : Text
  tools : σ
  tree : Tree

variable {σ : Type}

/-- The settings of the repository, of the file that was asked for, and of the switches. -/
def loader (root : Text) (config : Option Text) (skipExisting : Bool) : Except Problem Loader :=
  let files := match config with
    | some file => (Loader.withProjectFile {} root).withFile file
    | none => Loader.withProjectFile {} root
  if skipExisting then files.withOverride "grammar.skip_existing".toList (.scalar none (.bool true)) else .ok files

/-- The configuration and the language that a run needs. The settings are looked at first. -/
def prepare (tree : Tree) (root language : Text) (config : Option Text) (skipExisting : Bool) :
    Except Trouble (Config × Language) :=
  match loader root config skipExisting >>= (·.build tree) with
  | .error p => .error (.settings p)
  | .ok c =>
    match Language.ofName language with
    | .error r => .error (.language r)
    | .ok l => .ok (c, l)

def settingsFiles (root : Text) (config : Option Text) : List Text :=
  (Path.join root Loader.projectFile :: config.toList).flatMap fun path => [path, Path.settle path ++ Layer.ending]

def complaint (t : Trouble) : Text := "Error: ".toList ++ t.message ++ ['\n']

/-- Runs the program with the arguments, in the directory of the tree. -/
def run (box : Toolbox σ) (args : List Text) (tools : σ) (tree : Tree) : Result σ :=
  match Request.read args with
  | .misused => ⟨2, [], usageText, tools, tree⟩
  | .help => ⟨0, helpText.bytes, [], tools, tree⟩
  | .version => ⟨0, versionText.bytes, [], tools, tree⟩
  | .add language repo config skipExisting =>
    let root := repo.getD tree.here.path
    match prepare tree root language config skipExisting with
    | .error t => ⟨1, [], complaint t, tools, tree⟩
    | .ok (c, l) =>
      let (result, w) := (addLanguage (c.layout root) c.options l).run box root { tree, tools }
      match result with
      | .ok _ => ⟨0, w.narration, [], w.tools, w.tree⟩
      | .error f => ⟨1, w.narration, complaint (.run f), w.tools, w.tree⟩

end CommandLine

end LanguageRoster
