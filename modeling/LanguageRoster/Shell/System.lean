import LanguageRoster.Shell.Process

/-!
# Programs of the system

* `system?` : the program of the system at a path
* `isProgram`, `find?` : what can be run, and where a program is that is called by its name
* `Environment.locate?` : the same for a word, as the environment has it
* `look` : what a path leads to, be it in the tree or part of the system
-/

namespace LanguageRoster.Shell

set_option autoImplicit false

def searchPath : List Text := ["/usr/local/bin".toList, "/usr/bin".toList, "/bin".toList]

def systemDirectories : List Place := [["usr".toList, "bin".toList], ["bin".toList]]

def systemPlaces : List Place :=
  [["usr".toList], ["usr".toList, "local".toList], ["usr".toList, "local".toList, "bin".toList], ["dev".toList],
    ["etc".toList], ["home".toList], ["lib".toList], ["proc".toList], ["root".toList], ["var".toList]]

def shellNames : List Text := ["sh".toList, "dash".toList]

def starterName : Text := "env".toList

def utilityNames : List Text := ["[", "basename", "cat", "chmod", "cmp", "cp", "cut", "dirname", "echo", "expr",
  "false", "grep", "head", "ln", "ls", "mkdir", "mv", "nl", "paste", "printenv", "printf", "pwd", "readlink",
  "realpath", "rev", "rm", "rmdir", "sed", "seq", "sleep", "sort", "sync", "tac", "tail", "tee", "test", "touch",
  "tr", "true", "uname", "uniq", "wc"].map String.toList

def absoluteNames? (path : Text) : Option (List Text) :=
  if Path.isAbsolute path then some ((Path.names path).filter (· ≠ Path.dot)) else none

def system? (path : Text) : Option Text := do
  let names ← absoluteNames? path
  let name ← names.getLast?
  if path.getLast? ≠ some '/' ∧ (Path.names path).getLast? = some name ∧ systemDirectories.contains names.dropLast
    ∧ (shellNames.contains name ∨ name = starterName ∨ utilityNames.contains name)
  then some name else none

/-- The path leads to a program. -/
def isProgram (t : Tree) (path : Text) : Bool :=
  (system? path).isSome ||
    match t.resolve path with
    | .ok p =>
      match t.get? p with
      | some (.file mode _) => mayEnter mode
      | _ => false
    | .error _ => false

def find? (t : Tree) (directories : List Text) (name : Text) : Option Text :=
  (directories.map (Path.join · name)).find? (isProgram t)

def pathVariable : Text := "PATH".toList

def environment (search : List Text) : Environment :=
  [(pathVariable, Text.join [':'] search), ("LC_ALL".toList, ['C'])]

def Environment.directories (e : Environment) : List Text :=
  match e.lookup pathVariable with
  | some list => (Text.splitOn ':' list)
  | none => searchPath

def programIn (directory name : Text) : Text := if directory = [] then name else directory ++ '/' :: name

/-- What the path leads to, be it in the tree or part of the system. -/
def look (t : Tree) (path : Text) : Except Tree.Fault Entry :=
  match system? path, absoluteNames? path with
  | some _, _ => .ok (.file 0o755 [0])
  | none, names =>
    if names.any fun p => (systemDirectories ++ systemPlaces).contains p then .ok (.directory directoryMode)
    else match t.resolve path with
      | .error f => .error f
      | .ok p =>
        match t.get? p with
        | some e => .ok e
        | none => .error .notFound

/-- Where the program is that is called by the word: a path, or a name to be looked for. An empty list of directories
stands for the one at hand. -/
def Environment.locate? (e : Environment) (t : Tree) (word : Text) : Option Text :=
  if word.contains '/' then some word
  else (e.directories.map (programIn · word)).find? (isProgram t)

def Environment.isBarred (e : Environment) (t : Tree) (word : Text) : Bool :=
  e.directories.any fun d => (look t (programIn d word)).isOk

/-- The paths to the devices with which every program can work: the null file, and the descriptors. -/
def device? (path : Text) : Option (Option Nat) :=
  match String.ofList path with
  | "/dev/null" => some none
  | "/dev/stdin" => some (some 0)
  | "/dev/stdout" => some (some 1)
  | "/dev/stderr" => some (some 2)
  | _ =>
    match Text.after? "/dev/fd/".toList path with
    | some digits => if digits ≠ [] ∧ digits.all Char.isDigit then some (some (ofDigits 10 digits)) else none
    | none => none

end LanguageRoster.Shell
