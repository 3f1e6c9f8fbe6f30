import LanguageRoster.CommandLine
import LanguageRoster.Tool.Installed

/-!
# The program

The command line with a file system around it: the files that a run may read are brought into a tree, and those that
the run has changed are written back.
-/

namespace LanguageRoster.Main

set_option autoImplicit false

/-- The tree with the files that can be read at the paths. -/
def load (t : Tree) (paths : List Text) : IO Tree :=
  paths.foldlM (fun t path => do
    try
      return t.write path (← IO.FS.readBinFile (String.ofList path)).toList
    catch _ => return t) t

/-- Writes a file of the tree; a link or a directory is left alone. -/
def store : Place × Option Entry → IO Unit
  | (p, some (.file _ content)) => IO.FS.writeBinFile (String.ofList p.path) content.toByteArray
  | _ => pure ()

/-- The tree with the files that the request may read. -/
def loadFor (request : Request) (t : Tree) : IO Tree := do
  match request with
  | .add language repo config skipExisting =>
    let root := repo.getD t.here.path
    let t ← load t (CommandLine.settingsFiles root config)
    match CommandLine.prepare t root language config skipExisting with
    | .ok (c, _) => load t (c.layout root).paths
    | .error _ => return t
  | _ => return t

end LanguageRoster.Main

open LanguageRoster in
def main (args : List String) : IO UInt32 := do
  let arguments := args.map String.toList
  let here := (toString (← IO.currentDir)).toList
  let empty : Tree := Tree.makeDirectories { entries := [], here := [] } here
  let tree ← Main.loadFor (Request.read arguments) { empty with here := Path.names here }
  let r := CommandLine.run Tool.Installed.box arguments () tree
  (Tree.changes tree r.tree []).forM Main.store
  (← IO.getStdout).write r.stdout.toByteArray
  (← IO.getStderr).putStr (String.ofList r.stderr)
  return UInt32.ofNat r.code
