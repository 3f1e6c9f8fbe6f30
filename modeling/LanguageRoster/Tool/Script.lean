import LanguageRoster.Tool.Basic
import LanguageRoster.Tree.Prepare

/-!
# Tools by the book

A toolbox that looks up each command line in a table. A command line may have several responses, which are given one
after another; the last one stays.
-/

namespace LanguageRoster.Tool

set_option autoImplicit false

inductive Response where
  | refuse (text : Text)
  /-- Leaves the output, and the files given by path and content. -/
  | leave (o : Output) (files : List (Text × Bytes))

abbrev Script := List (Text × List Response)

namespace Script

/-- The next response to the command line, and the script behind it. -/
def next : Script → (command : Text) → Option Response × Script
  | [], _ => (none, [])
  | (c, responses) :: script, command =>
    if c = command then
      match responses with
      | [] => (none, (c, []) :: script)
      | [r] => (some r, (c, [r]) :: script)
      | r :: more => (some r, (c, more) :: script)
    else
      let (r, rest) := next script command
      (r, (c, responses) :: rest)

def box : Toolbox Script := fun _ i (script, tree) =>
  let (r, script) := script.next i.display
  match r with
  | none => (.error .unknown, script, tree)
  | some (.refuse text) => (.error (.denied text), script, tree)
  | some (.leave o files) => (.ok o, script, files.foldl (fun t (path, content) => t.write path content) tree)

end Script

end LanguageRoster.Tool
