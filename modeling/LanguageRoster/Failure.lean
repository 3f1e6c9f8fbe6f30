import LanguageRoster.Choice.Basic
import LanguageRoster.Artifact.Revision
import LanguageRoster.Tree.Replace
import LanguageRoster.Tool.Basic

/-!
# Failures

What can stop a run. That the generator is missing is no failure but one of the ways in which a run ends.
-/

namespace LanguageRoster

set_option autoImplicit false

/-- Why a run stopped. -/
inductive Failure where
  | mismatch (path : Text) (m : Choice.Mismatch)
  | notRead (path : Text) (f : Tree.Fault)
  | notReplaced (path : Text) (r : Tree.NotReplaced)
  | malformed (path : Text) (m : Json.Malformed)
  | lacking (path : Text) (l : Table.Lack)
  | refused (i : Tool.Invocation) (r : Tool.Refusal)
  | failed (i : Tool.Invocation) (o : Tool.Output)
  | narration
  deriving DecidableEq, Repr

def Tree.NotReplaced.message : Tree.NotReplaced → String
  | .notReady f temporary => f.message ++ " at path " ++ String.ofList temporary.quoted
  | .notPlaced f => f.message

def Failure.message : Failure → String
  | .mismatch path m => String.ofList path ++ ": " ++ m.message
  | .notRead path f => String.ofList path ++ ": " ++ f.message
  | .notReplaced path r => String.ofList path ++ ": " ++ r.message
  | .malformed path m => String.ofList path ++ ": malformed JSON: " ++ m.message
  | .lacking path l => String.ofList path ++ ": " ++ l.message
  | .refused i r => "could not run `" ++ String.ofList i.display ++ "`: " ++ r.message
  | .failed i o =>
    "`" ++ String.ofList i.display ++ "` failed (" ++ String.ofList o.status ++ ")\n" ++ String.ofList o.combined
  | .narration => "could not write progress output: output closed"

end LanguageRoster
