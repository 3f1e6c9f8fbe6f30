import LanguageRoster.Path

/-!
# The layout of a repository

Where the grammar source and the two artifacts that are generated from it lie. Their paths are taken from the root.
-/

namespace LanguageRoster

set_option autoImplicit false

/-- The root of a repository, and the paths of the grammar source and of the generated artifacts. -/
structure Layout where
  root : Text
  grammarSource : Text := "grammar.js".toList
  grammarJson : Text := "src/grammar.json".toList
  nodeTypes : Text := "src/node-types.json".toList
  deriving DecidableEq, Repr

/-- A file of a layout: its path from the root, and its path. -/
structure Artifact where
  relative : Text
  path : Text
  deriving DecidableEq, Repr

def Artifact.name (a : Artifact) : Text := (Path.fileName? a.relative).getD a.relative

namespace Layout

def artifact (l : Layout) (relative : Text) : Artifact := ⟨relative, Path.join l.root relative⟩

def sourceFile (l : Layout) : Artifact := l.artifact l.grammarSource

def jsonFile (l : Layout) : Artifact := l.artifact l.grammarJson

def nodeFile (l : Layout) : Artifact := l.artifact l.nodeTypes

def paths (l : Layout) : List Text := [l.sourceFile.path, l.jsonFile.path, l.nodeFile.path]

/-- The two layouts are the same, however their paths are spelled. -/
def same (l m : Layout) : Bool :=
  Path.same l.root m.root && Path.same l.grammarSource m.grammarSource && Path.same l.grammarJson m.grammarJson &&
    Path.same l.nodeTypes m.nodeTypes

end Layout

end LanguageRoster
