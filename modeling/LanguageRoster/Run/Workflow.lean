import LanguageRoster.Choice.Locate
import LanguageRoster.Layout
import LanguageRoster.Run.Program

/-!
# Adding a language

* `Options` : what a run looks for and which tools it calls
* `Edit` : a change to an artifact that is planned and not yet made
* `updateSource` : the language into the choice of the grammar source
* `reconcileArtifacts` : the language into both generated artifacts, unless it is there
* `addLanguage` : the whole run

Nothing is taken back: if a later step fails, what was done before stays.
-/

namespace LanguageRoster

set_option autoImplicit false

/-- What a run looks for and which tools it calls. -/
structure Options where
  pattern : Choice.Pattern := {}
  skipExisting : Bool := false
  generator : Generator := {}
  status : Tool.Invocation := ⟨"git".toList, ["status".toList]⟩
  deriving DecidableEq, Repr

/-! ## Artifacts -/

/-- A change to an artifact; where the language is present, there is no new text. -/
structure Edit where
  path : Text
  text : Option Text
  deriving DecidableEq, Repr

def Edit.result (e : Edit) : Table.Reconciled := if e.text.isSome then .added else .alreadyPresent

/-- Plans the change that brings the language into the artifact. -/
def Edit.plan (t : Table) (path : Text) (l : Language) : Program Edit := do
  let text ← Program.readText path
  match t.revise l text with
  | .ok changed => return ⟨path, changed⟩
  | .error (.malformed m) => .stop (.malformed path m)
  | .error (.lacking lack) => .stop (.lacking path lack)

def Edit.commit (e : Edit) : Program Table.Reconciled := do
  match e.text with
  | some text => Program.replaceText e.path text
  | none => pure ()
  return e.result

def reconcile (t : Table) (path : Text) (l : Language) : Program Table.Reconciled := do (← Edit.plan t path l).commit

def alreadyExists (l : Language) (a : Artifact) : Text := l.name ++ " already exists in ".toList ++ a.name

/-- Announces the change and makes it. -/
def Edit.announce (e : Edit) (a : Artifact) (l : Language) : Program Table.Reconciled := do
  match e.result with
  | .alreadyPresent => Program.tell (alreadyExists l a)
  | .added => Program.tell ("Adding ".toList ++ l.name ++ " to the ".toList ++ a.name)
  e.commit

/-- Brings the language into both artifacts. Both are read before either is written. -/
def reconcileArtifacts (layout : Layout) (o : Options) (l : Language) :
    Program (Table.Reconciled × Table.Reconciled) := do
  let grammar ← Edit.plan (.grammar o.pattern.rule) layout.jsonFile.path l
  let nodes ← Edit.plan .nodeTypes layout.nodeFile.path l
  return (← grammar.announce layout.jsonFile l, ← nodes.announce layout.nodeFile l)

/-! ## The grammar source -/

/-- What was done about the language in the grammar source. -/
inductive SourceEdit where
  | inserted
  | alreadyListed
  deriving DecidableEq, Repr

/-- Brings the language into the choice of the grammar source. -/
def updateSource (layout : Layout) (o : Options) (l : Language) : Program SourceEdit := do
  let file := layout.sourceFile
  let text ← Program.readText file.path
  match Choice.locate o.pattern text with
  | .error m => .stop (.mismatch file.path m)
  | .ok block =>
    Program.tell ("Found ".toList ++ o.pattern.rule ++ " choice in ".toList ++ file.name)
    Program.tell block.excerpt
    if o.skipExisting && block.lists l then
      Program.tell (alreadyExists l file)
      return .alreadyListed
    else
      Program.replaceText file.path (block.insert l).render
      return .inserted

/-! ## The run -/

/-- What a complete run has done. -/
structure Report where
  source : SourceEdit
  version : Text
  grammarJson : Table.Reconciled
  nodeTypes : Table.Reconciled
  status : Text
  deriving DecidableEq, Repr

/-- How a run ends. -/
inductive Outcome where
  | completed (r : Report)
  | generatorMissing (source : SourceEdit) (why : Generator.Missing)
  deriving DecidableEq, Repr

def tellOutput (o : Tool.Output) : Program Unit := if o.combined = [] then pure () else Program.tell o.combined

def probe (g : Generator) : Program (Except Generator.Missing Text) := do
  return g.versionOf (← Program.callTool g.version)

/-- Adds the language: to the grammar source, then through the generator to the artifacts, and shows the state of the
repository at the end. -/
def addLanguage (layout : Layout) (o : Options) (l : Language) : Program Outcome := do
  let source ← updateSource layout o l
  match ← probe o.generator with
  | .error why =>
    Program.tell (o.generator.name ++ " is not installed. Please install it first.".toList)
    Program.tell ("using `".toList ++ o.generator.installHint ++ ['`'])
    return .generatorMissing source why
  | .ok version =>
    Program.tell ("using ".toList ++ version)
    tellOutput (← Program.callChecked o.generator.generate)
    let (grammarJson, nodeTypes) ← reconcileArtifacts layout o l
    let status ← Program.callChecked o.status
    tellOutput status
    return .completed ⟨source, version, grammarJson, nodeTypes, status.stdout.trim⟩

end LanguageRoster
