import LanguageRoster.Settings.Problem
import LanguageRoster.Run.Workflow

/-!
# The configuration

* `Config` : what a run can be told by settings; `Config.layout` and `Config.options` hand it to the run
* `Config.decode` : the configuration of a tree of settings
* `Config.defaults` : the settings where nothing else is said
-/

namespace LanguageRoster

set_option autoImplicit false

structure Config where
  grammarSource : Text
  grammarJson : Text
  nodeTypes : Text
  marker : Text
  rule : Text
  anchor : Text
  skipExisting : Bool
  program : Text
  versionArgs : List Text
  generateArgs : List Text
  installHint : Text
  statusProgram : Text
  statusArgs : List Text
  deriving DecidableEq, Repr

namespace Config

def layout (c : Config) (root : Text) : Layout := ⟨root, c.grammarSource, c.grammarJson, c.nodeTypes⟩

def options (c : Config) : Options :=
  { pattern := ⟨c.marker, c.rule, c.anchor⟩
    skipExisting := c.skipExisting
    generator := ⟨⟨c.program, c.versionArgs⟩, ⟨c.program, c.generateArgs⟩, c.installHint⟩
    status := ⟨c.statusProgram, c.statusArgs⟩ }

/-! ## Values -/

/-- The text of a setting at a key; a truth value and a number count as their text. -/
def text (key : Text) (s : Setting) : Except Problem Text :=
  match s with
  | .scalar _ (.text t) => .ok t
  | .scalar _ (.bool b) => .ok (toString b).toList
  | .scalar _ (.integer n) => .ok (Text.ofInt n)
  | .scalar _ (.float x) => .ok (x.write Found.plainFractions)
  | s => .error (.wrongValue s.found "a string".toList key s.origin)

def truth? (word : Text) : Option Bool :=
  if word ∈ ["1".toList, "true".toList, "on".toList, "yes".toList] then some true
  else if word ∈ ["0".toList, "false".toList, "off".toList, "no".toList] then some false
  else none

/-- The truth value of a setting at a key; all numbers but zero are true, and some words have a meaning. -/
def truth (key : Text) (s : Setting) : Except Problem Bool :=
  let expected := "a boolean".toList
  match s with
  | .scalar _ (.bool b) => .ok b
  | .scalar _ (.integer n) => .ok (n ≠ 0)
  | .scalar _ (.float x) => .ok !x.isZero
  | .scalar origin (.text t) =>
    match truth? t.toLower with
    | some b => .ok b
    | none => .error (.wrongValue (.text t.toLower) expected key origin)
  | s => .error (.wrongValue s.found expected key s.origin)

def placeKey (key : Text) (place : Nat) : Text := key ++ '[' :: Text.ofNat place ++ [']']

def textsFrom (key : Text) : (place : Nat) → List Setting → Except Problem (List Text)
  | _, [] => .ok []
  | place, s :: items => do
    let t ← text (placeKey key place) s
    return t :: (← textsFrom key (place + 1) items)

def texts (key : Text) (s : Setting) : Except Problem (List Text) :=
  match s with
  | .list _ items => textsFrom key 0 items
  | s => .error (.noList s.found)

/-! ## Sections -/

/-- The value at a place of a section, with its key. A list gives the values in order. -/
def slot (sec : Section) (s : Setting) (place : Nat) : Text × Option Setting :=
  match s with
  | .list _ items => (placeKey sec.key place, items[place]?)
  | s =>
    let name := (sec.names[place]?).getD []
    (sec.key ++ '.' :: name, s.field? name)

def lacking (sec : Section) (s : Setting) (place : Nat) : Problem :=
  match s with
  | .list .. => .shortSection place sec
  | _ => .missing ((sec.names[place]?).getD [])

def present {α : Type} (sec : Section) (s : Setting) (decode : Text → Setting → Except Problem α) (place : Nat) :
    Except Problem (Option α) :=
  match slot sec s place with
  | (_, none) => .ok none
  | (key, some v) => (decode key v).map some

def required {α : Type} (p : Problem) : Option α → Except Problem α
  | some a => .ok a
  | none => .error p

def section? (sec : Section) (s : Setting) : Except Problem Setting :=
  match s.field? sec.key with
  | none => .error (.missing sec.key)
  | some (.scalar _ v) => .error (.noSection (Setting.scalar none v).found sec)
  | some body => .ok body

def decodePaths (s : Setting) : Except Problem (Text × Text × Text) := do
  let body ← section? .paths s
  let source ← present .paths body text 0
  let grammarJson ← present .paths body text 1
  let nodeTypes ← present .paths body text 2
  let lack := lacking .paths body
  return (← required (lack 0) source, ← required (lack 1) grammarJson, ← required (lack 2) nodeTypes)

def decodeGrammar (s : Setting) : Except Problem (Text × Text × Text × Bool) := do
  let body ← section? .grammar s
  let marker ← present .grammar body text 0
  let rule ← present .grammar body text 1
  let anchor ← present .grammar body text 2
  let skip ← present .grammar body truth 3
  let lack := lacking .grammar body
  return (← required (lack 0) marker, ← required (lack 1) rule, ← required (lack 2) anchor, ← required (lack 3) skip)

def decodeGenerator (s : Setting) : Except Problem (Text × List Text × List Text × Text) := do
  let body ← section? .generator s
  let program ← present .generator body text 0
  let version ← present .generator body texts 1
  let generate ← present .generator body texts 2
  let hint ← present .generator body text 3
  let lack := lacking .generator body
  return (← required (lack 0) program, ← required (lack 1) version, ← required (lack 2) generate,
    ← required (lack 3) hint)

def decodeStatus (s : Setting) : Except Problem (Text × List Text) := do
  let body ← section? .status s
  let program ← present .status body text 0
  let args ← present .status body texts 1
  let lack := lacking .status body
  return (← required (lack 0) program, ← required (lack 1) args)

def decode (s : Setting) : Except Problem Config := do
  let (grammarSource, grammarJson, nodeTypes) ← decodePaths s
  let (marker, rule, anchor, skipExisting) ← decodeGrammar s
  let (program, versionArgs, generateArgs, installHint) ← decodeGenerator s
  let (statusProgram, statusArgs) ← decodeStatus s
  return { grammarSource, grammarJson, nodeTypes, marker, rule, anchor, skipExisting, program, versionArgs,
           generateArgs, installHint, statusProgram, statusArgs }

/-! ## Defaults -/

def plain (t : String) : Setting := .scalar none (.text t.toList)

def sectionOf (sec : Section) (values : List Setting) : Text × Setting := (sec.key, .table none (sec.names.zip values))

def defaults : Setting :=
  .table none [
    sectionOf .paths [plain "grammar.js", plain "src/grammar.json", plain "src/node-types.json"],
    sectionOf .grammar [plain "// These are target languages", plain "languageName", plain "grit",
      .scalar none (.bool false)],
    sectionOf .generator [plain "tree-sitter", .list none [plain "--version"], .list none [plain "generate"],
      plain "npm install -g tree-sitter-cli"],
    sectionOf .status [plain "git", .list none [plain "status"]]]

end Config

end LanguageRoster
