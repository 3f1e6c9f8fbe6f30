import LanguageRoster.Settings.Config
import LanguageRoster.Toml.Document

/-!
# Layers of settings

* `Layer` : a file of settings, which may have to be there or not
* `Layer.find?` : the file of a layer
* `Loader` : layers, each over those before it, and the settings that lie over all of them
* `Loader.build` : the configuration of all layers
-/

namespace LanguageRoster

set_option autoImplicit false

/-- A file of settings. One that is not required may be missing. -/
structure Layer where
  name : Text
  required : Bool
  deriving DecidableEq, Repr

namespace Layer

def ending : Text := ".toml".toList

def isFile (t : Tree) (path : Text) : Bool :=
  match t.resolve path with
  | .ok p => (t.get? p).any (!·.isDirectory)
  | .error _ => false

def fullName (l : Layer) (t : Tree) : Text := Path.join t.here.path l.name

/-- The path of the file: the one that has the name, or else the one that has the name with the ending. -/
def find? (l : Layer) (t : Tree) : Option Text :=
  let path := l.fullName t
  if isFile t path then some path
  else if (Path.fileName? path).isNone then none
  else
    let path := Path.settle path ++ ending
    if isFile t path then some path else none

def title (t : Tree) (path : Text) : Text := Text.join ['/'] (Path.relative t.here (Path.parts path))

/-- The fields of the layer, with what the file is called; nothing of a file that need not be there and is not, or
cannot be read as text. -/
def load (l : Layer) (t : Tree) : Except Problem (List (Text × Setting)) :=
  match l.find? t with
  | none => if l.required then .error (.fileMissing l.name) else .ok []
  | some path =>
    match t.readText path with
    | .error f => if l.required then .error (.unreadable f) else .ok []
    | .ok text =>
      let file := title t path
      match Toml.read? text with
      | none => .error (.badFile file)
      | some (.table fields) => .ok (Setting.ofFields (some file) fields)
      | some v => .error (.noTable (Setting.ofToml (some file) v).found file)

end Layer

/-- Layers, each over those before it, and the settings that lie over all of them. -/
structure Loader where
  layers : List Layer := []
  overrides : List (KeyPath × Setting) := []

namespace Loader

def projectFile : Text := "langadd.toml".toList

def withFile (b : Loader) (name : Text) : Loader := { b with layers := b.layers ++ [⟨name, true⟩] }

def withOptionalFile (b : Loader) (name : Text) : Loader := { b with layers := b.layers ++ [⟨name, false⟩] }

def withProjectFile (b : Loader) (root : Text) : Loader := b.withOptionalFile (Path.join root projectFile)

def withOverride (b : Loader) (key : Text) (v : Setting) : Except Problem Loader :=
  match KeyPath.read key with
  | .ok p => .ok { b with overrides := Record.set p v b.overrides }
  | .error o => .error (.badPath o)

/-- The settings with the field of a file; its key is a path, if it reads as one. -/
def addField (s : Setting) (field : Text × Setting) : Setting :=
  match KeyPath.read field.1 with
  | .ok p => p.set field.2 s
  | .error _ => Setting.merge field.1 field.2 s

/-- The settings with those of the layers over them. -/
def addLayers (t : Tree) : List Layer → Setting → Except Problem Setting
  | [], s => .ok s
  | l :: layers, s =>
    match l.load t with
    | .error p => .error p
    | .ok fields => addLayers t layers (fields.foldl addField s)

def settings (b : Loader) (t : Tree) : Except Problem Setting :=
  match addLayers t b.layers Config.defaults with
  | .error p => .error p
  | .ok s => .ok (b.overrides.foldl (fun s (p, v) => p.set v s) s)

def build (b : Loader) (t : Tree) : Except Problem Config := do Config.decode (← b.settings t)

end Loader

end LanguageRoster
