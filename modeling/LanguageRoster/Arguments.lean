import LanguageRoster.Text.Basic

/-!
# Arguments

What the arguments of the command line ask for.

* `Switch` : the switches, with their spellings; `helpText` lists them
* `Arguments.readFrom` : the switches that are set, each at most once
* `Request.read` : what all arguments together ask for
-/

namespace LanguageRoster

set_option autoImplicit false

/-! ## Switches -/

inductive Switch where
  | language
  | repo
  | config
  | skipExisting
  | logLevel
  | help
  | version
  deriving DecidableEq, Repr

namespace Switch

def all : List Switch := [.language, .repo, .config, .skipExisting, .logLevel, .help, .version]

def name : Switch → Text
  | .language => "language".toList
  | .repo => "repo".toList
  | .config => "config".toList
  | .skipExisting => "skip-existing".toList
  | .logLevel => "log-level".toList
  | .help => "help".toList
  | .version => "version".toList

def alias? : Switch → Option Text
  | .language => some "lang".toList
  | _ => none

def letter? : Switch → Option Char
  | .config => some 'c'
  | .help => some 'h'
  | .version => some 'V'
  | _ => none

/-- What the value of the switch is called; a switch without one takes no value. -/
def valueName? : Switch → Option Text
  | .language => some "NAME".toList
  | .repo => some "DIR".toList
  | .config => some "FILE".toList
  | .logLevel => some "FILTER".toList
  | _ => none

def purpose : Switch → Text
  | .language => "The name of the language to add, e.g. 'kotlin' [alias: --lang]".toList
  | .repo => "Repository root containing grammar.js (default: current directory)".toList
  | .config => "Extra configuration file layered over langadd.toml".toList
  | .skipExisting => "Leave grammar.js unchanged if the language is already listed".toList
  | .logLevel => "Diagnostic log filter written to stderr (e.g. 'debug') [default: warn]".toList
  | .help => "Print help".toList
  | .version => "Print version".toList

def takesValue (s : Switch) : Bool := s.valueName?.isSome

def admits : Switch → Text → Bool
  | .repo, v => v ≠ []
  | .config, v => v ≠ []
  | _, _ => true

def ofName? (t : Text) : Option Switch := all.find? fun s => s.name = t ∨ s.alias? = some t

def ofLetter? (c : Char) : Option Switch := all.find? fun s => s.letter? = some c

def spelling (s : Switch) : Text :=
  (match s.letter? with
    | some c => [' ', ' ', '-', c, ',', ' ']
    | none => "      ".toList) ++
  "--".toList ++ s.name ++
  match s.valueName? with
  | some v => " <".toList ++ v ++ ['>']
  | none => []

def spellingWidth : Nat := (all.map fun s => s.spelling.length).foldl max 0 + 2

def helpLine (s : Switch) : Text :=
  s.spelling ++ List.replicate (spellingWidth - s.spelling.length) ' ' ++ s.purpose ++ ['\n']

end Switch

def usageText : Text := "Usage: add-language [OPTIONS] --language <NAME>\n".toList

def helpText : Text :=
  "Add a new language to the tree-sitter-gritql grammar\n\n".toList ++ usageText ++ "\nOptions:\n".toList ++
    Switch.all.flatMap Switch.helpLine

def versionText : Text := "add-language 0.1.0\n".toList

/-! ## Arguments -/

abbrev Arguments := List (Switch × Text)

inductive Arguments.Stop where
  | misused
  | help
  | version
  deriving DecidableEq, Repr

inductive Spelling where
  /-- A switch, with the value that is attached to it. -/
  | switch (s : Switch) (attached : Option Text)
  | ending
  | other
  deriving DecidableEq, Repr

namespace Spelling

/-- Reads an argument. A value is attached behind an equals sign, or right behind a letter. -/
def read : Text → Spelling
  | ['-', '-'] => .ending
  | '-' :: '-' :: t =>
    match Switch.ofName? (t.takeWhile (· ≠ '=')) with
    | some s =>
      .switch s (match t.dropWhile (· ≠ '=') with
        | _ :: v => some v
        | [] => none)
    | none => .other
  | '-' :: c :: t =>
    match Switch.ofLetter? c with
    | some s =>
      .switch s (if !s.takesValue then none
        else match t with
          | [] => none
          | '=' :: v => some v
          | v => some v)
    | none => .other
  | _ => .other

end Spelling

namespace Arguments

def mayFollow (v : Text) : Bool := v.head? ≠ some '-' || v = ['-']

def set (a : Arguments) (s : Switch) (v : Text) : Except Stop Arguments :=
  if (a.lookup s).isSome ∨ !s.admits v then .error .misused else .ok (a ++ [(s, v)])

/-- Reads arguments one by one, over those that are set. Help and version are given as soon as they are asked for. -/
def readFrom (a : Arguments) : List Text → Except Stop Arguments
  | [] => .ok a
  | t :: rest =>
    match Spelling.read t with
    | .ending => if rest = [] then .ok a else .error .misused
    | .other => .error .misused
    | .switch s (some v) =>
      if s.takesValue then
        match a.set s v with
        | .ok a => a.readFrom rest
        | .error e => .error e
      else .error .misused
    | .switch .help none => .error .help
    | .switch .version none => .error .version
    | .switch s none =>
      if s.takesValue then
        match rest with
        | [] => .error .misused
        | v :: rest =>
          if mayFollow v then
            match a.set s v with
            | .ok a => a.readFrom rest
            | .error e => .error e
          else .error .misused
      else
        match a.set s [] with
        | .ok a => a.readFrom rest
        | .error e => .error e

end Arguments

inductive Request where
  | misused
  | help
  | version
  | add (language : Text) (repo config : Option Text) (skipExisting : Bool)
  deriving DecidableEq, Repr

/-- Reads all arguments. The language has to be given. -/
def Request.read (args : List Text) : Request :=
  match Arguments.readFrom [] args with
  | .error .misused => .misused
  | .error .help => .help
  | .error .version => .version
  | .ok a =>
    match a.lookup .language with
    | none => .misused
    | some language => .add language (a.lookup .repo) (a.lookup .config) (a.lookup .skipExisting).isSome

end LanguageRoster
