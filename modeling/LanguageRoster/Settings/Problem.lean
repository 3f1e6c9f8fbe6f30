import LanguageRoster.Settings.KeyPath
import LanguageRoster.Text.Quoted
import LanguageRoster.Tree.Resolve

/-!
# Problems with settings

What can be wrong with the settings, and how it is said.
-/

namespace LanguageRoster

set_option autoImplicit false

inductive Found where
  | nothing
  | bool (b : Bool)
  | integer (n : Int)
  | float (x : Extended)
  | text (t : Text)
  | list
  | table
  deriving DecidableEq, Repr

namespace Found

def plainFractions : DecimalStyle := ⟨.up, false, none⟩

def pointedFractions : DecimalStyle := ⟨.up, true, none⟩

def words : Found → Text
  | .nothing => "unit value".toList
  | .bool b => "boolean `".toList ++ (toString b).toList ++ ['`']
  | .integer n => "integer `".toList ++ Text.ofInt n ++ ['`']
  | .float x => "floating point `".toList ++ x.write pointedFractions ++ ['`']
  | .text t => "string ".toList ++ t.quoted
  | .list => "sequence".toList
  | .table => "map".toList

end Found

def Setting.found : Setting → Found
  | .scalar _ .nothing => .nothing
  | .scalar _ (.bool b) => .bool b
  | .scalar _ (.integer n) => .integer n
  | .scalar _ (.float x) => .float x
  | .scalar _ (.text t) => .text t
  | .list .. => .list
  | .table .. => .table

def Setting.origin : Setting → Option Text
  | .scalar origin _ | .list origin _ | .table origin _ => origin

inductive Section where
  | paths
  | grammar
  | generator
  | status
  deriving DecidableEq, Repr

namespace Section

def key : Section → Text
  | .paths => "paths".toList
  | .grammar => "grammar".toList
  | .generator => "generator".toList
  | .status => "status".toList

/-- The keys in the section, in the order in which a list gives them. -/
def names : Section → List Text
  | .paths => ["grammar_source".toList, "grammar_json".toList, "node_types".toList]
  | .grammar => ["marker".toList, "rule".toList, "anchor".toList, "skip_existing".toList]
  | .generator => ["program".toList, "version_args".toList, "generate_args".toList, "install_hint".toList]
  | .status => ["program".toList, "args".toList]

def title : Section → Text
  | .paths => "struct PathsConfig".toList
  | .grammar => "struct GrammarConfig".toList
  | .generator => "struct GeneratorConfig".toList
  | .status => "struct StatusConfig".toList

end Section

inductive Problem where
  | badPath (o : KeyPath.Objection)
  | fileMissing (name : Text)
  | unreadable (f : Tree.Fault)
  | badFile (file : Text)
  | noTable (found : Found) (file : Text)
  /-- No value can be made of what stands at the key. -/
  | wrongValue (found : Found) (expected key : Text) (origin : Option Text)
  | noList (found : Found)
  | noSection (found : Found) (s : Section)
  /-- A list that stands for a section is too short. -/
  | shortSection (length : Nat) (s : Section)
  | missing (name : Text)
  deriving DecidableEq, Repr

def Problem.message : Problem → Text
  | .badPath o => o.message.toList
  | .fileMissing name => "configuration file \"".toList ++ name ++ "\" not found".toList
  | .unreadable f => f.message.toList
  | .badFile _ => "TOML parse error".toList
  | .noTable found file =>
    let origin := " in ".toList ++ file
    "invalid type: ".toList ++ found.words ++ ", expected a map".toList ++ origin ++ origin
  | .wrongValue found expected key origin =>
    "invalid type: ".toList ++ found.words ++ ", expected ".toList ++ expected ++ " for key `".toList ++ key ++ ['`'] ++
      match origin with
      | some file => " in ".toList ++ file
      | none => []
  | .noList found => "invalid type: ".toList ++ found.words ++ ", expected a sequence".toList
  | .noSection found s => "invalid type: ".toList ++ found.words ++ ", expected ".toList ++ s.title
  | .shortSection length s =>
    "invalid length ".toList ++ Text.ofNat length ++ ", expected ".toList ++ s.title ++ " with ".toList ++
      Text.ofNat s.names.length ++ " elements".toList
  | .missing name => "missing field `".toList ++ name ++ ['`']

end LanguageRoster
