import LanguageRoster.Settings.Basic

/-!
# Paths of settings

* `KeyPath` : a name and the steps from there, each to a name or to a place in a list
* `KeyPath.read` : the path that a text stands for, or the objection to the text
* `KeyPath.set` : the settings with one set at the end of a path
-/

namespace LanguageRoster

set_option autoImplicit false

namespace KeyPath

inductive Step where
  | name (key : Text)
  /-- A place in a list; a negative number counts from its end. -/
  | place (n : Int)
  deriving DecidableEq, Repr

inductive Objection where
  | noName
  | noStep
  | noDigit
  | outOfRange
  deriving DecidableEq, Repr

def Objection.message : Objection → String
  | .noName => "IsA"
  | .noStep => "Char"
  | .noDigit => "Digit"
  | .outOfRange => "Map on Result"

end KeyPath

/-- A path to a setting: a name and the steps from there. -/
structure KeyPath where
  root : Text
  steps : List KeyPath.Step
  deriving DecidableEq, Repr

namespace KeyPath

/-! ## Reading -/

def inName (c : Char) : Bool := c.isAlphanum || c == ' ' || c == '_' || c == '-'

def ofDigits (t : Text) : Nat := t.foldl (fun n c => n * 10 + (c.toNat - '0'.toNat)) 0

/-- Reads a place up to its closing bracket. -/
def readPlace (t : Text) : Except Objection (Step × Text) :=
  let t := t.dropWhile Text.isBlank
  let (negative, t) := match t with
    | '-' :: t => (true, t)
    | t => (false, t)
  match t.takeWhile Char.isDigit with
  | [] => .error .noDigit
  | digits =>
    let n : Int := if negative then -ofDigits digits else ofDigits digits
    if n < -0x8000000000000000 ∨ 0x8000000000000000 ≤ n then .error .outOfRange
    else match (t.dropWhile Char.isDigit).dropWhile Text.isBlank with
      | ']' :: t => .ok (.place n, t)
      | _ => .error .noStep

def readSteps : (fuel : Nat) → Text → Except Objection (List Step)
  | _, [] => .ok []
  | 0, _ => .error .noStep
  | fuel + 1, '.' :: t =>
    match t.takeWhile inName with
    | [] => .error .noStep
    | name => (readSteps fuel (t.dropWhile inName)).map (.name name :: ·)
  | fuel + 1, '[' :: t =>
    match readPlace t with
    | .error o => .error o
    | .ok (step, t) => (readSteps fuel t).map (step :: ·)
  | _, _ => .error .noStep

def read (t : Text) : Except Objection KeyPath :=
  match t.takeWhile inName with
  | [] => .error .noName
  | root => (readSteps t.length (t.dropWhile inName)).map (⟨root, ·⟩)

/-! ## Setting -/

def placeIn (length : Nat) (n : Int) : Nat := if 0 ≤ n then n.toNat else length - (-n).toNat

def stretched (items : List Setting) (place : Nat) : List Setting :=
  items ++ List.replicate (place + 1 - items.length) Setting.nothing

/-- Changes the setting at the end of the steps; what is on the way becomes a table or a list where it is none. -/
def change (f : Setting → Setting) : List Step → Setting → Setting
  | [], s => f s
  | .name key :: steps, s =>
    let (origin, fields) := s.asTable
    .table origin (Record.set key.toLower
      (change f steps ((fields.lookup key.toLower).getD Setting.nothing)) fields)
  | .place n :: steps, s =>
    let (origin, items) := s.asList
    let place := placeIn items.length n
    let items := stretched items place
    .list origin (items.set place (change f steps ((items[place]?).getD Setting.nothing)))

def put (v : Setting) : Step → Setting → Setting
  | .name key, s => Setting.merge key v s
  | .place n, s =>
    let (origin, items) := s.asList
    let place := placeIn items.length n
    .list origin ((stretched items place).set place v)

/-- The settings with one set at the end of the path. -/
def set (p : KeyPath) (v s : Setting) : Setting :=
  let steps := .name p.root :: p.steps
  match steps.getLast? with
  | some last => change (put v last) steps.dropLast s
  | none => s

end KeyPath

end LanguageRoster
