import LanguageRoster.Toml.Quoted
import LanguageRoster.Toml.Table

/-!
# Reading TOML

* `Toml.key?`, `Toml.value?` : a key and a value at the front of a text
* `Toml.read?` : the value that a whole text stands for
-/

namespace LanguageRoster.Toml

set_option autoImplicit false

/-! ## Keys -/

def inKey (c : Char) : Bool := c.isAlphanum || c == '-' || c == '_'

def keyPart? (t : Text) : Option (Text × Text) :=
  match t.takeWhile inKey with
  | [] => quoted? false t
  | part => some (part, t.dropWhile inKey)

/-- The parts of a key with dots between them; blanks may stand around each part. -/
def keyParts? : (fuel : Nat) → Text → Option (List Text × Text)
  | 0, _ => none
  | fuel + 1, t => do
    let (part, t) ← keyPart? (skipBlanks t)
    match skipBlanks t with
    | '.' :: t =>
      let (parts, t) ← keyParts? fuel t
      return (part :: parts, t)
    | t => return ([part], t)

def key? (t : Text) : Option (List Text × Text) := do
  let (parts, t) ← keyParts? (t.length + 1) t
  if parts.length < depthLimit then return (parts, t) else none

/-! ## Values -/

mutual

/-- A value inside `depth` brackets. -/
def value? : (fuel depth : Nat) → Text → Option (Toml × Text)
  | 0, _, _ => none
  | fuel + 1, depth, t =>
    match t with
    | '"' :: _ | '\'' :: _ => (quoted? true t).map fun (s, t) => (.text s, t)
    | '[' :: t =>
      if depth + 1 < depthLimit then (items? fuel (depth + 1) t).map fun (vs, t) => (.list vs, t) else none
    | '{' :: t =>
      if depth + 1 < depthLimit then
        match skipBlanks t with
        | '}' :: t => some (.table [], t)
        | t => (pairs? fuel (depth + 1) [] t).map fun (fields, t) => (.table (finishFields fields), t)
      else none
    | _ => scalar? t

/-- The items of a list up to its closing bracket; a comma may stand behind the last. -/
def items? : (fuel depth : Nat) → Text → Option (List Toml × Text)
  | 0, _, _ => none
  | fuel + 1, depth, t => do
    match ← gap t.length t with
    | ']' :: t => return ([], t)
    | t =>
      let (v, t) ← value? fuel depth t
      match ← gap t.length t with
      | ',' :: t =>
        let (vs, t) ← items? fuel depth t
        return (v :: vs, t)
      | ']' :: t => return ([v], t)
      | _ => none

/-- The fields of an inline table up to its closing brace, behind those before them. -/
def pairs? : (fuel depth : Nat) → Fields → Text → Option (Fields × Text)
  | 0, _, _, _ => none
  | fuel + 1, depth, fields, t => do
    let (key, t) ← key? t
    let (v, t) ← value? fuel depth (skipBlanks (← behind? '=' t))
    let fields ← assign key v .header fields
    match skipBlanks t with
    | ',' :: t => pairs? fuel depth fields t
    | '}' :: t => return (fields, t)
    | _ => none

end

/-! ## Documents -/

/-- A document up to a line: its root, and the header above the line. -/
structure Draft where
  root : Fields := []
  header : List Text := []

def Draft.assign (d : Draft) (key : List Text) (v : Toml) : Option Draft := do
  return { d with root := ← descend false d.header .header d.root (Toml.assign key v) }

/-- Reads one line, or a value that goes over several. -/
def Draft.step (d : Draft) (t : Text) : Option (Draft × Text) :=
  match skipBlanks t with
  | [] => some (d, [])
  | '[' :: '[' :: t => do
    let (header, t) ← key? t
    let t ← lineEnd? (← behind? ']' (← behind? ']' t))
    return (⟨← openItem header d.root, header⟩, t)
  | '[' :: t => do
    let (header, t) ← key? t
    let t ← lineEnd? (← behind? ']' t)
    return (⟨← openTable header d.root, header⟩, t)
  | t =>
    match lineEnd? t with
    | some t => some (d, t)
    | none => do
      let (key, t) ← key? t
      let (v, t) ← value? (t.length + 1) 0 (skipBlanks (← behind? '=' t))
      return (← d.assign key v, ← lineEnd? t)

def Draft.run : (fuel : Nat) → Draft → Text → Option Draft
  | _, d, [] => some d
  | 0, _, _ => none
  | fuel + 1, d, t => do
    let (d, t) ← d.step t
    run fuel d t

/-! ## Tables that stand for moments -/

def momentKey : Text := "$__toml_private_datetime".toList

def spelled? : Toml → Option Toml
  | .text t => moment? .spelled t
  | _ => none

mutual

/-- The value with the moments in the places of the tables that stand for them. What follows the first key of such a
table does not matter. -/
def withMoments? : Toml → Option Toml
  | .list items => (itemsWithMoments? items).map .list
  | .table ((key, v) :: fields) =>
    if key = momentKey then spelled? v
    else do return .table ((key, ← withMoments? v) :: (← fieldsWithMoments? fields))
  | v => some v

def itemsWithMoments? : List Toml → Option (List Toml)
  | [] => some []
  | v :: items => do return (← withMoments? v) :: (← itemsWithMoments? items)

def fieldsWithMoments? : List (Text × Toml) → Option (List (Text × Toml))
  | [] => some []
  | (key, v) :: fields => do return (key, ← withMoments? v) :: (← fieldsWithMoments? fields)

end

/-! ## Whole texts -/

def byteOrderMark : Char := Char.ofNat 0xFEFF

def skipMark : Text → Text
  | c :: t => if c = byteOrderMark then t else c :: t
  | [] => []

/-- The value that the text stands for: a table, unless that table stands for a moment. -/
def read? (t : Text) : Option Toml := do
  let t := skipMark t
  let d ← Draft.run (t.length + 1) {} t
  withMoments? (.table (finishFields d.root))

end LanguageRoster.Toml
