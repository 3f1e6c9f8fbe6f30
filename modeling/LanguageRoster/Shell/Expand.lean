import LanguageRoster.Shell.Pattern
import LanguageRoster.Shell.State

/-!
# Expanding words

What words stand for: the values of parameters, the output of commands, numbers, and the names of files.

* `Draft` : the words up to a point in an expansion
* `Deeper` : what runs commands and expands words inside of a word
* `State.words` : the words that words stand for
* `State.text` : the text that a word stands for where it is not split
-/

namespace LanguageRoster.Shell

set_option autoImplicit false

/-! ## Drafts -/

structure Draft where
  done : List (List Glyph) := []
  last : Option (List Glyph) := none
  spaced : Bool := false

namespace Draft

def add (d : Draft) (gs : List Glyph) : Draft := { d with last := some (d.last.getD [] ++ gs), spaced := false }

def split (d : Draft) : Draft := { d with done := d.done ++ d.last.toList, last := none }

def separate (d : Draft) (c : Char) : Draft :=
  if State.plainSeparators.contains c then
    if d.last.isSome then { d.split with spaced := true } else d
  else if d.last.isSome then { d.split with spaced := false }
  else if d.spaced then { d with spaced := false }
  else { d with done := d.done ++ [[]] }

def addSplit (separators : Text) (d : Draft) (t : Text) : Draft :=
  let inside (c : Char) : Bool := !separators.contains c
  (t.splitBy fun a b => inside a && inside b).foldl (fun d run =>
    if run.all inside then d.add (glyphs true run) else run.foldl separate d) d

def addEach (add : Draft → Text → Draft) (d : Draft) : List Text → Draft
  | [] => d
  | a :: args => args.foldl (fun d a => add d.split a) (add d a)

def words (d : Draft) : List (List Glyph) := d.split.done

end Draft

structure Mode where
  splits : Bool
  loose : Bool := false

structure Deeper where
  run : State → List Command → State
  expand : State → Mode → Draft → Word → State × Draft

namespace State

/-! ## Parts of words -/

def capture (k : Deeper) (s : State) (body : List Command) : State × Text :=
  let outlet := s.fresh
  let t := k.run { s.connect results (some (.outlet outlet)) with fresh := outlet + 1 } body
  let out := Text.decodeLossy (t.collected outlet)
  let after := s.behind (t.discard outlet)
  ({ after with status := s.status, answer := after.status }, Text.dropEnd (· = '\n') out)

def addValue (s : State) (m : Mode) (inQuotes : Bool) (d : Draft) (t : Text) : Draft :=
  if inQuotes then d.add (glyphs false t)
  else if m.splits then d.addSplit s.separators t
  else d.add (glyphs true t)

def addParameter (s : State) (m : Mode) (inQuotes : Bool) (d : Draft) (name value : Text) : Draft :=
  let ownWords := if name = ['@'] then inQuotes ∨ m.splits else name = ['*'] ∧ !inQuotes ∧ m.splits
  if ownWords then d.addEach (s.addValue m inQuotes) s.args else s.addValue m inQuotes d value

def textWith (k : Deeper) (s : State) (w : Word) : State × List Glyph :=
  let (s, d) := k.expand s { splits := false } {} w
  (s, d.last.getD [])

/-- The draft with what the use of a parameter gives. -/
def addUse (k : Deeper) (m : Mode) (s : State) (d : Draft) (name : Text) (use : Use) (inQuotes : Bool) :
    State × Draft :=
  let value := s.value? name
  let isSet (orEmpty : Bool) : Bool := value.any fun v => !orEmpty || v ≠ []
  let keep (_ : Unit) : State × Draft := (s, s.addParameter m inQuotes d name (value.getD []))
  let word (w : Word) : State × Draft :=
    k.expand s { m with loose := m.splits && !inQuotes } (if inQuotes then d.add [] else d) w
  let known (next : Text → State × Draft) : State × Draft :=
    if value.isNone ∧ s.has 'u' ∧ name ≠ ['@'] ∧ name ≠ ['*'] then
      (s.abort (name ++ ": parameter not set".toList) 2, d)
    else next (value.getD [])
  match use with
  | .value => known fun v =>
      if value.isNone ∧ name = ['@'] then (s, d) else (s, s.addParameter m inQuotes d name v)
  | .size => known fun v => (s, s.addValue m inQuotes d (Text.ofNat v.size))
  | .fallback orEmpty w => if isSet orEmpty then keep () else word w
  | .alternative orEmpty w =>
    if isSet orEmpty then word w else (s, if inQuotes then d.add [] else d)
  | .assign orEmpty w =>
    if isSet orEmpty then keep ()
    else
      let (s, gs) := s.textWith k w
      if s.ended.isSome then (s, d)
      else if !isName name then (s.abort (name ++ ": bad variable name".toList) 2, d)
      else
        let s := s.assignVariable name (plainText gs)
        (s, s.addParameter m inQuotes d name (plainText gs))
  | .demand orEmpty w =>
    if isSet orEmpty then keep ()
    else
      let (s, gs) := s.textWith k w
      if s.ended.isSome then (s, d)
      else
        let words :=
          if w.isEmpty then "parameter not set".toList ++ if orEmpty then " or null".toList else []
          else plainText gs
        (s.abort (name ++ ": ".toList ++ words) 2, d)
  | .trim atEnd longest pattern => known fun v =>
    let (s, gs) := s.textWith k pattern
    (s, s.addValue m inQuotes d (trimMatch atEnd longest gs v))
  | .invalid => (s.abort "Bad substitution".toList 2, d)

def addPart (k : Deeper) (m : Mode) (sd : State × Draft) (p : Part) : State × Draft :=
  let (s, d) := sd
  if s.ended.isSome then sd
  else match p with
  | .plain t => (s, if m.loose then d.addSplit s.separators t else d.add (glyphs true t))
  | .quoted t => (s, d.add (glyphs false t))
  | .parameter name use inQuotes => s.addUse k m d name use inQuotes
  | .output body inQuotes =>
    let (s, t) := s.capture k body
    (s, s.addValue m inQuotes d t)
  | .number w inQuotes =>
    let (s, gs) := s.textWith k w
    if s.ended.isSome then (s, d)
    else
      let t := plainText gs
      match Formula.read t >>= Formula.value s.assigned with
      | .ok (n, assigned) => ({ s with assigned }, s.addValue m inQuotes d (Text.ofInt n))
      | .error o => (s.abort (o.message t) 2, d)

def expandWith (k : Deeper) (s : State) (m : Mode) (d : Draft) (w : Word) : State × Draft :=
  w.foldl (addPart k m) (s, d)

/-! ## Home directories -/

def homeName : Text := "HOME".toList

def home? (s : State) (name : Text) : Option Text :=
  if name = [] then s.assigned.lookup homeName
  else if name = "root".toList then some "/root".toList
  else none

/-- The word with the home directory in place of the tilde at its start. -/
def withHome (s : State) (w : Word) : Word :=
  match w with
  | .plain ('~' :: t) :: more =>
    let name := t.takeWhile (· ≠ '/')
    let rest := t.drop name.length
    if rest = [] ∧ !more.isEmpty then w
    else match s.home? name with
      | some home => .quoted home :: .plain rest :: more
      | none => w
  | w => w

/-! ## Names of files -/

def before : Text → Text → Bool
  | [], _ => true
  | _ :: _, [] => false
  | c :: s, d :: t => if c = d then before s t else c.toNat < d.toNat

def pathPieces : List Glyph → List (List Glyph)
  | [] => [[]]
  | g :: gs =>
    match pathPieces gs with
    | [] => [[g]]
    | p :: more => if g.1 = '/' then [] :: p :: more else (g :: p) :: more

def isThere (t : Tree) (path : Text) : Bool :=
  (t.resolve path).isOk || path.getLast? ≠ some '/' &&
    match t.resolve (Path.directory path), (Path.names path).getLast? with
    | .ok p, some name => (t.get? (p ++ [name])).isSome
    | _, _ => false

def fitting (t : Tree) (directory : Text) (piece : List Glyph) : List Text :=
  match t.resolve (if directory = [] then Path.dot else directory) with
  | .error _ => []
  | .ok p =>
    let dotted := piece.head?.any fun g => g.1 = '.'
    let names := (if dotted then [Path.dot, Path.dotDot] else []) ++ t.namesIn p
    (names.filter fun n => (dotted || n.head? ≠ some '.') && isMatch piece n).mergeSort before

/-- The paths behind the one at hand that fit the pieces. -/
def matchPaths (t : Tree) : (front : Text) → List (List Glyph) → List Text
  | front, [] => if isThere t front then [front] else []
  | front, [piece] =>
    if (Wildcard.ofGlyphs piece |> Wildcard.isWild) then (fitting t front piece).map (front ++ ·)
    else
      let path := front ++ plainText piece
      if isThere t path then [path] else []
  | front, piece :: more =>
    if (Wildcard.ofGlyphs piece |> Wildcard.isWild) then
      (fitting t front piece).flatMap fun n => matchPaths t (front ++ n ++ ['/']) more
    else matchPaths t (front ++ plainText piece ++ ['/']) more

def paths (s : State) (gs : List Glyph) : List Text :=
  if s.has 'f' ∨ !(Wildcard.ofGlyphs gs |> Wildcard.isWild) then [plainText gs]
  else match matchPaths s.tree [] (pathPieces gs) with
    | [] => [plainText gs]
    | found => found

/-! ## Words -/

def words (k : Deeper) (s : State) : List Word → State × List Text
  | [] => (s, [])
  | w :: more =>
    let (s, d) := k.expand s { splits := true } {} (s.withHome w)
    if s.ended.isSome then (s, [])
    else
      let found := d.words.flatMap s.paths
      let (s, rest) := words k s more
      (s, found ++ rest)

def text (k : Deeper) (s : State) (w : Word) : State × Text :=
  let (s, gs) := s.textWith k (s.withHome w)
  (s, plainText gs)

end State

end LanguageRoster.Shell
