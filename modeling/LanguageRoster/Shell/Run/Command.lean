import LanguageRoster.Shell.Run.Simple

/-!
# Running all commands

* `Ground.turns`, `Ground.overValues` : loops; `Ground.armOf` : selections; `Ground.pipe` : pipelines
* `Ground.command` : a command
* `Ground.ofDepth` : what runs commands down to a depth
-/

namespace LanguageRoster.Shell.Ground

set_option autoImplicit false

/-! ## Loops -/

def landed (s : State) : State × Bool :=
  match s.jump with
  | none => (s, s.ended.isNone)
  | some (.again n) =>
    if n ≤ 1 then ({ s with jump := none }, s.ended.isNone) else ({ s with jump := some (.again (n - 1)) }, false)
  | some (.leave n) => ({ s with jump := if n ≤ 1 then none else some (.leave (n - 1)) }, false)
  | some .back => (s, false)

/-- Takes turns as long as the condition holds; `last` is the status of the turn before. -/
def turns (g : Ground) (care : Care) (negated : Bool) (condition body : List Command) :
    (fuel : Nat) → (last : Nat) → State → State
  | 0, last, s => { s with status := last }
  | fuel + 1, last, s =>
    let s := g.all { asked := true } s condition
    if s.jump.isSome then
      let (s, goesOn) := landed s
      if goesOn then turns g care negated condition body fuel last s
      else if s.jump = some .back then s else { s with status := last }
    else if s.ended.isSome then s
    else if (s.status = 0) = negated then { s with status := last }
    else
      let (s, goesOn) := landed (g.all care s body)
      if goesOn then turns g care negated condition body fuel s.status s else s

def mostTurns : Nat := 1000000

def overValues (g : Ground) (care : Care) (name : Text) (body : List Command) : State → List Text → State
  | s, [] => s
  | s, v :: values =>
    let s := s.assignVariable name v
    if s.ended.isSome then s
    else
      let (s, goesOn) := landed (g.all care s body)
      if goesOn then overValues g care name body s values else s

def outOfLoop (s t : State) : State := { t with loops := s.loops }

/-! ## Selections -/

def fitsOne (k : Deeper) (s : State) (subject : Text) : List Word → State × Bool
  | [] => (s, false)
  | w :: more =>
    let (s, gs) := s.textWith k (s.withHome w)
    if s.ended.isSome then (s, false)
    else if isMatch gs subject then (s, true)
    else fitsOne k s subject more

def armOf (g : Ground) (care : Care) (s : State) (subject : Text) : List (List Word × List Command) → State
  | [] => { s with status := 0 }
  | (patterns, body) :: more =>
    let (s, fits) := fitsOne g.deeper s subject patterns
    if s.ended.isSome then s
    else if !fits then armOf g care s subject more
    else if body.isEmpty then { s with status := 0 }
    else g.all care s body

/-! ## Pipelines -/

/-- Runs commands, each with what the one before has written to read, and each in a shell of its own. -/
def pipe (g : Ground) (care : Care) (s : State) (first : Option Channel) (endings : List Ending) : List Command → State
  | [] =>
    (endings.dropLast.foldl (fun s e => s.write complaints (Text.bytes (State.farewell e))) s).takeOver
      (endings.getLast?.getD (.code 0))
  | c :: more =>
    let outlet := s.fresh
    let t := { s with fresh := outlet + 1 }
    let t := match first with
      | some c => t.connect 0 (some c)
      | none => t
    let t := if more.isEmpty then t else t.connect results (some (.outlet outlet))
    let t := inner t g fun t => g.again { care with final := true } t c
    let (s, source) := (s.after (t.discard outlet)).withSource (t.collected outlet)
    pipe g care s (some source) (endings ++ [t.ending]) more

/-! ## Commands -/

def checked (care : Care) (s : State) : State :=
  if s.has 'e' ∧ !care.asked ∧ s.status ≠ 0 ∧ !s.isStopped then { s with ended := some (.code s.status) } else s

def insideOwn (g : Ground) (care : Care) (s : State) (body : List Command) : State :=
  if care.final ∧ s.traps.isEmpty then
    let t := g.all { care with final := true } { s with jump := none } body
    { t with jump := none, ended := some t.ending }
  else checked care (s.behind (inner s g fun s => g.all { care with final := true } s body))

def firstBackground : Nat := 4712

def command (g : Ground) (care : Care) (s : State) (c : Command) : State :=
  if s.has 'n' then s
  else match c with
  | .simple line words redirects => checked care (g.simple care { s with line, answer := 0 } words redirects)
  | .pipeline stages => checked care (g.pipe care s none [] stages)
  | .negation c =>
    let t := g.again { asked := true } s c
    if t.isStopped then t else { t with status := if t.status = 0 then 1 else 0 }
  | .both a b =>
    let t := g.again { asked := true } s a
    if t.isStopped ∨ t.status ≠ 0 then t else g.again care t b
  | .either a b =>
    let t := g.again { asked := true } s a
    if t.isStopped ∨ t.status = 0 then t else g.again care t b
  | .background c =>
    let t := inner (s.connect 0 (some .nowhere)) g fun s => g.again { final := true } s c
    let number := Text.ofNat (firstBackground + s.background.length)
    { s.after t with status := 0, background := (number, t.ending) :: s.background }
  | .group body => g.all care s body
  | .inside line body => g.insideOwn care { s with line } body
  | .redirected line c redirects =>
    let s := { s with line }
    let (t, wrong) := redirectAll g.deeper s redirects
    match wrong with
    | some why => reconnected s (t.complain why 2) redirects
    | none =>
      if t.ended.isSome then t else reconnected s (g.again { care with final := false } t c) redirects
  | .choice condition body otherwise =>
    let t := g.all { asked := true } s condition
    if t.isStopped then t
    else if t.status = 0 then g.all care t body
    else if otherwise.isEmpty then { t with status := 0 }
    else g.all care t otherwise
  | .loop negated condition body =>
    outOfLoop s (g.turns { care with final := false } negated condition body mostTurns 0
      { s with loops := s.loops + 1 })
  | .each line name words body =>
    let (t, values) := match words with
      | some ws => { s with line }.words g.deeper ws
      | none => ({ s with line }, s.args)
    if t.ended.isSome then t
    else outOfLoop s (g.overValues { care with final := false } name body
      { t with loops := s.loops + 1, status := 0 } values)
  | .select line subject arms =>
    let (t, text) := { s with line }.text g.deeper subject
    if t.ended.isSome then t else g.armOf care t text arms
  | .function name body => { s with functions := Record.set name body s.functions, status := 0 }

def ofDepth (start : Start) : (depth : Nat) → Ground
  | 0 => ⟨start, fun _ s _ => s, ⟨fun s _ => s, fun s _ d _ => (s, d)⟩⟩
  | depth + 1 =>
    let g := ofDepth start depth
    ⟨start, g.command, ⟨g.substitute, State.expandWith g.deeper⟩⟩

def mostDepth : Nat := 10000

end LanguageRoster.Shell.Ground
