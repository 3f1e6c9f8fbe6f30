import LanguageRoster.Shell.Own.Table

/-!
# Running commands one after another

* `Care` : who looks at how a command ends
* `Ground` : what runs the commands inside of a command
* `Ground.all`, `Ground.script` : several commands, and a text, one complete command after another
* `Ground.inner` : commands in a shell of their own
-/

namespace LanguageRoster.Shell

set_option autoImplicit false

structure Care where
  asked : Bool := false
  final : Bool := false

structure Ground where
  start : Start
  again : Care → State → Command → State
  deeper : Deeper

namespace Ground

/-! ## Lists, scripts and shells of their own -/

def all (g : Ground) (care : Care) (s : State) : List Command → State
  | [] => s
  | [c] => g.again care s c
  | c :: more =>
    let s := g.again { care with final := false } s c
    if s.isStopped then s else all g care s more

def scriptFrom (g : Ground) (care : Care) (cut : Bool) : (fuel : Nat) → Source → State → State
  | 0, _, s => s
  | fuel + 1, source, s =>
    match (Reader.line (source.rest.length + 2) []).run source with
    | .error c => { s with line := c.line }.abort ("Syntax error: ".toList ++ c.words) 2
    | .ok (none, _) => s
    | .ok (some commands, rest) =>
      let s := g.all { care with final := care.final && cut && rest.rest.isEmpty } s commands
      if s.isStopped then s else scriptFrom g care cut fuel rest s

def script (g : Ground) (care : Care) (s : State) (t : Text) : State :=
  g.scriptFrom care (t.getLast? ≠ some '\n') (t.length + 1) { rest := t } s

def atEnd (g : Ground) (s : State) : State :=
  match s.traps.lookup (Own.signalName 0), s.ending with
  | some action, .code n =>
    let t := g.script {}
      { s with
        traps := s.traps.filter fun t => t.1 ≠ Own.signalName 0
        ended := none, jump := none, status := n, leaving := some n, title := [] } action
    { t with ended := some (t.ended.getD (.code n)) }
  | _, _ => s

def inner (s : State) (g : Ground) (run : State → State) : State :=
  g.atEnd (run { s with isInner := true, traps := s.traps.filter fun t => t.2 = [] })

def substitute (g : Ground) (s : State) (body : List Command) : State :=
  inner { s with status := if body.isEmpty then 0 else s.status } g fun s => g.all { final := true } s body

def hands (g : Ground) (care : Care) : Hands :=
  { g.deeper with start := g.start, script := g.script { care with final := false } }

end Ground

end LanguageRoster.Shell
