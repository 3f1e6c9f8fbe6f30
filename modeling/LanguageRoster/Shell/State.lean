import LanguageRoster.Shell.Process
import LanguageRoster.Shell.Syntax
import LanguageRoster.Tree.Prepare

/-!
# Shells at work

* `Channel` : where a descriptor leads
* `State` : a shell at work
* `State.value?`, `State.setVariable` : its parameters
* `State.write`, `State.input`, `State.complain` : its descriptors
-/

namespace LanguageRoster.Shell

set_option autoImplicit false

inductive Channel where
  | outlet (p : Outlet)
  | file (p : Place)
  | source (n : Nat)
  | nowhere
  deriving DecidableEq

inductive Jump where
  | leave (loops : Nat)
  | again (loops : Nat)
  | back
  deriving DecidableEq, Repr

structure State where
  tree : Tree
  name : Text
  args : List Text := []
  assigned : Environment := []
  exported : List Text := []
  fixed : List Text := []
  functions : List (Text × Command) := []
  hidden : List (List (Text × Option Text)) := []
  options : List Char := []
  traps : List (Text × Text) := []
  status : Nat := 0
  /-- The code of the commands whose output was last put into the command at hand. -/
  answer : Nat := 0
  line : Nat := 1
  title : Text := []
  directory : Text := tree.here.path
  mask : Nat := plainMask
  background : List (Text × Ending) := []
  optionPlace : Nat := 0
  loops : Nat := 0
  channels : List (Nat × Channel) := [(0, .source 0), (results, .outlet results), (complaints, .outlet complaints)]
  written : List (Outlet × Bytes) := []
  sources : List (Nat × Bytes) := []
  fresh : Nat := 3
  jump : Option Jump := none
  ended : Option Ending := none
  isInner : Bool := false
  struck : Option Nat := none
  leaving : Option Nat := none

namespace State

/-! ## Parameters -/

def processNumber : Text := "4711".toList

def directoryName : Text := "PWD".toList

def separatorsName : Text := "IFS".toList

def plainSeparators : Text := [' ', '\t', '\n']

def separators (s : State) : Text := (s.assigned.lookup separatorsName).getD plainSeparators

def has (s : State) (option : Char) : Bool := s.options.contains option

def optionOrder : List Char := ['u', 'b', 'a', 'C', 'E', 'V', 'v', 'x', 's', 'n', 'm', 'i', 'I', 'f', 'e']

def decimal (t : Text) : Nat := ofDigits 10 (t.takeWhile Char.isDigit)

def value? (s : State) (name : Text) : Option Text :=
  match name with
  | ['?'] => some (Text.ofNat s.status)
  | ['#'] => some (Text.ofNat s.args.length)
  | ['$'] => some processNumber
  | ['-'] => some (optionOrder.filter s.has)
  | ['*'] => if s.args = [] then none else some (Text.join (s.separators.take 1) s.args)
  | ['@'] => if s.args = [] then none else some (Text.join [' '] s.args)
  | ['!'] => (s.background.head?).map Prod.fst
  | ['0'] => some s.name
  | name => if name.all Char.isDigit then s.args[decimal name - 1]? else s.assigned.lookup name

def setVariable (s : State) (name value : Text) : State :=
  { s with
    assigned := Record.set name value s.assigned
    exported := if s.has 'a' ∧ !s.exported.contains name then s.exported ++ [name] else s.exported }

def unset (s : State) (name : Text) : State :=
  { s with assigned := s.assigned.filter fun v => v.1 ≠ name, exported := s.exported.filter (· ≠ name) }

def restore (s : State) (v : Text × Option Text) : State :=
  match v.2 with
  | some value => { s with assigned := Record.set v.1 value s.assigned }
  | none => s.unset v.1

def drawers : Nat := 39

def drawer (name : Text) : Nat :=
  let b := Text.bytes name
  ((b.head?.map UInt8.toNat).getD 0 * 16 + (b.map UInt8.toNat).foldl (· + ·) 0) % drawers

def environment (s : State) : Environment :=
  (s.assigned.filter fun v => s.exported.contains v.1).mergeSort fun v w => drawer v.1 ≤ drawer w.1

/-! ## Descriptors -/

def channel? (s : State) (descriptor : Nat) : Option Channel := s.channels.lookup descriptor

def connect (s : State) (descriptor : Nat) : Option Channel → State
  | some c => { s with channels := Record.set descriptor c s.channels }
  | none => { s with channels := s.channels.filter fun c => c.1 ≠ descriptor }

def writeTo (s : State) (c : Channel) (b : Bytes) : State :=
  match c with
  | .outlet p => { s with written := s.written ++ [(p, b)] }
  | .file p =>
    match s.tree.get? p with
    | some (.file mode content) => { s with tree := s.tree.put p (.file mode (content ++ b)) }
    | _ => s
  | .source _ | .nowhere => s

def write (s : State) (descriptor : Nat) (b : Bytes) : State :=
  if b = [] then s else match s.channel? descriptor with
  | some c => s.writeTo c b
  | none => s

def collected (s : State) (p : Outlet) : Bytes := s.written.flatMap fun (q, b) => if q = p then b else []

def discard (s : State) (p : Outlet) : State := { s with written := s.written.filter fun w => w.1 ≠ p }

def withSource (s : State) (b : Bytes) : State × Channel :=
  ({ s with sources := Record.set s.fresh b s.sources, fresh := s.fresh + 1 }, .source s.fresh)

def input (s : State) (descriptor : Nat) : Bytes :=
  match s.channel? descriptor with
  | some (.source n) => (s.sources.lookup n).getD []
  | _ => []

def keepInput (s : State) (descriptor : Nat) (b : Bytes) : State :=
  match s.channel? descriptor with
  | some (.source n) => { s with sources := Record.set n b s.sources }
  | _ => s

/-! ## Complaints -/

def remark (s : State) (words : Text) : Bytes :=
  Text.bytes (s.name ++ ": ".toList ++ Text.ofNat s.line ++ ": ".toList ++ s.title ++ words ++ ['\n'])

def complain (s : State) (words : Text) (code : Nat) : State :=
  { s.write complaints (s.remark words) with status := code }

def complainAs (s : State) (title words : Text) (code : Nat) : State :=
  { { s with title }.complain words code with title := s.title }

def abort (s : State) (words : Text) (code : Nat) : State :=
  { s.complain words code with ended := some (.code code) }

def codeOf : Ending → Nat
  | .code n => n
  | .signal n => 128 + n

def ending (s : State) : Ending := s.ended.getD (.code s.status)

/-- What the shell says about a process that a signal ended. -/
def farewell : Ending → Text
  | .code _ => []
  | .signal n => match n with
    | 1 => "Hangup\n".toList
    | 3 => "Quit\n".toList
    | 4 => "Illegal instruction\n".toList
    | 5 => "Trace/breakpoint trap\n".toList
    | 6 => "Aborted\n".toList
    | 7 => "Bus error\n".toList
    | 8 => "Floating point exception\n".toList
    | 9 => "Killed\n".toList
    | 10 => "User defined signal 1\n".toList
    | 11 => "Segmentation fault\n".toList
    | 12 => "User defined signal 2\n".toList
    | 14 => "Alarm clock\n".toList
    | 15 => "Terminated\n".toList
    | _ => []

def takeOver (s : State) (e : Ending) : State :=
  { s.write complaints (Text.bytes (farewell e)) with status := codeOf e }

/-- The shell behind another one of its own, which leaves its tree and what it wrote, but not the directory in which it
worked. A signal to the outer shell ends it. -/
def after (s t : State) : State :=
  let s := { s with
    tree := { t.tree with here := s.tree.here }
    written := t.written
    sources := t.sources
    fresh := t.fresh }
  match t.struck with
  | some n => if s.isInner then { s with struck := some n } else { s with ended := some (.signal n) }
  | none => s

def behind (s t : State) : State := (s.after t).takeOver t.ending

def isStopped (s : State) : Bool := s.ended.isSome || s.jump.isSome

def assignVariable (s : State) (name value : Text) : State :=
  if s.fixed.contains name then s.abort (name ++ ": is read only".toList) 2 else s.setVariable name value

end State

end LanguageRoster.Shell
