import LanguageRoster.Shell.Own.Basic

/-!
# Commands on signals

* `Own.trap` : what is to be done about signals, and at the end
* `Own.kill`, `Own.strike` : a signal to the shell
* `Own.wait` : the endings of commands that ran beside the shell
-/

namespace LanguageRoster.Shell.Own

set_option autoImplicit false

def signals : List (Nat × String) := [(0, "EXIT"), (1, "HUP"), (2, "INT"), (3, "QUIT"), (4, "ILL"), (5, "TRAP"),
  (6, "ABRT"), (7, "BUS"), (8, "FPE"), (9, "KILL"), (10, "USR1"), (11, "SEGV"), (12, "USR2"), (13, "PIPE"),
  (14, "ALRM"), (15, "TERM"), (16, "STKFLT"), (17, "CHLD"), (18, "CONT"), (19, "STOP"), (20, "TSTP"), (21, "TTIN"),
  (22, "TTOU"), (23, "URG"), (24, "XCPU"), (25, "XFSZ"), (26, "VTALRM"), (27, "PROF"), (28, "WINCH"), (29, "IO"),
  (30, "PWR"), (31, "SYS")]

def signal? (t : Text) : Option Nat :=
  if t ≠ [] ∧ t.all Char.isDigit then if ofDigits 10 t ≤ 64 then some (ofDigits 10 t) else none
  else (signals.find? fun x => x.2.toList = t.map Char.toUpper).map Prod.fst

def signalName (n : Nat) : Text := ((signals.lookup n).map String.toList).getD (Text.ofNat n)

/-- Says what is to be done about signals, and at the end. -/
def trap : Own := fun _ s args => do
  let (_, args) ← options "" args
  match args with
  | [] =>
    fine ((signals.filterMap fun (_, name) => (s.traps.lookup name.toList).map fun a => (name, a)).foldl
      (fun s (name, a) => say s ("trap -- ".toList ++ inQuotes a ++ [' '] ++ name.toList)) s)
  | a :: names =>
    let resets := names = [] || a = ['-'] || (a ≠ [] && a.all Char.isDigit)
    let names := if names = [] ∨ a ≠ [] ∧ a.all Char.isDigit then args else names
    names.foldlM (fun s name =>
      match signal? name with
      | none => do
        let s := s.write complaints (Text.bytes ("trap: ".toList ++ name ++ ": bad trap\n".toList))
        leave s 1
      | some n =>
        let name := signalName n
        let others := s.traps.filter fun t => t.1 ≠ name
        pure { s with traps := if resets then others else others ++ [(name, a)] }) { s with status := 0 }

def isHarmless (n : Nat) : Bool := n == 0 || n == 17 || n == 18 || n == 23 || n == 28

/-- Sends a signal to the shell. -/
def strike (k : Hands) (s : State) (n : Nat) : State :=
  match if n = 9 ∨ n = 19 then none else s.traps.lookup (signalName n) with
  | some [] => s
  | some action =>
    if n = 0 then s
    else { k.script s action with status := s.status }
  | none =>
    if isHarmless n then s
    else if s.isInner then { s with struck := some n }
    else { s with ended := some (.signal n) }

def killUsage : Text :=
  "Usage: kill [-s sigspec | -signum | -sigspec] [pid | job]... or\nkill -l [exitstatus]".toList

/-- Sends a signal to processes. The shell knows none but itself and those that have ended. -/
def kill : Own := fun k s args => do
  let (signal, processes) ← match args with
    | ['-', 's'] :: name :: rest =>
      match signal? name with
      | some n => pure (some n, rest)
      | none => throw ("invalid signal number or name: ".toList ++ name)
    | ['-', 'l'] :: rest => pure (none, rest)
    | ['-', '-'] :: rest => pure (some 15, rest)
    | ('-' :: c :: more) :: rest =>
      match signal? (c :: more) with
      | some n => pure (some n, match rest with
          | ['-', '-'] :: rest => rest
          | rest => rest)
      | none => throw ("Illegal option -".toList ++ [c])
    | rest => pure (some 15, rest)
  match signal, processes with
  | none, [] => fine ((signals.drop 1).foldl (fun s x => say s x.2.toList) (say s ['0']))
  | none, a :: _ => do
    let n ← number a
    fine (say s (signalName (if 128 < n then n - 128 else n)))
  | some _, [] => throw killUsage
  | some n, processes =>
    processes.foldlM (fun s process => do
      if process = State.processNumber ∨ process = ['0'] then return strike k s n
      let digits := if process.head? = some '-' then process.drop 1 else process
      let _ ← if digits.head? = some '%' then pure 0 else number digits
      return s.complainAs "kill: ".toList "No such process\n".toList 1)
      { s with status := 0 }

def wait : Own := fun _ s args =>
  args.foldlM (fun s a => do
    match s.background.lookup a with
    | some e => pure (s.takeOver e)
    | none =>
      let _ ← number a
      leave s 127) { s with status := 0 }

end LanguageRoster.Shell.Own
