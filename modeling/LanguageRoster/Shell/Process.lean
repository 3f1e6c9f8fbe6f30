import LanguageRoster.Shell.Arithmetic
import LanguageRoster.Tool.Basic

/-!
# Processes

* `Ending` : how a process ended
* `Call` : a program to be started, with what it is given
* `Finished` : what a process has left, with its output in the order in which it was written
* `Start` : a way to start the program at a path
-/

namespace LanguageRoster.Shell

set_option autoImplicit false

inductive Ending where
  | code (n : Nat)
  | signal (n : Nat)
  deriving DecidableEq, Repr

def plainMask : Nat := 0o022

structure Call where
  path : Text
  name : Text
  args : List Text
  environment : Environment
  input : Bytes := []
  mask : Nat := plainMask

abbrev Outlet := Nat

def results : Outlet := 1

def complaints : Outlet := 2

structure Finished where
  tree : Tree
  written : List (Outlet × Bytes) := []
  ending : Ending := .code 0
  rest : Bytes := []

namespace Finished

def on (f : Finished) (p : Outlet) : Bytes := f.written.flatMap fun (q, b) => if q = p then b else []

def say (f : Finished) (b : Bytes) : Finished := { f with written := f.written ++ [(results, b)] }

def complain (f : Finished) (words : Text) (code : Nat) : Finished :=
  { f with written := f.written ++ [(complaints, Text.bytes (words ++ ['\n']))], ending := .code code }

def output (t : Tree) (b : Bytes) : Finished := { tree := t, written := [(results, b)] }

def complaint (t : Tree) (words : Text) (code : Nat) : Finished := { tree := t : Finished }.complain words code

def answer (t : Tree) (b : Bool) : Finished := { tree := t, ending := .code (if b then 0 else 1) }

def leaving (f : Finished) (c : Call) : Finished := { f with rest := c.input }

end Finished

abbrev Start : Type := Tree → Call → Except Tool.Refusal Finished

abbrev Utility : Type := Tree → Call → Finished

def nullFile : Text := "/dev/null".toList

def faultWords (f : Tree.Fault) : Text := f.message.toList.takeWhile (· ≠ '(') |> Text.dropEnd Text.isBlank

end LanguageRoster.Shell
