import LanguageRoster.Shell.Condition
import LanguageRoster.Shell.Escape
import LanguageRoster.Shell.Utility.Basic

/-!
# Utilities that tell something

Those that show their arguments, decide a condition, or tell where and under what name a program runs.
-/

namespace LanguageRoster.Shell.Utility

set_option autoImplicit false

/-! ## Arguments -/

def echoEscaped : Utility := fun t c =>
  let (newline, args) := match c.args with
    | ['-', 'n'] :: args => (false, args)
    | args => (true, args)
  let shown := Text.join [' '] args
  let (b, stopped) := unescape (shown.length + 1) shown
  (Finished.output t (if newline ∧ !stopped then b ++ [10] else b)).leaving c

def echoOptions (newline escapes : Bool) : List Text → Bool × Bool × List Text
  | ('-' :: l :: letters) :: args =>
    if (l :: letters).all fun l => l == 'n' || l == 'e' || l == 'E' then
      echoOptions (newline && !(l :: letters).contains 'n')
        ((l :: letters).foldl (fun b l => if l = 'e' then true else if l = 'E' then false else b) escapes) args
    else (newline, escapes, ('-' :: l :: letters) :: args)
  | args => (newline, escapes, args)

def echo : Utility := fun t c =>
  let (newline, escapes, args) := echoOptions true false c.args
  let shown := Text.join [' '] args
  let (b, stopped) := if escapes then unescape (shown.length + 1) shown else (Text.bytes shown, false)
  (Finished.output t (if newline ∧ !stopped then b ++ [10] else b)).leaving c

def printfAs (title : Text) (t : Tree) (c : Call) (format : Text) (args : List Text) : Finished :=
  let r := Format.apply format args
  let f := r.complaints.foldl (fun f words => Finished.complain f (title ++ words) 1) { tree := t }
  { f.say r.out with ending := .code r.code, rest := c.input }

def printf : Utility := fun t c =>
  let title := c.name ++ ": ".toList
  match c.args with
  | [] => missingOperand t c
  | ['-', '-'] :: [] => missingOperand t c
  | ['-', '-'] :: f :: args | f :: args => printfAs title t c f args

def progression (first step last : Int) : List Int :=
  let count := if 0 < step then (last - first) / step + 1 else if step = 0 then 0 else (first - last) / -step + 1
  (List.range count.toNat).map fun (i : Nat) => first + step * i

def seq : Utility := fun t c =>
  let (separator, args) := match c.args with
    | ['-', 's'] :: s :: args => (s, args)
    | ('-' :: 's' :: s) :: args => (s, args)
    | args => (['\n'], args)
  let shown (ns : List Int) : Finished :=
    if ns = [] then { tree := t, rest := c.input }
    else (Finished.output t (Text.bytes (Text.join separator (ns.map Text.ofInt) ++ ['\n']))).leaving c
  match args.find? fun a => (wholeNumber? a).isNone with
  | some a => Finished.complaint t (withHint c.name ("invalid floating point argument: ".toList ++ quoted a)) 1
  | none =>
    match args.filterMap wholeNumber? with
    | [] => missingOperand t c
    | [last] => shown (progression 1 1 last)
    | [first, last] => shown (progression first 1 last)
    | first :: step :: last :: _ => shown (progression first step last)

/-! ## Conditions -/

def testAs (t : Tree) (c : Call) (args : List Text) : Finished :=
  match Condition.holds t args with
  | .ok b => (Finished.answer t b).leaving c
  | .error words => (Finished.complaint t (c.name ++ ": ".toList ++ words) 2).leaving c

def test : Utility := fun t c => testAs t c c.args

def bracket : Utility := fun t c =>
  if c.args.getLast? = some [']'] then testAs t c c.args.dropLast
  else (Finished.complaint t (c.name ++ ": missing ]".toList) 2).leaving c

def succeed : Utility := fun t c => { tree := t, rest := c.input }

def sleep : Utility := fun t c =>
  let isTime (a : Text) : Bool :=
    let digits := Text.dropEnd (fun x => x == 's' || x == 'm' || x == 'h' || x == 'd') a
    digits.any Char.isDigit && digits.all fun x => x.isDigit || x == '.'
  match c.args, c.args.find? (!isTime ·) with
  | [], _ => missingOperand t c
  | _, some a => Finished.complaint t (withHint c.name ("invalid time interval ".toList ++ quoted a)) 1
  | _, none => { tree := t, rest := c.input }

def fail : Utility := fun t c => (Finished.answer t false).leaving c

/-! ## Names -/

def sayLine (t : Tree) (c : Call) (shown : Text) : Finished :=
  (Finished.output t (Text.bytes (shown ++ ['\n']))).leaving c

def pwd : Utility := fun t c => sayLine t c t.here.path

def withoutSlashes (path : Text) : Text :=
  let short := Text.dropEnd (· = '/') path
  if short = [] ∧ path ≠ [] then ['/'] else short

def lastName (path : Text) : Text :=
  let short := withoutSlashes path
  if short = ['/'] then short else (short.reverse.takeWhile (· ≠ '/')).reverse

def frontOf (path : Text) : Text :=
  let short := withoutSlashes path
  if short = ['/'] then short
  else
    let front := short.take (short.length - (lastName short).length)
    if front = [] then Path.dot else withoutSlashes front

def withoutEnding (ending name : Text) : Text :=
  if ending.isSuffixOf name ∧ ending.length < name.length then name.take (name.length - ending.length) else name

def basename : Utility := withOptions "az" "s" 1 fun t c g =>
  let each (ending : Text) (paths : List Text) : Finished :=
    (Finished.output t (Text.bytes (paths.flatMap fun p => withoutEnding ending (lastName p) ++ ['\n']))).leaving c
  match g.operands with
  | [] => missingOperand t c
  | paths =>
    if g.has 'a' ∨ g.has 's' then each ((g.value? 's').getD []) paths
    else match paths with
      | [path] => each [] [path]
      | [path, ending] => each ending [path]
      | _ :: _ :: more :: _ => Finished.complaint t (withHint c.name ("extra operand ".toList ++ quoted more)) 1
      | [] => missingOperand t c

def dirname : Utility := withOptions "z" "" 1 fun t c g =>
  if g.operands = [] then missingOperand t c
  else (Finished.output t (Text.bytes (g.operands.flatMap fun p => frontOf p ++ ['\n']))).leaving c

/-- Shows where a link leads to. -/
def readlink : Utility := withOptions "femnqsvz" "" 1 fun t c g =>
  let newline : Text := if g.has 'n' then [] else ['\n']
  let shown (path : Text) : Option Text :=
    if g.has 'f' ∨ g.has 'e' ∨ g.has 'm' then
      match t.resolve path with
      | .ok p => some p.path
      | .error _ =>
        match t.resolve (Path.directory path) with
        | .ok p => if g.has 'e' then none else some (Place.path (p ++ [lastName path]))
        | .error _ => none
    else match ownPlace t path with
      | .ok p =>
        match t.get? p with
        | some (.link target) => some target
        | _ => none
      | .error _ => none
  if g.operands = [] then missingOperand t c
  else g.operands.foldl (fun r path =>
    match shown path with
    | some text => r.say (Text.bytes (text ++ newline))
    | none => { r with ending := .code 1 }) ({ tree := t : Finished }.leaving c)

/-- Shows where a path leads to in the end. -/
def realpath : Utility := withOptions "emsqz" "" 1 fun t c g =>
  if g.operands = [] then missingOperand t c
  else g.operands.foldl (fun r path =>
    match t.resolve path with
    | .ok p => r.say (Text.bytes (p.path ++ ['\n']))
    | .error f =>
      match t.resolve (Path.directory path) with
      | .ok p =>
        if g.has 'e' ∨ f ≠ .notFound then r.complain (about c.name path f) 1
        else r.say (Text.bytes (Place.path (p ++ [lastName path]) ++ ['\n']))
      | .error _ => r.complain (about c.name path f) 1) ({ tree := t : Finished }.leaving c)

/-! ## The system -/

def printenv : Utility := fun t c =>
  match c.args with
  | [] => (Finished.output t (c.environment.flatMap fun (k, v) => Text.bytes (k ++ '=' :: v ++ ['\n']))).leaving c
  | names => names.foldl (fun r name =>
      match c.environment.lookup name with
      | some v => r.say (Text.bytes (v ++ ['\n']))
      | none => { r with ending := .code 1 }) ({ tree := t : Finished }.leaving c)

def uname : Utility := withOptions "asnrvmpio" "" 1 fun t c _ => sayLine t c "Linux".toList

end LanguageRoster.Shell.Utility
