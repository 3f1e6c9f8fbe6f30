import LanguageRoster.Shell.Own.Variables
import LanguageRoster.Shell.System

/-!
# Commands on options and arguments

* `Own.readSettings` : the options and arguments that a shell is given
* `Own.set`, `Own.shift`, `Own.getopts` : other ones, and reading them
-/

namespace LanguageRoster.Shell.Own

set_option autoImplicit false

def optionNames : List (String × Char) := [("errexit", 'e'), ("noglob", 'f'), ("ignoreeof", 'I'), ("interactive", 'i'),
  ("monitor", 'm'), ("noexec", 'n'), ("stdin", 's'), ("xtrace", 'x'), ("verbose", 'v'), ("vi", 'V'), ("emacs", 'E'),
  ("noclobber", 'C'), ("allexport", 'a'), ("notify", 'b'), ("nounset", 'u')]

def withOption (on : Bool) (c : Char) (options : List Char) : List Char :=
  let others := options.filter (· ≠ c)
  if on then c :: others else others

/-- Sets options by the arguments, and gives the arguments that are left, if there are to be others than before. -/
def readSettings (extra : List Char) : (options : List Char) → List Text → Except Text (List Char × Option (List Text))
  | options, [] => .ok (options, none)
  | options, a :: args =>
    match a with
    | ['-', '-'] => .ok (options, some args)
    | ['-'] => .ok ((options.filter fun c => c ≠ 'x' ∧ c ≠ 'v'), if args = [] then none else some args)
    | ['-', 'o'] | ['+', 'o'] =>
      match args with
      | [] => .ok (options, none)
      | name :: rest =>
        match optionNames.lookup (String.ofList name) with
        | some c => readSettings extra (withOption (a = ['-', 'o']) c options) rest
        | none => .error ("Illegal option -o ".toList ++ name)
    | sign :: c :: letters =>
      if sign = '-' ∨ sign = '+' then
        match (c :: letters).find? fun c => !(extra.contains c || (optionNames.map Prod.snd).contains c) with
        | some c => .error ("Illegal option ".toList ++ [sign, c])
        | none =>
          readSettings extra ((c :: letters).foldl (fun os c => withOption (sign = '-') c os) options) args
      else .ok (options, some (a :: args))
    | _ => .ok (options, some (a :: args))

/-- Sets options or arguments, or shows all variables. -/
def set : Own := fun _ s args =>
  match args with
  | [] => fine (showSettings s [] (s.assigned.map Prod.fst))
  | [['-', 'o']] =>
    fine (optionNames.foldl (fun s (name, c) =>
      say s (name.toList ++ List.replicate (16 - name.length) ' ' ++ (if s.has c then "on" else "off").toList))
      (say s "Current option settings".toList))
  | [['+', 'o']] =>
    fine (optionNames.foldl (fun s (name, c) =>
      say s ("set ".toList ++ (if s.has c then "-o " else "+o ").toList ++ name.toList)) s)
  | args => do
    let (options, rest) ← readSettings [] s.options args
    fine { s with options, args := rest.getD s.args }

def shift : Own := fun _ s args => do
  let n ← match args with
    | [] => pure 1
    | a :: _ => number a
  if s.args.length < n then throw "can't shift that many".toList
  fine { s with args := s.args.drop n }

/-- The next option among arguments: the state of the search, the letter, its value, and a complaint. -/
def nextOption (known : Text) (args : List Text) (index place : Nat) :
    Option (Nat × Nat × Char × Option Text × Option Text) :=
  match args[index - 1]? with
  | some ('-' :: c :: more) =>
    if c = '-' ∧ more = [] then none
    else
      let letters := c :: more
      let place := if letters.length ≤ place then 0 else place
      let l := (letters[place]?).getD c
      let isLast := place + 1 = letters.length
      let (nextIndex, nextPlace) := if isLast then (index + 1, 0) else (index, place + 1)
      match (known.dropWhile (· ≠ l)) with
      | [] => some (nextIndex, nextPlace, '?', none, some ("Illegal option -".toList ++ [l]))
      | _ :: ':' :: _ =>
        if !isLast then some (index + 1, 0, l, some (letters.drop (place + 1)), none)
        else match args[index]? with
          | some v => some (index + 2, 0, l, some v, none)
          | none => some (index + 1, 0, '?', none, some ("No arg for -".toList ++ [l] ++ " option".toList))
      | _ => some (nextIndex, nextPlace, l, none, none)
  | _ => none

def getopts : Own := fun _ s args =>
  match args with
  | known :: name :: given =>
    let indexName := "OPTIND".toList
    let valueName := "OPTARG".toList
    let index := max 1 (ofDigits 10 ((s.assigned.lookup indexName).getD ['1']))
    let all := if given = [] then s.args else given
    let isSilent := known.head? = some ':'
    match nextOption (known.dropWhile (· = ':')) all index s.optionPlace with
    | none =>
      let index := if all[index - 1]? = some ['-', '-'] then index + 1 else index
      let s := { s with optionPlace := 0 }.setVariable indexName (Text.ofNat index)
      leave ((s.setVariable name ['?']).unset valueName) 1
    | some (index, place, letter, value, words) =>
      let s := { s with optionPlace := place }.setVariable indexName (Text.ofNat index)
      let s := match words with
        | some w =>
          if isSilent then s.setVariable valueName (w.drop "Illegal option -".length)
          else (s.write complaints (Text.bytes (w ++ ['\n']))).unset valueName
        | none => match value with
          | some v => s.setVariable valueName v
          | none => s.unset valueName
      fine (s.setVariable name [letter])
  | _ => .error "Usage: getopts optstring var [arg...]".toList

def hash : Own := fun _ s args => do
  let (_, names) ← options "rv" args
  return names.foldl (fun s name =>
    if (Environment.locate? s.assigned s.tree name).isSome then s
    else s.complainAs "hash: ".toList (name ++ ": not found".toList) 1)
    { s with status := 0 }

end LanguageRoster.Shell.Own
