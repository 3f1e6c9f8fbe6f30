import LanguageRoster.Shell.Run.Outside

/-!
# Simple commands

* `Ground.arguments` : the words of a command as they are handed to it
* `Ground.call` : a function, a command of the shell, or a program
* `Ground.simple` : a command with what it sets and redirects
-/

namespace LanguageRoster.Shell.Ground

set_option autoImplicit false

def settings : List Word → List (Text × Word) × List Word
  | [] => ([], [])
  | w :: more =>
    match Word.assignment? w with
    | some x => (x :: (settings more).1, (settings more).2)
    | none => ([], w :: more)

/-- The words of arguments that may set variables. -/
def declarations (k : Deeper) (s : State) : List Word → State × List Text
  | [] => (s, [])
  | w :: more =>
    let (s, found) : State × List Text := match Word.assignment? w with
      | some (name, value) =>
        let (s, t) := s.text k value
        (s, [name ++ '=' :: t])
      | none => s.words k [w]
    if s.ended.isSome then (s, [])
    else
      let (s, rest) := declarations k s more
      (s, found ++ rest)

def arguments (k : Deeper) (s : State) : List Word → State × List Text
  | [] => (s, [])
  | w :: more =>
    let (s, found) := s.words k [w]
    if s.ended.isSome then (s, [])
    else match found.find? (· ≠ "command".toList) with
      | some name =>
        let (s, rest) := if Own.isDeclaring name then declarations k s more else s.words k more
        (s, found ++ rest)
      | none =>
        let (s, rest) := arguments k s more
        (s, found ++ rest)

def withoutCommand : List Text → List Text × Bool
  | [] => ([], false)
  | a :: args =>
    if a ≠ "command".toList then (a :: args, false)
    else match args with
      | ['-', 'p'] :: rest => ((withoutCommand rest).1, true)
      | ['-', '-'] :: rest => ((withoutCommand rest).1, true)
      | ('-' :: _) :: _ => (a :: args, false)
      | rest => ((withoutCommand rest).1, true)

def callOwn (g : Ground) (care : Care) (ends : Bool) (s : State) (name : Text) (own : Own) (args : List Text) : State :=
  match own (g.hands care) s args with
  | .ok t => t
  | .error words =>
    let t := s.complainAs (name ++ ": ".toList) words 2
    if ends then { t with ended := some (.code 2) } else t

def type (s : State) (names : List Text) : State :=
  names.foldl (fun s name =>
    match Own.describe s name with
    | .ok (_, words) => Own.say s (name ++ words)
    | .error words => { Own.say s words with status := 127 }) { s with status := 0 }

def whatIs (s : State) (letter : Char) (names : List Text) : State :=
  match names with
  | [] => { s with status := 0 }
  | name :: _ =>
    match Own.describe s name with
    | .ok (short, words) => { Own.say s (if letter = 'v' then short else name ++ words) with status := 0 }
    | .error words => { (if letter = 'v' then s else Own.say s words) with status := 127 }

def mostCalls : Nat := 1000

def callFunction (g : Ground) (care : Care) (s : State) (body : Command) (args : List Text) : State :=
  if mostCalls ≤ s.hidden.length then
    s.abort ("Maximum function recursion depth (".toList ++ Text.ofNat mostCalls ++ ") reached".toList) 2
  else
    let t := g.again { care with final := false } { s with args, hidden := [] :: s.hidden, loops := 0 } body
    let t := (t.hidden.headD []).foldl State.restore t
    { t with
      args := s.args
      hidden := s.hidden
      loops := s.loops
      jump := if t.jump = some .back then none else t.jump }

def call (g : Ground) (care : Care) (s : State) (words : List Text) : State :=
  let (words, isPlain) := withoutCommand words
  match words with
  | [] => { s with status := 0 }
  | name :: args =>
    let body := if isPlain ∨ Own.isSpecial name then none else s.functions.lookup name
    match body with
    | some body => g.callFunction care s body args
    | none =>
      match String.ofList name, args with
      | "exec", [] => { s with status := 0 }
      | "exec", program :: args =>
        let words := if program = ['-', '-'] then args else program :: args
        let t := g.outside true { s with title := "exec: ".toList } (words.headD []) (words.drop 1)
        { t with title := s.title }
      | "command", ('-' :: letters) :: names => whatIs s (letters.headD 'v') names
      | "type", names => type s names
      | _, _ =>
        match Own.named? name with
        | some own => g.callOwn care (Own.isSpecial name && !isPlain) s name own args
        | none => g.outside (care.final && s.traps.isEmpty) s name args

def trace (s : State) (channel : Option Channel) (shown : List Text) : State :=
  match channel with
  | some c =>
    let sign := (s.assigned.lookup "PS4".toList).getD ['+', ' ']
    s.writeTo c (Text.bytes (sign ++ Text.join [' '] shown ++ ['\n']))
  | none => s

/-- Sets variables one after another; those that are for a command alone are handed on to it. -/
def assignAll (k : Deeper) (handed : Bool) (s : State) : List (Text × Word) → State × List Text
  | [] => (s, [])
  | (name, w) :: more =>
    let (s, t) := s.text k w
    if s.ended.isSome then (s, [])
    else
      let s := s.assignVariable name t
      let s := if handed then Own.markExported s name else s
      if s.ended.isSome then (s, [])
      else
        let (s, shown) := assignAll k handed s more
        (s, (name ++ '=' :: t) :: shown)

def unassigned (s t : State) (names : List Text) : State :=
  names.foldl (fun t name =>
    let t := t.restore (name, s.assigned.lookup name)
    if s.exported.contains name then Own.markExported t name
    else { t with exported := t.exported.filter (· ≠ name) }) t

/-- Runs a simple command. What it sets before a name is for that command alone, unless it is one of the special
ones. -/
def simple (g : Ground) (care : Care) (s : State) (words : List Word) (redirects : List Redirect) : State :=
  let (sets, rest) := settings words
  let (s, args) := arguments g.deeper s rest
  if s.ended.isSome then s
  else
    let (named, isPlain) := withoutCommand args
    let isSpecial := named.head?.any Own.isSpecial && !isPlain
    let stays := named.isEmpty || isSpecial
    let keepsChannels := named = ["exec".toList]
    let (t, wrong) := redirectAll g.deeper s redirects
    match wrong with
    | some why =>
      let t := reconnected s (t.complain why 2) redirects
      if isSpecial then { t with ended := some (.code 2) } else t
    | none =>
      if t.ended.isSome then t
      else
        let handed := !stays || (named.headD [] = "exec".toList && 1 < named.length)
        let (u, shown) := assignAll g.deeper handed t sets
        if u.ended.isSome then u
        else
          let u := if s.has 'x' ∧ (shown ≠ [] ∨ args ≠ []) then trace u (s.channel? 2) (shown ++ args) else u
          let done := if args = [] then { u with status := u.answer } else g.call care u args
          let done := if stays then done else unassigned t done (sets.map Prod.fst)
          if keepsChannels ∧ done.ended.isNone then done else reconnected s done redirects

end LanguageRoster.Shell.Ground
