import LanguageRoster.Shell.Utility.Files
import LanguageRoster.Shell.Utility.Search

/-!
# Editing lines

* `Utility.Edit` : a command on a line; `Utility.editSteps` reads several, with the lines that they are for
* `Utility.runSteps` : a line behind commands
* `Utility.sed` : edits the lines of files
-/

namespace LanguageRoster.Shell.Utility

set_option autoImplicit false

inductive Address where
  | line (n : Nat)
  | last
  | matching (r : Regex) (anyCase : Bool)

inductive Edit where
  | substitute (r : Regex) (anyCase : Bool) (replacement : Text) (all shown : Bool) (nth : Nat)
  | delete
  | show
  | number
  | quit
  | insert (t : Text)
  | append (t : Text)
  | change (t : Text)
  | exchange (source target : Text)
  | group (body : List (List Address × Bool × Edit))

abbrev EditStep := List Address × Bool × Edit

def upToSign (sign : Char) : Text → Option (Text × Text)
  | [] => none
  | '\\' :: c :: t =>
    (upToSign sign t).map fun (front, rest) => (if c = sign then c :: front else '\\' :: c :: front, rest)
  | c :: t => if c = sign then some ([], t) else (upToSign sign t).map fun (front, rest) => (c :: front, rest)

def address? (extended : Bool) (t : Text) : Option (Address × Text) :=
  match t with
  | '$' :: rest => some (.last, rest)
  | '/' :: rest => do
    let (pattern, rest) ← upToSign '/' rest
    let r ← Regex.read extended pattern
    match rest with
    | 'I' :: rest => return (.matching r true, rest)
    | rest => return (.matching r false, rest)
  | t =>
    let digits := t.takeWhile Char.isDigit
    if digits = [] then none else some (.line (ofDigits 10 digits), t.drop digits.length)

def unindented (t : Text) : Text := t.dropWhile Text.isBlank

def lineText (t : Text) : Text × Text :=
  let t := unindented t
  let t := match t with
    | '\\' :: '\n' :: t => t
    | '\\' :: t => t
    | t => t
  (t.takeWhile (· ≠ '\n'), t.dropWhile (· ≠ '\n'))

abbrev Wrong := Text

mutual

/-- The commands up to the end of the text, or of a group. -/
def editSteps (extended : Bool) : (fuel : Nat) → Text → Except Wrong (List EditStep × Text)
  | 0, _ => .ok ([], [])
  | fuel + 1, t => do
    match t.dropWhile fun c => c == ';' || Text.isBlank c || c == '\n' with
    | [] => return ([], [])
    | '\x7d' :: rest => return ([], rest)
    | '#' :: rest => editSteps extended fuel (rest.dropWhile (· ≠ '\n'))
    | t =>
      let (addresses, t) := match address? extended t with
        | none => ([], t)
        | some (a, rest) =>
          match unindented rest with
          | ',' :: more =>
            match address? extended (unindented more) with
            | some (b, rest) => ([a, b], rest)
            | none => ([a], rest)
          | rest => ([a], rest)
      let t := unindented t
      let (negated, t) := match t with
        | '!' :: rest => (true, unindented rest)
        | t => (false, t)
      let (e, rest) ← edit extended fuel t
      let (more, rest) ← editSteps extended fuel rest
      return ((addresses, negated, e) :: more, rest)

def edit (extended : Bool) : (fuel : Nat) → Text → Except Wrong (Edit × Text)
  | 0, _ => .error "missing command".toList
  | fuel + 1, t => do
    match t with
    | [] => throw "missing command".toList
    | '\x7b' :: rest =>
      let (body, rest) ← editSteps extended fuel rest
      return (.group body, rest)
    | 'd' :: rest => return (.delete, rest)
    | 'p' :: rest => return (.show, rest)
    | '=' :: rest => return (.number, rest)
    | 'q' :: rest => return (.quit, rest)
    | 'i' :: rest => return (.insert (lineText rest).1, (lineText rest).2)
    | 'a' :: rest => return (.append (lineText rest).1, (lineText rest).2)
    | 'c' :: rest => return (.change (lineText rest).1, (lineText rest).2)
    | 's' :: sign :: rest =>
      match (upToSign sign rest).bind fun (pattern, rest) =>
        (upToSign sign rest).map fun (replacement, rest) => (pattern, replacement, rest) with
      | none => throw "unterminated \x60s' command".toList
      | some (pattern, replacement, rest) =>
        let flags := rest.takeWhile fun c => c == 'g' || c == 'p' || c == 'i' || c == 'I' || c.isDigit
        match Regex.read extended pattern with
        | none => throw "Invalid regular expression".toList
        | some r =>
          let nth := ofDigits 10 (flags.filter Char.isDigit)
          return (.substitute r (flags.contains 'i' || flags.contains 'I') replacement (flags.contains 'g')
            (flags.contains 'p') (max nth 1), rest.drop flags.length)
    | 'y' :: sign :: rest =>
      match (upToSign sign rest).bind fun (source, rest) =>
        (upToSign sign rest).map fun (target, rest) => (source, target, rest) with
      | none => throw "unterminated \x60y' command".toList
      | some (source, target, rest) => return (.exchange source target, rest)
    | c :: _ => throw ("unknown command: \x60".toList ++ [c, '\''])

end

/-- The replacement with what was matched in place of its signs. -/
def replacementOf (m : Regex.Match) : Text → Text
  | [] => []
  | '&' :: t => m.found ++ replacementOf m t
  | '\\' :: 'n' :: t => '\n' :: replacementOf m t
  | '\\' :: 't' :: t => '\t' :: replacementOf m t
  | '\\' :: c :: t =>
    if c = '0' then m.found ++ replacementOf m t
    else if c.isDigit then (m.groups.lookup (c.toNat - '0'.toNat)).getD [] ++ replacementOf m t
    else c :: replacementOf m t
  | c :: t => c :: replacementOf m t

/-- The line behind a place with matches replaced, from the `nth` on, and whether there was one. -/
def substituted (r : Regex) (anyCase : Bool) (replacement : Text) (all : Bool) :
    (fuel nth : Nat) → (before line : Text) → (adjacent : Bool) → Text × Bool
  | 0, _, _, line, _ => (line, false)
  | fuel + 1, nth, before, line, adjacent =>
    match Regex.find? anyCase r before line with
    | none => (line, false)
    | some m =>
      let front := m.before.drop before.length
      if m.found = [] then
        let skip := adjacent && front = []
        let here := if skip ∨ 1 < nth then [] else replacementOf m replacement
        let hit := !skip && nth ≤ 1
        match m.behind with
        | [] => (front ++ here, hit)
        | c :: rest =>
          if hit ∧ !all then (front ++ here ++ c :: rest, true)
          else
            let (more, did) := substituted r anyCase replacement all fuel (if skip then nth else nth - 1)
              (c :: m.before.reverse) rest false
            (front ++ here ++ c :: more, hit || did)
      else
        let here := if 1 < nth then m.found else replacementOf m replacement
        if nth ≤ 1 ∧ !all then (front ++ here ++ m.behind, true)
        else
          let (more, did) := substituted r anyCase replacement all fuel (nth - 1)
            (m.found.reverse ++ m.before.reverse) m.behind true
          (front ++ here ++ more, nth ≤ 1 || did)

structure Line where
  text : Text
  number : Nat
  isLast : Bool
  shown : List Text := []
  behind : List Text := []
  deleted : Bool := false
  quits : Bool := false
  /-- The steps whose range of lines has begun, each by its number, with the line on which it ends if that is known. -/
  begun : List Nat := []

def Address.isAt (l : Line) : Address → Bool
  | .line n => l.number == n
  | .last => l.isLast
  | .matching r anyCase => (Regex.find? anyCase r [] l.text).isSome

def Address.isOver (l : Line) : Address → Bool
  | .line n => n ≤ l.number
  | a => a.isAt l

mutual

/-- Runs steps on a line; `base` is the number of the first of them. -/
def runSteps (quiet : Bool) : (fuel base : Nat) → List EditStep → Line → Line
  | 0, _, _, l => l
  | _ + 1, _, [], l => l
  | fuel + 1, base, (addresses, negated, e) :: more, l =>
    if l.deleted ∨ l.quits then l
    else
      let (chosen, l) : Bool × Line := match addresses with
        | [] => (true, l)
        | [a] => (a.isAt l, l)
        | a :: b :: _ =>
          if l.begun.contains base then
            (true, if b.isOver l then { l with begun := l.begun.filter (· ≠ base) } else l)
          else if a.isAt l then
            let isDone : Bool := match b with
              | .line n => n ≤ l.number
              | _ => false
            (true, if isDone then l else { l with begun := base :: l.begun })
          else (false, l)
      let l := if chosen != negated then runEdit quiet fuel (base * 64 + 1) e l else l
      runSteps quiet fuel (base + 1) more l

def runEdit (quiet : Bool) : (fuel base : Nat) → Edit → Line → Line
  | 0, _, _, l => l
  | fuel + 1, base, e, l =>
    match e with
    | .delete => { l with deleted := true }
    | .show => { l with shown := l.shown ++ [l.text] }
    | .number => { l with shown := l.shown ++ [Text.ofNat l.number] }
    | .quit => { l with quits := true }
    | .insert t => { l with shown := l.shown ++ [t] }
    | .append t => { l with behind := l.behind ++ [t] }
    | .change t => { l with shown := l.shown ++ [t], deleted := true }
    | .exchange source target =>
      { l with text := l.text.map fun c => ((source.zip target).lookup c).getD c }
    | .substitute r anyCase replacement all shown nth =>
      let (text, did) := substituted r anyCase replacement all (l.text.length + 2) nth [] l.text false
      if did then { l with text, shown := if shown then l.shown ++ [text] else l.shown } else l
    | .group body => runSteps quiet fuel (base * 64) body l

end

/-- Edits lines; each comes with its line feed if it has one. -/
def editLines (quiet : Bool) (steps : List EditStep) : (number : Nat) → (begun : List Nat) → List Bytes → Bytes
  | _, _, [] => []
  | number, begun, l :: more =>
    let done := runSteps quiet 1000 1 steps
      { text := wide (bare l), number, isLast := more.isEmpty, begun }
    let feed (t : Text) : Bytes := narrow t ++ [10]
    let last : Bytes := if l.getLast? = some 10 ∨ done.behind ≠ [] then [10] else []
    let own : Bytes := if done.deleted ∨ quiet then [] else narrow done.text ++ last
    let shown := done.shown.flatMap feed ++ own ++ done.behind.flatMap feed
    if done.quits then shown else shown ++ editLines quiet steps (number + 1) done.begun more

def inPlace (args : List Text) : Bool × List Text :=
  let isIt (a : Text) : Bool := a = ['-', 'i'] || a = "--in-place".toList
  (args.any isIt, args.filter (!isIt ·))

def sed : Utility := fun t c =>
  let (places, args) := inPlace c.args
  withOptions "nErsuz" "e" 1 (fun t c g =>
    let (script, files) := match g.options.filter fun o => o.1 = 'e' with
      | [] => (g.operands.head?, g.operands.drop 1)
      | es => (some (Text.join ['\n'] (es.map Prod.snd)), g.operands)
    match script with
    | none => Finished.complaint t "Usage: sed [OPTION]... script [input-file]...".toList 1
    | some script =>
      match editSteps (g.has 'E' || g.has 'r') (2 * script.length + 4) (wideText script) with
      | .error words =>
        let place := ": -e expression #1, char ".toList ++ Text.ofNat script.size
        Finished.complaint t (c.name ++ place ++ ": ".toList ++ words) 1
      | .ok (steps, _) =>
        let quiet := g.has 'n'
        let cantRead (r : Finished) (file : Text) (f : Tree.Fault) : Finished :=
          if f = .isDirectory then
            r.complain (c.name ++ ": couldn't edit ".toList ++ file ++ ": not a regular file".toList) 4
          else r.complain (c.name ++ ": can't read ".toList ++ file ++ ": ".toList ++ faultWords f) 2
        if places then
          files.foldl (fun r file =>
            match r.tree.readBytes file with
            | .error f => cantRead r file f
            | .ok b =>
              match writeFile r.tree (newMode c) file (editLines quiet steps 1 [] (linesOf b)) with
              | .ok tree => { r with tree }
              | .error f => cantRead r file f) { tree := t }
        else
          let names := if files = [] then [['-']] else files
          let r := names.foldl (fun r file =>
            match content t c file with
            | .ok _ => r
            | .error .isDirectory =>
              Finished.complain r (c.name ++ ": read error on ".toList ++ file ++ ": Is a directory".toList) 2
            | .error f => cantRead r file f) { tree := t }
          let input := (names.filterMap fun file => (content t c file).toOption).flatten
          r.say (editLines quiet steps 1 [] (linesOf input))) t { c with args }

end LanguageRoster.Shell.Utility
