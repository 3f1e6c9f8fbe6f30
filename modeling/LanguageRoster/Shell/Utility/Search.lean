import LanguageRoster.Shell.Regex
import LanguageRoster.Shell.Utility.Basic

/-!
# Searching

`Utility.grep` shows the lines of files that match an expression.
-/

namespace LanguageRoster.Shell.Utility

set_option autoImplicit false

def wide (b : Bytes) : Text := b.map fun x => Char.ofNat x.toNat

def narrow (t : Text) : Bytes := t.map fun c => UInt8.ofNat c.toNat

def wideText (t : Text) : Text := wide (Text.bytes t)

/-! ## Showing lines that match -/

def literally (t : Text) : Regex := t.foldr (fun c r => .both (Regex.one c) r) .nothing

def inWord (c : Char) : Bool := c.isAlphanum || c == '_'

def matchIn (g : Given) (r : Regex) (line : Text) : Option Regex.Match :=
  if g.has 'x' then Regex.find? (g.has 'i') (.both .atStart (.both r .atEnd)) [] line
  else if g.has 'w' then
    (Regex.find? (g.has 'i') r [] line).filter fun m =>
      !(m.before.getLast?.any inWord) && !(m.behind.head?.any inWord)
  else Regex.find? (g.has 'i') r [] line

def matchesIn (g : Given) (r : Regex) : (fuel : Nat) → (before line : Text) → List Text
  | 0, _, _ => []
  | fuel + 1, before, line =>
    match if before = [] then matchIn g r line else Regex.find? (g.has 'i') r before line with
    | none => []
    | some m =>
      if m.found = [] then
        match m.behind with
        | [] => []
        | c :: rest => matchesIn g r fuel (c :: m.before.reverse) rest
      else m.found :: matchesIn g r fuel (m.found.reverse ++ m.before.reverse) m.behind

structure Search where
  done : Finished
  found : Bool := false
  failed : Bool := false

def searchFile (g : Given) (r : Regex) (titled : Bool) (title : Text) (b : Bytes) (s : Search) : Search :=
  let lines := (linesOf b).map bare
  let hits := (lines.zipIdx 1).filter fun (l, _) => (matchIn g r (wide l)).isSome != g.has 'v'
  let hits := match (g.value? 'm').bind wholeNumber? with
    | some n => hits.take n.toNat
    | none => hits
  let name : Bytes := if titled then Text.bytes (title ++ [':']) else []
  let number (n : Nat) : Bytes := if g.has 'n' then Text.bytes (Text.ofNat n ++ [':']) else []
  let shown : Bytes :=
    if g.has 'q' then []
    else if g.has 'l' then if hits = [] then [] else Text.bytes (title ++ ['\n'])
    else if g.has 'L' then if hits = [] then Text.bytes (title ++ ['\n']) else []
    else if g.has 'c' then name ++ Text.bytes (Text.ofNat hits.length ++ ['\n'])
    else if g.has 'o' then
      if g.has 'v' then []
      else hits.flatMap fun (l, n) =>
        (matchesIn g r (l.length + 2) [] (wide l)).flatMap fun t => name ++ number n ++ narrow t ++ [10]
    else hits.flatMap fun (l, n) => name ++ number n ++ l ++ [10]
  let isHit := if g.has 'L' then s.found || hits = [] else s.found || hits ≠ []
  { s with done := s.done.say shown, found := isHit }

/-- Shows the lines of files that match an expression. -/
def grepAs (t : Tree) (c : Call) (g : Given) : Finished :=
  let (patterns, files) := match g.options.filter fun o => o.1 = 'e' with
    | [] => (g.operands.take 1, g.operands.drop 1)
    | es => (es.map Prod.snd, g.operands)
  let one (p : Text) : Option Regex :=
    if g.has 'F' then some (literally (wideText p)) else Regex.read (g.has 'E' || g.has 'P') (wideText p)
  if patterns = [] then
    Finished.complaint t ("Usage: grep [OPTION]... PATTERNS [FILE]...\nTry '".toList ++ c.name
      ++ " --help' for more information.".toList) 2
  else match (patterns.flatMap fun p => Text.splitOn '\n' p).mapM one with
    | none => Finished.complaint t (c.name ++ ": Invalid regular expression".toList) 2
    | some rs =>
      let r := match rs with
        | [] => Regex.nothing
        | r :: more => more.foldl .either r
      let names := if files = [] then [['-']] else files
      let titled := (1 < names.length ∨ g.has 'H') ∧ !g.has 'h'
      let s := names.foldl (fun s file =>
        let title := if file = ['-'] then "(standard input)".toList else file
        match content t c file with
        | .ok b => searchFile g r titled title b s
        | .error f =>
          let done := if g.has 's' then s.done else s.done.complain (about c.name file f) 2
          { s with done, failed := true }) ({ done := { tree := t } } : Search)
      let code := if s.found ∧ (g.has 'q' ∨ !s.failed) then 0 else if s.failed then 2 else 1
      { s.done with ending := .code code }

def grep : Utility := withOptions "EFGPivwxcnlLhHoqsa" "em" 2 grepAs

end LanguageRoster.Shell.Utility
