import LanguageRoster.Text.Basic

/-!
# Patterns

Text with wildcards, as a shell has it: `*`, `?` and sets of characters in brackets.

* `Glyph` : a character that may be a wildcard, or is only itself
* `Wildcard.ofGlyphs` : the wildcards of a pattern
* `Wildcard.fits` : a pattern matches a text
-/

namespace LanguageRoster.Shell

set_option autoImplicit false

abbrev Glyph := Char × Bool

def glyphs (wild : Bool) (t : Text) : List Glyph := t.map (·, wild)

def plainText (gs : List Glyph) : Text := gs.map Prod.fst

/-! ## Sets of characters -/

abbrev CharSet := List (Char × Char)

def CharSet.has (s : CharSet) (c : Char) : Bool := s.any fun (first, last) => first ≤ c && c ≤ last

def CharSet.named? (name : Text) : Option CharSet :=
  match String.ofList name with
  | "alpha" => some [('a', 'z'), ('A', 'Z')]
  | "digit" => some [('0', '9')]
  | "alnum" => some [('a', 'z'), ('A', 'Z'), ('0', '9')]
  | "upper" => some [('A', 'Z')]
  | "lower" => some [('a', 'z')]
  | "space" => some [('\t', '\r'), (' ', ' ')]
  | "blank" => some [('\t', '\t'), (' ', ' ')]
  | "punct" => some [('!', '/'), (':', '@'), ('[', '`'), ('\x7b', '~')]
  | "print" => some [(' ', '~')]
  | "graph" => some [('!', '~')]
  | "cntrl" => some [('\x00', '\x1F'), ('\x7F', '\x7F')]
  | "xdigit" => some [('0', '9'), ('a', 'f'), ('A', 'F')]
  | _ => none

/-- The members of a set up to its closing bracket, and what is behind it; `started` tells that one was read. -/
def members? : (fuel : Nat) → (started : Bool) → List Glyph → Option (CharSet × List Glyph)
  | 0, _, _ => none
  | fuel + 1, started, gs =>
    let add (s : CharSet) (rest : List Glyph) : Option (CharSet × List Glyph) :=
      (members? fuel true rest).map fun (more, rest) => (s ++ more, rest)
    match gs with
    | [] => none
    | (']', true) :: rest => if started then some ([], rest) else add [(']', ']')] rest
    | ('[', true) :: (':', true) :: rest =>
      let name := plainText (rest.takeWhile fun g => g.1 ≠ ':')
      match rest.dropWhile (fun g => g.1 ≠ ':'), CharSet.named? name with
      | (':', _) :: (']', _) :: rest, some s => add s rest
      | _, _ => add [('[', '[')] ((':', true) :: rest)
    | (a, _) :: ('-', true) :: (b, wild) :: rest =>
      if wild ∧ b = ']' then add [(a, a)] (('-', true) :: (b, wild) :: rest) else add [(a, b)] rest
    | (a, _) :: rest => add [(a, a)] rest

/-! ## Patterns -/

inductive Wildcard where
  | one (c : Char)
  | any
  | many
  | set (negated : Bool) (s : CharSet)
  deriving DecidableEq, Repr

namespace Wildcard

def ofGlyphsFrom : (fuel : Nat) → List Glyph → List Wildcard
  | 0, _ => []
  | fuel + 1, gs =>
    match gs with
    | [] => []
    | ('*', true) :: rest => .many :: ofGlyphsFrom fuel rest
    | ('?', true) :: rest => .any :: ofGlyphsFrom fuel rest
    | ('[', true) :: rest =>
      let (negated, inner) := match rest with
        | ('!', true) :: inner => (true, inner)
        | inner => (false, inner)
      match members? (inner.length + 1) false inner with
      | some (s, rest) => .set negated s :: ofGlyphsFrom fuel rest
      | none => .one '[' :: ofGlyphsFrom fuel rest
    | (c, _) :: rest => .one c :: ofGlyphsFrom fuel rest

def ofGlyphs (gs : List Glyph) : List Wildcard := ofGlyphsFrom (gs.length + 1) gs

def takes : Wildcard → Char → Bool
  | .one c, d => c == d
  | .any, _ => true
  | .many, _ => true
  | .set negated s, c => s.has c != negated

def tails : Text → List Text
  | [] => [[]]
  | c :: t => (c :: t) :: tails t

def fits : List Wildcard → Text → Bool
  | [], t => t.isEmpty
  | .many :: p, t => (tails t).any fun rest => fits p rest
  | _ :: _, [] => false
  | w :: p, c :: t => w.takes c && fits p t

def isWild (p : List Wildcard) : Bool := p.any fun
  | .one _ => false
  | _ => true

end Wildcard

def isMatch (pattern : List Glyph) (t : Text) : Bool := Wildcard.fits (Wildcard.ofGlyphs pattern) t

def cuts (t : Text) : List (Text × Text) := (List.range (t.length + 1)).map fun n => (t.take n, t.drop n)

def trimMatch (atEnd longest : Bool) (pattern : List Glyph) (t : Text) : Text :=
  let p := Wildcard.ofGlyphs pattern
  let order := if atEnd = longest then cuts t else (cuts t).reverse
  if atEnd then ((order.find? fun (_, back) => Wildcard.fits p back).map Prod.fst).getD t
  else ((order.find? fun (front, _) => Wildcard.fits p front).map Prod.snd).getD t

end LanguageRoster.Shell
