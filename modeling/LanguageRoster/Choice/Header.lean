import LanguageRoster.Choice.Basic

/-!
# The header of the choice

The header is the marker, the head of the rule and the opening of the choice, each on a line of its own and with blanks
allowed between the words.

* `Choice.Piece` : the pieces of which a header is put together; `Piece.rests` and `rests` read them from the front of
  a text
* `Choice.Spells` : the texts that a list of pieces stands for, and `mem_rests_iff`, which says that `rests` reads them
* `Choice.find?`, `Choice.count` : the first header of a document, and the number of headers that do not overlap
-/

namespace LanguageRoster.Choice

set_option autoImplicit false

/-- A piece of a header. -/
inductive Piece where
  | blanks
  | exactly (t : Text)
  | possibly (c : Char)
  /-- A line feed, with or without a carriage return before it. -/
  | lineEnd

/-- The pieces of the header that the pattern asks for. -/
def Pattern.header (p : Pattern) : List Piece :=
  [.blanks, .exactly p.marker.trim, .blanks, .lineEnd,
    .blanks, .exactly p.rule, .blanks, .exactly [':'], .blanks, .exactly ['('], .blanks, .possibly '_', .exactly ['$'],
      .blanks, .exactly [')'], .blanks, .exactly ['=', '>'], .blanks, .lineEnd,
    .blanks, .exactly ['c', 'h', 'o', 'i', 'c', 'e', '('], .blanks, .lineEnd]

/-! ## What pieces stand for -/

/-- The piece stands for the text. -/
def Piece.Spells : Piece → Text → Prop
  | .blanks, t => ∀ c ∈ t, Text.isBlank c = true
  | .exactly u, t => t = u
  | .possibly c, t => t = [c] ∨ t = []
  | .lineEnd, t => t = ['\r', '\n'] ∨ t = ['\n']

def Spells : List Piece → Text → Prop
  | [], t => t = []
  | p :: ps, t => ∃ u v, t = u ++ v ∧ p.Spells u ∧ Spells ps v

/-! ## Reading pieces -/

/-- All that can be left of a text behind some of the blanks at its front, the shortest rest first. -/
def afterBlanks : Text → List Text
  | [] => [[]]
  | c :: t => if Text.isBlank c then afterBlanks t ++ [c :: t] else [c :: t]

/-- All that can be left of a text behind the piece at its front. -/
def Piece.rests : Piece → Text → List Text
  | .blanks, t => afterBlanks t
  | .exactly u, t => (Text.after? u t).toList
  | .possibly c, t => (Text.after? [c] t).toList ++ [t]
  | .lineEnd, t => (Text.after? ['\r', '\n'] t).toList ++ (Text.after? ['\n'] t).toList

/-- All that can be left of a text behind the pieces at its front. -/
def rests : List Piece → Text → List Text
  | [], t => [t]
  | p :: ps, t => (p.rests t).flatMap (rests ps)

theorem mem_afterBlanks_iff {r t : Text} :
    r ∈ afterBlanks t ↔ ∃ u, (∀ c ∈ u, Text.isBlank c = true) ∧ t = u ++ r := by
  induction t with
  | nil =>
    simp only [afterBlanks, List.mem_singleton]
    constructor
    · rintro rfl; exact ⟨[], by simp, rfl⟩
    · rintro ⟨u, -, h⟩; simpa using (List.append_eq_nil_iff.1 h.symm).2
  | cons c t ih =>
    have skip : (∃ u, (∀ d ∈ u, Text.isBlank d = true) ∧ c :: t = u ++ r) ↔
        (Text.isBlank c = true ∧ r ∈ afterBlanks t) ∨ r = c :: t := by
      rw [ih]
      constructor
      · rintro ⟨u, hu, h⟩
        cases u with
        | nil => exact .inr (by simpa using h.symm)
        | cons d u =>
          obtain ⟨rfl, h⟩ := List.cons.inj (h.trans (List.cons_append ..))
          exact .inl ⟨hu _ (by simp), u, fun x hx => hu x (by simp [hx]), by simpa using h⟩
      · rintro (⟨hc, u, hu, h⟩ | rfl)
        · exact ⟨c :: u, by simpa [hc] using hu, by simp [h]⟩
        · exact ⟨[], by simp, rfl⟩
    rw [skip, afterBlanks]
    by_cases hc : Text.isBlank c = true <;> simp [hc]

theorem Piece.mem_rests_iff {p : Piece} {r t : Text} : r ∈ p.rests t ↔ ∃ u, p.Spells u ∧ t = u ++ r := by
  cases p with
  | blanks => exact mem_afterBlanks_iff
  | exactly u => simp [Piece.rests, Piece.Spells, Text.after?_eq_some_iff]
  | possibly c =>
    simp only [Piece.rests, Piece.Spells, List.mem_append, Option.mem_toList, Text.after?_eq_some_iff,
      List.mem_singleton, or_and_right, exists_or, exists_eq_left, List.nil_append, eq_comm (a := r)]
  | lineEnd => simp [Piece.rests, Piece.Spells, Text.after?_eq_some_iff, or_and_right, exists_or]

/-- The rests are the texts behind what the pieces stand for. -/
theorem mem_rests_iff {ps : List Piece} {r t : Text} : r ∈ rests ps t ↔ ∃ u, Spells ps u ∧ t = u ++ r := by
  induction ps generalizing t with
  | nil => simp [rests, Spells, eq_comm]
  | cons p ps ih =>
    simp only [rests, List.mem_flatMap, Piece.mem_rests_iff, ih, Spells]
    constructor
    · rintro ⟨s, ⟨u, hu, rfl⟩, v, hv, rfl⟩
      exact ⟨u ++ v, ⟨u, v, rfl, hu, hv⟩, by simp⟩
    · rintro ⟨_, ⟨u, v, rfl, hu, hv⟩, rfl⟩
      exact ⟨v ++ r, ⟨u, hu, by simp⟩, v, hv, rfl⟩

/-! ## Headers of a document -/

def Pattern.behind? (p : Pattern) (t : Text) : Option Text := (rests p.header t).head?

/-- A header with the text before and behind it. -/
structure Hit where
  before : Text
  header : Text
  rest : Text

/-- The first header of the text that starts a line; `start` says whether the text itself does. -/
def find? (p : Pattern) : (start : Bool) → Text → Option Hit
  | _, [] => none
  | start, c :: t =>
    match if start then p.behind? (c :: t) else none with
    | some rest => some ⟨[], (c :: t).take ((c :: t).length - rest.length), rest⟩
    | none => (find? p (c == '\n') t).map fun hit => { hit with before := c :: hit.before }

/-- The number of headers in the text behind its first `skip` characters, where each is looked for behind the last. -/
def count (p : Pattern) : (skip : Nat) → (start : Bool) → Text → Nat
  | _, _, [] => 0
  | skip + 1, _, c :: t => count p skip (c == '\n') t
  | 0, start, c :: t =>
    match if start then p.behind? (c :: t) else none with
    | some rest => 1 + count p (t.length - rest.length) (c == '\n') t
    | none => count p 0 (c == '\n') t

end LanguageRoster.Choice
