/-!
# Text

Text is the sequence of its characters, so that every reader and writer of the library is a function on lists.

* `Text.isBlank`, `Text.isSpace` : the blanks of one line (space and tab), and the white space of Unicode
* `Text.trim` : a text without the white space around it
* `Text.size` : the number of bytes of a text in UTF-8
* `Text.lines` : the lines of a text, each with its line feed; `flatten_lines` puts them together again
-/

namespace LanguageRoster

set_option autoImplicit false

abbrev Text := List Char

namespace Text

/-! ## White space -/

def isBlank (c : Char) : Bool := c == ' ' || c == '\t'

def isSpace (c : Char) : Bool :=
  let n := c.toNat
  (9 ≤ n && n ≤ 13) || n == 0x20 || n == 0x85 || n == 0xA0 || n == 0x1680 || (0x2000 ≤ n && n ≤ 0x200A) ||
    n == 0x2028 || n == 0x2029 || n == 0x202F || n == 0x205F || n == 0x3000

def dropEnd (p : Char → Bool) (t : Text) : Text := (t.reverse.dropWhile p).reverse

def trim (t : Text) : Text := dropEnd isSpace (t.dropWhile isSpace)

/-! ## Classes -/

/-- The character is in one of the runs, each given by its first and its last character. -/
def inRuns (runs : List (Nat × Nat)) (c : Char) : Bool :=
  runs.any fun (first, last) => first ≤ c.toNat && c.toNat ≤ last

/-! ## Measures -/

def size : Text → Nat
  | [] => 0
  | c :: t => c.utf8Size + size t

@[simp] theorem size_nil : size [] = 0 := rfl

@[simp] theorem size_cons (c : Char) (t : Text) : size (c :: t) = c.utf8Size + size t := rfl

@[simp] theorem size_append (s t : Text) : size (s ++ t) = size s + size t := by
  induction s with
  | nil => simp
  | cons c s ih => simp [ih, Nat.add_assoc]

def lineFeeds (t : Text) : Nat := t.count '\n'

@[simp] theorem lineFeeds_append (s t : Text) : lineFeeds (s ++ t) = lineFeeds s + lineFeeds t := List.count_append

/-! ## Lines -/

/-- Splits behind the first line feed; without one, the whole text is the line. -/
def splitLine : Text → Text × Text
  | [] => ([], [])
  | c :: t => if c = '\n' then ([c], t) else (c :: (splitLine t).1, (splitLine t).2)

/-- The lines of the text, each with the line feed that ends it; only the last may lack one. -/
def lines : Text → List Text
  | [] => []
  | c :: t =>
    match lines t with
    | [] => [[c]]
    | l :: more => if c = '\n' then [c] :: l :: more else (c :: l) :: more

@[simp] theorem flatten_lines (t : Text) : (lines t).flatten = t := by
  induction t with
  | nil => rfl
  | cons c t ih =>
    rw [lines]
    split
    · next h => rw [h] at ih; simpa using ih
    · next l more h =>
      rw [h] at ih
      by_cases hc : c = '\n'
      · simp [hc, ← ih]
      · simp [hc, ← ih]

/-! ## Pieces -/

/-- The pieces of the text between the separators `sep`; always at least one. -/
def splitOn (sep : Char) : Text → List Text
  | [] => [[]]
  | c :: t =>
    match splitOn sep t with
    | [] => [[c]]
    | piece :: more => if c = sep then [] :: piece :: more else (c :: piece) :: more

def join (sep : Text) : List Text → Text
  | [] => []
  | [t] => t
  | t :: u :: more => t ++ sep ++ join sep (u :: more)

/-- What is left of the text behind `head`, if it starts with `head`. -/
def after? : Text → Text → Option Text
  | [], t => some t
  | _ :: _, [] => none
  | c :: head, d :: t => if c = d then after? head t else none

theorem after?_eq_some_iff {head t rest : Text} : after? head t = some rest ↔ t = head ++ rest := by
  induction head generalizing t with
  | nil => simp [after?, eq_comm]
  | cons c head ih =>
    cases t with
    | nil => simp [after?]
    | cons d t =>
      by_cases h : c = d
      · simp [after?, h, ih]
      · simp [after?, h, Ne.symm h]

def ofNat (n : Nat) : Text := Nat.toDigits 10 n

/-- The decimal digits of a number, behind a minus sign if it is negative. -/
def ofInt : Int → Text
  | .ofNat n => ofNat n
  | .negSucc n => '-' :: ofNat (n + 1)

end Text

end LanguageRoster
