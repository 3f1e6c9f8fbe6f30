import LanguageRoster.Text.Basic

/-!
# Lines

* `Text.AtLine t` : a line starts behind `t`; `Text.opens` computes it from the left
* `Text.IsLine t` : one line with its line feed; `lines_line_append` reads it off the front of a text
* `lines_append` : texts that meet at the start of a line have their lines one after another
* `length_lines` : up to where a line starts, there are as many lines as line feeds
* `takeWhile_run`, `dropWhile_run`, `run_unique` : the run of characters of a class at the front of a text
* `Text.lastInk?` : the last character of a line that is no blank and no part of its end
-/

namespace LanguageRoster.Text

set_option autoImplicit false

/-! ## Runs of characters -/

section

variable {q : Char → Bool} {s rest : Text}

theorem takeWhile_run (hs : ∀ c ∈ s, q c = true) (hr : ∀ c ∈ rest.head?, q c = false) :
    (s ++ rest).takeWhile q = s := by
  rw [List.takeWhile_append_of_pos hs]
  cases rest with
  | nil => simp
  | cons c rest => simp [hr c rfl]

theorem dropWhile_run (hs : ∀ c ∈ s, q c = true) (hr : ∀ c ∈ rest.head?, q c = false) :
    (s ++ rest).dropWhile q = rest := by
  rw [List.dropWhile_append_of_pos hs]
  cases rest with
  | nil => rfl
  | cons c rest => simp [hr c rfl]

theorem of_mem_takeWhile {t : Text} {c : Char} (h : c ∈ t.takeWhile q) : q c = true := by
  induction t with
  | nil => simp at h
  | cons d t ih =>
    rw [List.takeWhile_cons] at h
    split at h
    · next hd =>
      rcases List.mem_cons.1 h with rfl | h
      · exact hd
      · exact ih h
    · simp at h

theorem run_unique {u v x y : Text} (hu : ∀ c ∈ u, q c = true) (hv : ∀ c ∈ v, q c = true)
    (hx : ∀ c ∈ x.head?, q c = false) (hy : ∀ c ∈ y.head?, q c = false) (h : u ++ x = v ++ y) : u = v ∧ x = y := by
  have huv : u = v := by rw [← takeWhile_run hu hx, h, takeWhile_run hv hy]
  rw [huv] at h
  exact ⟨huv, List.append_cancel_left h⟩

end

/-! ## Where lines start -/

/-- A line starts behind the text: it is empty, or ends in a line feed. -/
def AtLine (t : Text) : Prop := t = [] ∨ t.getLast? = some '\n'

/-- A line starts behind the text; `start` says whether one starts at its front. -/
def opens : (start : Bool) → Text → Bool
  | start, [] => start
  | _, c :: t => opens (c == '\n') t

theorem opens_append (start : Bool) (s t : Text) : opens start (s ++ t) = opens (opens start s) t := by
  induction s generalizing start with
  | nil => rfl
  | cons c s ih => exact ih _

theorem atLine_iff_opens {t : Text} : AtLine t ↔ opens true t = true := by
  rcases List.eq_nil_or_concat t with rfl | ⟨s, c, rfl⟩
  · simp [AtLine, opens]
  · simp [AtLine, opens_append, opens]

theorem AtLine.append {s t : Text} (hs : AtLine s) (ht : AtLine t) : AtLine (s ++ t) := by
  rw [atLine_iff_opens] at *
  rw [opens_append, hs, ht]

theorem AtLine.of_append {s t : Text} (hs : AtLine s) (h : AtLine (s ++ t)) : AtLine t := by
  rw [atLine_iff_opens] at *
  rwa [opens_append, hs] at h

/-! ## Single lines -/

/-- One line, with the line feed that ends it. -/
def IsLine (t : Text) : Prop := ∃ u, '\n' ∉ u ∧ t = u ++ ['\n']

theorem IsLine.atLine {t : Text} (h : IsLine t) : AtLine t := by
  obtain ⟨u, -, rfl⟩ := h
  simp [AtLine]

@[simp] theorem lineFeeds_line {t : Text} (h : IsLine t) : lineFeeds t = 1 := by
  obtain ⟨u, hu, rfl⟩ := h
  simp [lineFeeds, List.count_eq_zero.2 hu]

/-- Behind a first line feed the lines are those of the rest. -/
theorem lines_append_lineFeed {u : Text} (v : Text) (hu : '\n' ∉ u) :
    lines (u ++ '\n' :: v) = (u ++ ['\n']) :: lines v := by
  induction u with
  | nil =>
    simp only [List.nil_append, lines]
    split
    · next h => rw [h]
    · next h => simp [h]
  | cons c u ih =>
    have hc : c ≠ '\n' := fun e => hu (e ▸ List.mem_cons_self)
    rw [List.cons_append, lines, ih fun h => hu (List.mem_cons_of_mem _ h)]
    simp [hc]

theorem lines_of_notMem {u : Text} (hu : '\n' ∉ u) (h : u ≠ []) : lines u = [u] := by
  induction u with
  | nil => exact absurd rfl h
  | cons c u ih =>
    have hc : c ≠ '\n' := fun e => hu (e ▸ List.mem_cons_self)
    rw [lines]
    by_cases hn : u = []
    · simp [hn, lines]
    · simp [ih (fun h => hu (List.mem_cons_of_mem _ h)) hn, hc]

theorem lines_line_append {l : Text} (t : Text) (h : IsLine l) : lines (l ++ t) = l :: lines t := by
  obtain ⟨u, hu, rfl⟩ := h
  rw [List.append_assoc, List.singleton_append, lines_append_lineFeed t hu]

/-- A text is empty, or a line without an end, or a line and what follows it. -/
theorem lines_induction {motive : Text → Prop} (nil : motive [])
    (last : ∀ u, u ≠ [] → '\n' ∉ u → motive u) (line : ∀ l t, IsLine l → motive t → motive (l ++ t)) (t : Text) :
    motive t := by
  by_cases h : '\n' ∈ t
  · obtain ⟨u, v, rfl, hu⟩ := List.eq_append_cons_of_mem h
    have hm : motive (u ++ ['\n'] ++ v) := line _ v ⟨u, hu, rfl⟩ (lines_induction nil last line v)
    rwa [List.append_assoc, List.singleton_append] at hm
  · by_cases hn : t = []
    · exact hn ▸ nil
    · exact last t hn h
termination_by t.length

/-! ## Texts that meet at the start of a line -/

theorem lines_append {s : Text} (t : Text) (h : AtLine s) : lines (s ++ t) = lines s ++ lines t := by
  induction s using lines_induction with
  | nil => rfl
  | last u hn hu =>
    rcases h with h | h
    · exact absurd h hn
    · exact absurd (List.mem_of_getLast? h) hu
  | line l s hl ih =>
    rw [List.append_assoc, lines_line_append _ hl, lines_line_append _ hl, ih (hl.atLine.of_append h), List.cons_append]

/-- Up to where a line starts, there are as many lines as line feeds. -/
theorem length_lines {t : Text} (h : AtLine t) : (lines t).length = lineFeeds t := by
  induction t using lines_induction with
  | nil => rfl
  | last u hn hu =>
    rcases h with h | h
    · exact absurd h hn
    · exact absurd (List.mem_of_getLast? h) hu
  | line l t hl ih =>
    rw [lines_line_append _ hl, List.length_cons, ih (hl.atLine.of_append h), lineFeeds_append, lineFeeds_line hl,
      Nat.add_comm]

theorem atLine_flatten {ls : List Text} (h : ∀ l ∈ ls, IsLine l) : AtLine ls.flatten := by
  induction ls with
  | nil => exact .inl rfl
  | cons l ls ih =>
    exact (h l List.mem_cons_self).atLine.append (ih fun x hx => h x (List.mem_cons_of_mem _ hx))

theorem isLine_of_lines {t l : Text} {more : List Text} (h : lines t = l :: more) (hm : more ≠ []) : IsLine l := by
  induction t using lines_induction with
  | nil => exact absurd h (by simp [lines])
  | last u hn hu =>
    rw [lines_of_notMem hu hn] at h
    exact absurd (List.cons.inj h).2.symm hm
  | line k t hk _ =>
    rw [lines_line_append _ hk] at h
    exact (List.cons.inj h).1 ▸ hk

theorem lines_flatten_tail {t l : Text} {more : List Text} (h : lines t = l :: more) : lines more.flatten = more := by
  induction t using lines_induction with
  | nil => exact absurd h (by simp [lines])
  | last u hn hu =>
    rw [lines_of_notMem hu hn] at h
    rw [← (List.cons.inj h).2]
    rfl
  | line k t hk _ =>
    rw [lines_line_append _ hk] at h
    rw [← (List.cons.inj h).2, flatten_lines]

/-! ## The last character of a line -/

def isInk (c : Char) : Bool := !(isBlank c || c == '\r' || c == '\n')

/-- The last character of the text that is no blank and no part of a line's end. -/
def lastInk? (t : Text) : Option Char := t.reverse.find? isInk

theorem lastInk?_append (s t : Text) : lastInk? (s ++ t) = (lastInk? t).or (lastInk? s) := by
  rw [lastInk?, List.reverse_append, List.find?_append, lastInk?, lastInk?]

theorem lastInk?_eq_none {t : Text} (h : ∀ c ∈ t, isInk c = false) : lastInk? t = none := by
  rw [lastInk?, List.find?_eq_none]
  simpa using h

theorem lastInk?_of_blank {t : Text} (h : ∀ c ∈ t, isBlank c = true) : lastInk? t = none :=
  lastInk?_eq_none fun c hc => by simp [isInk, h c hc]

end LanguageRoster.Text
