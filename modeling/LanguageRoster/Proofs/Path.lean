import LanguageRoster.Path
import Mathlib.Data.List.DropRight

/-!
# Directories of paths

* `Text.splitOn_append`, `Text.splitOn_join` : pieces, and texts that are joined from pieces
* `Path.moves` : the names of a path without those that stay where they are
* `Path.moves_directory`, `Path.isAbsolute_directory` : the directory of a path has its moves but the last, from where
  the path starts
-/

namespace LanguageRoster

set_option autoImplicit false

/-! ## Pieces -/

namespace Text

variable {sep : Char}

theorem splitOn_of_notMem {p : Text} (h : sep ∉ p) : splitOn sep p = [p] := by
  induction p with
  | nil => rfl
  | cons c p ih =>
    rw [List.mem_cons, not_or] at h
    rw [splitOn, ih h.2]
    exact if_neg (Ne.symm h.1)

/-- The first separator ends the first piece. -/
theorem splitOn_append {p : Text} (h : sep ∉ p) (t : Text) : splitOn sep (p ++ sep :: t) = p :: splitOn sep t := by
  have hne (s : Text) : splitOn sep s ≠ [] := by
    cases s with
    | nil => simp [splitOn]
    | cons c s =>
      unfold splitOn
      split
      · simp
      · split <;> simp
  induction p with
  | nil =>
    rw [List.nil_append, splitOn]
    split
    · next hs => exact absurd hs (hne t)
    · next hs => rw [hs, if_pos rfl]
  | cons c p ih =>
    rw [List.mem_cons, not_or] at h
    rw [List.cons_append, splitOn, ih h.2]
    exact if_neg (Ne.symm h.1)

theorem exists_splitOn (sep : Char) (t : Text) :
    ∃ p more, splitOn sep t = p :: more ∧ sep ∉ p ∧ ∀ q ∈ more, sep ∉ q := by
  induction t with
  | nil => exact ⟨[], [], rfl, by simp, by simp⟩
  | cons c t ih =>
    obtain ⟨p, more, hs, hp, hmore⟩ := ih
    rw [splitOn, hs]
    by_cases hc : c = sep
    · exact ⟨[], p :: more, if_pos hc, by simp, by simpa using ⟨hp, hmore⟩⟩
    · exact ⟨c :: p, more, if_neg hc, by simp [Ne.symm hc, hp], hmore⟩

theorem notMem_of_mem_splitOn {t p : Text} (h : p ∈ splitOn sep t) : sep ∉ p := by
  obtain ⟨q, more, hs, hq, hmore⟩ := exists_splitOn sep t
  rw [hs] at h
  rcases List.mem_cons.1 h with rfl | h
  · exact hq
  · exact hmore p h

/-- Only separators are in no piece. -/
theorem mem_splitOn_iff {t : Text} {c : Char} (hc : c ≠ sep) : (∃ p ∈ splitOn sep t, c ∈ p) ↔ c ∈ t := by
  induction t with
  | nil => simp [splitOn]
  | cons x t ih =>
    obtain ⟨p, more, hs, -, -⟩ := exists_splitOn sep t
    rw [hs] at ih
    rw [splitOn, hs, List.mem_cons, ← ih]
    by_cases hx : x = sep
    · simp [hx, hc]
    · simp [hx, or_assoc]

theorem mem_join {ps : List Text} {c : Char} (hc : c ≠ sep) (h : c ∈ join [sep] ps) : ∃ p ∈ ps, c ∈ p := by
  induction ps with
  | nil => simp [join] at h
  | cons p more ih =>
    cases more with
    | nil => exact ⟨p, List.mem_cons_self, h⟩
    | cons q more =>
      rw [join, List.append_assoc, List.singleton_append, List.mem_append, List.mem_cons] at h
      rcases h with h | rfl | h
      · exact ⟨p, List.mem_cons_self, h⟩
      · exact absurd rfl hc
      · obtain ⟨r, hr, hcr⟩ := ih h
        exact ⟨r, List.mem_cons_of_mem _ hr, hcr⟩

theorem splitOn_join {ps : List Text} (hne : ps ≠ []) (h : ∀ p ∈ ps, sep ∉ p) : splitOn sep (join [sep] ps) = ps := by
  induction ps with
  | nil => exact absurd rfl hne
  | cons p more ih =>
    cases more with
    | nil => exact splitOn_of_notMem (h p List.mem_cons_self)
    | cons q more =>
      have htail : splitOn sep (join [sep] (q :: more)) = q :: more :=
        ih (List.cons_ne_nil _ _) fun r hr => h r (List.mem_cons_of_mem _ hr)
      rw [join, List.append_assoc, List.singleton_append, splitOn_append (h p List.mem_cons_self), htail]

end Text

namespace Path

open Text (splitOn)

/-! ## Moves -/

def leads (p : Text) : Bool := p ≠ [] ∧ p ≠ dot

/-- The names of the path that lead to other places. -/
def moves (path : Text) : List Text := (names path).filter (· ≠ dot)

theorem moves_eq (path : Text) : moves path = (splitOn '/' path).filter leads := by
  unfold moves names
  rw [List.filter_filter]
  refine List.filter_congr fun p _ => ?_
  simp [leads, Bool.and_comm]

theorem moves_slash (t : Text) : moves ('/' :: t) = moves t := by
  rw [moves_eq, moves_eq]
  have hs : splitOn '/' ('/' :: t) = [] :: splitOn '/' t := Text.splitOn_append (List.not_mem_nil) t
  rw [hs, List.filter_cons_of_neg (by simp [leads])]

theorem moves_dot_slash (t : Text) : moves ('.' :: '/' :: t) = moves t := by
  rw [moves_eq, moves_eq]
  have hs : splitOn '/' ('.' :: '/' :: t) = dot :: splitOn '/' t := Text.splitOn_append (p := dot) (by decide) t
  rw [hs, List.filter_cons_of_neg (by simp [leads])]

theorem moves_join {ps : List Text} (h : ∀ p ∈ ps, '/' ∉ p) : moves (Text.join ['/'] ps) = ps.filter leads := by
  rw [moves_eq]
  cases ps with
  | nil => rfl
  | cons p more => rw [Text.splitOn_join (List.cons_ne_nil _ _) h]

/-! ## Pieces that lead nowhere -/

/-- What is left out at the end leads nowhere; what is left ends in a move. -/
theorem settled_spec (ps : List Text) :
    ∃ rest, ps = settled ps ++ rest ∧ rest.filter leads = [] ∧
      ∀ h : settled ps ≠ [], leads ((settled ps).getLast h) := by
  have hset : settled ps = ps.rdropWhile fun p => p = [] ∨ p = dot := rfl
  refine ⟨ps.rtakeWhile fun p => p = [] ∨ p = dot, ?_, ?_, ?_⟩
  · rw [hset, List.rdropWhile_append_rtakeWhile]
  · rw [List.filter_eq_nil_iff]
    intro p hp
    have hstays := List.mem_rtakeWhile_imp hp
    simp only [decide_eq_true_eq] at hstays
    simp only [leads, decide_eq_true_eq, not_and_or, not_not]
    exact hstays
  · intro hne
    have hlast := List.rdropWhile_last_not _ ps hne
    simp only [decide_eq_true_eq, not_or] at hlast
    simpa [leads, hset] using hlast

theorem filter_settled (ps : List Text) : (settled ps).filter leads = ps.filter leads := by
  obtain ⟨rest, hps, hrest, -⟩ := settled_spec ps
  conv_rhs => rw [hps]
  rw [List.filter_append, hrest, List.append_nil]

theorem settled_eq_nil_iff {ps : List Text} : settled ps = [] ↔ ps.filter leads = [] := by
  rw [← filter_settled]
  constructor
  · intro h
    rw [h]
    rfl
  · intro h
    by_contra hne
    obtain ⟨-, -, -, hlast⟩ := settled_spec ps
    have hmem : (settled ps).getLast hne ∈ (settled ps).filter leads :=
      List.mem_filter.2 ⟨List.getLast_mem hne, hlast hne⟩
    rw [h] at hmem
    exact List.not_mem_nil hmem

/-- Without its last piece, a settled list has lost one move. -/
theorem filter_dropLast_settled (ps : List Text) : (settled ps).dropLast.filter leads = (ps.filter leads).dropLast := by
  rw [← filter_settled ps]
  by_cases hne : settled ps = []
  · rw [hne]
    rfl
  · obtain ⟨-, -, -, hlast⟩ := settled_spec ps
    conv_rhs => rw [← List.dropLast_append_getLast hne, List.filter_append, List.filter_singleton, hlast hne]
    simp

theorem settled_isPrefix (ps : List Text) : settled ps <+: ps := by
  obtain ⟨rest, hps, -, -⟩ := settled_spec ps
  exact ⟨rest, hps.symm⟩

/-! ## The directory -/

theorem start_cases (path : Text) :
    (∃ t, path = '/' :: t ∧ start path = (['/'], t)) ∨ (path = dot ∧ start path = (dot, [])) ∨
      (∃ t, path = '.' :: '/' :: t ∧ start path = (dot, '/' :: t)) ∨
      (isAbsolute path = false ∧ start path = ([], path)) := by
  unfold start
  split
  · exact .inl ⟨_, rfl, rfl⟩
  · exact .inr (.inl ⟨rfl, rfl⟩)
  · exact .inr (.inr (.inl ⟨_, rfl, rfl⟩))
  · next habsolute _ _ =>
    refine .inr (.inr (.inr ⟨?_, rfl⟩))
    cases path with
    | nil => rfl
    | cons c t =>
      have hc : c ≠ '/' := fun e => habsolute t (by rw [e])
      simpa [isAbsolute] using hc

/-- Some of the first pieces behind the start have the moves of the path that they make up with the start. -/
theorem moves_start_join {path : Text} {ps : List Text} (h : ps <+: splitOn '/' (start path).2) :
    moves ((start path).1 ++ Text.join ['/'] ps) = ps.filter leads := by
  have hps : ∀ p ∈ ps, '/' ∉ p := fun p hp => Text.notMem_of_mem_splitOn (h.subset hp)
  obtain ⟨t, -, hs⟩ | ⟨-, hs⟩ | ⟨t, -, hs⟩ | ⟨-, hs⟩ := start_cases path
  · rw [hs, List.singleton_append, moves_slash, moves_join hps]
  · rw [hs] at h ⊢
    obtain rfl | rfl : ps = [] ∨ ps = [[]] := by simpa [List.prefix_cons_iff, splitOn] using h
    · rfl
    · rfl
  · rw [hs] at h ⊢
    rw [show splitOn '/' ('/' :: t) = [] :: splitOn '/' t from Text.splitOn_append List.not_mem_nil t,
      List.prefix_cons_iff] at h
    obtain rfl | ⟨more, rfl, -⟩ := h
    · rfl
    · cases more with
      | nil => rfl
      | cons q more =>
        have hmore : ∀ p ∈ q :: more, '/' ∉ p := fun p hp => hps p (List.mem_cons_of_mem _ hp)
        rw [List.filter_cons_of_neg (by simp [leads]), ← moves_join hmore]
        exact moves_dot_slash _
  · rw [hs, List.nil_append, moves_join hps]

theorem moves_start (path : Text) : moves path = (splitOn '/' (start path).2).filter leads := by
  obtain ⟨t, rfl, hs⟩ | ⟨rfl, hs⟩ | ⟨t, rfl, hs⟩ | ⟨-, hs⟩ := start_cases path
  · rw [hs, moves_slash, moves_eq]
  · rw [hs]
    rfl
  · rw [hs, moves_dot_slash, ← moves_slash, moves_eq]
  · rw [hs, moves_eq]

/-- The pieces behind the start that the directory of a path has. -/
def above (path : Text) : List Text := settled (settled (splitOn '/' (start path).2)).dropLast

theorem above_isPrefix (path : Text) : above path <+: splitOn '/' (start path).2 :=
  (settled_isPrefix _).trans ((List.dropLast_prefix _).trans (settled_isPrefix _))

theorem directory_eq_dot {path : Text} (h : moves path = []) : directory path = dot := by
  rw [moves_start, ← settled_eq_nil_iff] at h
  have hparent : parent? path = some [] ∨ parent? path = none := by
    unfold parent?
    simp only [h]
    split
    · exact .inl rfl
    · exact .inr rfl
  unfold directory
  rcases hparent with hp | hp
  · rw [hp]
  · rw [hp]

theorem directory_eq {path : Text} (h : moves path ≠ []) :
    directory path = if (start path).1 ++ Text.join ['/'] (above path) = [] then dot
      else (start path).1 ++ Text.join ['/'] (above path) := by
  rw [moves_start, ne_eq, ← settled_eq_nil_iff] at h
  have hparent : parent? path = some ((start path).1 ++ Text.join ['/'] (above path)) := by
    unfold parent? above
    generalize start path = s at h
    obtain ⟨head, body⟩ := s
    cases hs : settled (splitOn '/' body) with
    | nil => exact absurd hs h
    | cons p more => simp only [hs]
  unfold directory
  rw [hparent]
  cases (start path).1 ++ Text.join ['/'] (above path) with
  | nil => rfl
  | cons c t => rfl

theorem moves_directory (path : Text) : moves (directory path) = (moves path).dropLast := by
  by_cases h : moves path = []
  · rw [directory_eq_dot h, h]
    rfl
  · have habove : moves ((start path).1 ++ Text.join ['/'] (above path)) = (moves path).dropLast := by
      rw [moves_start_join (above_isPrefix path), above, filter_settled, filter_dropLast_settled, ← moves_start]
    rw [directory_eq h]
    split
    · next hnil =>
      rw [← habove, hnil]
      rfl
    · exact habove

/-- The first pieces of a path that does not start at the root do not start there either. -/
theorem isAbsolute_join {path : Text} {ps : List Text} (hpath : isAbsolute path = false)
    (h : ps <+: splitOn '/' path) : isAbsolute (Text.join ['/'] ps) = false := by
  cases path with
  | nil =>
    obtain rfl | rfl : ps = [] ∨ ps = [[]] := by simpa [List.prefix_cons_iff, splitOn] using h
    · rfl
    · rfl
  | cons c t =>
    have hc : c ≠ '/' := by simpa [isAbsolute] using hpath
    obtain ⟨p, more, ht, -, -⟩ := Text.exists_splitOn '/' t
    rw [splitOn, ht] at h
    simp only [hc, if_false, List.prefix_cons_iff] at h
    obtain rfl | ⟨qs, rfl, -⟩ := h
    · rfl
    · cases qs with
      | nil => simpa [Text.join, isAbsolute] using hc
      | cons q qs => simpa [Text.join, isAbsolute] using hc

/-- The directory of a path that moves starts where the path does. -/
theorem isAbsolute_directory {path : Text} (h : moves path ≠ []) : isAbsolute (directory path) = isAbsolute path := by
  rw [directory_eq h]
  obtain ⟨t, rfl, hs⟩ | ⟨rfl, hs⟩ | ⟨t, rfl, hs⟩ | ⟨hpath, hs⟩ := start_cases path
  · rw [hs]
    rfl
  · exact absurd rfl h
  · rw [hs]
    rfl
  · have hprefix := above_isPrefix path
    rw [hs] at hprefix ⊢
    rw [hpath, List.nil_append]
    split
    · rfl
    · exact isAbsolute_join hpath hprefix

/-- The directory of a path has no characters that the path does not have, but for the dot. -/
theorem mem_of_mem_directory {path : Text} {c : Char} (hdot : c ≠ '.') (hslash : c ≠ '/') (h : c ∈ directory path) :
    c ∈ path := by
  have hbody : c ∈ (start path).2 → c ∈ path := by
    obtain ⟨t, rfl, hs⟩ | ⟨rfl, hs⟩ | ⟨t, rfl, hs⟩ | ⟨-, hs⟩ := start_cases path
    · simpa [hs] using Or.inr
    · simp [hs]
    · simp [hs, hdot, hslash]
    · simp [hs]
  by_cases hm : moves path = []
  · rw [directory_eq_dot hm] at h
    exact absurd h (by simpa [dot] using hdot)
  rw [directory_eq hm] at h
  split at h
  · exact absurd h (by simpa [dot] using hdot)
  rcases List.mem_append.1 h with h | h
  · obtain ⟨t, -, hs⟩ | ⟨-, hs⟩ | ⟨t, -, hs⟩ | ⟨-, hs⟩ := start_cases path <;>
      simp [hs, dot, hdot, hslash] at h
  · obtain ⟨p, hp, hc⟩ := Text.mem_join hslash h
    exact hbody ((Text.mem_splitOn_iff hslash).1 ⟨p, (above_isPrefix path).subset hp, hc⟩)

theorem directory_ne_nil (path : Text) : directory path ≠ [] := by
  by_cases hm : moves path = []
  · rw [directory_eq_dot hm]
    exact List.cons_ne_nil _ _
  · rw [directory_eq hm]
    split
    · exact List.cons_ne_nil _ _
    · assumption

theorem getLast?_of_names_eq_nil {path : Text} (h : names path = []) (hne : path ≠ []) : path.getLast? = some '/' := by
  have hall : ∀ c ∈ path, c = '/' := by
    intro c hc
    by_contra hslash
    obtain ⟨p, hp, hcp⟩ := (Text.mem_splitOn_iff hslash).2 hc
    have hmem : p ∈ names path := List.mem_filter.2 ⟨hp, by simpa using List.ne_nil_of_mem hcp⟩
    rw [h] at hmem
    exact List.not_mem_nil hmem
  rw [List.getLast?_eq_some_getLast hne, hall _ (List.getLast_mem hne)]

end Path

end LanguageRoster
