import LanguageRoster.Choice.Header
import LanguageRoster.Proofs.Lines

/-!
# Where headers start

A header is three lines, so the headers of a document can be told from its lines.

* `Definite ps` : at most one beginning of a text is spelled by the pieces; `header_unique` says so of headers, and
  `behind?_eq_some_iff` what follows them
* `Pattern.SingleLine` : neither the marker nor the rule breaks the line
* `Pattern.HeaderAt p t before` : a header starts behind `before` in `t`
* `Pattern.Opens p ls` : the lines `ls` start with the three lines of a header; `spells_header_iff`
* `headerAt_iff` : a header starts behind `before` exactly if it opens the lines behind it
* `lastInk?_ruleLine`, `lastInk?_choiceLine` : how the second and the third line end
-/

namespace LanguageRoster.Choice

set_option autoImplicit false

open Text (IsLine AtLine lines lastInk? isInk)

/-! ## Pieces that leave no choice -/

/-- At most one beginning of a text is spelled by the pieces. -/
def Definite (ps : List Piece) : Prop :=
  ∀ ⦃h k r s : Text⦄, Spells ps h → Spells ps k → h ++ r = k ++ s → h = k

/-- What the pieces stand for starts with a character that is no blank. -/
def Inked (ps : List Piece) : Prop :=
  ∀ ⦃t : Text⦄ (r : Text), Spells ps t → ∀ c ∈ (t ++ r).head?, Text.isBlank c = false

section

variable {ps : List Piece} {c d : Char} {w : Text}

theorem inked_exactly (hc : Text.isBlank c = false) : Inked (.exactly (c :: w) :: ps) := by
  rintro _ r ⟨u, v, rfl, rfl, -⟩ d hd
  rw [← Option.some.inj hd]
  exact hc

theorem inked_lineEnd : Inked (.lineEnd :: ps) := by
  rintro _ r ⟨u, v, rfl, hu, -⟩ d hd
  rcases hu with rfl | rfl
  · rw [← Option.some.inj hd]; rfl
  · rw [← Option.some.inj hd]; rfl

theorem Inked.possibly (h : Inked ps) (hc : Text.isBlank c = false) : Inked (.possibly c :: ps) := by
  rintro _ r ⟨u, v, rfl, hu, hv⟩ d hd
  rcases hu with rfl | rfl
  · rw [← Option.some.inj hd]
    exact hc
  · exact h r hv d hd

theorem definite_nil : Definite [] := by
  rintro h k r s rfl rfl -
  rfl

theorem Definite.exactly (hps : Definite ps) : Definite (.exactly w :: ps) := by
  rintro _ _ r s ⟨u, x, rfl, rfl, hx⟩ ⟨v, y, rfl, rfl, hy⟩ h
  rw [List.append_assoc, List.append_assoc] at h
  rw [hps hx hy (List.append_cancel_left h)]

theorem Definite.lineEnd (hps : Definite ps) : Definite (.lineEnd :: ps) := by
  rintro _ _ r s ⟨u, x, rfl, hu, hx⟩ ⟨v, y, rfl, hv, hy⟩ h
  have huv : u = v := by
    rcases hu with rfl | rfl <;> rcases hv with rfl | rfl
    · rfl
    · exact absurd (List.cons.inj h).1 (by decide)
    · exact absurd (List.cons.inj h).1 (by decide)
    · rfl
  subst huv
  rw [List.append_assoc, List.append_assoc] at h
  rw [hps hx hy (List.append_cancel_left h)]

/-- What may be left out is told from what follows it. -/
theorem Definite.possibly (hps : Definite (.exactly (d :: w) :: ps)) (hcd : c ≠ d) :
    Definite (.possibly c :: .exactly (d :: w) :: ps) := by
  rintro _ _ r s ⟨u, x, rfl, hu, hx⟩ ⟨v, y, rfl, hv, hy⟩ h
  have starts : ∀ {t : Text}, Spells (.exactly (d :: w) :: ps) t → ∃ t', t = d :: t' := by
    rintro _ ⟨_, t', rfl, rfl, -⟩
    exact ⟨w ++ t', rfl⟩
  obtain ⟨x', hx'⟩ := starts hx
  obtain ⟨y', hy'⟩ := starts hy
  have huv : u = v := by
    rcases hu with rfl | rfl <;> rcases hv with rfl | rfl
    · rfl
    · rw [hy'] at h
      exact absurd (List.cons.inj h).1 hcd
    · rw [hx'] at h
      exact absurd (List.cons.inj h).1.symm hcd
    · rfl
  subst huv
  rw [List.append_assoc, List.append_assoc] at h
  rw [hps hx hy (List.append_cancel_left h)]

theorem Definite.blanks (hps : Definite ps) (hi : Inked ps) : Definite (.blanks :: ps) := by
  rintro _ _ r s ⟨u, x, rfl, hu, hx⟩ ⟨v, y, rfl, hv, hy⟩ h
  rw [List.append_assoc, List.append_assoc] at h
  obtain ⟨rfl, hrest⟩ := Text.run_unique hu hv (hi r hx) (hi s hy) h
  rw [hps hx hy hrest]

/-- Any word may stand between blanks, one of blanks only included. -/
theorem Definite.word (hps : Definite ps) (hi : Inked ps) (w : Text) :
    Definite (.blanks :: .exactly w :: .blanks :: ps) := by
  have hblanks : ∀ c ∈ w.takeWhile Text.isBlank, Text.isBlank c = true := fun c hc => Text.of_mem_takeWhile hc
  have hw : w = w.takeWhile Text.isBlank ++ w.dropWhile Text.isBlank := (List.takeWhile_append_dropWhile).symm
  cases hd : w.dropWhile Text.isBlank with
  | nil =>
    -- the word is blank, so that all three are one run of blanks
    rw [hd, List.append_nil] at hw
    have merge : ∀ {t : Text}, Spells (.blanks :: .exactly w :: .blanks :: ps) t → Spells (.blanks :: ps) t := by
      rintro _ ⟨u, _, rfl, hu, a, _, rfl, ha, v, x, rfl, hv, hx⟩
      obtain rfl : w = a := ha.symm
      refine ⟨u ++ (w ++ v), x, by simp only [List.append_assoc], fun c hc => ?_, hx⟩
      rcases List.mem_append.1 hc with hc | hc
      · exact hu c hc
      rcases List.mem_append.1 hc with hc | hc
      · exact hblanks c (hw ▸ hc)
      · exact hv c hc
    intro h k r s hh hk he
    exact hps.blanks hi (merge hh) (merge hk) he
  | cons e w' =>
    have he : Text.isBlank e = false := by
      have := List.head?_dropWhile_not Text.isBlank w
      rw [hd] at this
      simpa using this
    rintro _ _ r s ⟨u, _, rfl, hu, a, x, rfl, ha, hx⟩ ⟨v, _, rfl, hv, b, y, rfl, hb, hy⟩ h
    have ha : a = w.takeWhile Text.isBlank ++ (e :: w') := by rw [← hd, ← hw, ha]
    have hb : b = w.takeWhile Text.isBlank ++ (e :: w') := by rw [← hd, ← hw, hb]
    rw [ha, hb] at h ⊢
    have run : ∀ {a : Text}, (∀ c ∈ a, Text.isBlank c = true) →
        ∀ c ∈ a ++ w.takeWhile Text.isBlank, Text.isBlank c = true := by
      intro a ha c hc
      rcases List.mem_append.1 hc with hc | hc
      · exact ha c hc
      · exact hblanks c hc
    have hsplit : (u ++ w.takeWhile Text.isBlank) ++ ((e :: w') ++ (x ++ r)) =
        (v ++ w.takeWhile Text.isBlank) ++ ((e :: w') ++ (y ++ s)) := by
      simpa only [List.append_assoc] using h
    obtain ⟨huv, hrest⟩ := Text.run_unique (run hu) (run hv) (by simpa using he) (by simpa using he) hsplit
    rw [List.append_cancel_right huv, hps.blanks hi hx hy (List.append_cancel_left hrest)]

end

theorem definite_header (p : Pattern) : Definite p.header := by
  have hchoice : Definite [.blanks, .exactly ['c', 'h', 'o', 'i', 'c', 'e', '('], .blanks, .lineEnd] :=
    (definite_nil.lineEnd).word inked_lineEnd _
  have harrow := (hchoice.lineEnd).word inked_lineEnd ['=', '>']
  have hclose := (harrow.exactly (w := [')'])).blanks (inked_exactly rfl)
  have hdollar := ((hclose.exactly (w := ['$'])).possibly (c := '_') (by decide)).blanks
    ((inked_exactly rfl).possibly rfl)
  have hopen := (hdollar.exactly (w := ['('])).blanks (inked_exactly rfl)
  have hrule := (hopen.exactly (w := [':'])).word (inked_exactly rfl) p.rule
  exact (hrule.lineEnd).word inked_lineEnd p.marker.trim

theorem header_unique {p : Pattern} {h k s r : Text} (hh : Spells p.header h) (hk : Spells p.header k)
    (he : h ++ s = k ++ r) : h = k ∧ s = r := by
  obtain rfl := definite_header p hh hk he
  exact ⟨rfl, List.append_cancel_left he⟩

theorem behind?_eq_some_iff {p : Pattern} {t rest : Text} :
    p.behind? t = some rest ↔ ∃ h, Spells p.header h ∧ t = h ++ rest := by
  constructor
  · intro h
    exact mem_rests_iff.1 (List.mem_of_mem_head? h)
  · rintro ⟨h, hh, rfl⟩
    have hm : rest ∈ rests p.header (h ++ rest) := mem_rests_iff.2 ⟨h, hh, rfl⟩
    obtain ⟨r, hr⟩ : ∃ r, p.behind? (h ++ rest) = some r := by
      rw [Pattern.behind?]
      cases he : rests p.header (h ++ rest) with
      | nil => simp [he] at hm
      | cons r rs => exact ⟨r, rfl⟩
    obtain ⟨k, hk, he⟩ := mem_rests_iff.1 (List.mem_of_mem_head? hr)
    rw [hr, (header_unique hh hk he).2]

/-! ## Pieces that stay in a line -/

/-- Neither the marker nor the rule has a line feed in it. -/
structure Pattern.SingleLine (p : Pattern) : Prop where
  marker : '\n' ∉ p.marker.trim
  rule : '\n' ∉ p.rule

/-- The piece stands for texts without a line feed only. -/
def Piece.Within : Piece → Prop
  | .blanks => True
  | .exactly t => '\n' ∉ t
  | .possibly c => c ≠ '\n'
  | .lineEnd => False

theorem notMem_of_blanks {t : Text} (h : ∀ c ∈ t, Text.isBlank c = true) : '\n' ∉ t :=
  fun hm => absurd (h _ hm) (by decide)

theorem Piece.Within.notMem {x : Piece} {t : Text} (hx : x.Within) (h : x.Spells t) : '\n' ∉ t := by
  cases x with
  | blanks => exact notMem_of_blanks h
  | exactly u => exact h ▸ hx
  | possibly c =>
    rcases h with rfl | rfl
    · simpa using Ne.symm hx
    · simp
  | lineEnd => exact hx.elim

theorem spells_append {ps qs : List Piece} {t : Text} :
    Spells (ps ++ qs) t ↔ ∃ u v, t = u ++ v ∧ Spells ps u ∧ Spells qs v := by
  induction ps generalizing t with
  | nil => exact ⟨fun h => ⟨[], t, rfl, rfl, h⟩, fun ⟨_, _, ht, hu, hv⟩ => by rw [ht, show _ = [] from hu]; exact hv⟩
  | cons x ps ih =>
    simp only [List.cons_append, Spells, ih]
    constructor
    · rintro ⟨a, b, rfl, ha, u, v, rfl, hu, hv⟩
      exact ⟨a ++ u, v, by simp, ⟨a, u, rfl, ha, hu⟩, hv⟩
    · rintro ⟨_, v, rfl, ⟨a, u, rfl, ha, hu⟩, hv⟩
      exact ⟨a, u ++ v, by simp, ha, u, v, rfl, hu, hv⟩

theorem notMem_of_spells {ps : List Piece} {t : Text} (hp : ∀ x ∈ ps, x.Within) (h : Spells ps t) : '\n' ∉ t := by
  induction ps generalizing t with
  | nil => simp [show t = [] from h]
  | cons x ps ih =>
    obtain ⟨u, v, rfl, hu, hv⟩ := h
    have h₁ := (hp x List.mem_cons_self).notMem hu
    have h₂ := ih (fun y hy => hp y (List.mem_cons_of_mem _ hy)) hv
    simp [h₁, h₂]

theorem isLine_of_spells (ps : List Piece) {t : Text} (hp : ∀ x ∈ ps, x.Within) (h : Spells (ps ++ [.lineEnd]) t) :
    IsLine t := by
  obtain ⟨u, v, rfl, hu, w, e, rfl, hw, rfl⟩ := spells_append.1 h
  have hn := notMem_of_spells hp hu
  rcases hw with rfl | rfl
  · exact ⟨u ++ ['\r'], by simp [hn], by simp⟩
  · exact ⟨u, hn, by simp⟩

/-- The last word of a line is followed by blanks and the end of the line only. -/
theorem lastInk?_of_spells (ps : List Piece) (w : Text) {t : Text} {c : Char} (hc : isInk c = true)
    (h : Spells (ps ++ [.exactly (w ++ [c]), .blanks, .lineEnd]) t) : lastInk? t = some c := by
  obtain ⟨u, v, rfl, -, _, v, rfl, rfl, b, v, rfl, hb, e, v, rfl, he, rfl⟩ := spells_append.1 h
  have hb : lastInk? b = none := Text.lastInk?_of_blank hb
  have he : lastInk? e = none := by rcases he with rfl | rfl <;> rfl
  have hw : lastInk? (w ++ [c]) = some c := by simp [Text.lastInk?, hc]
  rw [List.append_nil, Text.lastInk?_append, Text.lastInk?_append, Text.lastInk?_append, he, hb, hw]
  rfl

/-! ## The three lines -/

def Pattern.markerLine (p : Pattern) : List Piece := [.blanks, .exactly p.marker.trim, .blanks, .lineEnd]

def Pattern.ruleLine (p : Pattern) : List Piece :=
  [.blanks, .exactly p.rule, .blanks, .exactly [':'], .blanks, .exactly ['('], .blanks, .possibly '_', .exactly ['$'],
    .blanks, .exactly [')'], .blanks, .exactly ['=', '>'], .blanks, .lineEnd]

def choiceLine : List Piece := [.blanks, .exactly ['c', 'h', 'o', 'i', 'c', 'e', '('], .blanks, .lineEnd]

theorem Pattern.header_eq (p : Pattern) : p.header = p.markerLine ++ (p.ruleLine ++ choiceLine) := rfl

section

variable {p : Pattern} {t : Text}

theorem isLine_markerLine (hp : p.SingleLine) (h : Spells p.markerLine t) : IsLine t :=
  isLine_of_spells [.blanks, .exactly p.marker.trim, .blanks] (by simp [Piece.Within, hp.marker]) h

theorem isLine_ruleLine (hp : p.SingleLine) (h : Spells p.ruleLine t) : IsLine t :=
  isLine_of_spells p.ruleLine.dropLast (by simp [Pattern.ruleLine, Piece.Within, hp.rule]) h

theorem isLine_choiceLine (h : Spells choiceLine t) : IsLine t :=
  isLine_of_spells choiceLine.dropLast (by simp [choiceLine, Piece.Within]) h

theorem lastInk?_ruleLine (h : Spells p.ruleLine t) : lastInk? t = some '>' :=
  lastInk?_of_spells (p.ruleLine.take 12) ['='] rfl h

theorem lastInk?_choiceLine (h : Spells choiceLine t) : lastInk? t = some '(' :=
  lastInk?_of_spells [.blanks] ['c', 'h', 'o', 'i', 'c', 'e'] rfl h

end

/-! ## Headers of lines -/

def Pattern.Opens (p : Pattern) (ls : List Text) : Prop :=
  ∃ a b c more, ls = a :: b :: c :: more ∧ Spells p.markerLine a ∧ Spells p.ruleLine b ∧ Spells choiceLine c

/-- A header starts behind `before` in the text. -/
def Pattern.HeaderAt (p : Pattern) (t before : Text) : Prop :=
  AtLine before ∧ ∃ h rest, t = before ++ h ++ rest ∧ Spells p.header h

theorem spells_header_iff {p : Pattern} {h : Text} :
    Spells p.header h ↔
      ∃ a b c, h = a ++ b ++ c ∧ Spells p.markerLine a ∧ Spells p.ruleLine b ∧ Spells choiceLine c := by
  rw [p.header_eq, spells_append]
  simp only [spells_append]
  constructor
  · rintro ⟨a, _, rfl, ha, b, c, rfl, hb, hc⟩
    exact ⟨a, b, c, by simp, ha, hb, hc⟩
  · rintro ⟨a, b, c, rfl, ha, hb, hc⟩
    exact ⟨a, b ++ c, by simp, ha, b, c, rfl, hb, hc⟩

theorem header_ne_nil {p : Pattern} {h : Text} (hh : Spells p.header h) : h ≠ [] := by
  obtain ⟨a, b, c, rfl, -, -, hc⟩ := spells_header_iff.1 hh
  intro he
  rw [(List.append_eq_nil_iff.1 he).2] at hc
  exact absurd (lastInk?_choiceLine hc) (by simp [Text.lastInk?])

section

variable {p : Pattern} (hp : p.SingleLine)

include hp

theorem lines_header {h : Text} (hh : Spells p.header h) : ∃ a b c, h = a ++ b ++ c ∧ Spells p.markerLine a ∧
    Spells p.ruleLine b ∧ Spells choiceLine c ∧ ∀ rest, lines (h ++ rest) = a :: b :: c :: lines rest := by
  obtain ⟨a, b, c, rfl, ha, hb, hc⟩ := spells_header_iff.1 hh
  refine ⟨a, b, c, rfl, ha, hb, hc, fun rest => ?_⟩
  rw [List.append_assoc, List.append_assoc, Text.lines_line_append _ (isLine_markerLine hp ha),
    Text.lines_line_append _ (isLine_ruleLine hp hb), Text.lines_line_append _ (isLine_choiceLine hc)]

theorem atLine_header {h : Text} (hh : Spells p.header h) : AtLine h := by
  obtain ⟨a, b, c, rfl, ha, hb, hc⟩ := spells_header_iff.1 hh
  exact ((isLine_markerLine hp ha).atLine.append (isLine_ruleLine hp hb).atLine).append (isLine_choiceLine hc).atLine

theorem opens_lines_iff {t : Text} : p.Opens (lines t) ↔ ∃ h rest, t = h ++ rest ∧ Spells p.header h := by
  constructor
  · rintro ⟨a, b, c, more, h, ha, hb, hc⟩
    refine ⟨a ++ b ++ c, more.flatten, ?_, spells_header_iff.2 ⟨a, b, c, rfl, ha, hb, hc⟩⟩
    rw [← Text.flatten_lines t, h]
    simp
  · rintro ⟨h, rest, rfl, hh⟩
    obtain ⟨a, b, c, -, ha, hb, hc, hl⟩ := lines_header hp hh
    exact ⟨a, b, c, lines rest, hl rest, ha, hb, hc⟩

theorem behind?_eq_none_iff {t : Text} : p.behind? t = none ↔ ¬ p.Opens (lines t) := by
  rw [Option.eq_none_iff_forall_ne_some, opens_lines_iff hp]
  simp only [ne_eq, behind?_eq_some_iff]
  constructor
  · rintro h ⟨k, rest, rfl, hk⟩
    exact h rest ⟨k, hk, rfl⟩
  · rintro h rest ⟨k, hk, rfl⟩
    exact h ⟨k, rest, rfl, hk⟩

/-- A header starts behind `before` exactly if it opens the lines behind it. -/
theorem headerAt_iff {t before : Text} :
    p.HeaderAt t before ↔ ∃ u, t = before ++ u ∧ AtLine before ∧ p.Opens (lines u) := by
  simp only [Pattern.HeaderAt, opens_lines_iff hp]
  constructor
  · rintro ⟨hb, h, rest, rfl, hh⟩
    exact ⟨h ++ rest, by simp, hb, h, rest, rfl, hh⟩
  · rintro ⟨_, rfl, hb, h, rest, rfl, hh⟩
    exact ⟨hb, h, rest, by simp, hh⟩

end

end LanguageRoster.Choice
