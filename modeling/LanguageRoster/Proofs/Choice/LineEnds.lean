import LanguageRoster.Proofs.Choice.Insertion
import LanguageRoster.Proofs.Choice.Scan
import LanguageRoster.Proofs.LineEnds

/-!
# Documents with line ends of both kinds

A document whose lines end in line feeds, and the same document with a carriage return before each of them, are
treated alike.

* `headerAt_crlf_iff`, `First.crlf`, `Scanned.crlf` : the headers of the converted document
* `read?_crlf`, `closing?_crlf`, `body_crlf` : its lines
* `locate_crlf` : what is located in it; `insert_located_crlf`
* `insertAll` : languages inserted one after another; `insertAll_crlf`
* `line_ends_alike` : the two documents side by side
-/

namespace LanguageRoster.Choice

set_option autoImplicit false

open Text (IsLine AtLine lines crlf Plain inLine)

/-! ## Headers -/

/-- What ends in a word that does not end in a carriage return, and in blanks, does not either. -/
theorem getLast?_ne_return (qs : List Piece) {w u : Text} (hw : ∀ c ∈ w.getLast?, c ≠ '\r') (hq : w ≠ [] ∨ qs = [])
    (h : Spells (qs ++ [.blanks, .exactly w, .blanks]) u) : u.getLast? ≠ some '\r' := by
  obtain ⟨q, _, rfl, hqs, a, _, rfl, ha, v, _, rfl, hv, b, _, rfl, hb, rfl⟩ := spells_append.1 h
  have blank : ∀ {x : Text}, (∀ c ∈ x, Text.isBlank c = true) → x.getLast? ≠ some '\r' := fun hx hl =>
    absurd (hx _ (List.mem_of_getLast? hl)) (by decide)
  intro hlast
  rw [List.append_nil, List.getLast?_append, List.getLast?_append, List.getLast?_append] at hlast
  have hv : v = w := hv
  rcases hb' : b.getLast? with _ | c
  · rw [hb', Option.none_or] at hlast
    rcases hw' : w.getLast? with _ | c
    · have hnil : w = [] := List.getLast?_eq_none_iff.1 hw'
      obtain rfl := hq.resolve_left (not_not_intro hnil)
      rw [hv, hw', Option.none_or] at hlast
      rcases ha' : a.getLast? with _ | c
      · rw [ha', Option.none_or, show q = [] from hqs] at hlast
        exact absurd hlast (by simp)
      · rw [ha'] at hlast
        exact blank ha (by rw [ha']; exact hlast)
    · rw [hv, hw'] at hlast
      exact hw c hw' (Option.some.inj hlast)
  · rw [hb'] at hlast
    exact blank hb (by rw [hb']; exact hlast)

theorem spells_lineEnd_iff {ps : List Piece} {t : Text} : Spells (ps ++ [.lineEnd]) t ↔
    ∃ u, Spells ps u ∧ (t = u ++ ['\r', '\n'] ∨ t = u ++ ['\n']) := by
  rw [spells_append]
  constructor
  · rintro ⟨u, _, rfl, hu, e, _, rfl, he, rfl⟩
    refine ⟨u, hu, ?_⟩
    rcases he with rfl | rfl
    · exact .inl rfl
    · exact .inr rfl
  · rintro ⟨u, hu, rfl | rfl⟩
    · exact ⟨u, _, rfl, hu, _, [], rfl, .inl rfl, rfl⟩
    · exact ⟨u, _, rfl, hu, _, [], rfl, .inr rfl, rfl⟩

/-- Pieces that stay in the line and the end of the line stand for a line if they do for the converted line. -/
theorem spells_crlf_iff (ps : List Piece) (hps : ∀ x ∈ ps, x.Within)
    (hr : ∀ u, Spells ps u → u.getLast? ≠ some '\r') {l : Text} (hl : '\r' ∉ l) :
    Spells (ps ++ [.lineEnd]) (crlf l) ↔ Spells (ps ++ [.lineEnd]) l := by
  rw [spells_lineEnd_iff, spells_lineEnd_iff]
  constructor
  · rintro ⟨u, hu, hlu⟩
    have hend : l.getLast? = some '\n' := by
      rw [← Text.getLast?_crlf]
      rcases hlu with h | h <;> rw [h] <;> simp
    obtain ⟨w, rfl⟩ := List.getLast?_eq_some_iff.1 hend
    have hn := notMem_of_spells hps hu
    rw [Text.crlf_append, show crlf ['\n'] = ['\r', '\n'] from rfl] at hlu
    rcases hlu with h | h
    · have hwu : crlf w = u := List.append_cancel_right h
      rw [← hwu, Text.lineFeed_mem_crlf] at hn
      rw [Text.crlf_of_notMem hn] at hwu
      exact ⟨u, hu, .inr (by rw [hwu])⟩
    · have hend : crlf w ++ ['\r'] ++ ['\n'] = u ++ ['\n'] := by
        rw [List.append_assoc]
        exact h
      have hwu : crlf w ++ ['\r'] = u := List.append_cancel_right hend
      exact absurd (by rw [← hwu]; simp) (hr u hu)
  · rintro ⟨u, hu, rfl | rfl⟩
    · exact absurd (by simp) hl
    · exact ⟨u, hu, .inl (Text.crlf_line (notMem_of_spells hps hu))⟩

section

variable {p : Pattern} (hp : p.SingleLine)

theorem getLast?_trim (t : Text) : ∀ c ∈ t.trim.getLast?, c ≠ '\r' := by
  intro c hc hr
  have h := List.head?_dropWhile_not Text.isSpace (t.dropWhile Text.isSpace).reverse
  rw [Text.trim, Text.dropEnd, List.getLast?_reverse] at hc
  rw [hc, hr] at h
  exact absurd h (by decide)

include hp

theorem spells_markerLine_crlf {l : Text} (hl : '\r' ∉ l) : Spells p.markerLine (crlf l) ↔ Spells p.markerLine l :=
  spells_crlf_iff [.blanks, .exactly p.marker.trim, .blanks] (by simp [Piece.Within, hp.marker])
    (fun _ => getLast?_ne_return [] (getLast?_trim p.marker) (.inr rfl)) hl

theorem spells_ruleLine_crlf {l : Text} (hl : '\r' ∉ l) : Spells p.ruleLine (crlf l) ↔ Spells p.ruleLine l :=
  spells_crlf_iff p.ruleLine.dropLast (by simp [Pattern.ruleLine, Piece.Within, hp.rule])
    (fun _ => getLast?_ne_return (p.ruleLine.take 11) (w := ['=', '>']) (by simp) (.inl (by simp))) hl

omit hp in
theorem spells_choiceLine_crlf {l : Text} (hl : '\r' ∉ l) : Spells choiceLine (crlf l) ↔ Spells choiceLine l :=
  spells_crlf_iff choiceLine.dropLast (by simp [choiceLine, Piece.Within])
    (fun _ => getLast?_ne_return [] (w := ['c', 'h', 'o', 'i', 'c', 'e', '(']) (by simp) (.inr rfl)) hl

theorem opens_crlf_iff {ls : List Text} (hls : ∀ l ∈ ls, '\r' ∉ l) : p.Opens (ls.map crlf) ↔ p.Opens ls := by
  match ls with
  | [] | [_] | [_, _] => simp [Pattern.Opens]
  | a :: b :: c :: more =>
    have ha := spells_markerLine_crlf hp (hls a (by simp))
    have hb := spells_ruleLine_crlf hp (hls b (by simp))
    have hc := spells_choiceLine_crlf (hls c (by simp))
    constructor
    · rintro ⟨_, _, _, _, he, h₁, h₂, h₃⟩
      simp only [List.map_cons, List.cons.injEq] at he
      obtain ⟨rfl, rfl, rfl, -⟩ := he
      exact ⟨a, b, c, more, rfl, ha.1 h₁, hb.1 h₂, hc.1 h₃⟩
    · rintro ⟨_, _, _, _, he, h₁, h₂, h₃⟩
      simp only [List.cons.injEq] at he
      obtain ⟨rfl, rfl, rfl, -⟩ := he
      exact ⟨_, _, _, _, rfl, ha.2 h₁, hb.2 h₂, hc.2 h₃⟩

omit hp in
theorem return_notMem_lines {t : Text} (ht : '\r' ∉ t) : ∀ l ∈ lines t, '\r' ∉ l := by
  intro l hl hr
  apply ht
  rw [← Text.flatten_lines t]
  exact List.mem_flatten.2 ⟨l, hl, hr⟩

/-- The headers of the converted text are those of the text. -/
theorem headerAt_crlf_iff {t x : Text} (ht : '\r' ∉ t) :
    p.HeaderAt (crlf t) x ↔ ∃ before, x = crlf before ∧ p.HeaderAt t before := by
  constructor
  · intro h
    obtain ⟨u, hu, hx, hop⟩ := (headerAt_iff hp).1 h
    obtain ⟨a, b, rfl, ha, rfl, rfl⟩ := Text.exists_of_crlf_eq_append hu hx
    rw [List.mem_append, not_or] at ht
    rw [Text.lines_crlf, opens_crlf_iff hp (return_notMem_lines ht.2)] at hop
    exact ⟨a, rfl, (headerAt_iff hp).2 ⟨b, rfl, ha, hop⟩⟩
  · rintro ⟨a, rfl, h⟩
    obtain ⟨b, rfl, ha, hop⟩ := (headerAt_iff hp).1 h
    rw [List.mem_append, not_or] at ht
    refine (headerAt_iff hp).2 ⟨crlf b, Text.crlf_append a b, Text.atLine_crlf.2 ha, ?_⟩
    rw [Text.lines_crlf, opens_crlf_iff hp (return_notMem_lines ht.2)]
    exact hop

theorem spells_header_crlf {h : Text} (hr : '\r' ∉ h) (hh : Spells p.header h) : Spells p.header (crlf h) := by
  obtain ⟨a, b, c, rfl, ha, hb, hc⟩ := spells_header_iff.1 hh
  simp only [List.mem_append, not_or] at hr
  refine spells_header_iff.2 ⟨crlf a, crlf b, crlf c, by simp, ?_, ?_, ?_⟩
  · exact (spells_markerLine_crlf hp hr.1.1).2 ha
  · exact (spells_ruleLine_crlf hp hr.1.2).2 hb
  · exact (spells_choiceLine_crlf hr.2).2 hc

theorem Pattern.First.crlf {t before header rest : Text} (ht : '\r' ∉ t) (h : p.First t before header rest) :
    p.First t.crlf before.crlf header.crlf rest.crlf where
  text := by rw [h.text, Text.crlf_append, Text.crlf_append]
  atLine := Text.atLine_crlf.2 h.atLine
  spells := by
    refine spells_header_crlf hp (fun hm => ht ?_) h.spells
    rw [h.text]
    simp [hm]
  first := by
    intro other hother
    obtain ⟨a, rfl, ha⟩ := (headerAt_crlf_iff hp ht).1 hother
    have hle := h.first a ha
    obtain ⟨-, k, r, hta, -⟩ := ha
    have hbefore : before <+: t := ⟨header ++ rest, by rw [h.text, List.append_assoc]⟩
    have ha : a <+: t := ⟨k ++ r, by rw [hta, List.append_assoc]⟩
    obtain ⟨m, rfl⟩ := List.prefix_of_prefix_length_le hbefore ha hle
    rw [Text.crlf_append, List.length_append]
    exact Nat.le_add_right _ _

theorem Pattern.Scanned.crlf {t : Text} {n : Nat} (h : p.Scanned t n) (ht : '\r' ∉ t) : p.Scanned t.crlf n := by
  induction h with
  | none h =>
    refine .none fun before hb => ?_
    obtain ⟨a, -, ha⟩ := (headerAt_crlf_iff hp ht).1 hb
    exact h a ha
  | more first _ ih =>
    refine .more (first.crlf hp ht) (ih fun hm => ht ?_)
    rw [first.text]
    simp [hm]

end

/-! ## Lines of the choice -/

def Member.crlf (m : Member) : Member := { m with ending := m.ending.crlf }

theorem inLine_of_isEnding {e : Text} (h : isEnding e = true) : ∀ c ∈ e.head?, inLine c = false := by
  intro c hc
  obtain ⟨n, rfl | rfl⟩ := isEnding_iff.1 h <;> cases n <;> simp_all [List.replicate_succ] <;> subst hc <;> rfl

theorem inLine_of_blank {t : Text} (h : ∀ c ∈ t, Text.isBlank c = true) : ∀ c ∈ t, inLine c = true := by
  intro c hc
  rcases (by simpa [Text.isBlank] using h c hc : c = ' ' ∨ c = '\t') with rfl | rfl <;> rfl

/-- All of a member line but its end stays in the line. -/
theorem Member.Readable.exists_render {m : Member} (h : m.Readable) : ∃ u, (∀ c ∈ u, inLine c = true) ∧
    ∀ ending, ({ m with ending := ending } : Member).render = u ++ ending := by
  refine ⟨m.indent ++ '\'' :: (m.value ++ '\'' :: ',' :: m.padding), fun c hc => ?_, fun ending => ?_⟩
  · simp only [List.mem_append, List.mem_cons] at hc
    rcases hc with hc | rfl | hc | rfl | rfl | hc
    · exact inLine_of_blank h.indent c hc
    · rfl
    · have hv := h.value c hc
      simp only [inValue, Bool.and_eq_true] at hv
      simp [inLine, hv.1.2, hv.2]
    · rfl
    · rfl
    · exact inLine_of_blank h.padding c hc
  · simp [Member.render_eq]

/-- A member is read whatever the end of its line is. -/
theorem read?_of_ending {u e e' : Text} {m : Member} (hu : ∀ c ∈ u, inLine c = true) (he : isEnding e = true)
    (he' : isEnding e' = true) (h : Member.read? (u ++ e) = some m) :
    m.ending = e ∧ Member.read? (u ++ e') = some { m with ending := e' } := by
  obtain ⟨hline, hm⟩ := Member.read?_eq_some_iff.1 h
  obtain ⟨v, hv, hrender⟩ := hm.exists_render
  obtain ⟨rfl, rfl⟩ := Text.run_unique hu hv (inLine_of_isEnding he) (inLine_of_isEnding hm.ending)
    (hline.trans (hrender m.ending))
  refine ⟨rfl, Member.read?_eq_some_iff.2 ⟨(hrender e').symm, ?_⟩⟩
  exact ⟨hm.indent, hm.nonempty, hm.value, hm.padding, he'⟩

theorem closing?_of_ending {u e e' closing ending : Text} (hu : ∀ c ∈ u, inLine c = true) (he : isEnding e = true)
    (he' : isEnding e' = true) (h : closing? (u ++ e) = some (closing, ending)) :
    ending = e ∧ closing? (u ++ e') = some (closing, e') := by
  obtain ⟨hline, hc, hending⟩ := closing?_eq_some_iff.1 h
  have hin : ∀ c ∈ closing, inLine c = true := by
    obtain ⟨a, b, ha, hb, rfl⟩ := hc
    intro c hc
    simp only [List.mem_append, List.mem_cons] at hc
    rcases hc with hc | rfl | rfl | hc
    · exact inLine_of_blank ha c hc
    · rfl
    · rfl
    · exact inLine_of_blank hb c hc
  obtain ⟨rfl, rfl⟩ := Text.run_unique hu hin (inLine_of_isEnding he) (inLine_of_isEnding hending) hline
  exact ⟨rfl, closing?_eq_some_iff.2 ⟨rfl, hc, he'⟩⟩

section

variable {l : Text} (h : Plain l)

include h

theorem read?_crlf : Member.read? l.crlf = (Member.read? l).map Member.crlf := by
  obtain ⟨u, e, rfl, hu, he⟩ := h
  have hend : isEnding e = true ∧ isEnding e.crlf = true := by rcases he with rfl | rfl <;> exact ⟨rfl, rfl⟩
  rw [Text.crlf_plain hu]
  cases hm : Member.read? (u ++ e) with
  | some m =>
    obtain ⟨rfl, hm'⟩ := read?_of_ending hu hend.1 hend.2 hm
    exact hm'
  | none =>
    rw [Option.map_none, Option.eq_none_iff_forall_ne_some]
    intro m hm'
    have := (read?_of_ending hu hend.2 hend.1 hm').2
    rw [hm] at this
    exact absurd this (by simp)

theorem closing?_crlf : closing? l.crlf = (closing? l).map fun (closing, ending) => (closing, ending.crlf) := by
  obtain ⟨u, e, rfl, hu, he⟩ := h
  have hend : isEnding e = true ∧ isEnding e.crlf = true := by rcases he with rfl | rfl <;> exact ⟨rfl, rfl⟩
  rw [Text.crlf_plain hu]
  cases hc : closing? (u ++ e) with
  | some ce =>
    obtain ⟨closing, ending⟩ := ce
    obtain ⟨rfl, hc'⟩ := closing?_of_ending hu hend.1 hend.2 hc
    exact hc'
  | none =>
    rw [Option.map_none, Option.eq_none_iff_forall_ne_some]
    rintro ⟨closing, ending⟩ hc'
    have := (closing?_of_ending hu hend.2 hend.1 hc').2
    rw [hc] at this
    exact absurd this (by simp)

end

theorem body_crlf (rule : Text) (n : Nat) {ls : List Text} (h : ∀ l ∈ ls, Plain l) : body rule n (ls.map crlf) =
    (body rule n ls).map fun (ms, closing, after) => (ms.map Member.crlf, closing, after.crlf) := by
  induction ls generalizing n with
  | nil => rfl
  | cons l ls ih =>
    have hl : Plain l := h l List.mem_cons_self
    rw [List.map_cons, body, body, read?_crlf hl, closing?_crlf hl, Text.trim_crlf hl,
      ih (n + 1) fun x hx => h x (List.mem_cons_of_mem _ hx)]
    cases Member.read? l with
    | some m => cases body rule (n + 1) ls <;> rfl
    | none =>
      cases closing? l with
      | none => rfl
      | some ce =>
        obtain ⟨closing, ending⟩ := ce
        simp only [Option.map_none, Option.map_some, Except.map, List.map_nil, Text.crlf_append, Text.crlf_flatten]

/-! ## Blocks -/

def Block.crlf (b : Block) : Block :=
  ⟨b.before.crlf, b.header.crlf, b.members.map Member.crlf, b.closing, b.after.crlf⟩

theorem firstLine_crlf (b : Block) : b.crlf.firstLine = b.firstLine := by
  unfold Block.firstLine Block.crlf
  rw [← Text.crlf_append, Text.lineFeeds_crlf]

theorem check_crlf (p : Pattern) (b : Block) : Block.check p b.crlf = (Block.check p b).map Block.crlf := by
  rw [Block.check, Block.check, firstLine_crlf]
  cases hb : b.members with
  | nil =>
    have hc : b.crlf.members = [] := by rw [Block.crlf, hb]; rfl
    rw [hc]
    rfl
  | cons first others =>
    have hc : b.crlf.members = first.crlf :: others.map Member.crlf := by rw [Block.crlf, hb]; rfl
    rw [hc]
    simp only [Member.crlf, List.map_eq_nil_iff]
    split
    · rfl
    · split <;> rfl

/-- What is located in the converted document is what is located in the document, converted. -/
theorem locate_crlf {p : Pattern} (hp : p.SingleLine) {t : Text} (ht : '\r' ∉ t) :
    locate p t.crlf = (locate p t).map Block.crlf := by
  cases hf : find? p true t with
  | none =>
    have habs := absent_iff.1 (find?_eq_none_iff.1 hf)
    have hf' : find? p true t.crlf = none := by
      refine find?_eq_none_iff.2 (absent_iff.2 fun x hx => ?_)
      obtain ⟨before, -, hb⟩ := (headerAt_crlf_iff hp ht).1 hx
      exact habs before hb
    rw [locate, hf', locate, hf]
    rfl
  | some hit =>
    obtain ⟨before, header, rest⟩ := hit
    have hfirst := find?_eq_some_iff_first.1 hf
    have hf' := find?_eq_some_iff_first.2 (hfirst.crlf hp ht)
    have hrest : '\r' ∉ rest := by
      intro hm
      apply ht
      rw [hfirst.text]
      simp [hm]
    have hcount : count p 0 true rest.crlf = count p 0 true rest :=
      scanned_iff.1 ((scanned_iff.2 rfl).crlf hp hrest)
    rw [locate, hf', locate, hf]
    simp only [hcount]
    split
    · have hline : Text.lineFeeds (before.crlf ++ header.crlf) = Text.lineFeeds (before ++ header) := by
        rw [← Text.crlf_append, Text.lineFeeds_crlf]
      rw [Text.lines_crlf, body_crlf _ _ (Text.plain_of_mem_lines hrest), hline]
      cases body p.rule (1 + Text.lineFeeds (before ++ header)) (lines rest) with
      | error e => rfl
      | ok r => exact check_crlf p ⟨before, header, r.1, r.2.1, r.2.2⟩
    · rfl

section

variable {b : Block}

theorem render_member_crlf {m : Member} (h : m.Readable) : m.crlf.render = m.render.crlf := by
  obtain ⟨u, hu, hrender⟩ := h.exists_render
  rw [hrender m.ending, Text.crlf_plain hu]
  exact hrender m.ending.crlf

theorem render_members_crlf {ms : List Member} (h : ∀ m ∈ ms, m.Readable) :
    (ms.map Member.crlf).flatMap Member.render = crlf (ms.flatMap Member.render) := by
  induction ms with
  | nil => rfl
  | cons m ms ih =>
    rw [List.map_cons, List.flatMap_cons, List.flatMap_cons, Text.crlf_append,
      render_member_crlf (h m List.mem_cons_self), ih fun x hx => h x (List.mem_cons_of_mem _ hx)]

theorem excerpt_crlf (hm : ∀ m ∈ b.members, m.Readable) (hc : '\n' ∉ b.closing) :
    b.crlf.excerpt = b.excerpt.crlf := by
  unfold Block.excerpt
  rw [Text.crlf_append, Text.crlf_append, Text.crlf_of_notMem hc, ← render_members_crlf hm]
  rfl

theorem render_crlf (hm : ∀ m ∈ b.members, m.Readable) (hc : '\n' ∉ b.closing) :
    b.crlf.render = b.render.crlf := by
  unfold Block.render
  rw [Text.crlf_append, Text.crlf_append, excerpt_crlf hm hc]
  rfl

theorem nextMember_ending (h : ∀ m ∈ b.members, m.ending = ['\n']) (l : Language) :
    (b.nextMember l).ending = ['\n'] := by
  unfold Block.nextMember
  split
  · next last hl => simp [h last (List.mem_of_getLast? hl)]
  · rfl

/-- The new line takes over the line end of the one above it, so it is converted with it. -/
theorem insert_crlf (hne : b.members ≠ []) (h : ∀ m ∈ b.members, m.ending = ['\n']) (l : Language) :
    b.crlf.insert l = (b.insert l).crlf := by
  obtain ⟨last, hl⟩ : ∃ last, b.members.getLast? = some last := ⟨_, List.getLast?_eq_some_getLast hne⟩
  have hlast : b.crlf.members.getLast? = some last.crlf := by
    rw [Block.crlf, List.getLast?_map, hl]
    rfl
  have hnext : b.crlf.nextMember l = (b.nextMember l).crlf := by
    unfold Block.nextMember
    rw [hlast, hl]
    simp [Member.crlf, h last (List.mem_of_getLast? hl), Text.crlf]
  unfold Block.insert
  rw [hnext]
  simp [Block.crlf]

/-- To insert a language brings no carriage return where there was none. -/
theorem return_notMem_insert (hr : '\r' ∉ b.render) (hm : ∀ m ∈ b.members, m.Proper)
    (h : ∀ m ∈ b.members, m.ending = ['\n']) (l : Language) : '\r' ∉ (b.insert l).render := by
  have hnext : '\r' ∉ (b.nextMember l).render := by
    obtain ⟨u, hu, hrender⟩ := (nextMember_proper l hm).readable.exists_render
    rw [hrender (b.nextMember l).ending, nextMember_ending h l]
    have hu : '\r' ∉ u := fun hc => absurd (hu _ hc) (by decide)
    simp [hu]
  rw [Block.render_eq] at hr
  rw [Block.render_insert]
  simp only [List.mem_append, not_or] at hr ⊢
  tauto

end

/-! ## Both kinds side by side -/

section

variable {p : Pattern} (hp : p.SingleLine) {t : Text} (ht : '\r' ∉ t) {b : Block}

include hp ht

/-- In a text without carriage returns, the member lines end in line feeds alone. -/
theorem ending_of_located (h : locate p t = .ok b) : ∀ m ∈ b.members, m.ending = ['\n'] := by
  obtain ⟨rfl, hfits⟩ := (locate_eq_ok_iff hp).1 h
  intro m hm
  obtain ⟨n, hn⟩ := (hfits.members m hm).ending
  cases n with
  | zero => exact hn
  | succ n =>
    have hmem : '\r' ∈ m.render := by
      rw [Member.render_eq, hn]
      simp
    refine absurd ?_ ht
    rw [b.render_eq]
    simp only [List.mem_append, List.mem_flatMap]
    exact .inr (.inr (.inl (.inl ⟨m, hm, hmem⟩)))

theorem insert_located_crlf (h : locate p t = .ok b) (l : Language) :
    (b.crlf.insert l).render = (b.insert l).render.crlf := by
  have hfits := ((locate_eq_ok_iff hp).1 h).2
  obtain ⟨first, second, more, hms, -⟩ := hfits.anchor
  rw [insert_crlf (by rw [hms]; simp) (ending_of_located hp ht h)]
  have hins := hfits.insert hp l
  exact render_crlf (fun m hm => (hins.members m hm).readable) hins.closing.notMem

theorem return_notMem_of_located (h : locate p t = .ok b) (l : Language) : '\r' ∉ (b.insert l).render := by
  have hends := ending_of_located hp ht h
  obtain ⟨rfl, hfits⟩ := (locate_eq_ok_iff hp).1 h
  exact return_notMem_insert ht hfits.members hends l

end

/-- The document with languages inserted one after another, each into the document as the last one left it. -/
def insertAll (p : Pattern) : List Language → Text → Except Mismatch Text
  | [], t => .ok t
  | l :: ls, t =>
    match locate p t with
    | .error e => .error e
    | .ok b => insertAll p ls (b.insert l).render

/-- Once a language can be inserted, so can any others behind it, and in the converted document alike. -/
theorem insertAll_crlf {p : Pattern} (hp : p.SingleLine) {t : Text} (ht : '\r' ∉ t) {b : Block}
    (h : locate p t = .ok b) (ls : List Language) :
    ∃ u, insertAll p ls t = .ok u ∧ insertAll p ls t.crlf = .ok u.crlf := by
  induction ls generalizing t b with
  | nil => exact ⟨t, rfl, rfl⟩
  | cons l ls ih =>
    have hcrlf : locate p t.crlf = .ok b.crlf := by
      rw [locate_crlf hp ht, h]
      rfl
    rw [insertAll, h, insertAll, hcrlf]
    simp only
    rw [insert_located_crlf hp ht h l]
    exact ih (return_notMem_of_located hp ht h l) (locate_insert hp h l)

def Member.outline : Member × Nat → Text × Text × Nat
  | (m, number) => (m.value, m.indent, number)

theorem outline_crlf (b : Block) : b.crlf.numbered.map Member.outline = b.numbered.map Member.outline := by
  unfold Block.numbered
  rw [firstLine_crlf, Block.crlf, List.zipIdx_map, List.map_map]
  rfl

/-- A document without carriage returns and the same with one before each line feed are refused for the same reason, or
their choices are located with the same values, indentations and lines; the one's choice is the other's converted, and
so are the documents with a language more, or with any series of languages more. -/
theorem line_ends_alike {p : Pattern} (hp : p.SingleLine) {t : Text} (ht : '\r' ∉ t) :
    (∃ e, locate p t = .error e ∧ locate p t.crlf = .error e) ∨
    ∃ b c, locate p t = .ok b ∧ locate p t.crlf = .ok c ∧
      c.numbered.map Member.outline = b.numbered.map Member.outline ∧ c.excerpt = b.excerpt.crlf ∧
      (∀ l, (c.insert l).render = (b.insert l).render.crlf) ∧
      ∀ ls, ∃ u, insertAll p ls t = .ok u ∧ insertAll p ls t.crlf = .ok u.crlf := by
  have hcrlf := locate_crlf hp ht
  cases h : locate p t with
  | error e =>
    rw [h] at hcrlf
    exact .inl ⟨e, rfl, hcrlf⟩
  | ok b =>
    rw [h] at hcrlf
    have hfits := ((locate_eq_ok_iff hp).1 h).2
    refine .inr ⟨b, b.crlf, rfl, hcrlf, outline_crlf b, ?_, insert_located_crlf hp ht h, insertAll_crlf hp ht h⟩
    exact excerpt_crlf (fun m hm => (hfits.members m hm).readable) hfits.closing.notMem

set_option maxRecDepth 100000 in
/-- In a small document with carriage returns, the new line gets one as well. -/
theorem line_ends_alike_small : ∃ b c,
    locate ⟨" // m ".toList, ['r'], ['a']⟩ "x\n // m\nr:(_$)=>\n\tchoice(\n'a',\n\t'é b', \n ), ".toList = .ok b ∧
    locate ⟨" // m ".toList, ['r'], ['a']⟩
      "x\r\n // m\r\nr:(_$)=>\r\n\tchoice(\r\n'a',\r\n\t'é b', \r\n ), ".toList = .ok c ∧
    c.numbered.map Member.outline = [(['a'], [], 5), ("é b".toList, ['\t'], 6)] ∧
    (c.insert ⟨['k'], by decide⟩).render =
      "x\r\n // m\r\nr:(_$)=>\r\n\tchoice(\r\n'a',\r\n\t'é b', \r\n\t'k',\r\n ), ".toList := by
  have hp : Pattern.SingleLine ⟨" // m ".toList, ['r'], ['a']⟩ := ⟨by decide, by decide⟩
  have ht : '\r' ∉ "x\n // m\nr:(_$)=>\n\tchoice(\n'a',\n\t'é b', \n ), ".toList := by decide
  let b : Block := ⟨"x\n".toList, " // m\nr:(_$)=>\n\tchoice(\n".toList,
    [⟨[], ['a'], [], ['\n']⟩, ⟨['\t'], "é b".toList, [' '], ['\n']⟩], " ), ".toList, []⟩
  have hb : locate ⟨" // m ".toList, ['r'], ['a']⟩
      "x\n // m\nr:(_$)=>\n\tchoice(\n'a',\n\t'é b', \n ), ".toList = .ok b := by rfl
  rcases line_ends_alike hp ht with ⟨e, he, -⟩ | ⟨b', c, hb', hc, hlines, -, hinsert, -⟩
  · exact absurd (hb.symm.trans he) (by simp)
  · obtain rfl := Except.ok.inj (hb.symm.trans hb')
    have hcrlf : crlf "x\n // m\nr:(_$)=>\n\tchoice(\n'a',\n\t'é b', \n ), ".toList =
        "x\r\n // m\r\nr:(_$)=>\r\n\tchoice(\r\n'a',\r\n\t'é b', \r\n ), ".toList := by decide
    rw [hcrlf] at hc
    refine ⟨b, c, hb, hc, ?_, ?_⟩
    · rw [hlines]
      decide
    · rw [hinsert]
      decide

end LanguageRoster.Choice
