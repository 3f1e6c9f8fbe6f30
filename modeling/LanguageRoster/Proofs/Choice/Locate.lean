import LanguageRoster.Proofs.Choice.Headers
import LanguageRoster.Proofs.Choice.Members

/-!
# What is located

`Choice.locate` accepts exactly the documents of a grammar, and cuts them as the grammar says.

* `find?_eq_none_iff`, `find?_eq_some`, `count_eq_zero_iff` : the search for headers, in terms of where lines start
* `Block.Fits p b` : the grammar: a document cut into what `b` says, with its only header in its place
* `alone_of_find?`, `Block.Fits.find?` : the header that is found is the only one, and that of a block that fits
* `locate_eq_ok_iff` : `locate` finds a block exactly if the document is the block's and the block fits
* `locate_grammar` : acceptance, uniqueness and the numbered members together
-/

namespace LanguageRoster.Choice

set_option autoImplicit false

open Text (IsLine AtLine lines lastInk? isInk isBlank opens)

/-! ## Searching for headers -/

/-- No header starts a line of the text; `start` says whether the text itself starts one. -/
def Pattern.Absent (p : Pattern) (start : Bool) (t : Text) : Prop :=
  ∀ a b, t = a ++ b → opens start a = true → p.behind? b = none

section

variable {p : Pattern}

theorem behind?_nil : p.behind? [] = none := by
  rw [Option.eq_none_iff_forall_ne_some]
  intro rest h
  obtain ⟨u, hu, he⟩ := mem_rests_iff.1 (List.mem_of_mem_head? h)
  exact header_ne_nil hu (List.append_eq_nil_iff.1 he.symm).1

theorem absent_cons {start : Bool} {c : Char} {t : Text} :
    p.Absent start (c :: t) ↔ (start = true → p.behind? (c :: t) = none) ∧ p.Absent (c == '\n') t := by
  constructor
  · exact fun h => ⟨fun hs => h [] (c :: t) rfl hs, fun a b hab ha => h (c :: a) b (by rw [hab, List.cons_append]) ha⟩
  · rintro ⟨h₁, h₂⟩ a b hab ha
    cases a with
    | nil =>
      obtain rfl : c :: t = b := hab
      exact h₁ ha
    | cons d a =>
      obtain ⟨rfl, ht⟩ := List.cons.inj hab
      exact h₂ a b ht ha

theorem absent_nil {start : Bool} : p.Absent start [] := by
  intro a b hab _
  rw [(List.append_eq_nil_iff.1 hab.symm).2, behind?_nil]

theorem find?_eq_none_iff {start : Bool} {t : Text} : find? p start t = none ↔ p.Absent start t := by
  induction t generalizing start with
  | nil => simp [find?, absent_nil]
  | cons c t ih =>
    rw [find?, absent_cons, ← ih]
    cases start with
    | false => simp
    | true => cases p.behind? (c :: t) <;> simp

/-- A header is counted as soon as there is one, so the number is zero only if there is none. -/
theorem count_eq_zero_iff {start : Bool} {t : Text} : count p 0 start t = 0 ↔ p.Absent start t := by
  induction t generalizing start with
  | nil => simp [count, absent_nil]
  | cons c t ih =>
    rw [count, absent_cons, ← ih]
    cases start with
    | false => simp
    | true => cases p.behind? (c :: t) <;> simp

/-- What is found is a header that starts a line, with none before it. -/
theorem find?_eq_some {start : Bool} {t : Text} {hit : Hit} (h : find? p start t = some hit) :
    t = hit.before ++ hit.header ++ hit.rest ∧ Spells p.header hit.header ∧ opens start hit.before = true ∧
      ∀ a b, t = a ++ b → opens start a = true → p.behind? b ≠ none → hit.before.length ≤ a.length := by
  induction t generalizing start hit with
  | nil => exact absurd h (by simp [find?])
  | cons c t ih =>
    rw [find?] at h
    split at h
    · next rest hr =>
      obtain rfl := Option.some.inj h
      cases start with
      | false => exact absurd hr (by simp)
      | true =>
        obtain ⟨u, hu, he⟩ := mem_rests_iff.1 (List.mem_of_mem_head? hr)
        have ht : (c :: t).take ((c :: t).length - rest.length) = u := by rw [he]; simp
        refine ⟨?_, ?_, rfl, fun a b _ _ _ => by simp⟩
        · simp only [List.nil_append]
          rw [ht, he]
        · simp only
          rw [ht]
          exact hu
    · next hn =>
      obtain ⟨hit, hh, rfl⟩ := Option.map_eq_some_iff.1 h
      obtain ⟨h₁, h₂, h₃, h₄⟩ := ih hh
      refine ⟨by simp [h₁], h₂, h₃, fun a b hab ha hb => ?_⟩
      cases a with
      | nil =>
        obtain rfl : c :: t = b := hab
        have ha : start = true := ha
        simp only [ha, if_true] at hn
        exact absurd hn hb
      | cons d a =>
        obtain ⟨rfl, ht⟩ := List.cons.inj hab
        simpa using h₄ a b ht ha hb

end

/-! ## The grammar of documents -/

/-- A document that the pattern accepts, cut in pieces: what comes before the header ends a line, the header is spelled
as the pattern says, at least two member lines follow of which the first holds the anchor, then a closing line, and the
header is the only one of the document. -/
structure Block.Fits (p : Pattern) (b : Block) : Prop where
  before : AtLine b.before
  header : Spells p.header b.header
  members : ∀ m ∈ b.members, m.Proper
  anchor : ∃ first second more, b.members = first :: second :: more ∧ first.value = p.anchor
  closing : IsClosing b.closing
  after : EndsLine b.after
  alone : ∀ before, p.HeaderAt b.render before → before = b.before

theorem Block.check_eq_ok_iff {p : Pattern} {b c : Block} : Block.check p b = .ok c ↔
    b = c ∧ ∃ first second more, b.members = first :: second :: more ∧ first.value = p.anchor := by
  rw [Block.check]
  split
  · next h => simp [h]
  · next first others h =>
    rw [h]
    split
    · next hv => simp [hv]
    · next hv =>
      have hv := Decidable.not_not.1 hv
      split
      · next ho => simp [ho]
      · next ho =>
        obtain ⟨second, more, rfl⟩ := List.exists_cons_of_ne_nil ho
        simp [hv]

/-- A block is located exactly if there is one header, and the lines behind it are those of a choice. -/
theorem locate_eq_ok {p : Pattern} {t : Text} {b : Block} : locate p t = .ok b ↔
    ∃ hit, find? p true t = some hit ∧ p.Absent true hit.rest ∧ b.before = hit.before ∧ b.header = hit.header ∧
      hit.rest = b.members.flatMap Member.render ++ b.closing ++ b.after ∧ (∀ m ∈ b.members, m.Proper) ∧
      IsClosing b.closing ∧ EndsLine b.after ∧
      ∃ first second more, b.members = first :: second :: more ∧ first.value = p.anchor := by
  rw [locate]
  cases hf : find? p true t with
  | none => simp
  | some hit =>
    simp only [Option.some.injEq, exists_eq_left', ← count_eq_zero_iff]
    cases hc : count p 0 true hit.rest with
    | succ more => simp
    | zero =>
      simp only [true_and]
      constructor
      · intro h
        split at h
        · exact absurd h (by simp)
        · next members closing after hb =>
          obtain ⟨rfl, ha⟩ := Block.check_eq_ok_iff.1 h
          obtain ⟨h₁, h₂, h₃, h₄⟩ := body_eq_ok_iff.1 hb
          exact ⟨rfl, rfl, h₁, h₂, h₃, h₄, ha⟩
      · rintro ⟨hb, hh, h₁, h₂, h₃, h₄, ha⟩
        rw [body_eq_ok_iff.2 ⟨h₁, h₂, h₃, h₄⟩]
        obtain ⟨before, header, members, closing, after⟩ := b
        obtain ⟨rfl, rfl⟩ : before = hit.before ∧ header = hit.header := ⟨hb, hh⟩
        exact Block.check_eq_ok_iff.2 ⟨rfl, ha⟩

/-! ## Overlapping headers -/

section

variable {p : Pattern} (hp : p.SingleLine)

include hp

/-- No header starts at the second or the third line of a header that a member line follows: the line that the rule
would have to stand on ends in another character. -/
theorem header_not_inside {h rest m u : Text} {c : Char} (hh : Spells p.header h) (hc : c ≠ '>')
    (hr : ∀ l more, lines rest = l :: more → lastInk? l = some c) (he : h ++ rest = m ++ u) (hm : AtLine m)
    (hu : p.Opens (lines u)) : m = [] ∨ ∃ k, m = h ++ k := by
  obtain ⟨x, y, z, rfl, -, -, hz, hl⟩ := lines_header hp hh
  have hlines : x :: y :: z :: lines rest = lines m ++ lines u := by rw [← hl rest, he, Text.lines_append u hm]
  obtain ⟨d, e, f, more, hu, -, he', -⟩ := hu
  rw [hu] at hlines
  have hrule := lastInk?_ruleLine he'
  match hm' : lines m with
  | [] => exact .inl (by rw [← Text.flatten_lines m, hm']; rfl)
  | [_] =>
    -- the rule would stand on the third line
    rw [hm'] at hlines
    simp only [List.cons_append, List.nil_append, List.cons.injEq] at hlines
    obtain ⟨-, -, rfl, -⟩ := hlines
    rw [lastInk?_choiceLine hz] at hrule
    exact absurd hrule (by simp)
  | [_, _] =>
    -- the rule would stand on the line behind the header
    rw [hm'] at hlines
    simp only [List.cons_append, List.nil_append, List.cons.injEq] at hlines
    rw [hr e _ hlines.2.2.2] at hrule
    exact absurd (Option.some.inj hrule) hc
  | x' :: y' :: z' :: k =>
    rw [hm'] at hlines
    simp only [List.cons_append, List.cons.injEq] at hlines
    obtain ⟨rfl, rfl, rfl, -⟩ := hlines
    exact .inr ⟨k.flatten, by rw [← Text.flatten_lines m, hm']; simp⟩

/-- The header that is found is the only one if none starts in what follows it, and a member line comes first there. -/
theorem alone_of_find? {t before : Text} {hit : Hit} {c : Char} (hf : find? p true t = some hit)
    (habs : p.Absent true hit.rest) (hc : c ≠ '>')
    (hr : ∀ l more, lines hit.rest = l :: more → lastInk? l = some c) (hat : p.HeaderAt t before) :
    before = hit.before := by
  obtain ⟨ht, hsp, ho, hfirst⟩ := find?_eq_some hf
  obtain ⟨u, hu, hal, hop⟩ := (headerAt_iff hp).1 hat
  have hbe : p.behind? u ≠ none := fun e => (behind?_eq_none_iff hp).1 e hop
  have hlen : hit.before.length ≤ before.length := hfirst before u hu (Text.atLine_iff_opens.1 hal) hbe
  rw [ht, List.append_assoc] at hu
  obtain ⟨m, rfl, hmu⟩ : ∃ m, before = hit.before ++ m ∧ hit.header ++ hit.rest = m ++ u := by
    rcases List.append_eq_append_iff.1 hu with h | ⟨m, hm, hmu⟩
    · exact h
    · obtain rfl : m = [] := List.length_eq_zero_iff.1 (by rw [hm, List.length_append] at hlen; omega)
      exact ⟨[], by simpa using hm.symm, by simpa using hmu.symm⟩
  have hbl : AtLine hit.before := Text.atLine_iff_opens.2 ho
  rcases header_not_inside hp hsp hc hr hmu (hbl.of_append hal) hop with rfl | ⟨k, rfl⟩
  · exact List.append_nil _
  · rw [List.append_assoc] at hmu
    have hk : AtLine k := (hbl.append (atLine_header hp hsp)).of_append (by rwa [List.append_assoc])
    exact absurd (habs k u (List.append_cancel_left hmu) (Text.atLine_iff_opens.1 hk)) hbe

end

/-! ## Acceptance -/

theorem lines_members {ms : List Member} (h : ∀ m ∈ ms, m.Proper) (rest : Text) :
    lines (ms.flatMap Member.render ++ rest) = ms.map Member.render ++ lines rest := by
  induction ms with
  | nil => rfl
  | cons m ms ih =>
    rw [List.flatMap_cons, List.append_assoc, Text.lines_line_append _ (h m List.mem_cons_self).isLine,
      ih fun x hx => h x (List.mem_cons_of_mem _ hx)]
    rfl

theorem Block.render_eq (b : Block) :
    b.render = b.before ++ (b.header ++ (b.members.flatMap Member.render ++ b.closing ++ b.after)) := by
  simp [Block.render, Block.excerpt]

section

variable {p : Pattern} (hp : p.SingleLine) {b : Block}

include hp

/-- The header of a block that fits is the one that is found. -/
theorem Block.Fits.find? (h : b.Fits p) : find? p true b.render =
    some ⟨b.before, b.header, b.members.flatMap Member.render ++ b.closing ++ b.after⟩ := by
  have hat : p.HeaderAt b.render b.before :=
    ⟨h.before, b.header, b.members.flatMap Member.render ++ b.closing ++ b.after, by
      rw [b.render_eq, ← List.append_assoc b.before], h.header⟩
  obtain ⟨u, hu, -, hop⟩ := (headerAt_iff hp).1 hat
  cases hf : Choice.find? p true b.render with
  | none =>
    have := find?_eq_none_iff.1 hf b.before u hu (Text.atLine_iff_opens.1 h.before)
    exact absurd hop ((behind?_eq_none_iff hp).1 this)
  | some hit =>
    obtain ⟨before, header, rest⟩ := hit
    obtain ⟨ht, hsp, ho, -⟩ := find?_eq_some hf
    obtain rfl : before = b.before := h.alone before ⟨Text.atLine_iff_opens.2 ho, header, rest, ht, hsp⟩
    rw [b.render_eq, List.append_assoc b.before header rest] at ht
    obtain ⟨rfl, rfl⟩ := header_unique h.header hsp (List.append_cancel_left ht)
    rfl

/-- No header starts in what follows the header of a block that fits. -/
theorem Block.Fits.absent (h : b.Fits p) :
    p.Absent true (b.members.flatMap Member.render ++ b.closing ++ b.after) := by
  intro x y hxy hx
  rw [behind?_eq_none_iff hp]
  intro hy
  have hx : AtLine x := Text.atLine_iff_opens.2 hx
  have hat : p.HeaderAt b.render (b.before ++ b.header ++ x) :=
    (headerAt_iff hp).2 ⟨y, by rw [b.render_eq, hxy]; simp only [List.append_assoc],
      (h.before.append (atLine_header hp h.header)).append hx, hy⟩
  have hnil := h.alone _ hat
  rw [List.append_assoc] at hnil
  exact header_ne_nil h.header (List.append_eq_nil_iff.1 (List.append_right_eq_self.1 hnil)).1

/-- A document is accepted exactly if it can be cut as the grammar says. -/
theorem locate_eq_ok_iff {t : Text} : locate p t = .ok b ↔ t = b.render ∧ b.Fits p := by
  constructor
  · intro h
    obtain ⟨hit, hf, habs, hb, hh, hr, hm, hc, ha, first, second, more, hms, hv⟩ := locate_eq_ok.1 h
    obtain ⟨ht, hsp, ho, -⟩ := find?_eq_some hf
    have htext : t = b.render := by rw [b.render_eq, hb, hh, ← hr, ht, List.append_assoc]
    have hline : ∀ l more, lines hit.rest = l :: more → lastInk? l = some ',' := by
      intro l more' hl
      rw [hr, hms, List.append_assoc, lines_members (hms ▸ hm)] at hl
      rw [← (List.cons.inj hl).1]
      exact (hm first (by simp [hms])).readable.lastInk?
    exact ⟨htext, {
      before := by rwa [hb, Text.atLine_iff_opens]
      header := hh ▸ hsp
      members := hm
      anchor := ⟨first, second, more, hms, hv⟩
      closing := hc
      after := ha
      alone := fun before hat => hb ▸ alone_of_find? hp hf habs (by decide) hline (htext ▸ hat) }⟩
  · rintro ⟨rfl, h⟩
    exact locate_eq_ok.2 ⟨_, h.find? hp, h.absent hp, rfl, rfl, rfl, h.members, h.closing, h.after, h.anchor⟩

end

theorem lineFeeds_members {ms : List Member} (h : ∀ m ∈ ms, m.Proper) :
    Text.lineFeeds (ms.flatMap Member.render) = ms.length := by
  induction ms with
  | nil => rfl
  | cons m ms ih =>
    rw [List.flatMap_cons, Text.lineFeeds_append, Text.lineFeeds_line (h m List.mem_cons_self).isLine,
      ih fun x hx => h x (List.mem_cons_of_mem _ hx), List.length_cons, Nat.add_comm]

/-- The number of a member's line is one more than the number of line feeds before it. -/
theorem Block.Fits.numbered_getElem? {p : Pattern} {b : Block} (h : b.Fits p) (i : Nat) :
    b.numbered[i]? = b.members[i]?.map fun m =>
      (m, 1 + Text.lineFeeds (b.before ++ b.header ++ (b.members.take i).flatMap Member.render)) := by
  rw [Block.numbered, List.getElem?_zipIdx]
  by_cases hi : i < b.members.length
  · rw [Text.lineFeeds_append, lineFeeds_members fun m hm => h.members m (List.mem_of_mem_take hm), List.length_take,
      Nat.min_eq_left (Nat.le_of_lt hi), Block.firstLine, Nat.add_assoc]
  · rw [List.getElem?_eq_none (Nat.le_of_not_lt hi)]
    rfl

/-- `locate` accepts the documents of the grammar and no others, a document can be cut in one way only, and what is
located are the pieces of that cut, the members with the numbers of their lines. -/
theorem locate_grammar {p : Pattern} (hp : p.SingleLine) (t : Text) :
    ((∃ b, locate p t = .ok b) ↔ ∃ b : Block, t = b.render ∧ b.Fits p) ∧
      (∀ b c : Block, t = b.render → b.Fits p → t = c.render → c.Fits p → b = c) ∧
      ∀ b, locate p t = .ok b → t = b.before ++ b.excerpt ++ b.after ∧ b.Fits p ∧
        ∀ i, b.numbered[i]? = b.members[i]?.map fun m =>
          (m, 1 + Text.lineFeeds (b.before ++ b.header ++ (b.members.take i).flatMap Member.render)) := by
  refine ⟨exists_congr fun b => locate_eq_ok_iff hp, fun b c hb hfb hc hfc => ?_, fun b hb => ?_⟩
  · have hlb := (locate_eq_ok_iff hp).2 ⟨hb, hfb⟩
    have hlc := (locate_eq_ok_iff hp).2 ⟨hc, hfc⟩
    exact Except.ok.inj (hlb.symm.trans hlc)
  · obtain ⟨ht, hf⟩ := (locate_eq_ok_iff hp).1 hb
    exact ⟨ht, hf, hf.numbered_getElem?⟩

set_option maxRecDepth 100000 in
theorem locate_grammar_crlf : ∃ b, locate ⟨" // m ".toList, ['r'], ['a']⟩
      "x\n // m\r\nr:(_$)=>\n\tchoice(\n'a',\n\t'é b', \r\r\n ), \r".toList = .ok b ∧
    b.Fits ⟨" // m ".toList, ['r'], ['a']⟩ ∧
    b.numbered.map (fun x => (x.1.value, x.2)) = [(['a'], 5), ("é b".toList, 6)] ∧ b.after = ['\r'] := by
  have hp : Pattern.SingleLine ⟨" // m ".toList, ['r'], ['a']⟩ := ⟨by decide, by decide⟩
  obtain ⟨-, -, h⟩ := locate_grammar hp "x\n // m\r\nr:(_$)=>\n\tchoice(\n'a',\n\t'é b', \r\r\n ), \r".toList
  exact ⟨_, by rfl, (h _ (by rfl)).2.1, by decide, by decide⟩

end LanguageRoster.Choice
