import LanguageRoster.Proofs.Choice.Locate
import LanguageRoster.Proofs.Roster

/-!
# Inserting a language

* `nextMember_proper` : the line for one more language is a member line
* `Block.Fits.insert` : a document with one more language is cut where the document before was, so `locate` finds the
  longer block in it (`locate_insert`)
* `EndsInOneReturn` : how a line ends whose ending the new line takes over; `Member.Proper.ending_eq_iff`
* `insertion_reads_back` : the one line that is new, and what `locate` finds then
-/

namespace LanguageRoster.Choice

set_option autoImplicit false

open Text (IsLine AtLine lines lastInk?)

/-! ## The new line -/

section

variable (l : Language)

theorem name_ne_nil : l.name ≠ [] := by
  have h := l.unopposed
  rw [Language.objection?] at h
  split at h
  · exact absurd h (by simp)
  · assumption

/-- A name to which there is no objection can stand between the quotes of a member. -/
theorem inValue_name : ∀ c ∈ l.name, inValue c = true := by
  have h := l.unopposed
  simp only [Language.objection?, List.any_eq_true, List.contains_iff_mem] at h
  split at h
  · exact absurd h (by simp)
  split at h
  · exact absurd h (by simp)
  next hb =>
  split at h
  · exact absurd h (by simp)
  next hq =>
  split at h
  · exact absurd h (by simp)
  next hs =>
  intro c hc
  have h₁ : c ≠ '\'' := fun e => hq (e ▸ hc)
  have h₂ : c ≠ '\\' := fun e => hs (e ▸ hc)
  have h₃ : ¬ (c == '\n' || c == '\r') = true := fun e => hb ⟨c, hc, e⟩
  simp only [Bool.or_eq_true, beq_iff_eq, not_or] at h₃
  simp [inValue, h₁, h₂, h₃.1, h₃.2]

variable {b : Block}

theorem nextMember_proper (hb : ∀ m ∈ b.members, m.Proper) : (b.nextMember l).Proper := by
  rw [Block.nextMember]
  split
  · next last hl =>
    refine ⟨(hb last (List.mem_of_getLast? hl)).indent, name_ne_nil l, inValue_name l, by simp, ?_⟩
    simp only
    split
    · exact ⟨1, rfl⟩
    · exact ⟨0, rfl⟩
  · exact ⟨by simp, name_ne_nil l, inValue_name l, by simp, 0, rfl⟩

@[simp] theorem values_insert (b : Block) : (b.insert l).values = b.values ++ [l.name] := by
  have hv : (b.nextMember l).value = l.name := by rw [Block.nextMember]; split <;> rfl
  simp [Block.values, Block.insert, hv]

end

/-! ## Headers of the longer document -/

theorem opens_append {p : Pattern} {x y z : Text} {k ls ms : List Text} (h : p.Opens (x :: y :: z :: k ++ ls)) :
    p.Opens (x :: y :: z :: k ++ ms) := by
  obtain ⟨a, b, c, more, he, ha, hb, hc⟩ := h
  simp only [List.cons_append, List.cons.injEq] at he
  obtain ⟨rfl, rfl, rfl, -⟩ := he
  exact ⟨_, _, _, k ++ ms, rfl, ha, hb, hc⟩

/-- A line that ends in a comma, put between two others of which the second does, makes no header: the rule or the
opening of the choice would have to stand on one of the two. -/
theorem headerAt_of_line {p : Pattern} (hp : p.SingleLine) {s n t before : Text} (hs : AtLine s) (hn : IsLine n)
    (hn' : lastInk? n = some ',') (ht : ∃ l more, lines t = l :: more ∧ lastInk? l = some ',')
    (h : p.HeaderAt (s ++ (n ++ t)) before) :
    p.HeaderAt (s ++ t) before ∨ ∃ k, p.HeaderAt (s ++ t) (s ++ k) := by
  obtain ⟨u, hu, hb, hop⟩ := (headerAt_iff hp).1 h
  obtain ⟨tl, more, htl, hc⟩ := ht
  have hnt : lines (n ++ t) = n :: tl :: more := by rw [Text.lines_line_append _ hn, htl]
  have notRule : ∀ {x : Text} {ls : List Text} {y : Text}, lastInk? y = some ',' → ¬ p.Opens (x :: y :: ls) := by
    rintro x ls y hy ⟨a, b, c, k, he, -, hb, -⟩
    simp only [List.cons.injEq] at he
    obtain ⟨-, rfl, -⟩ := he
    rw [lastInk?_ruleLine hb] at hy
    exact absurd hy (by simp)
  rcases List.append_eq_append_iff.1 hu with ⟨m, rfl, hm⟩ | ⟨w, rfl, hw⟩
  · have hml : AtLine m := hs.of_append hb
    have hl : n :: tl :: more = lines m ++ lines u := by rw [← hnt, hm, Text.lines_append u hml]
    match hm' : lines m with
    | [] =>
      rw [hm', List.nil_append] at hl
      exact absurd (hl ▸ hop) (notRule hc)
    | x :: k =>
      rw [hm', List.cons_append, List.cons.injEq] at hl
      obtain ⟨rfl, hk⟩ := hl
      have hmk : m = n ++ k.flatten := by rw [← Text.flatten_lines m, hm', List.flatten_cons]
      rw [hmk, List.append_assoc] at hm
      refine .inr ⟨k.flatten, (headerAt_iff hp).2 ⟨u, ?_, ?_, hop⟩⟩
      · rw [List.append_cancel_left hm, List.append_assoc]
      · exact hs.append (hn.atLine.of_append (hmk ▸ hml))
  · have hwl : AtLine w := hb.of_append hs
    have hl : lines u = lines w ++ n :: tl :: more := by rw [hw, Text.lines_append _ hwl, hnt]
    rw [hl] at hop
    match hw' : lines w with
    | [] =>
      rw [hw'] at hop
      exact absurd hop (notRule hc)
    | [x] =>
      rw [hw'] at hop
      exact absurd hop (notRule hn')
    | [x, y] =>
      rw [hw'] at hop
      obtain ⟨a, b, c, k, he, -, -, hch⟩ := hop
      simp only [List.cons_append, List.nil_append, List.cons.injEq] at he
      obtain ⟨-, -, rfl, -⟩ := he
      rw [lastInk?_choiceLine hch] at hn'
      exact absurd hn' (by simp)
    | x :: y :: z :: k =>
      rw [hw'] at hop
      refine .inl ((headerAt_iff hp).2 ⟨w ++ t, by rw [List.append_assoc], hb, ?_⟩)
      rw [Text.lines_append t hwl, hw']
      exact opens_append hop

/-! ## The longer block -/

theorem Block.render_insert (b : Block) (l : Language) : (b.insert l).render =
    b.before ++ b.header ++ b.members.flatMap Member.render ++ ((b.nextMember l).render ++ (b.closing ++ b.after)) := by
  simp [Block.render, Block.excerpt, Block.insert]

/-- A document with one more language is cut where the one before was. -/
theorem Block.Fits.insert {p : Pattern} (hp : p.SingleLine) {b : Block} (h : b.Fits p) (l : Language) :
    (b.insert l).Fits p := by
  have hn := nextMember_proper l h.members
  have hmem : ∀ m ∈ (b.insert l).members, m.Proper := by
    intro m hm
    rcases List.mem_append.1 hm with hm | hm
    · exact h.members m hm
    · exact List.mem_singleton.1 hm ▸ hn
  obtain ⟨first, second, more, hms, hv⟩ := h.anchor
  refine ⟨h.before, h.header, hmem, ⟨first, second, more ++ [b.nextMember l], by simp [Block.insert, hms], hv⟩,
    h.closing, h.after, fun before hat => ?_⟩
  obtain ⟨ending, rest, hcl, he, -⟩ := lines_closing h.closing h.after
  have hbh : AtLine (b.before ++ b.header) := h.before.append (atLine_header hp h.header)
  have hs : AtLine (b.before ++ b.header ++ b.members.flatMap Member.render) := by
    rw [List.flatMap_def]
    exact hbh.append (Text.atLine_flatten (by simpa using fun m hm => (h.members m hm).isLine))
  rw [Block.render_insert] at hat
  have hold : b.before ++ b.header ++ b.members.flatMap Member.render ++ (b.closing ++ b.after) = b.render := by
    simp [Block.render_eq]
  rcases headerAt_of_line hp hs hn.isLine hn.readable.lastInk? ⟨_, _, hcl, lastInk?_closing h.closing he⟩ hat with
    hat | ⟨k, hat⟩
  · exact h.alone _ (hold ▸ hat)
  · have := h.alone _ (hold ▸ hat)
    simp only [List.append_assoc] at this
    exact absurd (List.append_eq_nil_iff.1 (List.append_right_eq_self.1 this)).1 (header_ne_nil h.header)

/-- What was inserted reads back. -/
theorem locate_insert {p : Pattern} (hp : p.SingleLine) {t : Text} {b : Block} (h : locate p t = .ok b)
    (l : Language) : locate p (b.insert l).render = .ok (b.insert l) :=
  (locate_eq_ok_iff hp).2 ⟨rfl, ((locate_eq_ok_iff hp).1 h).2.insert hp l⟩

/-! ## Reading back -/

/-- The text ends in a line feed with one carriage return before it, and no more. -/
def EndsInOneReturn (t : Text) : Prop := ∃ u, t = u ++ ['\r', '\n'] ∧ u.getLast? ≠ some '\r'

/-- The last character before the end of a member line is the comma, or a blank behind it. -/
theorem Member.Proper.exists_render {m : Member} (h : m.Proper) :
    ∃ u n, u.getLast? ≠ some '\r' ∧ m.ending = List.replicate n '\r' ++ ['\n'] ∧
      m.render = u ++ List.replicate n '\r' ++ ['\n'] := by
  obtain ⟨n, hn⟩ := h.ending
  refine ⟨m.indent ++ '\'' :: (m.value ++ ['\'']) ++ ',' :: m.padding, n, ?_, hn, ?_⟩
  · intro hlast
    have hlast : m.padding.getLast?.getD ',' = '\r' := by
      rw [List.getLast?_append, List.getLast?_cons, Option.some_or] at hlast
      exact Option.some.inj hlast
    cases hp : m.padding.getLast? with
    | none =>
      rw [hp] at hlast
      exact absurd hlast (by decide)
    | some c =>
      have hc : Text.isBlank c = true := h.padding c (List.mem_of_getLast? hp)
      rw [hp] at hlast
      obtain rfl : c = '\r' := hlast
      exact absurd hc (by decide)
  · rw [Member.render_eq, hn]
    simp

/-- A member line ends in a carriage return and a line feed exactly if no more carriage returns stand there. -/
theorem Member.Proper.ending_eq_iff {m : Member} (h : m.Proper) :
    m.ending = ['\r', '\n'] ↔ EndsInOneReturn m.render := by
  obtain ⟨u, n, hu, hn, hr⟩ := h.exists_render
  rw [hn, hr]
  constructor
  · intro he
    have h1 : List.replicate n '\r' = ['\r'] := (List.append_left_inj ['\n']).1 he
    exact ⟨u, by rw [h1]; simp, hu⟩
  · rintro ⟨v, hv, hlast⟩
    have hv' : u ++ List.replicate n '\r' = v ++ ['\r'] := by
      apply (List.append_left_inj ['\n']).1
      rw [hv, List.append_assoc]
      rfl
    match n with
    | 0 =>
      rw [List.replicate_zero, List.append_nil] at hv'
      rw [hv'] at hu
      exact absurd List.getLast?_concat hu
    | 1 => rfl
    | n + 2 =>
      rw [List.replicate_succ', ← List.append_assoc] at hv'
      have hv'' := List.append_cancel_right hv'
      rw [List.replicate_succ', ← List.append_assoc] at hv''
      rw [← hv''] at hlast
      exact absurd List.getLast?_concat hlast

theorem Block.numbered_insert (b : Block) (l : Language) :
    (b.insert l).numbered = b.numbered ++ [(b.nextMember l, b.firstLine + b.members.length)] := by
  change (b.members ++ [b.nextMember l]).zipIdx b.firstLine = _
  rw [List.zipIdx_append, List.zipIdx_singleton]
  rfl

theorem Block.Fits.headerAt_iff {p : Pattern} {b : Block} (h : b.Fits p) (before : Text) :
    p.HeaderAt b.render before ↔ before = b.before := by
  constructor
  · exact h.alone before
  · rintro rfl
    refine ⟨h.before, b.header, b.members.flatMap Member.render ++ b.closing ++ b.after, ?_, h.header⟩
    rw [b.render_eq, ← List.append_assoc b.before]

/-- To insert a language puts one line before the closing line and changes nothing else. The line is indented as the
last member is, holds the literal and a comma, and ends as the last member's line does if that has one carriage return,
and else in a line feed alone. The new document is located with its one header in the old place, all old members on
their lines, and one member more on the next line. -/
theorem insertion_reads_back {p : Pattern} (hp : p.SingleLine) {t : Text} {b : Block} (h : locate p t = .ok b)
    (l : Language) : ∃ last number ending line, b.numbered.getLast? = some (last, number) ∧
      (EndsInOneReturn last.render → ending = ['\r', '\n']) ∧ (¬ EndsInOneReturn last.render → ending = ['\n']) ∧
      line = last.indent ++ l.literal ++ [','] ++ ending ∧
      t = b.before ++ b.header ++ b.members.flatMap Member.render ++ (b.closing ++ b.after) ∧
      (b.insert l).render =
        b.before ++ b.header ++ b.members.flatMap Member.render ++ (line ++ (b.closing ++ b.after)) ∧
      ∃ c, locate p (b.insert l).render = .ok c ∧
        (∀ before, p.HeaderAt (b.insert l).render before ↔ p.HeaderAt t before) ∧
        c.numbered = b.numbered ++ [(⟨last.indent, l.name, [], ending⟩, number + 1)] ∧
        b.excerpt = b.header ++ b.members.flatMap Member.render ++ b.closing ∧
        c.excerpt = b.header ++ b.members.flatMap Member.render ++ (line ++ b.closing) ∧
        c.lists l = true ∧ ∀ m, m ≠ l → c.lists m = b.lists m := by
  obtain ⟨rfl, hfits⟩ := (locate_eq_ok_iff hp).1 h
  obtain ⟨first, second, more, hms, -⟩ := hfits.anchor
  obtain ⟨last, hlast⟩ : ∃ last, b.members.getLast? = some last :=
    Option.isSome_iff_exists.1 (by rw [hms]; simp)
  have hproper : last.Proper := hfits.members last (List.mem_of_getLast? hlast)
  have hcount : 0 < b.members.length := by rw [hms]; simp
  have hnumber : b.numbered.getLast? = some (last, b.firstLine + b.members.length - 1) := by
    rw [Block.numbered, List.getLast?_zipIdx, hlast]
    rfl
  let ending : Text := if last.ending = ['\r', '\n'] then ['\r', '\n'] else ['\n']
  have hnext : b.nextMember l = ⟨last.indent, l.name, [], ending⟩ := by
    rw [Block.nextMember, hlast]
  have hline : (b.nextMember l).render = last.indent ++ l.literal ++ [','] ++ ending := by
    rw [hnext, Member.render_eq, Language.literal]
    simp
  refine ⟨last, _, ending, (b.nextMember l).render, hnumber, ?_, ?_, hline, ?_, b.render_insert l, b.insert l,
    locate_insert hp h l, ?_, ?_, rfl, ?_, ?_, ?_⟩
  · intro hone
    exact if_pos (hproper.ending_eq_iff.2 hone)
  · intro hone
    exact if_neg fun he => hone (hproper.ending_eq_iff.1 he)
  · rw [b.render_eq]
    simp only [List.append_assoc]
  · intro before
    rw [hfits.headerAt_iff, (hfits.insert hp l).headerAt_iff]
    rfl
  · rw [Block.numbered_insert, hnext]
    congr 3
    omega
  · simp [Block.excerpt, Block.insert]
  · rw [Block.lists, values_insert]
    simp
  · intro m hm
    have hname : m.name ≠ l.name := fun he => hm (Language.ext_iff_name.2 he)
    rw [Block.lists, values_insert, Block.lists]
    simp [hname]

set_option maxRecDepth 100000 in
/-- The last member's line has one carriage return and the others have none, so the new line has one as well. -/
theorem insertion_reads_back_crlf : ∃ b c, locate ⟨" // m ".toList, ['r'], ['a']⟩
      "x\n // m\nr:(_$)=>\n\tchoice(\n'a',\n\t'é b', \r\n ), \r".toList = .ok b ∧
    locate ⟨" // m ".toList, ['r'], ['a']⟩ (b.insert ⟨['k'], by decide⟩).render = .ok c ∧
    c.render = "x\n // m\nr:(_$)=>\n\tchoice(\n'a',\n\t'é b', \r\n\t'k',\r\n ), \r".toList ∧
    c.numbered.map (fun x => (x.1.value, x.2)) = [(['a'], 5), ("é b".toList, 6), (['k'], 7)] := by
  have hp : Pattern.SingleLine ⟨" // m ".toList, ['r'], ['a']⟩ := ⟨by decide, by decide⟩
  let b : Block := ⟨"x\n".toList, " // m\nr:(_$)=>\n\tchoice(\n".toList,
    [⟨[], ['a'], [], ['\n']⟩, ⟨['\t'], "é b".toList, [' '], ['\r', '\n']⟩], " ), ".toList, ['\r']⟩
  have hb : locate ⟨" // m ".toList, ['r'], ['a']⟩
      "x\n // m\nr:(_$)=>\n\tchoice(\n'a',\n\t'é b', \r\n ), \r".toList = .ok b := by rfl
  obtain ⟨last, number, ending, line, hlast, hone, -, hline, -, hrender, c, hc, -, hnumbered, -⟩ :=
    insertion_reads_back hp hb ⟨['k'], by decide⟩
  obtain ⟨rfl, rfl⟩ : ⟨['\t'], "é b".toList, [' '], ['\r', '\n']⟩ = last ∧ 6 = number :=
    Prod.mk.inj (Option.some.inj hlast)
  obtain rfl := hone ⟨"\t'é b', ".toList, rfl, by decide⟩
  refine ⟨b, c, hb, hc, ?_, ?_⟩
  · obtain ⟨htext, -⟩ := (locate_eq_ok_iff hp).1 hc
    rw [← htext, hrender, hline]
    rfl
  · rw [hnumbered]
    decide

end LanguageRoster.Choice
