import LanguageRoster.Proofs.Choice.Insertion
import LanguageRoster.Proofs.Choice.Scan

/-!
# Names and members

What can be a language's name is what can be the value of a member.

* `objection?_eq_none_iff` : there is no objection to a name exactly if it can stand between the quotes of a member
* `ofName_eq_ok_iff` : the language of a name has that name
* `mem_lines_of_located` : the members that are located are lines of the document, under their numbers
* `read?_literal` : the line with a language's literal is read as a member with its name
* `names_agree` : the two sides together
-/

namespace LanguageRoster.Choice

set_option autoImplicit false

open Text (lines isBlank)

/-! ## Names -/

theorem objection?_eq_none_iff {name : Text} :
    Language.objection? name = none ↔ name ≠ [] ∧ ∀ c ∈ name, inValue c = true := by
  constructor
  · intro h
    exact ⟨name_ne_nil ⟨name, h⟩, inValue_name ⟨name, h⟩⟩
  · rintro ⟨hne, hin⟩
    have free : ∀ c ∈ name, c ≠ '\'' ∧ c ≠ '\\' ∧ c ≠ '\r' ∧ c ≠ '\n' := by
      intro c hc
      simpa [inValue, and_assoc] using hin c hc
    have hbreak : ¬ name.any (fun c => c == '\n' || c == '\r') = true := by
      rw [List.any_eq_true]
      rintro ⟨c, hc, hb⟩
      obtain ⟨-, -, hr, hn⟩ := free c hc
      simp [hr, hn] at hb
    have hquote : ¬ name.contains '\'' = true := fun hm => (free _ (List.contains_iff_mem.1 hm)).1 rfl
    have hslash : ¬ name.contains '\\' = true := fun hm => (free _ (List.contains_iff_mem.1 hm)).2.1 rfl
    rw [Language.objection?, if_neg hne, if_neg hbreak, if_neg hquote, if_neg hslash]

theorem ofName_eq_ok_iff {name : Text} {l : Language} : Language.ofName name = .ok l ↔ l.name = name := by
  unfold Language.ofName
  split
  · next h =>
    constructor
    · intro he
      rw [← Except.ok.inj he]
    · rintro rfl
      rfl
  · next o h =>
    constructor
    · intro he
      exact absurd he (by simp)
    · rintro rfl
      rw [l.unopposed] at h
      exact absurd h (by simp)

theorem Member.Proper.exists_language {m : Member} (h : m.Proper) : ∃ l, Language.ofName m.value = .ok l :=
  ⟨⟨m.value, objection?_eq_none_iff.2 ⟨h.nonempty, h.value⟩⟩, ofName_eq_ok_iff.2 rfl⟩

/-! ## Members of a document -/

/-- The members that are located are lines of the document, under their numbers. -/
theorem mem_lines_of_located {p : Pattern} {t : Text} {b : Block} (h : locate p t = .ok b) {m : Member} {n : Nat}
    (hm : (m, n) ∈ b.numbered) : m.Proper ∧ (m.render, n) ∈ (lines t).zipIdx 1 := by
  obtain ⟨hit, hf, -, hbefore, hheader, hrest, hproper, -⟩ := locate_eq_ok.1 h
  have hfirst := first_of_find? hf
  have hat : Text.AtLine (b.before ++ b.header) := by
    rw [hbefore, hheader]
    exact hfirst.atLine_behind
  have hlines : lines t =
      lines (b.before ++ b.header) ++ (b.members.map Member.render ++ lines (b.closing ++ b.after)) := by
    rw [hfirst.text, ← hbefore, ← hheader, Text.lines_append _ hat, hrest, List.append_assoc, lines_members hproper]
  have hnumber : b.firstLine = 1 + (lines (b.before ++ b.header)).length := by
    rw [Text.length_lines hat, Block.firstLine]
  refine ⟨hproper m (List.fst_mem_of_mem_zipIdx hm), ?_⟩
  rw [hlines, List.zipIdx_append, List.zipIdx_append, ← hnumber, List.zipIdx_map]
  refine List.mem_append_right _ (List.mem_append_left _ ?_)
  exact List.mem_map.2 ⟨(m, n), hm, rfl⟩

theorem read?_literal (l : Language) {indent blanks ending : Text} (hi : ∀ c ∈ indent, isBlank c = true)
    (hb : ∀ c ∈ blanks, isBlank c = true) (he : isEnding ending = true) :
    Member.read? (indent ++ l.literal ++ [','] ++ blanks ++ ending) = some ⟨indent, l.name, blanks, ending⟩ := by
  refine Member.read?_eq_some_iff.2 ⟨?_, ⟨hi, name_ne_nil l, inValue_name l, hb, he⟩⟩
  simp [Member.render_eq, Language.literal]

set_option maxRecDepth 100000 in
theorem exists_located (l : Language) : ∃ p t b, locate p t = .ok b ∧ l.name ∈ b.values := by
  have hp : Pattern.SingleLine ⟨['m'], ['r'], ['a']⟩ := ⟨by decide, by decide⟩
  have hb : locate ⟨['m'], ['r'], ['a']⟩ "m\nr:($)=>\nchoice(\n'a',\n'b',\n),".toList =
      .ok ⟨[], "m\nr:($)=>\nchoice(\n".toList, [⟨[], ['a'], [], ['\n']⟩, ⟨[], ['b'], [], ['\n']⟩], [')', ','], []⟩ := by
    rfl
  exact ⟨_, _, _, locate_insert hp hb l, by rw [values_insert]; simp⟩

/-! ## Both sides -/

/-- A text is taken as a name exactly if some document lists it. The members of any document are lines of it that hold a
literal and a comma behind blanks, with only blanks and the end of the line following; and such a line with the literal
of any language is read as a member with these blanks and the language's name. -/
theorem names_agree :
    (∀ name, (∃ l, Language.ofName name = .ok l) ↔ ∃ p t b, locate p t = .ok b ∧ name ∈ b.values) ∧
    (∀ p t b, locate p t = .ok b → ∀ m n, (m, n) ∈ b.numbered → (m.render, n) ∈ (lines t).zipIdx 1 ∧
      ∃ l, Language.ofName m.value = .ok l ∧ ∃ blanks k, (∀ c ∈ m.indent ++ blanks, isBlank c = true) ∧
        m.render = m.indent ++ l.literal ++ [','] ++ blanks ++ (List.replicate k '\r' ++ ['\n'])) ∧
    (∀ name l, Language.ofName name = .ok l → ∀ indent blanks ending, (∀ c ∈ indent ++ blanks, isBlank c = true) →
      isEnding ending = true →
      Member.read? (indent ++ l.literal ++ [','] ++ blanks ++ ending) = some ⟨indent, name, blanks, ending⟩) := by
  refine ⟨fun name => ⟨?_, ?_⟩, fun p t b h m n hm => ?_, fun name l hl indent blanks ending hb he => ?_⟩
  · rintro ⟨l, hl⟩
    rw [← ofName_eq_ok_iff.1 hl]
    exact exists_located l
  · rintro ⟨p, t, b, h, hv⟩
    obtain ⟨m, hm, rfl⟩ := List.mem_map.1 hv
    obtain ⟨hit, -, -, -, -, -, hproper, -⟩ := locate_eq_ok.1 h
    exact (hproper m hm).exists_language
  · obtain ⟨hproper, hline⟩ := mem_lines_of_located h hm
    obtain ⟨l, hl⟩ := hproper.exists_language
    obtain ⟨k, hk⟩ := hproper.ending
    refine ⟨hline, l, hl, m.padding, k, ?_, ?_⟩
    · simpa [or_imp, forall_and] using And.intro hproper.indent hproper.padding
    · rw [Member.render_eq, Language.literal, ofName_eq_ok_iff.1 hl, hk]
      simp
  · obtain rfl := ofName_eq_ok_iff.1 hl
    exact read?_literal l (fun c hc => hb c (List.mem_append_left _ hc))
      (fun c hc => hb c (List.mem_append_right _ hc)) he

set_option maxRecDepth 100000 in
/-- In a small document, a name with a space and a letter beyond ASCII stands on line 6, and so it could elsewhere. -/
theorem names_agree_small : (∃ l, Language.ofName "é b".toList = .ok l) ∧
    ("\t'é b', \r\r\n".toList, 6) ∈
      (lines "x\n // m\r\nr:(_$)=>\n\tchoice(\n'a',\n\t'é b', \r\r\n ), \r".toList).zipIdx 1 ∧
    Member.read? " 'é b',\r\n".toList = some ⟨[' '], "é b".toList, [], ['\r', '\n']⟩ := by
  let b : Block := ⟨"x\n".toList, " // m\r\nr:(_$)=>\n\tchoice(\n".toList,
    [⟨[], ['a'], [], ['\n']⟩, ⟨['\t'], "é b".toList, [' '], ['\r', '\r', '\n']⟩], " ), ".toList, ['\r']⟩
  have hb : locate ⟨" // m ".toList, ['r'], ['a']⟩
      "x\n // m\r\nr:(_$)=>\n\tchoice(\n'a',\n\t'é b', \r\r\n ), \r".toList = .ok b := by rfl
  obtain ⟨hnames, hmembers, hlines⟩ := names_agree
  obtain ⟨l, hl⟩ := (hnames "é b".toList).2 ⟨_, _, b, hb, by simp [b, Block.values]⟩
  have hmember := hmembers _ _ b hb ⟨['\t'], "é b".toList, [' '], ['\r', '\r', '\n']⟩ 6 (by decide)
  have hread := hlines _ l hl [' '] [] ['\r', '\n'] (by simp [isBlank]) rfl
  have hliteral : l.literal = "'é b'".toList := by
    rw [Language.literal, ofName_eq_ok_iff.1 hl]
    rfl
  rw [hliteral] at hread
  exact ⟨⟨l, hl⟩, hmember.1, hread⟩

end LanguageRoster.Choice
