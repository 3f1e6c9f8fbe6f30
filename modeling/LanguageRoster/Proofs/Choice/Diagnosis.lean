import LanguageRoster.Proofs.Choice.Scan

/-!
# What is wrong with a document

Of a document that holds no choice, `locate` tells what is wrong first.

* `IsMember`, `Closes` : the lines that a choice is made of
* `exists_members` : lines are members up to the first that is none; `body_members` reads past the members
* `Pattern.Sole` : the only header that is found; `locate_of_sole`
* `Pattern.Diagnosed p t e` : what is wrong, read off the text
* `locate_diagnoses` : `locate` reports what is wrong, and nothing else
-/

namespace LanguageRoster.Choice

set_option autoImplicit false

open Text (lines lineFeeds)

/-! ## Lines -/

/-- The line is one of the choice's members. -/
def IsMember (line : Text) : Prop := ∃ m : Member, m.Readable ∧ line = m.render

/-- The line closes the choice. -/
def Closes (line : Text) : Prop :=
  ∃ closing ending, IsClosing closing ∧ isEnding ending = true ∧ line = closing ++ ending

theorem read?_eq_none_iff {line : Text} : Member.read? line = none ↔ ¬ IsMember line := by
  rw [Option.eq_none_iff_forall_ne_some]
  constructor
  · rintro h ⟨m, hm, hline⟩
    exact h m (Member.read?_eq_some_iff.2 ⟨hline, hm⟩)
  · intro h m hm
    obtain ⟨hline, hr⟩ := Member.read?_eq_some_iff.1 hm
    exact h ⟨m, hr, hline⟩

theorem closing?_eq_none_iff {line : Text} : closing? line = none ↔ ¬ Closes line := by
  rw [Option.eq_none_iff_forall_ne_some]
  constructor
  · rintro h ⟨closing, ending, hc, he, hline⟩
    exact h (closing, ending) (closing?_eq_some_iff.2 ⟨hline, hc, he⟩)
  · rintro h ⟨closing, ending⟩ hce
    obtain ⟨hline, hc, he⟩ := closing?_eq_some_iff.1 hce
    exact h ⟨closing, ending, hc, he, hline⟩

/-- Lines are members up to the first that is none. -/
theorem exists_members (ls : List Text) : ∃ (ms : List Member) (tail : List Text), ls = ms.map Member.render ++ tail ∧
    (∀ m ∈ ms, m.Readable) ∧ (tail = [] ∨ ∃ line more, tail = line :: more ∧ ¬ IsMember line) := by
  induction ls with
  | nil => exact ⟨[], [], rfl, by simp, .inl rfl⟩
  | cons line ls ih =>
    by_cases hline : IsMember line
    · obtain ⟨m, hm, rfl⟩ := hline
      obtain ⟨ms, tail, rfl, hms, htail⟩ := ih
      exact ⟨m :: ms, tail, rfl, by simpa using ⟨hm, hms⟩, htail⟩
    · exact ⟨[], line :: ls, rfl, by simp, .inr ⟨line, ls, rfl, hline⟩⟩

section

variable {rule : Text} {ms : List Member}

/-- The members are read one after another, and the lines behind them keep their numbers. -/
theorem body_members (hms : ∀ m ∈ ms, m.Readable) (n : Nat) (ls : List Text) :
    body rule n (ms.map Member.render ++ ls) =
      (body rule (n + ms.length) ls).map fun (more, closing, after) => (ms ++ more, closing, after) := by
  induction ms generalizing n with
  | nil =>
    rw [List.map_nil, List.nil_append, List.length_nil, Nat.add_zero]
    cases body rule n ls <;> rfl
  | cons m ms ih =>
    have hread : Member.read? m.render = some m := Member.read?_eq_some_iff.2 ⟨rfl, hms m List.mem_cons_self⟩
    rw [List.map_cons, List.cons_append, body, hread]
    simp only
    rw [ih (fun x hx => hms x (List.mem_cons_of_mem _ hx)), List.length_cons, Nat.add_right_comm, Nat.add_assoc]
    cases body rule (n + (ms.length + 1)) ls <;> rfl

theorem body_unterminated (hms : ∀ m ∈ ms, m.Readable) (n : Nat) :
    body rule n (ms.map Member.render) = .error (.unterminated (n + ms.length) rule) := by
  rw [← List.append_nil (ms.map Member.render), body_members hms]
  rfl

theorem body_unexpected (hms : ∀ m ∈ ms, m.Readable) (n : Nat) {line : Text} (hmember : ¬ IsMember line)
    (hcloses : ¬ Closes line) (more : List Text) :
    body rule n (ms.map Member.render ++ line :: more) = .error (.unexpectedLine (n + ms.length) line.trim) := by
  rw [body_members hms, body, read?_eq_none_iff.2 hmember]
  simp only
  rw [closing?_eq_none_iff.2 hcloses]
  rfl

theorem body_closing (hms : ∀ m ∈ ms, m.Readable) (n : Nat) {closing ending : Text} (hc : IsClosing closing)
    (he : isEnding ending = true) (more : List Text) :
    body rule n (ms.map Member.render ++ (closing ++ ending) :: more) = .ok (ms, closing, ending ++ more.flatten) := by
  rw [body_members hms, body, read?_closing hc]
  simp only
  rw [closing?_eq_some_iff.2 ⟨rfl, hc, he⟩]
  simp only [Except.map, List.append_nil]

end

/-! ## Choices that are closed -/

/-- The text is a choice with these members, from behind its header on, and what follows it. -/
structure Closed (rest : Text) (ms : List Member) (closing after : Text) : Prop where
  text : rest = ms.flatMap Member.render ++ closing ++ after
  members : ∀ m ∈ ms, m.Proper
  closing : IsClosing closing
  after : EndsLine after

theorem body_eq_ok_iff_closed {rule rest closing after : Text} {n : Nat} {ms : List Member} :
    body rule n (lines rest) = .ok (ms, closing, after) ↔ Closed rest ms closing after := by
  rw [body_eq_ok_iff]
  exact ⟨fun ⟨h₁, h₂, h₃, h₄⟩ => ⟨h₁, h₂, h₃, h₄⟩, fun h => ⟨h.text, h.members, h.closing, h.after⟩⟩

/-! ## Diagnoses -/

variable {p : Pattern} {t before header rest : Text}

structure Pattern.Sole (p : Pattern) (t before header rest : Text) : Prop where
  first : p.First t before header rest
  once : p.Scanned t 1

/-- What is wrong with a document first. The header is missing, or there are several. Or else, in the lines behind the
only header, the first that is no member closes nothing; or there is no such line; or the choice is closed, but is
empty, starts with another member than the anchor, or has no other. -/
inductive Pattern.Diagnosed (p : Pattern) (t : Text) : Mismatch → Prop where
  | headerNotFound (nowhere : ∀ before, ¬ p.HeaderAt t before) :
    Diagnosed p t (.headerNotFound p.marker.trim p.rule)
  | ambiguous {n : Nat} (scanned : p.Scanned t n) (several : 2 ≤ n) : Diagnosed p t (.ambiguous p.rule n)
  | unexpectedLine {before header rest line : Text} {ms : List Member} {more : List Text}
    (sole : p.Sole t before header rest) (behind : lines rest = ms.map Member.render ++ line :: more)
    (members : ∀ m ∈ ms, m.Readable) (noMember : ¬ IsMember line) (noClosing : ¬ Closes line) :
    Diagnosed p t
      (.unexpectedLine (1 + lineFeeds (before ++ header ++ ms.flatMap Member.render)) line.trim)
  /-- The last line of the text is the last member, or the last line of the header; the number is that behind it. -/
  | unterminated {before header rest : Text} (sole : p.Sole t before header rest)
    (members : ∀ line ∈ lines rest, IsMember line) :
    Diagnosed p t (.unterminated ((lines t).length + 1) p.rule)
  | emptyChoice {before header rest closing after : Text} (sole : p.Sole t before header rest)
    (closed : Closed rest [] closing after) : Diagnosed p t (.missingAnchor p.rule p.anchor none)
  | otherFirst {before header rest closing after : Text} {first : Member} {others : List Member}
    (sole : p.Sole t before header rest) (closed : Closed rest (first :: others) closing after)
    (other : first.value ≠ p.anchor) :
    Diagnosed p t
      (.missingAnchor p.rule p.anchor (some (first.value, 1 + lineFeeds (before ++ header))))
  | noLanguages {before header rest closing after : Text} {only : Member} (sole : p.Sole t before header rest)
    (closed : Closed rest [only] closing after) (anchor : only.value = p.anchor) :
    Diagnosed p t (.noLanguages p.rule p.anchor)

/-- With one header, the lines behind it decide. -/
theorem locate_of_sole (h : p.Sole t before header rest) : locate p t =
    match body p.rule (1 + lineFeeds (before ++ header)) (lines rest) with
    | .error e => .error e
    | .ok (members, closing, after) => Block.check p ⟨before, header, members, closing, after⟩ := by
  have hcount : count p 0 true rest = 0 := by
    have hone := count_of_first h.first
    rw [scanned_iff.1 h.once] at hone
    omega
  unfold locate
  cases hb : body p.rule (1 + lineFeeds (before ++ header)) (lines rest) with
  | error e => simp only [find?_eq_some_iff_first.2 h.first, hcount, hb]
  | ok r => simp only [find?_eq_some_iff_first.2 h.first, hcount, hb]

/-- Members that other lines follow have their line feeds. -/
theorem proper_of_lines {ms : List Member} {line : Text} {more : List Text}
    (h : lines rest = ms.map Member.render ++ line :: more) (hms : ∀ m ∈ ms, m.Readable) : ∀ m ∈ ms, m.Proper := by
  induction ms generalizing rest with
  | nil => simp
  | cons m ms ih =>
    rw [List.map_cons, List.cons_append] at h
    have hm : m.Proper := (hms m List.mem_cons_self).proper (Text.isLine_of_lines h (by simp))
    have htail := ih (Text.lines_flatten_tail h) fun x hx => hms x (List.mem_cons_of_mem _ hx)
    intro x hx
    rcases List.mem_cons.1 hx with rfl | hx
    · exact hm
    · exact htail x hx

theorem number_of_lines {ms : List Member} {line : Text} {more : List Text}
    (h : lines rest = ms.map Member.render ++ line :: more) (hms : ∀ m ∈ ms, m.Readable) :
    1 + lineFeeds (before ++ header) + ms.length =
      1 + lineFeeds (before ++ header ++ ms.flatMap Member.render) := by
  rw [Text.lineFeeds_append (before ++ header), lineFeeds_members (proper_of_lines h hms), Nat.add_assoc]

theorem length_lines_of_first (h : p.First t before header rest) :
    (lines t).length = lineFeeds (before ++ header) + (lines rest).length := by
  rw [h.text, Text.lines_append _ h.atLine_behind, List.length_append, Text.length_lines h.atLine_behind]

theorem Pattern.Diagnosed.locate {e : Mismatch} (h : p.Diagnosed t e) : locate p t = .error e := by
  cases h with
  | headerNotFound nowhere =>
    rw [Choice.locate, find?_eq_none_iff.2 (absent_iff.2 nowhere)]
  | ambiguous scanned several =>
    cases scanned with
    | none => exact absurd several (by decide)
    | @more _ before header rest n first behind =>
      obtain ⟨k, rfl⟩ : ∃ k, n = k + 1 := ⟨n - 1, by omega⟩
      rw [Choice.locate, find?_eq_some_iff_first.2 first]
      simp only [scanned_iff.1 behind]
  | unexpectedLine sole behind members noMember noClosing =>
    rw [locate_of_sole sole, behind, body_unexpected members _ noMember noClosing,
      number_of_lines behind members]
  | @unterminated before header rest sole members =>
    obtain ⟨ms, tail, hlines, hms, htail⟩ := exists_members (lines rest)
    obtain rfl : tail = [] := by
      refine htail.resolve_right ?_
      rintro ⟨line, more, rfl, hline⟩
      exact hline (members line (by rw [hlines]; simp))
    rw [List.append_nil] at hlines
    have hnumber : 1 + lineFeeds (before ++ header) + ms.length = (lines t).length + 1 := by
      rw [length_lines_of_first sole.first, hlines, List.length_map]
      omega
    rw [locate_of_sole sole, hlines, body_unterminated hms, hnumber]
  | emptyChoice sole closed =>
    rw [locate_of_sole sole, body_eq_ok_iff_closed.2 closed]
    rfl
  | otherFirst sole closed other =>
    rw [locate_of_sole sole, body_eq_ok_iff_closed.2 closed]
    exact if_pos other
  | noLanguages sole closed anchor =>
    rw [locate_of_sole sole, body_eq_ok_iff_closed.2 closed]
    exact (if_neg (not_not_intro anchor)).trans (if_pos rfl)

theorem exists_closed {ms : List Member} {line : Text} {more : List Text}
    (h : lines rest = ms.map Member.render ++ line :: more) (hms : ∀ m ∈ ms, m.Readable) (hcloses : Closes line) :
    ∃ closing after, Closed rest ms closing after := by
  obtain ⟨closing, ending, hc, he, rfl⟩ := hcloses
  have hbody : body [] 0 (lines rest) = .ok (ms, closing, ending ++ more.flatten) := by
    rw [h, body_closing hms 0 hc he more]
  exact ⟨_, _, body_eq_ok_iff_closed.1 hbody⟩

/-- A choice that is closed starts with the anchor and goes on, or else it is known what is wrong. -/
theorem Closed.ok_or_diagnosed {ms : List Member} {closing after : Text} (closed : Closed rest ms closing after)
    (sole : p.Sole t before header rest) : (∃ b, locate p t = .ok b) ∨ ∃ e, p.Diagnosed t e := by
  cases ms with
  | nil => exact .inr ⟨_, .emptyChoice sole closed⟩
  | cons first others =>
    by_cases hanchor : first.value = p.anchor
    · cases others with
      | nil => exact .inr ⟨_, .noLanguages sole closed hanchor⟩
      | cons second more =>
        refine .inl ⟨⟨before, header, first :: second :: more, closing, after⟩, ?_⟩
        rw [locate_of_sole sole, body_eq_ok_iff_closed.2 closed]
        exact Block.check_eq_ok_iff.2 ⟨rfl, first, second, more, rfl, hanchor⟩
    · exact .inr ⟨_, .otherFirst sole closed hanchor⟩

theorem Pattern.Sole.ok_or_diagnosed (sole : p.Sole t before header rest) :
    (∃ b, Choice.locate p t = .ok b) ∨ ∃ e, p.Diagnosed t e := by
  obtain ⟨ms, tail, hlines, hms, rfl | ⟨line, more, rfl, hline⟩⟩ := exists_members (lines rest)
  · refine .inr ⟨_, .unterminated sole fun line hl => ?_⟩
    rw [hlines, List.append_nil] at hl
    obtain ⟨m, hm, rfl⟩ := List.mem_map.1 hl
    exact ⟨m, hms m hm, rfl⟩
  · by_cases hcloses : Closes line
    · obtain ⟨closing, after, closed⟩ := exists_closed hlines hms hcloses
      exact closed.ok_or_diagnosed sole
    · exact .inr ⟨_, .unexpectedLine sole hlines hms hline hcloses⟩

/-- Where no choice is found, something is wrong. -/
theorem ok_or_diagnosed (p : Pattern) (t : Text) : (∃ b, locate p t = .ok b) ∨ ∃ e, p.Diagnosed t e := by
  have hscan : p.Scanned t (count p 0 true t) := scanned_iff.2 rfl
  cases hn : count p 0 true t with
  | zero =>
    have habs := count_eq_zero_iff.1 hn
    exact .inr ⟨_, .headerNotFound (absent_iff.1 habs)⟩
  | succ n =>
    rw [hn] at hscan
    cases n with
    | succ n => exact .inr ⟨_, .ambiguous hscan (by omega)⟩
    | zero =>
      have once := hscan
      cases hscan with
      | more first _ => exact Pattern.Sole.ok_or_diagnosed ⟨first, once⟩

/-- `locate` reports what is wrong with a document first, and nothing else. -/
theorem locate_diagnoses (p : Pattern) (t : Text) (e : Mismatch) : locate p t = .error e ↔ p.Diagnosed t e := by
  constructor
  · intro h
    rcases ok_or_diagnosed p t with ⟨b, hb⟩ | ⟨e', he'⟩
    · exact absurd (h.symm.trans hb) (by simp)
    · have hreport : Except.error e = Except.error e' := h.symm.trans he'.locate
      rw [Except.error.inj hreport]
      exact he'
  · exact Pattern.Diagnosed.locate

end LanguageRoster.Choice
