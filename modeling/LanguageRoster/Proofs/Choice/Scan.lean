import LanguageRoster.Proofs.Choice.Locate

/-!
# Headers from left to right

A header is looked for behind the last one, so that headers that overlap it are passed over.

* `Pattern.First p t before header rest` : the first header of the text, and what stands before and behind it;
  `find?_eq_some_iff_first`
* `Pattern.Scanned p t n` : from left to right, the text has `n` headers; `scanned_iff`, so `n` is known from the text
-/

namespace LanguageRoster.Choice

set_option autoImplicit false

open Text (AtLine opens)

variable {p : Pattern} {t before header rest : Text}

/-! ## The first header -/

/-- The first header of the text, with what stands before and behind it. -/
structure Pattern.First (p : Pattern) (t before header rest : Text) : Prop where
  text : t = before ++ header ++ rest
  atLine : AtLine before
  spells : Spells p.header header
  first : ∀ other, p.HeaderAt t other → before.length ≤ other.length

theorem Pattern.First.headerAt (h : p.First t before header rest) : p.HeaderAt t before :=
  ⟨h.atLine, header, rest, h.text, h.spells⟩

theorem Pattern.First.unique {before' header' rest' : Text} (h : p.First t before header rest)
    (h' : p.First t before' header' rest') : before = before' ∧ header = header' ∧ rest = rest' := by
  have hlen : before.length = before'.length :=
    Nat.le_antisymm (h.first before' h'.headerAt) (h'.first before h.headerAt)
  have htext : before ++ (header ++ rest) = before' ++ (header' ++ rest') := by
    rw [← List.append_assoc, ← h.text, h'.text, List.append_assoc]
  obtain ⟨hbefore, hbehind⟩ := List.append_inj htext hlen
  obtain ⟨hheader, hrest⟩ := header_unique h.spells h'.spells hbehind
  exact ⟨hbefore, hheader, hrest⟩

theorem opens_header {h : Text} (hh : Spells p.header h) (start : Bool) : opens start h = true := by
  obtain ⟨a, b, c, rfl, -, -, hc⟩ := spells_header_iff.1 hh
  obtain ⟨u, -, rfl⟩ := isLine_choiceLine hc
  rw [Text.opens_append, Text.opens_append]
  rfl

theorem Pattern.First.atLine_behind (h : p.First t before header rest) : AtLine (before ++ header) := by
  rw [Text.atLine_iff_opens, Text.opens_append, opens_header h.spells]

theorem absent_iff : p.Absent true t ↔ ∀ before, ¬ p.HeaderAt t before := by
  constructor
  · rintro h before ⟨hb, k, rest, ht, hk⟩
    have hnone := h before (k ++ rest) (by rw [ht, List.append_assoc]) (Text.atLine_iff_opens.1 hb)
    rw [behind?_eq_some_iff.2 ⟨k, hk, rfl⟩] at hnone
    exact absurd hnone (by simp)
  · intro h a b hab ha
    rw [Option.eq_none_iff_forall_ne_some]
    intro rest hr
    obtain ⟨k, hk, rfl⟩ := behind?_eq_some_iff.1 hr
    exact h a ⟨Text.atLine_iff_opens.2 ha, k, rest, by rw [hab, List.append_assoc], hk⟩

theorem first_of_find? {hit : Hit} (h : find? p true t = some hit) : p.First t hit.before hit.header hit.rest := by
  obtain ⟨ht, hsp, ho, hfirst⟩ := find?_eq_some h
  refine ⟨ht, Text.atLine_iff_opens.2 ho, hsp, ?_⟩
  rintro other ⟨hother, k, rest, htext, hk⟩
  rw [List.append_assoc] at htext
  apply hfirst other (k ++ rest) htext (Text.atLine_iff_opens.1 hother)
  rw [behind?_eq_some_iff.2 ⟨k, hk, rfl⟩]
  simp

theorem find?_eq_some_iff_first : find? p true t = some ⟨before, header, rest⟩ ↔ p.First t before header rest := by
  constructor
  · exact first_of_find?
  · intro h
    cases hf : find? p true t with
    | none => exact absurd h.headerAt (absent_iff.1 (find?_eq_none_iff.1 hf) before)
    | some hit =>
      obtain ⟨rfl, rfl, rfl⟩ := h.unique (first_of_find? hf)
      rfl

/-! ## All headers -/

/-- From left to right, where each is looked for behind the last, the text has this many headers. -/
inductive Pattern.Scanned (p : Pattern) : Text → Nat → Prop where
  | none {t : Text} (h : ∀ before, ¬ p.HeaderAt t before) : Scanned p t 0
  | more {t before header rest : Text} {n : Nat} (h : p.First t before header rest) (behind : Scanned p rest n) :
    Scanned p t (n + 1)

theorem count_skip (u v : Text) (start : Bool) : count p u.length start (u ++ v) = count p 0 (opens start u) v := by
  induction u generalizing start with
  | nil => rfl
  | cons c u ih => exact ih (c == '\n')

theorem count_eq (start : Bool) (t : Text) : count p 0 start t =
    match find? p start t with
    | none => 0
    | some hit => 1 + count p 0 true hit.rest := by
  induction t generalizing start with
  | nil => rfl
  | cons c t ih =>
    rw [count, find?]
    split
    · next rest hr =>
      cases start with
      | false => exact absurd hr (by simp)
      | true =>
        obtain ⟨h, hh, hct⟩ := behind?_eq_some_iff.1 hr
        obtain ⟨d, h', rfl⟩ := List.exists_cons_of_ne_nil (header_ne_nil hh)
        obtain ⟨rfl, rfl⟩ := List.cons.inj hct
        have hlen : (h'.append rest).length - rest.length = h'.length := by simp
        have hopens : opens (c == '\n') h' = true := opens_header hh true
        rw [hlen]
        exact congrArg (1 + ·) ((count_skip h' rest _).trans (by rw [hopens]))
    · rw [ih]
      cases find? p (c == '\n') t with
      | none => rfl
      | some hit => rfl

theorem count_of_first (h : p.First t before header rest) : count p 0 true t = count p 0 true rest + 1 := by
  rw [count_eq, find?_eq_some_iff_first.2 h, Nat.add_comm]

theorem scanned_iff {n : Nat} : p.Scanned t n ↔ count p 0 true t = n := by
  constructor
  · intro h
    induction h with
    | none h => exact count_eq_zero_iff.2 (absent_iff.2 h)
    | more h _ ih => rw [count_of_first h, ih]
  · induction hlen : t.length using Nat.strongRecOn generalizing t n with
    | ind k ih =>
      rintro rfl
      cases hf : find? p true t with
      | none =>
        have habs := find?_eq_none_iff.1 hf
        rw [count_eq_zero_iff.2 habs]
        exact .none (absent_iff.1 habs)
      | some hit =>
        have h := first_of_find? hf
        rw [count_of_first h]
        refine .more h (ih hit.rest.length ?_ rfl rfl)
        have hpos := List.length_pos_iff.2 (header_ne_nil h.spells)
        rw [← hlen, h.text, List.length_append, List.length_append]
        omega

end LanguageRoster.Choice
