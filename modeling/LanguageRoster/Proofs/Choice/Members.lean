import LanguageRoster.Choice.Locate
import LanguageRoster.Proofs.Lines

/-!
# The lines of the choice

* `Member.Proper`, `IsClosing`, `EndsLine` : what a member line, the closing line and the text behind it look like
* `Member.read?_eq_some_iff`, `closing?_eq_some_iff` : the readers of a line read exactly these
* `body_eq_ok_iff` : the lines behind a header are members up to a closing line
-/

namespace LanguageRoster.Choice

set_option autoImplicit false

open Text (IsLine AtLine lines lastInk? isInk isBlank takeWhile_run dropWhile_run of_mem_takeWhile)

/-! ## Ends of lines -/

theorem isEnding_iff {t : Text} :
    isEnding t = true ↔ ∃ n, t = List.replicate n '\r' ∨ t = List.replicate n '\r' ++ ['\n'] := by
  have hr : ∀ {n : Nat}, ∀ c ∈ List.replicate n '\r', (c == '\r') = true := fun c hc => by
    simpa using List.eq_of_mem_replicate hc
  constructor
  · intro h
    have ht : t.takeWhile (· == '\r') = List.replicate (t.takeWhile (· == '\r')).length '\r' :=
      List.eq_replicate_of_mem fun c hc => by simpa using of_mem_takeWhile hc
    have hd : t.dropWhile (· == '\r') = [] ∨ t.dropWhile (· == '\r') = ['\n'] := by simpa [isEnding] using h
    rw [← List.takeWhile_append_dropWhile (p := (· == '\r')) (l := t)]
    refine ⟨(t.takeWhile (· == '\r')).length, ?_⟩
    rcases hd with hd | hd
    · exact .inl (by rw [hd, List.append_nil, ← ht])
    · exact .inr (by rw [hd, ← ht])
  · rintro ⟨n, rfl | rfl⟩
    · have : (List.replicate n '\r').dropWhile (· == '\r') = [] := by
        rw [← List.append_nil (List.replicate n '\r'), dropWhile_run hr (by simp)]
      simp [isEnding, this]
    · have : (List.replicate n '\r' ++ ['\n']).dropWhile (· == '\r') = ['\n'] := dropWhile_run hr (by simp)
      simp [isEnding, this]

theorem head?_of_isEnding {t : Text} (h : isEnding t = true) : ∀ c ∈ t.head?, isBlank c = false := by
  intro c hc
  obtain ⟨n, rfl | rfl⟩ := isEnding_iff.1 h <;> cases n <;> simp_all [List.replicate_succ] <;> subst hc <;> rfl

theorem isInk_of_isEnding {t : Text} (h : isEnding t = true) : ∀ c ∈ t, isInk c = false := by
  intro c hc
  obtain ⟨n, rfl | rfl⟩ := isEnding_iff.1 h
  · rw [List.eq_of_mem_replicate hc]; rfl
  · rcases List.mem_append.1 hc with hc | hc
    · rw [List.eq_of_mem_replicate hc]; rfl
    · rw [List.mem_singleton.1 hc]; rfl

/-! ## Member lines -/

/-- A member line as it stands among others: blanks, the value in quotes with a comma, blanks, any number of carriage
returns, and a line feed. -/
structure Member.Proper (m : Member) : Prop where
  indent : ∀ c ∈ m.indent, isBlank c = true
  nonempty : m.value ≠ []
  value : ∀ c ∈ m.value, inValue c = true
  padding : ∀ c ∈ m.padding, isBlank c = true
  ending : ∃ n, m.ending = List.replicate n '\r' ++ ['\n']

/-- A member line, which may lack its line feed if the text ends there. -/
structure Member.Readable (m : Member) : Prop where
  indent : ∀ c ∈ m.indent, isBlank c = true
  nonempty : m.value ≠ []
  value : ∀ c ∈ m.value, inValue c = true
  padding : ∀ c ∈ m.padding, isBlank c = true
  ending : isEnding m.ending = true

theorem Member.Proper.readable {m : Member} (h : m.Proper) : m.Readable :=
  ⟨h.indent, h.nonempty, h.value, h.padding, isEnding_iff.2 (h.ending.imp fun _ h => .inr h)⟩

theorem Member.render_eq (m : Member) :
    m.render = m.indent ++ ('\'' :: (m.value ++ ('\'' :: ',' :: (m.padding ++ m.ending)))) := by
  simp [Member.render]

/-- The reader of member lines reads these lines and no others. -/
theorem Member.read?_eq_some_iff {line : Text} {m : Member} :
    Member.read? line = some m ↔ line = m.render ∧ m.Readable := by
  constructor
  · intro h
    rw [Member.read?] at h
    split at h
    · next inner hi =>
      split at h
      · next c value tail hv ht =>
        split at h
        · next he =>
          obtain rfl := Option.some.inj h
          refine ⟨?_, fun c hc => of_mem_takeWhile hc, by simp, fun d hd => of_mem_takeWhile (hv ▸ hd),
            fun d hd => of_mem_takeWhile hd, he⟩
          rw [Member.render_eq]
          simp only
          rw [List.takeWhile_append_dropWhile, ← hv, ← ht, List.takeWhile_append_dropWhile, ← hi,
            List.takeWhile_append_dropWhile]
        · exact absurd h (by simp)
      · exact absurd h (by simp)
    · exact absurd h (by simp)
  · rintro ⟨rfl, h⟩
    obtain ⟨indent, value, padding, ending⟩ := m
    obtain ⟨hi, hn, hv, hp, he⟩ := h
    simp only at hi hn hv hp he
    rw [Member.render_eq]
    simp only [Member.read?]
    rw [dropWhile_run hi (by simp; rfl), takeWhile_run hi (by simp; rfl)]
    simp only
    rw [takeWhile_run hv (by simp; rfl), dropWhile_run hv (by simp; rfl)]
    cases value with
    | nil => exact absurd rfl hn
    | cons c value =>
      simp only
      rw [dropWhile_run hp (head?_of_isEnding he), takeWhile_run hp (head?_of_isEnding he), if_pos he]

theorem Member.Readable.lastInk? {m : Member} (h : m.Readable) : lastInk? m.render = some ',' := by
  rw [Member.render_eq, show ∀ t : Text, m.indent ++ '\'' :: (m.value ++ '\'' :: ',' :: t) =
    (m.indent ++ '\'' :: (m.value ++ ['\''])) ++ ([','] ++ t) by simp, Text.lastInk?_append, Text.lastInk?_append,
    Text.lastInk?_append, Text.lastInk?_eq_none (isInk_of_isEnding h.ending), Text.lastInk?_of_blank h.padding]
  rfl

theorem notMem_of_inValue {t : Text} (h : ∀ c ∈ t, inValue c = true) : '\n' ∉ t := fun hm => absurd (h _ hm) (by decide)

theorem Member.Proper.isLine {m : Member} (h : m.Proper) : IsLine m.render := by
  obtain ⟨n, hn⟩ := h.ending
  have hb : ∀ {t : Text}, (∀ c ∈ t, isBlank c = true) → '\n' ∉ t := fun h hm => absurd (h _ hm) (by decide)
  refine ⟨m.indent ++ '\'' :: (m.value ++ '\'' :: ',' :: (m.padding ++ List.replicate n '\r')), ?_, ?_⟩
  · simp [hb h.indent, hb h.padding, notMem_of_inValue h.value, List.mem_replicate]
  · rw [Member.render_eq, hn]
    simp

/-- A member line that has its line feed is as it stands among others. -/
theorem Member.Readable.proper {m : Member} (h : m.Readable) (hl : IsLine m.render) : m.Proper := by
  refine ⟨h.indent, h.nonempty, h.value, h.padding, ?_⟩
  obtain ⟨n, hn | hn⟩ := isEnding_iff.1 h.ending
  · obtain ⟨u, -, hu⟩ := hl
    have hlast : m.render.getLast? = some '\n' := by rw [hu]; simp
    rw [Member.render_eq, hn] at hlast
    cases n with
    | zero =>
      have hp : m.padding.getLast? ≠ some '\n' := fun hm =>
        absurd (h.padding _ (List.mem_of_getLast? hm)) (by decide)
      cases hpad : m.padding.getLast? <;> simp_all [List.getLast?_append, List.getLast?_cons]
    | succ n => simp [List.replicate_succ', List.getLast?_append, List.getLast?_cons] at hlast
  · exact ⟨n, hn⟩

/-! ## The closing line -/

/-- The line that closes the choice, without its end. -/
def IsClosing (t : Text) : Prop :=
  ∃ u v, (∀ c ∈ u, isBlank c = true) ∧ (∀ c ∈ v, isBlank c = true) ∧ t = u ++ ')' :: ',' :: v

/-- The text starts with any number of carriage returns, behind which a line or the whole text ends. -/
def EndsLine (t : Text) : Prop :=
  ∃ n, t = List.replicate n '\r' ∨ ∃ rest, t = List.replicate n '\r' ++ '\n' :: rest

/-- The reader of the closing line reads these lines and no others. -/
theorem closing?_eq_some_iff {line closing ending : Text} :
    closing? line = some (closing, ending) ↔ line = closing ++ ending ∧ IsClosing closing ∧ isEnding ending = true := by
  constructor
  · intro h
    rw [closing?] at h
    split at h
    · next tail ht =>
      split at h
      · next he =>
        obtain ⟨rfl, rfl⟩ := Prod.mk.inj (Option.some.inj h)
        refine ⟨?_, ⟨_, _, fun c hc => of_mem_takeWhile hc, fun c hc => of_mem_takeWhile hc, rfl⟩, he⟩
        rw [List.append_assoc, List.cons_append, List.cons_append, List.takeWhile_append_dropWhile, ← ht,
          List.takeWhile_append_dropWhile]
      · exact absurd h (by simp)
    · exact absurd h (by simp)
  · rintro ⟨rfl, ⟨u, v, hu, hv, rfl⟩, he⟩
    rw [closing?, List.append_assoc, List.cons_append, List.cons_append, dropWhile_run hu (by simp; rfl),
      takeWhile_run hu (by simp; rfl)]
    simp only
    rw [dropWhile_run hv (head?_of_isEnding he), takeWhile_run hv (head?_of_isEnding he), if_pos he]

theorem lastInk?_closing {closing ending : Text} (hc : IsClosing closing) (he : isEnding ending = true) :
    lastInk? (closing ++ ending) = some ',' := by
  obtain ⟨u, v, -, hv, rfl⟩ := hc
  rw [show u ++ ')' :: ',' :: v = (u ++ [')', ',']) ++ v by simp, Text.lastInk?_append, Text.lastInk?_append,
    Text.lastInk?_append, Text.lastInk?_eq_none (isInk_of_isEnding he), Text.lastInk?_of_blank hv]
  rfl

theorem IsClosing.notMem {t : Text} (h : IsClosing t) : '\n' ∉ t := by
  obtain ⟨u, v, hu, hv, rfl⟩ := h
  have hb : ∀ {t : Text}, (∀ c ∈ t, isBlank c = true) → '\n' ∉ t := fun h hm => absurd (h _ hm) (by decide)
  simp [hb hu, hb hv]

theorem IsClosing.ne_nil {t : Text} (h : IsClosing t) : t ≠ [] := by
  obtain ⟨u, v, -, -, rfl⟩ := h
  simp

theorem read?_closing {closing ending : Text} (hc : IsClosing closing) : Member.read? (closing ++ ending) = none := by
  obtain ⟨u, v, hu, -, rfl⟩ := hc
  rw [Member.read?, List.append_assoc, List.cons_append, dropWhile_run hu (by simp; rfl)]
  rfl

/-- The lines of a closing line and what follows it. -/
theorem lines_closing {closing after : Text} (hc : IsClosing closing) (ha : EndsLine after) :
    ∃ ending more, lines (closing ++ after) = (closing ++ ending) :: more ∧ isEnding ending = true ∧
      ending ++ more.flatten = after := by
  obtain ⟨n, rfl | ⟨rest, rfl⟩⟩ := ha
  · refine ⟨List.replicate n '\r', [], ?_, isEnding_iff.2 ⟨n, .inl rfl⟩, by simp⟩
    exact Text.lines_of_notMem (by simp [hc.notMem, List.mem_replicate]) (by simp [hc.ne_nil])
  · refine ⟨List.replicate n '\r' ++ ['\n'], lines rest, ?_, isEnding_iff.2 ⟨n, .inr rfl⟩, by simp⟩
    rw [← List.append_assoc, Text.lines_append_lineFeed rest (by simp [hc.notMem, List.mem_replicate])]
    simp

theorem endsLine_of_isEnding {ending : Text} {line : Text} {more : List Text} (he : isEnding ending = true)
    (hl : lines (line ++ ending ++ more.flatten) = (line ++ ending) :: more) (hn : '\n' ∉ line) :
    EndsLine (ending ++ more.flatten) := by
  obtain ⟨n, rfl | rfl⟩ := isEnding_iff.1 he
  · by_cases hm : more = []
    · exact ⟨n, .inl (by simp [hm])⟩
    · obtain ⟨u, -, hu⟩ := Text.isLine_of_lines hl hm
      have hmem : '\n' ∈ line ++ List.replicate n '\r' := by rw [hu]; simp
      simp [hn, List.mem_replicate] at hmem
  · exact ⟨n, .inr ⟨more.flatten, by simp⟩⟩

/-! ## The body -/

/-- The lines behind a header are members up to a closing line. -/
theorem body_eq_ok_iff {rule t closing after : Text} {n : Nat} {ms : List Member} :
    body rule n (lines t) = .ok (ms, closing, after) ↔
      t = ms.flatMap Member.render ++ closing ++ after ∧ (∀ m ∈ ms, m.Proper) ∧ IsClosing closing ∧
        EndsLine after := by
  constructor
  · intro h
    generalize hl : lines t = ls at h
    induction ls generalizing t n ms with
    | nil => exact absurd h (by simp [body])
    | cons line more ih =>
      have ht : t = line ++ more.flatten := by rw [← Text.flatten_lines t, hl, List.flatten_cons]
      rw [body] at h
      split at h
      · next m hm =>
        obtain ⟨rfl, hr⟩ := Member.read?_eq_some_iff.1 hm
        split at h
        · next ms' closing' after' hb =>
          obtain ⟨rfl, rfl, rfl⟩ : m :: ms' = ms ∧ closing' = closing ∧ after' = after := by simpa using h
          have hne : more ≠ [] := by rintro rfl; simp [body] at hb
          obtain ⟨hf, hp, hc, ha⟩ := ih (Text.lines_flatten_tail hl) hb
          refine ⟨by rw [ht, hf]; simp, ?_, hc, ha⟩
          simpa using ⟨hr.proper (Text.isLine_of_lines hl hne), hp⟩
        · exact absurd h (by simp)
      · split at h
        · next closing' ending hc =>
          obtain ⟨rfl, hcl, he⟩ := closing?_eq_some_iff.1 hc
          obtain ⟨rfl, rfl, rfl⟩ : [] = ms ∧ closing' = closing ∧ ending ++ more.flatten = after := by simpa using h
          refine ⟨by rw [ht]; simp, by simp, hcl, endsLine_of_isEnding he ?_ hcl.notMem⟩
          rw [← ht, hl]
        · exact absurd h (by simp)
  · rintro ⟨rfl, hp, hc, ha⟩
    induction ms generalizing n with
    | nil =>
      obtain ⟨ending, more, hl, he, hf⟩ := lines_closing hc ha
      rw [List.flatMap_nil, List.nil_append, hl, body, read?_closing hc]
      simp only
      rw [closing?_eq_some_iff.2 ⟨rfl, hc, he⟩]
      simp only [hf]
    | cons m ms ih =>
      have hm : m.Proper := hp m List.mem_cons_self
      rw [List.flatMap_cons, List.append_assoc, List.append_assoc, Text.lines_line_append _ hm.isLine, body,
        Member.read?_eq_some_iff.2 ⟨rfl, hm.readable⟩]
      simp only
      rw [← List.append_assoc, ih fun x hx => hp x (List.mem_cons_of_mem _ hx)]

end LanguageRoster.Choice
