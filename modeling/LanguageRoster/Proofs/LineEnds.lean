import LanguageRoster.Proofs.Lines

/-!
# Line ends of both kinds

A text whose lines end in line feeds, and the same text with a carriage return before each of them.

* `Text.crlf` : the text with a carriage return before each line feed; `lines_crlf`, `lineFeeds_crlf`
* `exists_of_crlf_eq_append` : where lines start in the converted text
* `Text.Plain` : the lines of a text without carriage returns; `trim_crlf`
-/

namespace LanguageRoster

set_option autoImplicit false

namespace Text

/-! ## Conversion -/

def crlf (t : Text) : Text := t.flatMap fun c => if c = '\n' then ['\r', '\n'] else [c]

@[simp] theorem crlf_nil : crlf [] = [] := rfl

@[simp] theorem crlf_append (s t : Text) : crlf (s ++ t) = crlf s ++ crlf t := List.flatMap_append

theorem crlf_of_notMem {t : Text} (h : '\n' ∉ t) : crlf t = t := by
  induction t with
  | nil => rfl
  | cons c t ih =>
    have hc : c ≠ '\n' := fun e => h (e ▸ List.mem_cons_self)
    rw [crlf, List.flatMap_cons, if_neg hc, List.singleton_append]
    exact congrArg (c :: ·) (ih fun hm => h (List.mem_cons_of_mem _ hm))

theorem crlf_line {u : Text} (h : '\n' ∉ u) : crlf (u ++ ['\n']) = u ++ ['\r', '\n'] := by
  rw [crlf_append, crlf_of_notMem h]
  rfl

theorem crlf_flatten (ls : List Text) : crlf ls.flatten = (ls.map crlf).flatten := by
  induction ls with
  | nil => rfl
  | cons l ls ih => rw [List.flatten_cons, crlf_append, ih, List.map_cons, List.flatten_cons]

@[simp] theorem lineFeeds_crlf (t : Text) : lineFeeds (crlf t) = lineFeeds t := by
  induction t with
  | nil => rfl
  | cons c t ih =>
    rw [← List.singleton_append, crlf_append, lineFeeds_append, lineFeeds_append, ih]
    congr 1
    by_cases hc : c = '\n'
    · rw [hc]; rfl
    · rw [crlf_of_notMem (by simpa using Ne.symm hc)]

theorem lineFeed_mem_crlf {t : Text} : '\n' ∈ crlf t ↔ '\n' ∈ t := by
  have h := lineFeeds_crlf t
  unfold lineFeeds at h
  rw [← List.count_pos_iff, h, List.count_pos_iff]

theorem isLine_crlf {l : Text} (h : IsLine l) : IsLine (crlf l) := by
  obtain ⟨u, hu, rfl⟩ := h
  exact ⟨u ++ ['\r'], by simp [hu], by rw [crlf_line hu]; simp⟩

@[simp] theorem lines_crlf (t : Text) : lines (crlf t) = (lines t).map crlf := by
  induction t using lines_induction with
  | nil => rfl
  | last u hn hu => rw [crlf_of_notMem hu, lines_of_notMem hu hn, List.map_singleton, crlf_of_notMem hu]
  | line l t hl ih =>
    rw [crlf_append, lines_line_append _ (isLine_crlf hl), ih, lines_line_append _ hl, List.map_cons]

theorem getLast?_crlf (t : Text) : (crlf t).getLast? = t.getLast? := by
  rcases List.eq_nil_or_concat t with rfl | ⟨s, c, rfl⟩
  · rfl
  · rw [List.concat_eq_append, crlf_append]
    by_cases hc : c = '\n'
    · subst hc
      rw [show crlf ['\n'] = ['\r', '\n'] from rfl]
      simp
    · rw [crlf_of_notMem (t := [c]) (by simpa using Ne.symm hc)]
      simp

theorem atLine_crlf {t : Text} : AtLine (crlf t) ↔ AtLine t := by
  have hnil : crlf t = [] ↔ t = [] := by
    rw [← List.getLast?_eq_none_iff, getLast?_crlf, List.getLast?_eq_none_iff]
  unfold AtLine
  rw [hnil, getLast?_crlf]

/-- Where a line of the converted text starts, one of the text does. -/
theorem exists_of_crlf_eq_append {t x y : Text} (h : crlf t = x ++ y) (hx : AtLine x) :
    ∃ a b, t = a ++ b ∧ AtLine a ∧ x = crlf a ∧ y = crlf b := by
  have hl : (lines t).map crlf = lines x ++ lines y := by rw [← lines_crlf, h, lines_append y hx]
  obtain ⟨ls, ms, hlm, hls, hms⟩ := List.map_eq_append_iff.1 hl
  have hx' : x = crlf ls.flatten := by rw [crlf_flatten, hls, flatten_lines]
  have hy' : y = crlf ms.flatten := by rw [crlf_flatten, hms, flatten_lines]
  refine ⟨ls.flatten, ms.flatten, ?_, atLine_crlf.1 (hx' ▸ hx), hx', hy'⟩
  rw [← flatten_lines t, hlm, List.flatten_append]

/-! ## Lines without a carriage return -/

def inLine (c : Char) : Bool := c != '\r' && c != '\n'

theorem notMem_of_inLine {u : Text} (h : ∀ c ∈ u, inLine c = true) : '\n' ∉ u := fun hm => absurd (h _ hm) (by decide)

/-- A line in a text without carriage returns: it may have a line feed at its end. -/
def Plain (l : Text) : Prop := ∃ u e, l = u ++ e ∧ (∀ c ∈ u, inLine c = true) ∧ (e = [] ∨ e = ['\n'])

theorem plain_of_mem_lines {t : Text} (ht : '\r' ∉ t) : ∀ l ∈ lines t, Plain l := by
  have hin : ∀ {u : Text}, '\r' ∉ u → '\n' ∉ u → ∀ c ∈ u, inLine c = true := by
    intro u hr hn c hc
    have h₁ : c ≠ '\r' := fun e => hr (e ▸ hc)
    have h₂ : c ≠ '\n' := fun e => hn (e ▸ hc)
    simp [inLine, h₁, h₂]
  induction t using lines_induction with
  | nil => simp [lines]
  | last u hn hu =>
    rw [lines_of_notMem hu hn]
    intro l hl
    rw [List.mem_singleton.1 hl]
    exact ⟨u, [], by simp, hin ht hu, .inl rfl⟩
  | line k t hk ih =>
    rw [List.mem_append, not_or] at ht
    rw [lines_line_append _ hk]
    intro l hl
    rcases List.mem_cons.1 hl with rfl | hl
    · obtain ⟨u, hu, rfl⟩ := hk
      exact ⟨u, ['\n'], rfl, hin (fun hm => ht.1 (List.mem_append_left _ hm)) hu, .inr rfl⟩
    · exact ih ht.2 l hl

theorem crlf_plain {u e : Text} (hu : ∀ c ∈ u, inLine c = true) : crlf (u ++ e) = u ++ crlf e := by
  rw [crlf_append, crlf_of_notMem (notMem_of_inLine hu)]

theorem trim_append {u e : Text} (he : ∀ c ∈ e, isSpace c = true) : trim (u ++ e) = trim u := by
  unfold trim dropEnd
  rw [List.dropWhile_append]
  split
  · next h =>
    rw [List.isEmpty_iff] at h
    have hnil : (e ++ []).dropWhile isSpace = [] := dropWhile_run he (by simp)
    rw [List.append_nil] at hnil
    rw [h, hnil]
  · rw [List.reverse_append, List.dropWhile_append_of_pos (by simpa using he)]

theorem trim_crlf {l : Text} (h : Plain l) : trim (crlf l) = trim l := by
  have hspace : ∀ c ∈ ['\r', '\n'], isSpace c = true := by
    intro c hc
    obtain rfl | rfl : c = '\r' ∨ c = '\n' := by simpa using hc
    · rfl
    · rfl
  obtain ⟨u, e, rfl, hu, rfl | rfl⟩ := h
  · rw [crlf_plain hu]; rfl
  · rw [crlf_plain hu, trim_append (e := ['\n']) fun c hc => hspace c (List.mem_cons_of_mem _ hc)]
    exact trim_append hspace

end Text

end LanguageRoster
