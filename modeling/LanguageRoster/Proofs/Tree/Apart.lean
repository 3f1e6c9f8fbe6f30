import LanguageRoster.Proofs.Tree.Replaced

/-!
# Files apart

What happens to one file has no part in what is read and replaced at another place.

* `Tree.LeadsTo` : a path leads to the file at a place, by whatever links
* `Rewritten.leadsTo`, `Rewritten.readText_eq`, `Rewritten.spot_eq` : a path to another file leads there as before,
  reads the same text, and has its new content put in the same place
* `Rewritten.unique` : what stands at one place has been one file
-/

namespace LanguageRoster.Tree

set_option autoImplicit false

variable {t t' t'' : Tree} {path : Text} {links left : Nat} {o p q s : Place} {names rest : List Text}
variable {mode mode' : Nat} {old new old' new' : Bytes}

/-- The path leads to the place, and a file stands there. -/
structure LeadsTo (t : Tree) (path : Text) (p : Place) : Prop where
  trace : t.trace path = .ok p
  file : ∃ mode content, t.get? p = some (.file mode content)

theorem FileAt.leadsTo (h : t.FileAt path p mode old) : t.LeadsTo path p := ⟨h.trace, mode, old, h.entry⟩

/-- A path to a file leads to one still, whatever file is replaced. -/
theorem exists_leadsTo_replaced {path' : Text} (h : t.readBytes path = .ok old) (hr : t.replace path new = .ok t')
    (hx : t.LeadsTo path' q) : ∃ q', t'.LeadsTo path' q' := by
  obtain ⟨p, s, mode, -, -, hrew, -⟩ := rewritten_of_replace h hr
  obtain ⟨mode', content, he⟩ := hx.file
  obtain ⟨q', htrace, hsame | ⟨-, -, hnew⟩⟩ := hrew.trace_file hx.trace he
  · exact ⟨q', htrace, mode', content, hsame⟩
  · exact ⟨q', htrace, mode, new, hnew⟩

namespace Rewritten

/-- Whatever stands at the place has been given new content at the place of one file only. -/
theorem unique (h : Rewritten t t' p s mode old new) (h' : Rewritten t t'' q s mode' old' new') : p = q := by
  obtain rfl | ⟨d, name, target, _, _, hs, hlink, away⟩ := h.stood
  · exact h'.eq_of_entry h.was (by simp)
  · exact h'.eq_of_link hs.symm (hs ▸ hlink) away

variable (h : Rewritten t t' p s mode old new)

include h

theorem barred?_eq (q : Place) : t'.barred? q = t.barred? q := by
  have hfrom (a : Place) (names : List Text) : t'.barredFrom? a names = t.barredFrom? a names := by
    induction names generalizing a with
    | nil => rfl
    | cons name rest ih =>
      rw [barredFrom?, barredFrom?, ih]
      by_cases hs : a = s
      · -- no directory stands there, before or after
        obtain ⟨e, he, hno⟩ := h.exists_entry
        rw [hs, h.now, he]
        cases e with
        | directory m => exact absurd rfl (hno m)
        | file => rfl
        | link => rfl
      · rw [h.others.get? a hs]
  exact hfrom [] q

theorem noRoom?_eq (q : Place) : t'.noRoom? q = t.noRoom? q := by
  unfold noRoom?
  by_cases hs : q = s
  · rw [hs, h.now]
    split
    · next hm => exact absurd hm (by simp)
    · split
      · next hm => exact absurd hm (h.not_directory _)
      · rfl
  · rw [h.others.get? q hs]

theorem look?_eq (hq : q ≠ s) : t'.look? q = t.look? q := by
  rw [look?, look?, h.barred?_eq, h.others.get? q hq]

/-- Names that lead to another place come to what they came to, as far as the names behind them do. -/
theorem canonicalLinks_eq (hl : t.Leads links o names left q) (hq : q ≠ p)
    (hrest : t'.canonicalLinks left q rest = t.canonicalLinks left q rest) :
    t'.canonicalLinks links o (names ++ rest) = t.canonicalLinks links o (names ++ rest) := by
  induction hl generalizing rest with
  | here => exact hrest
  | dot _ _ ih =>
    rw [List.cons_append, canonicalLinks_dot, canonicalLinks_dot]
    exact ih hq hrest
  | up _ _ ih =>
    rw [List.cons_append, canonicalLinks_up, canonicalLinks_up]
    exact ih hq hrest
  | @entry _ _ a _ name _ _ _ named he noLink go ih =>
    have hlook := h.look?_eq (h.get?_of_entry he noLink go hq).1
    rw [List.cons_append]
    obtain hl | hl := look?_eq_or (t := t) (a ++ [name])
    · rw [canonicalLinks_none named (hlook.trans hl), canonicalLinks_none named hl]
    · have hl := hl.trans he
      rw [canonicalLinks_entry named (hlook.trans hl) noLink, canonicalLinks_entry named hl noLink, ih hq hrest]
  | @link _ _ _ a _ _ name _ _ _ named hlink away go ihAway ih =>
    obtain ⟨hd, hne, -⟩ := h.get?_of_link hlink away go hq
    have hlook := h.look?_eq hne
    rw [List.cons_append]
    obtain hl | hl := look?_eq_or (t := t) (a ++ [name])
    · rw [canonicalLinks_none named (hlook.trans hl), canonicalLinks_none named hl]
    · have hl := hl.trans hlink
      rw [canonicalLinks_link named (hlook.trans hl), canonicalLinks_link named hl]
      exact ihAway hd (ih hq hrest)

theorem canonical?_eq (hx : t.trace path = .ok q) (hq : q ≠ p) : t'.canonical? path = t.canonical? path := by
  obtain ⟨-, -, left, hl⟩ := trace_eq_ok_iff.1 hx
  have hlinks : t'.canonicalLinks mostLinks (t.origin path) (steps path ++ []) =
      t.canonicalLinks mostLinks (t.origin path) (steps path ++ []) := h.canonicalLinks_eq hl hq (by simp)
  rw [List.append_nil] at hlinks
  rw [Tree.canonical?, Tree.canonical?, h.origin, hlinks]

theorem get?_of_leadsTo (hx : t.LeadsTo path q) (hq : q ≠ p) : t'.get? q = t.get? q := by
  obtain ⟨mode', content, he⟩ := hx.file
  refine h.others.get? q ?_
  rintro rfl
  exact hq (h.eq_of_entry he (by simp))

theorem leadsTo (hx : t.LeadsTo path q) (hq : q ≠ p) : t'.LeadsTo path q := by
  refine ⟨h.trace_of_ne hx.trace hq, ?_⟩
  rw [h.get?_of_leadsTo hx hq]
  exact hx.file

theorem resolve_eq (hx : t.LeadsTo path q) (hq : q ≠ p) : t'.resolve path = t.resolve path := by
  rw [Tree.resolve, Tree.resolve, hx.trace, h.trace_of_ne hx.trace hq]

theorem readText_eq (hx : t.LeadsTo path q) (hq : q ≠ p) : t'.readText path = t.readText path := by
  apply readText_congr
  unfold readBytes
  rw [h.resolve_eq hx hq]
  cases hr : t.resolve path with
  | error f => rfl
  | ok q' =>
    obtain rfl : q = q' := Except.ok.inj (hx.trace.symm.trans (trace_of_resolve hr))
    simp only [h.get?_of_leadsTo hx hq]

theorem staging_eq (hx : t.LeadsTo path q) (hq : q ≠ p) : t'.staging path = t.staging path := by
  obtain ⟨mode', content, he⟩ := hx.file
  obtain ⟨d, hd, enters⟩ := trace_directory hx.trace he
  have hdir := h.trace_of_ne hd (enters.ne_of_file h.was)
  have hat : t'.stagingAt path = t.stagingAt path := by
    simp only [stagingAt, reach, traceAbsolute, h.canonical?_eq hx.trace hq, h.barred?_eq, hd, hdir, h.others.here]
  simp only [staging, hat, h.others.here, h.noRoom?_eq]

theorem lastPlace_eq (hx : t.LeadsTo path q) : t'.lastPlace path = t.lastPlace path := by
  obtain ⟨mode', content, he⟩ := hx.file
  obtain ⟨init, name, mid, left, d, hnames, -, hinit, hlast⟩ := exists_last hx.trace he
  have hd := leads_append_dot_iff.2 ⟨hinit, hlast.enters⟩
  have hd' := h.leads_of_ne hd (hlast.enters.ne_of_file h.was)
  rw [← h.origin] at hd'
  unfold lastPlace
  rw [hnames, List.getLast?_concat, List.dropLast_concat, walkLinks_eq_ok_iff.2 ⟨mid, hd⟩,
    walkLinks_eq_ok_iff.2 ⟨mid, hd'⟩]
  by_cases hs : d ++ [name] = s
  · obtain ⟨e, he, hno⟩ := h.exists_entry
    simp only [hs, h.now, he]
    cases e with
    | directory m => exact absurd rfl (hno m)
    | file => rfl
    | link => rfl
  · simp only [h.others.get? _ hs]

/-- The new content of a path to another file is put where it would have been put. -/
theorem spot_eq (hx : t.LeadsTo path q) (hq : q ≠ p) : t'.spot path = t.spot path := by
  have haim := h.canonical?_eq hx.trace hq
  have hland : t'.landing (t.canonical? path) path = t.landing (t.canonical? path) path ∧
      t'.adopted? (t.canonical? path) path = t.adopted? (t.canonical? path) path := by
    cases hcome : t.canonical? path with
    | some q' =>
      obtain rfl := eq_of_canonical?_of_trace hcome hx.trace
      have hget := h.get?_of_leadsTo hx hq
      cases q' with
      | nil => exact ⟨rfl, rfl⟩
      | cons => simp only [landing, adopted?, hget, and_self]
    | none =>
      simp only [landing, adopted?, h.lastPlace_eq hx, h.resolve_eq hx hq, true_and]
      cases hr : t.resolve path with
      | error f => rfl
      | ok q' =>
        obtain rfl := Except.ok.inj (hx.trace.symm.trans (trace_of_resolve hr))
        simp only [Except.toOption, Option.bind_some, h.get?_of_leadsTo hx hq]
  simp only [spot, h.staging_eq hx hq, haim, hland]

end Rewritten

end LanguageRoster.Tree
