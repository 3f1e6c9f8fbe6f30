import LanguageRoster.Proofs.Tree.Landing

/-!
# Trees in which a file was replaced

The new content of a file stands where the file stood or, if the path came to nothing although it leads there, in the
place of a link that led to it. Either way all paths lead to files that are read as before, or to the new content.

* `Tree.Rewritten` : how the two trees differ; `rewritten_of_spot`, `rewritten_of_replace`
* `Rewritten.leads_of_ne`, `Rewritten.leads`, `Rewritten.trace_file` : walks and paths in the new tree
* `readBytes_replaced`, `readBytes_of_replaced`, `readBytes_back` : what is read before and after
* `Tree.Replaceable` : new content can be made ready beside the place to which the path comes; `Open.replaceable_iff`
-/

namespace LanguageRoster.Tree

set_option autoImplicit false

variable {t t' : Tree} {path path' : Text} {links left : Nat} {o p q s : Place} {names rest : List Text}
variable {mode : Nat} {old new content : Bytes}

/-! ## What has changed -/

/-- The file at `p` has been given new content: where it stood, or at the place `s` of a link that led to it. -/
structure Rewritten (t t' : Tree) (p s : Place) (mode : Nat) (old new : Bytes) : Prop where
  was : t.get? p = some (.file mode old)
  now : t'.get? s = some (.file mode new)
  others : AllBut s t t'
  stood : s = p ∨ ∃ d name target links left, s = d ++ [name] ∧ t.get? s = some (.link target) ∧
    t.Leads links (linkOrigin d target) (steps target) left p

theorem Leads.nil_of_file (h : t.Leads links p names left q) (hp : t.get? p = some (.file mode content)) :
    names = [] := by
  cases names with
  | nil => rfl
  | cons name rest => exact absurd rfl (h.enters.ne_of_file hp)

namespace Rewritten

theorem exists_entry (h : Rewritten t t' p s mode old new) : ∃ e, t.get? s = some e ∧ ∀ m, e ≠ .directory m := by
  obtain rfl | ⟨_, _, _, _, _, -, hlink, -⟩ := h.stood
  · exact ⟨_, h.was, by simp⟩
  · exact ⟨_, hlink, by simp⟩

theorem not_directory (h : Rewritten t t' p s mode old new) (m : Nat) : t.get? s ≠ some (.directory m) := by
  obtain ⟨e, he, hno⟩ := h.exists_entry
  rw [he]
  exact fun hm => hno m (Option.some.inj hm)

theorem enters (h : Rewritten t t' p s mode old new) (hq : t.Enters q) : t'.Enters q :=
  h.others.enters h.not_directory hq

theorem eq_of_entry (h : Rewritten t t' p s mode old new) {e : Entry} (he : t.get? s = some e)
    (noLink : ∀ target, e ≠ .link target) : s = p := by
  obtain hs | ⟨_, _, _, _, _, -, hlink, -⟩ := h.stood
  · exact hs
  · exact absurd (Option.some.inj (he.symm.trans hlink)) (noLink _)

theorem eq_of_link (h : Rewritten t t' p s mode old new) {name target : Text} (hs : o ++ [name] = s)
    (hlink : t.get? (o ++ [name]) = some (.link target))
    (away : t.Leads links (linkOrigin o target) (steps target) left q) : q = p := by
  obtain hp | ⟨d, name', target', _, _, hs', hlink', away'⟩ := h.stood
  · rw [hs, hp, h.was] at hlink
    exact absurd hlink (by simp)
  · obtain ⟨rfl, -⟩ := List.append_inj' (hs.trans hs') rfl
    rw [hs] at hlink
    obtain rfl := Entry.link.inj (Option.some.inj (hlink.symm.trans hlink'))
    exact away.unique away'

/-- A file or directory that leads to another place than the file is as before. -/
theorem get?_of_entry (h : Rewritten t t' p s mode old new) {e : Entry} (he : t.get? o = some e)
    (noLink : ∀ target, e ≠ .link target) (go : t.Leads links o names left q) (hq : q ≠ p) :
    o ≠ s ∧ t'.get? o = some e := by
  have hne : o ≠ s := by
    rintro rfl
    obtain rfl := h.eq_of_entry he noLink
    exact hq (go.eq_of_file h.was)
  exact ⟨hne, (h.others.get? o hne).trans he⟩

/-- A link that leads to another place than the file is as before, and so is what it leads to. -/
theorem get?_of_link (h : Rewritten t t' p s mode old new) {name target : Text} {d : Place} {mid : Nat}
    (hlink : t.get? (o ++ [name]) = some (.link target))
    (away : t.Leads links (linkOrigin o target) (steps target) mid d) (go : t.Leads mid d names left q) (hq : q ≠ p) :
    d ≠ p ∧ o ++ [name] ≠ s ∧ t'.get? (o ++ [name]) = some (.link target) := by
  have hd : d ≠ p := by
    rintro rfl
    exact hq (go.eq_of_file h.was)
  have hne : o ++ [name] ≠ s := fun hs => hd (h.eq_of_link hs hlink away)
  exact ⟨hd, hne, (h.others.get? _ hne).trans hlink⟩

theorem leads_of_ne (h : Rewritten t t' p s mode old new) (hl : t.Leads links o names left q) (hq : q ≠ p) :
    t'.Leads links o names left q := by
  induction hl with
  | here => exact .here
  | dot enters _ ih => exact .dot (h.enters enters) (ih hq)
  | up enters _ ih => exact .up (h.enters enters) (ih hq)
  | entry enters named he noLink go ih =>
    exact .entry (h.enters enters) named (h.get?_of_entry he noLink go hq).2 noLink (ih hq)
  | link enters named hlink away go ihAway ih =>
    obtain ⟨hd, -, hlink'⟩ := h.get?_of_link hlink away go hq
    exact .link (h.enters enters) named hlink' (ihAway hd) (ih hq)

/-- Walks to the file lead there, or to the new content. -/
theorem leads (h : Rewritten t t' p s mode old new) (hl : t.Leads links o names left q) (hq : q = p) :
    ∃ left' q', t'.Leads links o names left' q' ∧ (q' = p ∨ q' = s) := by
  induction hl with
  | here => exact ⟨_, _, .here, .inl hq⟩
  | dot enters _ ih =>
    obtain ⟨left', q', hl', hq'⟩ := ih hq
    exact ⟨left', q', .dot (h.enters enters) hl', hq'⟩
  | up enters _ ih =>
    obtain ⟨left', q', hl', hq'⟩ := ih hq
    exact ⟨left', q', .up (h.enters enters) hl', hq'⟩
  | @entry _ _ a _ name _ _ enters named he noLink go ih =>
    by_cases hs : a ++ [name] = s
    · -- the walk has come to the file
      obtain rfl := h.eq_of_entry (hs ▸ he) noLink
      obtain rfl := (hs ▸ go).nil_of_file h.was
      exact ⟨_, s, .entry (h.enters enters) named (hs ▸ h.now) (by simp) (leads_nil_iff.2 ⟨rfl, hs⟩), .inr rfl⟩
    · obtain ⟨left', q', hl', hq'⟩ := ih hq
      exact ⟨left', q', .entry (h.enters enters) named ((h.others.get? _ hs).trans he) noLink hl', hq'⟩
  | @link _ _ _ a d _ name _ rest enters named hlink away go ihAway ih =>
    by_cases hd : d = p
    · subst hd
      obtain rfl := go.nil_of_file h.was
      by_cases hs : a ++ [name] = s
      · -- the new content has taken the place of the link
        exact ⟨_, s, .entry (h.enters enters) named (hs ▸ h.now) (by simp) (leads_nil_iff.2 ⟨rfl, hs⟩), .inr rfl⟩
      · obtain ⟨left', q', hl', hq'⟩ := ihAway rfl
        exact ⟨left', q', .link (h.enters enters) named ((h.others.get? _ hs).trans hlink) hl' .here, hq'⟩
    · have hs : a ++ [name] ≠ s := fun hs => hd (h.eq_of_link hs hlink away)
      obtain ⟨left', q', hl', hq'⟩ := ih hq
      exact ⟨left', q', .link (h.enters enters) named ((h.others.get? _ hs).trans hlink) (h.leads_of_ne away hd) hl',
        hq'⟩

theorem origin (h : Rewritten t t' p s mode old new) (path : Text) : t'.origin path = t.origin path :=
  h.others.origin path

theorem trace_of_ne (h : Rewritten t t' p s mode old new) (hq : t.trace path = .ok q) (hne : q ≠ p) :
    t'.trace path = .ok q := by
  obtain ⟨hzero, hnil, left, hl⟩ := trace_eq_ok_iff.1 hq
  rw [← h.origin] at hl
  exact trace_eq_ok_iff.2 ⟨hzero, hnil, left, h.leads_of_ne hl hne⟩

/-- A path to a file leads to the same content still, or from the old content to the new one. -/
theorem trace_file (h : Rewritten t t' p s mode old new) {mode' : Nat} (hq : t.trace path = .ok q)
    (he : t.get? q = some (.file mode' content)) :
    ∃ q', t'.trace path = .ok q' ∧ (t'.get? q' = some (.file mode' content) ∨
      mode' = mode ∧ content = old ∧ t'.get? q' = some (.file mode new)) := by
  by_cases hqp : q = p
  · subst hqp
    obtain ⟨rfl, rfl⟩ := Entry.file.inj (Option.some.inj (he.symm.trans h.was))
    obtain ⟨hzero, hnil, left, hl⟩ := trace_eq_ok_iff.1 hq
    obtain ⟨left', q', hl', hq'⟩ := h.leads hl rfl
    rw [← h.origin] at hl'
    refine ⟨q', trace_eq_ok_iff.2 ⟨hzero, hnil, left', hl'⟩, ?_⟩
    by_cases hs : q' = s
    · exact .inr ⟨rfl, rfl, hs ▸ h.now⟩
    · obtain rfl := hq'.resolve_right hs
      exact .inl ((h.others.get? _ hs).trans he)
  · have hs : q ≠ s := by
      rintro rfl
      exact hqp (h.eq_of_entry he (by simp))
    exact ⟨q, h.trace_of_ne hq hqp, .inl ((h.others.get? q hs).trans he)⟩

end Rewritten

/-! ## Replacements -/

section

variable {init : List Text} {name : Text} {d : Place}

theorem LastAt.trace (h : t.LastAt path init name d) (he : t.get? (d ++ [name]) = some (.file mode content)) :
    t.trace path = .ok (d ++ [name]) := by
  obtain ⟨⟨left, hinit⟩, enters⟩ := h.leads
  refine trace_eq_ok_iff.2 ⟨h.noZero, h.ne_nil, left, ?_⟩
  rw [h.steps]
  exact hinit.append (.entry enters h.named he (by simp) .here)

/-- A path that is replaced at its last name leads to the new content. -/
theorem LastAt.rewritten (h : t.LastAt path init name d) (hf : t.FileAt path p mode old) (new : Bytes) :
    Rewritten t (t.put (d ++ [name]) (.file mode new)) p (d ++ [name]) mode old new ∧
      (t.put (d ++ [name]) (.file mode new)).FileAt path (d ++ [name]) mode new := by
  have hne : d ++ [name] ≠ [] := by simp
  have hothers := allBut_put t hne (.file mode new)
  have hnow := get?_put_self t hne (.file mode new)
  generalize t.put (d ++ [name]) (.file mode new) = t' at hothers hnow
  have hrew : Rewritten t t' p (d ++ [name]) mode old new := by
    refine ⟨hf.entry, hnow, hothers, ?_⟩
    obtain ⟨hp, -⟩ | ⟨target, links, left, hlink, away⟩ := h.stands hf.trace
    · exact .inl hp
    · exact .inr ⟨d, name, target, links, left, rfl, hlink, away⟩
  -- the names before the last one lead to the directory without it
  obtain ⟨left, hl⟩ := walkLinks_eq_ok_iff.1 h.way
  have hd := (leads_append_dot_iff.1 hl).2.ne_of_file hf.entry
  have hway := walkLinks_eq_ok_iff.2 ⟨left, hrew.leads_of_ne hl hd⟩
  rw [← hrew.origin] at hway
  exact ⟨hrew, resolve_eq_ok_iff.2 ⟨by simp [h.short], (h.of_way hway hnow).trace hnow⟩, hnow⟩

end

/-- To replace a file that can be read gives it the new content, which is then read by the path. -/
theorem rewritten_of_spot (h : t.readBytes path = .ok old) (hs : t.spot path = .ok (s, mode)) (new : Bytes) :
    ∃ p, t.FileAt path p mode old ∧ mayRead mode = true ∧
      Rewritten t (t.put s (.file mode new)) p s mode old new ∧
      (t.put s (.file mode new)).readBytes path = .ok new := by
  obtain ⟨p, mode', hf, hm⟩ := readBytes_eq_ok_iff.1 h
  obtain ⟨hcome, old', hp⟩ | ⟨-, hmode, init, name, d, hlast, rfl⟩ := spot_cases hs
  · obtain rfl := eq_of_canonical?_of_trace hcome hf.trace
    obtain ⟨rfl, rfl⟩ := Entry.file.inj (Option.some.inj (hf.entry.symm.trans hp))
    have hnow := get?_put_self t (ne_nil_of_file hf.entry) (.file mode' new)
    refine ⟨s, hf, hm, ⟨hf.entry, hnow, allBut_put t (ne_nil_of_file hf.entry) _, .inl rfl⟩, ?_⟩
    have hshape := sameShape_put hf.entry new
    exact readBytes_eq_ok_iff.2 ⟨s, mode', ⟨hshape.resolve path ▸ hf.resolve, hnow⟩, hm⟩
  · obtain rfl : mode' = mode := by
      simpa only [adopted?, hf.resolve, Except.toOption, Option.bind_some, hf.entry, Entry.mode?,
        Option.getD_some] using hmode
    obtain ⟨hrew, hf'⟩ := hlast.rewritten hf new
    exact ⟨p, hf, hm, hrew, readBytes_eq_ok_iff.2 ⟨_, mode', hf', hm⟩⟩

theorem rewritten_of_replace (h : t.readBytes path = .ok old) (hr : t.replace path new = .ok t') :
    ∃ p s mode, t.FileAt path p mode old ∧ mayRead mode = true ∧ Rewritten t t' p s mode old new ∧
      t'.readBytes path = .ok new := by
  obtain ⟨s, mode, hs, rfl⟩ := replace_eq_ok_iff.1 hr
  obtain ⟨p, hf, hm, hrew, hread⟩ := rewritten_of_spot h hs new
  exact ⟨p, s, mode, hf, hm, hrew, hread⟩

theorem sameShape_replaced (hcome : ∃ p, t.canonical? path = some p) (hr : t.replace path new = .ok t') :
    t.SameShape t' := by
  obtain ⟨p, mode, old, -, hp, rfl⟩ | ⟨hno, -⟩ := replace_cases hr
  · exact sameShape_put hp new
  · obtain ⟨p, hp⟩ := hcome
    exact absurd (hno.symm.trans hp) (by simp)

/-! ## What is read -/

theorem readBytes_replaced (h : t.readBytes path = .ok old) (hr : t.replace path new = .ok t') :
    t'.readBytes path = .ok new := by
  obtain ⟨_, _, _, -, -, -, hread⟩ := rewritten_of_replace h hr
  exact hread

/-- What was read is read still, but for the file that is replaced. -/
theorem readBytes_of_replaced (h : t.readBytes path = .ok old) (hr : t.replace path new = .ok t')
    (hc : t.readBytes path' = .ok content) :
    t'.readBytes path' = .ok content ∨ (content = old ∧ t'.readBytes path' = .ok new) := by
  obtain ⟨p, s, mode, -, -, hrew, -⟩ := rewritten_of_replace h hr
  obtain ⟨q, mode', hq, hm'⟩ := readBytes_eq_ok_iff.1 hc
  obtain ⟨hshort, htrace⟩ := resolve_eq_ok_iff.1 hq.resolve
  obtain ⟨q', htrace', hq'⟩ := hrew.trace_file htrace hq.entry
  have hresolve := resolve_eq_ok_iff.2 ⟨hshort, htrace'⟩
  obtain hsame | ⟨rfl, rfl, hnew⟩ := hq'
  · exact .inl (readBytes_eq_ok_iff.2 ⟨q', mode', ⟨hresolve, hsame⟩, hm'⟩)
  · exact .inr ⟨rfl, readBytes_eq_ok_iff.2 ⟨q', mode', ⟨hresolve, hnew⟩, hm'⟩⟩

theorem readBytes_back (h : t.readBytes path = .ok old) (hr : t.replace path new = .ok t')
    (hc : t'.readBytes path' = .ok content) : t.readBytes path' = .ok content ∨ content = new := by
  obtain ⟨p, s, mode, -, -, hrew, -⟩ := rewritten_of_replace h hr
  obtain ⟨q, mode', hq, hm'⟩ := readBytes_eq_ok_iff.1 hc
  by_cases hs : q = s
  · subst hs
    exact .inr (Entry.file.inj (Option.some.inj (hq.entry.symm.trans hrew.now))).2
  · obtain ⟨hshort, htrace⟩ := resolve_eq_ok_iff.1 hq.resolve
    obtain ⟨hzero, hnil, left, hl⟩ := trace_eq_ok_iff.1 htrace
    rw [hrew.origin] at hl
    have hl' := hrew.others.symm.leads_of_file hrew.now hl hs
    exact .inl (readBytes_eq_ok_iff.2 ⟨q, mode', ⟨resolve_eq_ok_iff.2 ⟨hshort, trace_eq_ok_iff.2
      ⟨hzero, hnil, left, hl'⟩⟩, (hrew.others.get? q hs).symm.trans hq.entry⟩, hm'⟩)

section

variable {before after other : Text}

theorem readText_replaced (h : t.readText path = .ok before) (hr : t.replace path after.bytes = .ok t') :
    t'.readText path = .ok after :=
  readText_eq_ok_iff.2 (readBytes_replaced (readText_eq_ok_iff.1 h) hr)

theorem readBytes_replaced_of_text_ne (h : t.readText path = .ok before) (hr : t.replace path after.bytes = .ok t')
    (h' : t.readText path' = .ok other) (hne : other ≠ before) : t'.readBytes path' = t.readBytes path' := by
  rw [readText_eq_ok_iff] at h h'
  rw [h']
  exact (readBytes_of_replaced h hr h').resolve_right fun hc => hne (Text.bytes_inj hc.1)

/-- A text that is read was read before, or is the new one. -/
theorem readText_back (h : t.readText path = .ok before) (hr : t.replace path after.bytes = .ok t')
    (h' : t'.readText path' = .ok other) : t.readText path' = .ok other ∨ other = after := by
  rw [readText_eq_ok_iff] at h h' ⊢
  exact (readBytes_back h hr h').imp_right Text.bytes_inj

end

/-! ## Files that can be replaced -/

/-- The path comes to a place, and new content can be made ready beside it. -/
def Replaceable (t : Tree) (path : Text) : Prop := (∃ p, t.canonical? path = some p) ∧ t.HasRoom path

theorem Replaceable.of_sameShape (h : t.Replaceable path) (hs : t.SameShape t') : t'.Replaceable path := by
  unfold Replaceable HasRoom at h ⊢
  rwa [← hs.canonical?, ← hs.staging]

/-- In an open tree, a file can be replaced exactly if its directory takes new files, unless it is too deep for them. -/
theorem Open.replaceable_iff (h : t.Open) (hf : t.FileAt path p mode content)
    (hshort : isTooLong (Path.join (Place.path p.dropLast) temporaryName) = false) :
    t.Replaceable path ↔ t.noRoom? p.dropLast = none := by
  have hcome : t.canonical? path = some p := by rw [h.canonical?_eq, hf.trace, Except.toOption]
  have hup : t.barred? p.dropLast = none := by
    obtain ⟨-, -, left, hl⟩ := trace_eq_ok_iff.1 hf.trace
    exact barred?_dropLast (hl.upright (h.barred?_eq_none (h.rooted.origin path)))
  have hat : t.stagingAt path = (Place.path p.dropLast, .ok p.dropLast) := by
    obtain ⟨name, rest, rfl⟩ := List.exists_cons_of_ne_nil (ne_nil_of_file hf.entry)
    simp only [stagingAt, hcome, reach, hup]
  have hjoin : Path.join t.here.path (Place.path p.dropLast) = Place.path p.dropLast := by
    rw [Path.join, if_pos (Place.isAbsolute_path _)]
  have hstaging : (∃ d, t.staging path = .ok d) ↔ t.noRoom? p.dropLast = none := by
    simp only [staging_eq_ok_iff, hat, hjoin, hshort, Bool.false_eq_true, false_implies, true_and, Except.ok.injEq,
      exists_eq_left']
  exact ⟨fun hr => hstaging.1 hr.2, fun hr => ⟨⟨p, hcome⟩, hstaging.2 hr⟩⟩

end LanguageRoster.Tree
