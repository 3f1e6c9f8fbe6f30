import LanguageRoster.Proofs.Tree.Replaced

/-!
# What a replacement does

* `Tree.Written` : what has changed, and what is read; `written_of_replace`
* `Tree.Blocked` : a directory is in the way, or none is there; `replace_ne_ok_of_blocked`
-/

namespace LanguageRoster.Tree

set_option autoImplicit false

variable {t t' : Tree} {path name : Text} {init : List Text} {p q d : Place} {mode : Nat} {content old : Bytes}

/-! ## What is written -/

theorem ne_nil_of_none (hp : t.get? p = none) : p ≠ [] := by
  rintro rfl
  simp [get?] at hp

theorem erase_of_none (hp : t.get? p = none) : t.erase p = t := by
  rw [get?, if_neg (ne_nil_of_none hp)] at hp
  unfold erase
  rw [Record.filter_ne_of_lookup hp]

/-- What a replacement does: one entry is another, and what is read by the path depends on where it leads now. -/
inductive Written (t t' : Tree) (path : Text) (content : Bytes) : Prop where
  /-- The path comes to a file. It keeps its mode, and is read if the system follows the path. -/
  | kept (p : Place) (mode : Nat) (old : Bytes) (comes : t.canonical? path = some p)
    (was : t.get? p = some (.file mode old)) (now : t'.get? p = some (.file mode content)) (others : AllBut p t t')
    (reads : t'.readBytes path =
      (t.resolve path).bind fun _ => if mayRead mode then .ok content else .error .denied)
  /-- The path comes to nothing, but its last name is that of a file. It keeps its mode. -/
  | over (init : List Text) (name : Text) (d : Place) (mode : Nat) (old : Bytes) (comes : t.canonical? path = none)
    (names : Path.names path = init ++ [name])
    (way : t.walkLinks mostLinks (t.origin path) (init ++ [Path.dot]) = .ok d)
    (was : t.get? (d ++ [name]) = some (.file mode old)) (now : t'.get? (d ++ [name]) = some (.file mode content))
    (others : AllBut (d ++ [name]) t t')
    (reads : t'.readBytes path = if mayRead mode then .ok content else .error .denied)
  /-- The path comes to nothing, and nothing stands where its last name would. -/
  | made (init : List Text) (name : Text) (d : Place) (comes : t.canonical? path = none)
    (names : Path.names path = init ++ [name])
    (way : t.walkLinks mostLinks (t.origin path) (init ++ [Path.dot]) = .ok d) (was : t.get? (d ++ [name]) = none)
    (now : t'.get? (d ++ [name]) = some (.file 0o600 content)) (others : AllBut (d ++ [name]) t t')
    (reads : t'.readBytes path = .ok content)
  /-- The path comes to nothing, by way of a link as its last name. The link gives way to a file with the mode of what
  the system finds behind it, if it finds anything. What is written is read if the names before do not need the
  link. -/
  | gaveWay (init : List Text) (name : Text) (d : Place) (target : Text) (mode : Nat) (comes : t.canonical? path = none)
    (names : Path.names path = init ++ [name])
    (way : t.walkLinks mostLinks (t.origin path) (init ++ [Path.dot]) = .ok d)
    (was : t.get? (d ++ [name]) = some (.link target))
    (adopts : mode = ((t.resolve path).toOption.bind fun p => (t.get? p).bind Entry.mode?).getD 0o600)
    (now : t'.get? (d ++ [name]) = some (.file mode content)) (others : AllBut (d ++ [name]) t t')
    (reads : t'.readBytes path = .ok content ↔ mayRead mode = true ∧
      (t.erase (d ++ [name])).walkLinks mostLinks (t.origin path) (init ++ [Path.dot]) = .ok d)

theorem LastAt.readBytes_eq (h : t.LastAt path init name d) (he : t.get? (d ++ [name]) = some (.file mode content)) :
    t.readBytes path = if mayRead mode then .ok content else .error .denied := by
  have hresolve := resolve_eq_ok_iff.2 ⟨by simp [h.short], h.trace he⟩
  simp only [readBytes, hresolve, he]

/-- A new file is read if the names before its own lead to its directory without it. -/
theorem LastAt.readBytes_put_iff (h : t.LastAt path init name d) (mode : Nat) (content : Bytes) :
    (t.put (d ++ [name]) (.file mode content)).readBytes path = .ok content ↔ mayRead mode = true ∧
      (t.erase (d ++ [name])).walkLinks mostLinks (t.origin path) (init ++ [Path.dot]) = .ok d := by
  have hne : d ++ [name] ≠ [] := by simp
  have hbase := allBut_erase t (d ++ [name])
  have hput := allBut_put t hne (.file mode content)
  have hnew := get?_put_self t hne (.file mode content)
  have hnone : (t.erase (d ++ [name])).get? (d ++ [name]) = none := by rw [get?_erase _ _ _ hne, if_pos rfl]
  generalize ht' : t.put (d ++ [name]) (.file mode content) = t' at hput hnew
  generalize hb : t.erase (d ++ [name]) = base at hbase hnone
  -- without the file and with it, the names before lead to the same directories
  have hlast (hw : base.walkLinks mostLinks (t.origin path) (init ++ [Path.dot]) = .ok d) :
      t'.LastAt path init name d := by
    obtain ⟨left, hl⟩ := walkLinks_eq_ok_iff.1 hw
    have hway := walkLinks_eq_ok_iff.2 ⟨left, (hbase.symm.trans hput).leads_of_none hnone hl⟩
    rw [← hput.origin] at hway
    exact h.of_way hway hnew
  constructor
  · intro hr
    obtain ⟨p, mode', hf, -⟩ := readBytes_eq_ok_iff.1 hr
    obtain ⟨-, -, left, hl⟩ := trace_eq_ok_iff.1 hf.trace
    rw [h.steps, hput.origin] at hl
    obtain ⟨mid, d', hd'⟩ := hl.before
    have hd'ne : d' ≠ d ++ [name] := (leads_append_dot_iff.1 hd').2.ne_of_file hnew
    have hbd := (hput.symm.trans hbase).leads_of_file hnew hd' hd'ne
    obtain ⟨left', hway⟩ := walkLinks_eq_ok_iff.1 h.way
    have hdd : d' = d := (hbase.symm.leads_of_none hnone hbd).unique hway
    have hw := walkLinks_eq_ok_iff.2 ⟨mid, hdd ▸ hbd⟩
    refine ⟨?_, hw⟩
    rw [(hlast hw).readBytes_eq hnew] at hr
    split at hr
    · assumption
    · exact absurd hr (by simp)
  · rintro ⟨hm, hw⟩
    rw [(hlast hw).readBytes_eq hnew, if_pos hm]

theorem written_of_replace (h : t.replace path content = .ok t') : Written t t' path content := by
  obtain ⟨p, mode, old, hcome, hp, rfl⟩ | ⟨hcome, init, name, d, hlast, rfl⟩ := replace_cases h
  · have hne := ne_nil_of_file hp
    have hnow := get?_put_self t hne (.file mode content)
    refine .kept p mode old hcome hp hnow (allBut_put t hne _) ?_
    rw [readBytes, ← (sameShape_put hp content).resolve]
    cases hr : t.resolve path with
    | error f => rfl
    | ok q =>
      obtain rfl := eq_of_canonical?_of_trace hcome (trace_of_resolve hr)
      simp only [hnow]
      rfl
  · have hne : d ++ [name] ≠ [] := by simp
    generalize hmode : (t.adopted? none path).getD freshMode = mode
    have hothers := allBut_put t hne (.file mode content)
    have hnow := get?_put_self t hne (.file mode content)
    have hreads := hlast.readBytes_put_iff mode content
    cases he : t.get? (d ++ [name]) with
    | none =>
      -- the path leads nowhere, so that no mode is taken over
      have hfresh : mode = freshMode := by
        cases hr : t.resolve path with
        | error f => simp [← hmode, adopted?, hr, Except.toOption]
        | ok q =>
          obtain ⟨-, hsome⟩ | ⟨_, _, _, hlink, -⟩ := hlast.stands (trace_of_resolve hr)
          · exact absurd he hsome
          · exact absurd (he.symm.trans hlink) (by simp)
      subst hfresh
      rw [erase_of_none he] at hreads
      exact .made init name d hcome hlast.names hlast.way he hnow hothers (hreads.2 ⟨by decide, hlast.way⟩)
    | some e =>
      cases e with
      | directory m => exact absurd he (hlast.free m)
      | link target =>
        exact .gaveWay init name d target mode hcome hlast.names hlast.way he hmode.symm hnow hothers hreads
      | file mode' old =>
        have hresolve := resolve_eq_ok_iff.2 ⟨by simp [hlast.short], hlast.trace he⟩
        obtain rfl : mode' = mode := by
          simpa [adopted?, hresolve, Except.toOption, he, Entry.mode?] using hmode
        have hreads : (t.put (d ++ [name]) (.file mode' content)).readBytes path =
            if mayRead mode' then .ok content else .error .denied := by
          have hf := (hlast.rewritten ⟨hresolve, he⟩ content).2
          simp only [readBytes, hf.resolve, hf.entry]
        exact .over init name d mode' old hcome hlast.names hlast.way he hnow hothers hreads

/-! ## What stands in the way -/

/-- Why nothing can be written: a directory stands in the place, or there is none in which the last name could stand. -/
inductive Blocked (t : Tree) (path : Text) : Prop where
  | directory (p : Place) (mode : Nat) (comes : t.canonical? path = some p) (is : t.get? p = some (.directory mode))
  /-- The path comes to nothing, but its last name is that of a directory. -/
  | itself (init : List Text) (name : Text) (d : Place) (mode : Nat) (comes : t.canonical? path = none)
    (names : Path.names path = init ++ [name])
    (way : t.walkLinks mostLinks (t.origin path) (init ++ [Path.dot]) = .ok d)
    (is : t.get? (d ++ [name]) = some (.directory mode))
  /-- What the names before the last one name is not there, or is no directory. -/
  | noParent (here : t.Rooted t.here) (missing :
      t.walkLinks mostLinks (t.origin path) (Path.names path).dropLast = .error .notFound ∨
      t.walkLinks mostLinks (t.origin path) (Path.names path).dropLast = .error .notDirectory ∨
      ∃ d, t.walkLinks mostLinks (t.origin path) (Path.names path).dropLast = .ok d ∧
        ∀ mode, t.get? d ≠ some (.directory mode))
  /-- The path comes to nothing, and the names before the last one lead to no directory that can be entered. -/
  | noWay (comes : t.canonical? path = none)
    (none : ∀ d, t.walkLinks mostLinks (t.origin path) ((Path.names path).dropLast ++ [Path.dot]) ≠ .ok d)

/-- A path that comes to a file has a directory in front of its last name, or one on the way there is shut. -/
theorem not_missing_of_canonical? (hhere : t.Rooted t.here) (hcome : t.canonical? path = some p)
    (hp : t.get? p = some (.file mode content)) :
    t.walkLinks mostLinks (t.origin path) (Path.names path).dropLast = .error .denied ∨
      ∃ d m, t.walkLinks mostLinks (t.origin path) (Path.names path).dropLast = .ok d ∧
        t.get? d = some (.directory m) := by
  obtain ⟨-, hne, hlinks⟩ := canonical?_eq_some_iff.1 hcome
  unfold Tree.steps at hlinks
  rcases List.eq_nil_or_concat (Path.names path) with hnames | ⟨init, name, hnames⟩
  · -- Only the root has no names.
    obtain ⟨m, hm⟩ := hhere.origin path _ List.prefix_rfl
    rw [hnames, if_pos (Path.getLast?_of_names_eq_nil hnames hne), List.nil_append, canonicalLinks_dot,
      canonicalLinks_nil] at hlinks
    obtain rfl := Option.some.inj hlinks
    exact absurd (hp.symm.trans hm) (by simp)
  · rw [List.concat_eq_append] at hnames
    rw [hnames, List.append_assoc] at hlinks
    rw [hnames, List.dropLast_concat]
    obtain hdenied | ⟨d, hd, hrooted⟩ := walkLinks_of_canonicalLinks (fun _ => hhere.origin path) hlinks
    · exact .inl hdenied
    · obtain ⟨m, hm⟩ := hrooted (by simp) d List.prefix_rfl
      exact .inr ⟨d, m, hd, hm⟩

theorem replace_ne_ok_of_blocked (hb : Blocked t path) (content : Bytes) (t' : Tree) :
    t.replace path content ≠ .ok t' := by
  intro h
  obtain ⟨p, mode, old, hcome, hp, -⟩ | ⟨hcome, init, name, d, hlast, -⟩ := replace_cases h
  · cases hb with
    | directory p' m comes is =>
      obtain rfl := Option.some.inj (hcome.symm.trans comes)
      exact absurd (hp.symm.trans is) (by simp)
    | itself _ _ _ _ comes => exact absurd (hcome.symm.trans comes) (by simp)
    | noWay comes => exact absurd (hcome.symm.trans comes) (by simp)
    | noParent here missing =>
      obtain hdenied | ⟨d, m, hd, hm⟩ := not_missing_of_canonical? here hcome hp
      · rw [hdenied] at missing
        simp at missing
      · rw [hd] at missing
        obtain hmissing | hmissing | ⟨d', hd', hno⟩ := missing
        · exact absurd hmissing (by simp)
        · exact absurd hmissing (by simp)
        · obtain rfl := Except.ok.inj hd'
          exact hno m hm
  · cases hb with
    | directory _ _ comes => exact absurd (hcome.symm.trans comes) (by simp)
    | itself init' name' d' m _ names way is =>
      obtain ⟨rfl, hname⟩ := List.append_inj' (hlast.names.symm.trans names) rfl
      obtain rfl : name = name' := by simpa using hname
      obtain rfl := Except.ok.inj (hlast.way.symm.trans way)
      exact hlast.free m is
    | noParent _ missing =>
      obtain ⟨⟨left, hinit⟩, m, hm, -⟩ := hlast.leads
      rw [hlast.names, List.dropLast_concat, walkLinks_eq_ok_iff.2 ⟨left, hinit⟩] at missing
      obtain hmissing | hmissing | ⟨d', hd', hno⟩ := missing
      · exact absurd hmissing (by simp)
      · exact absurd hmissing (by simp)
      · obtain rfl := Except.ok.inj hd'
        exact hno m hm
    | noWay _ none =>
      refine none d ?_
      rw [hlast.names, List.dropLast_concat]
      exact hlast.way

end LanguageRoster.Tree
