import LanguageRoster.Proofs.Tree.Content

/-!
# Where new content lands

* `Tree.LastAt` : where the last name of a path stands; `LastAt.stands`, `lastPlace_eq_ok_iff`, `AllBut.lastAt_iff`
* `exists_last`, `FileAt.lastAt` : the last name of a path that leads to a file
* `Tree.HasRoom` : new content can be made ready; `staging_eq_ok_iff`, `staging_of_none`
* `spot_cases`, `replace_cases` : the two ways in which a file is replaced
* `exists_replace` : a file that can be read is replaced if new content can be made ready
-/

namespace LanguageRoster.Tree

set_option autoImplicit false

variable {t t' : Tree} {path name : Text} {init : List Text} {p q d : Place} {mode : Nat} {content old : Bytes}

/-! ## The last name -/

/-- The last name of the path stands in the directory `d`, behind the names `init`. No directory has the name there. -/
structure LastAt (t : Tree) (path : Text) (init : List Text) (name : Text) (d : Place) : Prop where
  noZero : '\x00' ∉ path
  short : isTooLong path = false
  noSlash : path.getLast? ≠ some '/'
  names : Path.names path = init ++ [name]
  named : Names name
  way : t.walkLinks mostLinks (t.origin path) (init ++ [Path.dot]) = .ok d
  free : ∀ mode, t.get? (d ++ [name]) ≠ some (.directory mode)

theorem LastAt.ne_nil (h : t.LastAt path init name d) : path ≠ [] := by
  rintro rfl
  exact absurd h.names (by simp [Path.names, Text.splitOn])

theorem LastAt.steps (h : t.LastAt path init name d) : steps path = init ++ [name] := by
  unfold Tree.steps
  rw [h.names, if_neg h.noSlash, List.append_nil]

theorem LastAt.leads (h : t.LastAt path init name d) :
    (∃ left, t.Leads mostLinks (t.origin path) init left d) ∧ t.Enters d := by
  obtain ⟨left, hl⟩ := walkLinks_eq_ok_iff.1 h.way
  obtain ⟨hinit, enters⟩ := leads_append_dot_iff.1 hl
  exact ⟨⟨left, hinit⟩, enters⟩

/-- The last name of a path that leads somewhere is that of an entry there, or of a link that leads there. -/
theorem LastAt.stands (h : t.LastAt path init name d) (htrace : t.trace path = .ok p) :
    d ++ [name] = p ∧ t.get? (d ++ [name]) ≠ none ∨
      ∃ target links left, t.get? (d ++ [name]) = some (.link target) ∧
        t.Leads links (linkOrigin d target) (Tree.steps target) left p := by
  obtain ⟨-, -, left, hl⟩ := trace_eq_ok_iff.1 htrace
  rw [h.steps] at hl
  obtain ⟨mid, d', hinit, hstep⟩ := leads_append_iff.1 hl
  obtain ⟨⟨left', hinit'⟩, -⟩ := h.leads
  obtain rfl := hinit.unique hinit'
  cases hstep with
  | dot => exact absurd rfl h.named.ne_dot
  | up => exact absurd rfl h.named.ne_dotDot
  | entry _ _ he _ go => exact .inl ⟨(leads_nil_iff.1 go).2, by simp [he]⟩
  | link _ _ hlink away go =>
    obtain ⟨-, rfl⟩ := leads_nil_iff.1 go
    exact .inr ⟨_, _, _, hlink, away⟩

/-- The last name stands in the same directory of another tree, if a file is there and the names before lead there. -/
theorem LastAt.of_way (h : t.LastAt path init name d)
    (hway : t'.walkLinks mostLinks (t'.origin path) (init ++ [Path.dot]) = .ok d)
    (hnow : t'.get? (d ++ [name]) = some (.file mode content)) : t'.LastAt path init name d :=
  ⟨h.noZero, h.short, h.noSlash, h.names, h.named, hway, by simp [hnow]⟩

theorem lastPlace_eq_ok_iff :
    t.lastPlace path = .ok q ↔ ∃ init name d, t.LastAt path init name d ∧ q = d ++ [name] := by
  constructor
  · intro h
    unfold lastPlace at h
    split at h
    · exact absurd h (by simp)
    next hzero =>
    split at h
    · exact absurd h (by simp)
    split at h
    · exact absurd h (by simp)
    next hlong =>
    split at h
    · exact absurd h (by simp)
    next name hname =>
    split at h
    · exact absurd h (by simp)
    next d hd =>
    split at h
    · exact absurd h (by simp)
    next hdots =>
    split at h
    · exact absurd h (by simp)
    next hsize =>
    split at h
    · exact absurd h (by simp)
    next hslash =>
    split at h
    · exact absurd h (by simp)
    next hfree =>
    have hnames : Path.names path = (Path.names path).dropLast ++ [name] := by
      obtain ⟨hne, rfl⟩ := List.mem_getLast?_eq_getLast hname
      exact (List.dropLast_append_getLast hne).symm
    rw [not_or] at hdots
    refine ⟨_, name, d, ⟨by simpa using hzero, by simpa using hlong, hslash, hnames, ⟨hdots.1, hdots.2, by omega⟩, hd,
      hfree⟩, (Except.ok.inj h).symm⟩
  · rintro ⟨init, name, d, h, rfl⟩
    unfold lastPlace
    have hzero : path.contains '\x00' = false := by simpa using h.noZero
    simp only [hzero, h.ne_nil, h.short, h.names, List.getLast?_concat, List.dropLast_concat, h.way, h.named.ne_dot,
      h.named.ne_dotDot, h.named.not_long, h.noSlash, if_false, or_self, Bool.false_eq_true]
    split
    · next mode hdir => exact absurd hdir (h.free mode)
    · rfl

/-- A file more or less is not in the way. -/
theorem AllBut.lastAt_iff (h : AllBut p t t') (hp : t.get? p = none) (hp' : t'.get? p = some (.file mode content)) :
    t'.LastAt path init name d ↔ t.LastAt path init name d := by
  have hway : t'.walkLinks mostLinks (t'.origin path) (init ++ [Path.dot]) = .ok d ↔
      t.walkLinks mostLinks (t.origin path) (init ++ [Path.dot]) = .ok d := by
    rw [walkLinks_eq_ok_iff, walkLinks_eq_ok_iff, h.origin]
    constructor
    · rintro ⟨left, hl⟩
      have hne : d ≠ p := (leads_append_dot_iff.1 hl).2.ne_of_file hp'
      exact ⟨left, h.symm.leads_of_file hp' hl hne⟩
    · rintro ⟨left, hl⟩
      exact ⟨left, h.leads_of_none hp hl⟩
  have hfree : (∀ m, t'.get? (d ++ [name]) ≠ some (.directory m)) ↔
      ∀ m, t.get? (d ++ [name]) ≠ some (.directory m) := by
    by_cases hq : d ++ [name] = p
    · simp [hq, hp, hp']
    · rw [h.get? _ hq]
  exact ⟨fun hl => ⟨hl.noZero, hl.short, hl.noSlash, hl.names, hl.named, hway.1 hl.way, hfree.1 hl.free⟩,
    fun hl => ⟨hl.noZero, hl.short, hl.noSlash, hl.names, hl.named, hway.2 hl.way, hfree.2 hl.free⟩⟩

/-- The names before the last one of a path that leads to a file lead to a directory, and from there the last one leads
to the file. -/
theorem exists_last (h : t.trace path = .ok p) (hp : t.get? p = some (.file mode content)) :
    ∃ init name mid left d, Path.names path = init ++ [name] ∧ path.getLast? ≠ some '/' ∧
      t.Leads mostLinks (t.origin path) init mid d ∧ t.Leads mid d [name] left p := by
  obtain ⟨-, hne, left, hl⟩ := trace_eq_ok_iff.1 h
  have hslash : path.getLast? ≠ some '/' := by
    intro hs
    rw [Tree.steps, if_pos hs, leads_append_dot_iff] at hl
    exact absurd rfl (hl.2.ne_of_file hp)
  rcases List.eq_nil_or_concat (Path.names path) with hnames | ⟨init, name, hnames⟩
  · exact absurd (Path.getLast?_of_names_eq_nil hnames hne) hslash
  · rw [List.concat_eq_append] at hnames
    rw [Tree.steps, hnames, if_neg hslash, List.append_nil, leads_append_iff] at hl
    obtain ⟨mid, d, hinit, hlast⟩ := hl
    exact ⟨init, name, mid, left, d, hnames, hslash, hinit, hlast⟩

/-- The last name is that of an entry, unless a directory is missing above one that is there. -/
theorem Leads.named {links left : Nat} (h : t.Leads links d [name] left p) (hd : t.barred? d = none)
    (hp : t.get? p = some (.file mode content)) : Names name := by
  cases h with
  | dot enters go =>
    obtain ⟨-, rfl⟩ := leads_nil_iff.1 go
    exact absurd rfl (enters.ne_of_file hp)
  | up enters go =>
    obtain ⟨-, rfl⟩ := leads_nil_iff.1 go
    rcases List.eq_nil_or_concat d with rfl | ⟨above, last, rfl⟩
    · exact absurd rfl (ne_nil_of_file hp)
    · rw [List.concat_eq_append] at hd hp
      rw [List.dropLast_concat] at hp
      exact absurd rfl ((barred?_concat_iff.1 hd).2.ne_of_file hp)
  | entry _ named => exact named
  | link _ named => exact named

theorem resolve_eq_ok_iff :
    t.resolve path = .ok p ↔ (isTooLong path = true → '\x00' ∈ path) ∧ t.trace path = .ok p := by
  unfold Tree.resolve
  split
  · next h =>
    simp only [reduceCtorEq, false_iff, not_and]
    intro hzero
    simp_all
  · next h =>
    rw [not_and] at h
    exact ⟨fun ht => ⟨by simpa using h, ht⟩, fun ht => ht.2⟩

/-- The last name of a path that leads to a file stands somewhere, if the directories above its start are open. -/
theorem FileAt.lastAt (h : t.FileAt path p mode content) (hopen : t.barred? (t.origin path) = none) :
    ∃ init name d, t.LastAt path init name d := by
  obtain ⟨hlong, htrace⟩ := resolve_eq_ok_iff.1 h.resolve
  have hzero := (trace_eq_ok_iff.1 htrace).1
  obtain ⟨init, name, mid, left, d, hnames, hslash, hinit, hlast⟩ := exists_last htrace h.entry
  have named := hlast.named (hinit.upright hopen) h.entry
  refine ⟨init, name, d, hzero, by simpa using mt hlong hzero, hslash, hnames, named,
    walkLinks_eq_ok_iff.2 ⟨mid, leads_append_dot_iff.2 ⟨hinit, hlast.enters⟩⟩, fun m hm => ?_⟩
  cases hlast with
  | dot => exact named.ne_dot rfl
  | up => exact named.ne_dotDot rfl
  | entry _ _ he _ go =>
    obtain ⟨-, rfl⟩ := leads_nil_iff.1 go
    exact absurd (hm.symm.trans h.entry) (by simp)
  | link _ _ hlink => exact absurd (hm.symm.trans hlink) (by simp)

/-! ## Making ready -/

theorem staging_eq_ok_iff : t.staging path = .ok d ↔
    (isTooLong (Path.join (Path.join t.here.path (t.stagingAt path).1) temporaryName) = true →
      '\x00' ∈ Path.join (Path.join t.here.path (t.stagingAt path).1) temporaryName) ∧
    (t.stagingAt path).2 = .ok d ∧ t.noRoom? d = none := by
  unfold staging
  generalize hat : t.stagingAt path = at'
  obtain ⟨directory, place⟩ := at'
  simp only
  split
  · next hlong => simp_all
  · next hlong =>
    rw [not_and] at hlong
    cases place with
    | error f => simp
    | ok d' =>
      simp only [Except.ok.injEq]
      cases hroom : t.noRoom? d' with
      | some f =>
        simp only [reduceCtorEq, false_iff, not_and]
        rintro - rfl
        simp [hroom]
      | none =>
        simp only [Except.ok.injEq]
        constructor
        · rintro rfl
          exact ⟨by simpa using hlong, rfl, hroom⟩
        · rintro ⟨-, h, -⟩
          exact h

/-- Where the path comes to nothing, new content is made ready in the path's own directory, to which the way from the
root is open. -/
theorem staging_of_none (hno : t.canonical? path = none) (h : t.staging path = .ok d) :
    t.trace (Path.directory path) = .ok d ∧ t.barred? (t.origin path) = none ∧ t.noRoom? d = none := by
  obtain ⟨-, hplace, hroom⟩ := staging_eq_ok_iff.1 h
  have horigin : Path.isAbsolute path = false → Path.isAbsolute (Path.directory path) = false := by
    intro hrel
    by_cases hm : Path.moves path = []
    · rw [Path.directory_eq_dot hm]
      rfl
    · rw [Path.isAbsolute_directory hm, hrel]
  simp only [stagingAt, hno, traceAbsolute] at hplace
  split at hplace
  · exact absurd hplace (by simp)
  cases habs : Path.isAbsolute path with
  | true =>
    have hup : t.barred? (t.origin path) = none := by
      rw [Tree.origin, if_pos habs]
      rfl
    split at hplace
    · exact ⟨hplace, hup, hroom⟩
    · split at hplace
      · exact absurd hplace (by simp)
      · exact ⟨hplace, hup, hroom⟩
  | false =>
    rw [if_neg (by simp [horigin habs])] at hplace
    split at hplace
    · exact absurd hplace (by simp)
    · next hhere =>
      refine ⟨hplace, ?_, hroom⟩
      rw [Tree.origin, if_neg (by simp [habs])]
      exact hhere

/-- New content of the path can be made ready. -/
def HasRoom (t : Tree) (path : Text) : Prop := ∃ d, t.staging path = .ok d

/-! ## The two ways to replace a file -/

theorem landing_some_iff : t.landing (some p) path = .ok q ↔ p = q ∧ ∃ mode old, t.get? p = some (.file mode old) := by
  unfold landing
  split
  · next h =>
    obtain rfl := Option.some.inj h
    simp [Tree.get?]
  · next h =>
    obtain rfl := Option.some.inj h
    split
    · next mode old he => simp [he]
    · next he =>
      simp only [reduceCtorEq, false_iff, not_and, not_exists]
      rintro - mode old hf
      exact he mode old hf
  · next h => exact absurd h (by simp)

theorem ne_nil_of_landing {aim : Option Place} (h : t.landing aim path = .ok q) : q ≠ [] := by
  cases aim with
  | some p =>
    obtain ⟨rfl, mode, old, hp⟩ := landing_some_iff.1 h
    exact ne_nil_of_file hp
  | none =>
    obtain ⟨init, name, d, -, rfl⟩ := lastPlace_eq_ok_iff.1 h
    simp

theorem spot_eq_ok_iff : t.spot path = .ok (q, mode) ↔ t.HasRoom path ∧ t.landing (t.canonical? path) path = .ok q ∧
    (t.adopted? (t.canonical? path) path).getD freshMode = mode := by
  unfold spot HasRoom
  cases t.staging path with
  | error e => simp
  | ok d =>
    cases t.landing (t.canonical? path) path with
    | error f => simp
    | ok q => simp

theorem replace_eq_ok_iff : t.replace path content = .ok t' ↔
    ∃ q mode, t.spot path = .ok (q, mode) ∧ t' = t.put q (.file mode content) := by
  unfold replace
  cases t.spot path with
  | error e => simp
  | ok at' =>
    obtain ⟨q, mode⟩ := at'
    simp [eq_comm]

/-- The new content is put where the file stands to which the path comes. If it comes to nothing, its last name is
taken. -/
theorem spot_cases (h : t.spot path = .ok (q, mode)) :
    (t.canonical? path = some q ∧ ∃ old, t.get? q = some (.file mode old)) ∨
    (t.canonical? path = none ∧ (t.adopted? none path).getD freshMode = mode ∧
      ∃ init name d, t.LastAt path init name d ∧ q = d ++ [name]) := by
  obtain ⟨-, hq, hmode⟩ := spot_eq_ok_iff.1 h
  cases haim : t.canonical? path with
  | some p =>
    rw [haim] at hq hmode
    obtain ⟨rfl, mode', old, hp⟩ := landing_some_iff.1 hq
    obtain rfl : mode' = mode := by
      simpa only [adopted?, hp, Option.bind_some, Entry.mode?, Option.getD_some] using hmode
    exact .inl ⟨rfl, old, hp⟩
  | none =>
    rw [haim] at hq hmode
    exact .inr ⟨rfl, hmode, lastPlace_eq_ok_iff.1 hq⟩

theorem replace_cases (h : t.replace path content = .ok t') :
    (∃ p mode old, t.canonical? path = some p ∧ t.get? p = some (.file mode old) ∧
      t' = t.put p (.file mode content)) ∨
    (t.canonical? path = none ∧ ∃ init name d, t.LastAt path init name d ∧
      t' = t.put (d ++ [name]) (.file ((t.adopted? none path).getD freshMode) content)) := by
  obtain ⟨q, mode, hspot, rfl⟩ := replace_eq_ok_iff.1 h
  obtain ⟨hcome, old, hq⟩ | ⟨hcome, rfl, init, name, d, hlast, rfl⟩ := spot_cases hspot
  · exact .inl ⟨q, mode, old, hcome, hq, rfl⟩
  · exact .inr ⟨hcome, init, name, d, hlast, rfl⟩

/-- A file that can be read is replaced if new content can be made ready. -/
theorem exists_spot (h : t.readBytes path = .ok old) (hroom : t.HasRoom path) :
    ∃ q mode, t.spot path = .ok (q, mode) := by
  obtain ⟨p, mode, hf, -⟩ := readBytes_eq_ok_iff.1 h
  suffices hq : ∃ q, t.landing (t.canonical? path) path = .ok q by
    obtain ⟨q, hq⟩ := hq
    exact ⟨q, _, spot_eq_ok_iff.2 ⟨hroom, hq, rfl⟩⟩
  cases haim : t.canonical? path with
  | some p' =>
    obtain rfl := eq_of_canonical?_of_trace haim hf.trace
    exact ⟨p', landing_some_iff.2 ⟨rfl, mode, old, hf.entry⟩⟩
  | none =>
    obtain ⟨d, hd⟩ := hroom
    obtain ⟨init, name, d', hlast⟩ := hf.lastAt (staging_of_none haim hd).2.1
    exact ⟨d' ++ [name], lastPlace_eq_ok_iff.2 ⟨init, name, d', hlast, rfl⟩⟩

theorem exists_replace (h : t.readBytes path = .ok old) (hroom : t.HasRoom path) (new : Bytes) :
    ∃ t', t.replace path new = .ok t' := by
  obtain ⟨q, mode, hspot⟩ := exists_spot h hroom
  exact ⟨_, replace_eq_ok_iff.2 ⟨q, mode, hspot, rfl⟩⟩

theorem replace_of_not_hasRoom (hno : ¬ t.HasRoom path) (content : Bytes) :
    ∃ e, t.replace path content = .error e := by
  cases hr : t.replace path content with
  | error e => exact ⟨e, rfl⟩
  | ok t' =>
    obtain ⟨q, mode, hspot, -⟩ := replace_eq_ok_iff.1 hr
    exact absurd (spot_eq_ok_iff.1 hspot).1 hno

end LanguageRoster.Tree
