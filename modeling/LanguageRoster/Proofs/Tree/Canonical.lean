import LanguageRoster.Proofs.Tree.Walks
import LanguageRoster.Tree.Canonical

/-!
# Canonical places and walks

A path is followed by the system in one way and worked out name by name in another.

* `barred?_concat_iff`, `Leads.upright` : all directories above a place let walks through; walks from such a place lead
  to such places
* `Leads.canonicalLinks_eq_some` : where both ways arrive, they arrive at one place, also on the way
* `eq_of_canonical?_of_trace` : so the path comes to the place to which it leads
* `canonical?_of_trace` : it does come there if the way from the root is open and no path in the tree is too long
* `walkLinks_of_canonicalLinks`, `trace_of_canonical?` : the other way round, it leads to where it comes unless a
  directory on the way is shut
* `Open.canonical?_eq` : in a tree without shut directories and long paths both ways are the same
-/

namespace LanguageRoster.Tree

set_option autoImplicit false

variable {t : Tree} {links left : Nat} {p q r : Place} {name : Text} {names rest : List Text} {path : Text}
variable {e : Entry}

/-! ## Directories above a place -/

theorem barredFrom?_append (t : Tree) (p : Place) (names rest : List Text) :
    t.barredFrom? p (names ++ rest) = (t.barredFrom? p names).or (t.barredFrom? (p ++ names) rest) := by
  induction names generalizing p with
  | nil => simp [barredFrom?]
  | cons name names ih =>
    rw [List.cons_append, barredFrom?, barredFrom?]
    split
    · split
      · rw [ih, List.append_assoc, List.singleton_append]
      · rfl
    · rfl
    · rfl

theorem barred?_concat_iff : t.barred? (p ++ [name]) = none ↔ t.barred? p = none ∧ t.Enters p := by
  rw [barred?, barredFrom?_append, Option.or_eq_none_iff, List.nil_append]
  refine and_congr Iff.rfl ?_
  unfold Enters
  rw [barredFrom?]
  split
  · next mode hp =>
    by_cases hm : mayEnter mode = true <;> simp [hm, hp, barredFrom?]
  · next e he hp =>
    simp only [hp, reduceCtorEq, false_iff]
    rintro ⟨mode, hmode, -⟩
    exact he mode (Option.some.inj hmode)
  · next hp => simp [hp]

theorem barred?_dropLast (h : t.barred? p = none) : t.barred? p.dropLast = none := by
  rcases List.eq_nil_or_concat p with rfl | ⟨above, name, rfl⟩
  · exact h
  · rw [List.concat_eq_append] at h ⊢
    rw [List.dropLast_concat]
    exact (barred?_concat_iff.1 h).1

theorem barred?_linkOrigin (h : t.barred? p = none) (target : Text) : t.barred? (linkOrigin p target) = none := by
  unfold linkOrigin
  split
  · rfl
  · exact h

/-- From a place below open directories, walks lead to such places only. -/
theorem Leads.upright (h : t.Leads links p names left q) (hp : t.barred? p = none) : t.barred? q = none := by
  induction h with
  | here => exact hp
  | dot _ _ ih => exact ih hp
  | up _ _ ih => exact ih (barred?_dropLast hp)
  | entry enters _ _ _ _ ih => exact ih (barred?_concat_iff.2 ⟨hp, enters⟩)
  | link _ _ _ _ _ ihAway ih => exact ih (ihAway (barred?_linkOrigin hp _))

/-! ## Steps -/

theorem look?_eq_or (p : Place) : t.look? p = none ∨ t.look? p = t.get? p := by
  unfold look?
  split
  · exact .inl rfl
  · exact .inr rfl

theorem look?_eq_some (h : t.look? p = some e) : t.get? p = some e := by
  obtain hl | hl := look?_eq_or (t := t) p
  · exact absurd (hl.symm.trans h) (by simp)
  · exact hl.symm.trans h

@[simp] theorem canonicalLinks_nil (t : Tree) (links : Nat) (p : Place) : t.canonicalLinks links p [] = some p := by
  cases links <;> rfl

theorem canonicalLinks_dot (t : Tree) (links : Nat) (p : Place) (rest : List Text) :
    t.canonicalLinks links p (Path.dot :: rest) = t.canonicalLinks links p rest := by
  cases links <;> rfl

theorem canonicalLinks_up (t : Tree) (links : Nat) (p : Place) (rest : List Text) :
    t.canonicalLinks links p (Path.dotDot :: rest) = t.canonicalLinks links p.dropLast rest := by
  cases links <;> rfl

section

variable (named : Names name)

include named

theorem canonicalLinks_none (hl : t.look? (p ++ [name]) = none) : t.canonicalLinks links p (name :: rest) = none := by
  cases links <;> simp [canonicalLinks, canonicalWalk, named.ne_dot, named.ne_dotDot, named.not_long, hl]

theorem canonicalLinks_entry (hl : t.look? (p ++ [name]) = some e) (noLink : ∀ target, e ≠ .link target) :
    t.canonicalLinks links p (name :: rest) =
      if takes (p ++ [name]) e rest then t.canonicalLinks links (p ++ [name]) rest else none := by
  cases e with
  | link target => exact absurd rfl (noLink target)
  | _ => cases links <;> simp [canonicalLinks, canonicalWalk, named.ne_dot, named.ne_dotDot, named.not_long, hl]

theorem canonicalLinks_link {target : Text} (hl : t.look? (p ++ [name]) = some (.link target)) :
    t.canonicalLinks (links + 1) p (name :: rest) =
      t.canonicalLinks links (linkOrigin p target) (steps target ++ rest) := by
  simp [canonicalLinks, canonicalWalk, named.ne_dot, named.ne_dotDot, named.not_long, hl, linkOrigin]

theorem canonicalLinks_link_zero {target : Text} (hl : t.look? (p ++ [name]) = some (.link target)) :
    t.canonicalLinks 0 p (name :: rest) = none := by
  simp [canonicalLinks, canonicalWalk, named.ne_dot, named.ne_dotDot, named.not_long, hl]

end

/-! ## Both ways -/

/-- Where the names lead to `q`, and all the names come to `r`, the rest of them do so from `q`. -/
theorem Leads.canonicalLinks_eq_some (h : t.Leads links p names left q)
    (hr : t.canonicalLinks links p (names ++ rest) = some r) : t.canonicalLinks left q rest = some r := by
  induction h generalizing rest with
  | here => exact hr
  | dot _ _ ih =>
    rw [List.cons_append, canonicalLinks_dot] at hr
    exact ih hr
  | up _ _ ih =>
    rw [List.cons_append, canonicalLinks_up] at hr
    exact ih hr
  | @entry _ _ a _ name _ _ _ named he noLink _ ih =>
    rw [List.cons_append] at hr
    obtain hl | hl := look?_eq_or (t := t) (a ++ [name])
    · rw [canonicalLinks_none named hl] at hr
      exact absurd hr (by simp)
    · rw [canonicalLinks_entry named (hl.trans he) noLink, Option.ite_none_right_eq_some] at hr
      exact ih hr.2
  | @link _ _ _ a _ _ name _ _ _ named hlink _ _ ihAway ih =>
    rw [List.cons_append] at hr
    obtain hl | hl := look?_eq_or (t := t) (a ++ [name])
    · rw [canonicalLinks_none named hl] at hr
      exact absurd hr (by simp)
    · rw [canonicalLinks_link named (hl.trans hlink)] at hr
      exact ih (ihAway hr)

theorem canonical?_eq_some_iff : t.canonical? path = some p ↔
    '\x00' ∉ path ∧ path ≠ [] ∧ t.canonicalLinks mostLinks (t.origin path) (steps path) = some p := by
  unfold canonical?
  by_cases hzero : '\x00' ∈ path
  · simp [hzero]
  by_cases hnil : path = []
  · simp [hnil]
  · simp [hzero, hnil]

theorem eq_of_canonical?_of_trace (hp : t.canonical? path = some p) (hq : t.trace path = .ok q) : p = q := by
  obtain ⟨-, -, hp⟩ := canonical?_eq_some_iff.1 hp
  obtain ⟨-, -, left, hl⟩ := trace_eq_ok_iff.1 hq
  have hr : t.canonicalLinks left q [] = some p := hl.canonicalLinks_eq_some (by rwa [List.append_nil])
  rw [canonicalLinks_nil] at hr
  exact (Option.some.inj hr).symm

/-! ## Open ways and short paths -/

/-- All entries have absolute paths that the system takes, also with a slash at the end. -/
def ShortPaths (t : Tree) : Prop := ∀ p, t.get? p ≠ none → isTooLong (p.path ++ ['/']) = false

theorem isTooLong_of_append {a b : Text} (h : isTooLong (a ++ b) = false) : isTooLong a = false := by
  unfold isTooLong at h ⊢
  rw [decide_eq_false_iff_not, Text.size_append] at h
  rw [decide_eq_false_iff_not]
  omega

theorem ShortPaths.look?_eq (h : t.ShortPaths) (hp : t.barred? p = none) (he : t.get? p = some e) :
    t.look? p = some e := by
  have hshort := isTooLong_of_append (h p (by simp [he]))
  simp [look?, hshort, hp, he]

theorem ShortPaths.takes (h : t.ShortPaths) (he : t.get? p = some e) (hask : askDirectory names = true → t.Enters p) :
    takes p e names = true := by
  unfold Tree.takes
  cases ha : askDirectory names with
  | false => rfl
  | true =>
    obtain ⟨mode, hmode, -⟩ := hask ha
    obtain rfl := Option.some.inj (he.symm.trans hmode)
    simp [h p (by simp [he]), Entry.isDirectory]

theorem Leads.asks (h : t.Leads links p names left q) (hrest : askDirectory rest = true → t.Enters q)
    (hask : askDirectory (names ++ rest) = true) : t.Enters p := by
  cases names with
  | nil =>
    obtain ⟨-, rfl⟩ := leads_nil_iff.1 h
    exact hrest hask
  | cons name names => exact h.enters

/-- Where the way from the root is open and all paths are short, names come to what they lead to. -/
theorem Leads.canonicalLinks_eq (h : t.Leads links p names left q) (hshort : t.ShortPaths) (hp : t.barred? p = none)
    (hrest : askDirectory rest = true → t.Enters q) :
    t.canonicalLinks links p (names ++ rest) = t.canonicalLinks left q rest := by
  induction h generalizing rest with
  | here => rfl
  | dot _ _ ih =>
    rw [List.cons_append, canonicalLinks_dot]
    exact ih hp hrest
  | up _ _ ih =>
    rw [List.cons_append, canonicalLinks_up]
    exact ih (barred?_dropLast hp) hrest
  | @entry _ _ a _ name _ _ enters named he noLink go ih =>
    have hopen : t.barred? (a ++ [name]) = none := barred?_concat_iff.2 ⟨hp, enters⟩
    have htakes := hshort.takes he (go.asks hrest)
    rw [List.cons_append, canonicalLinks_entry named (hshort.look?_eq hopen he) noLink, if_pos htakes]
    exact ih hopen hrest
  | @link _ _ _ a d _ name target _ enters named hlink away go ihAway ih =>
    have hopen : t.barred? (a ++ [name]) = none := barred?_concat_iff.2 ⟨hp, enters⟩
    have horigin := barred?_linkOrigin hp target
    rw [List.cons_append, canonicalLinks_link named (hshort.look?_eq hopen hlink), ihAway horigin (go.asks hrest)]
    exact ih (away.upright horigin) hrest

/-- If the directories above the one where the path starts let walks through and all paths are short, the path comes to
the place to which it leads. -/
theorem canonical?_of_trace (hshort : t.ShortPaths) (hopen : t.barred? (t.origin path) = none)
    (h : t.trace path = .ok p) : t.canonical? path = some p := by
  obtain ⟨hzero, hne, left, hl⟩ := trace_eq_ok_iff.1 h
  have hcome : t.canonicalLinks mostLinks (t.origin path) (steps path ++ []) = t.canonicalLinks left p [] :=
    hl.canonicalLinks_eq hshort hopen (by simp [askDirectory])
  rw [List.append_nil, canonicalLinks_nil] at hcome
  exact canonical?_eq_some_iff.2 ⟨hzero, hne, hcome⟩

/-! ## Directories all the way -/

/-- A directory stands at the place and at each above it. -/
def Rooted (t : Tree) (p : Place) : Prop := ∀ q, q <+: p → ∃ mode, t.get? q = some (.directory mode)

theorem rooted_nil (t : Tree) : t.Rooted [] := by
  intro q hq
  rw [List.prefix_nil.1 hq]
  exact ⟨_, rfl⟩

theorem Rooted.dropLast (h : t.Rooted p) : t.Rooted p.dropLast := fun q hq => h q (hq.trans (List.dropLast_prefix p))

theorem Rooted.concat (h : t.Rooted p) {mode : Nat} (hd : t.get? (p ++ [name]) = some (.directory mode)) :
    t.Rooted (p ++ [name]) := by
  intro q hq
  rcases List.prefix_concat_iff.1 hq with rfl | hq
  · exact ⟨mode, hd⟩
  · exact h q hq

theorem Rooted.linkOrigin (h : t.Rooted p) (target : Text) : t.Rooted (linkOrigin p target) := by
  unfold Tree.linkOrigin
  split
  · exact rooted_nil t
  · exact h

theorem isDirectory_of_canonicalLinks (he : t.get? p = some e) (hne : names ≠ []) (htakes : takes p e names = true)
    (hr : t.canonicalLinks links p names = some r) : e.isDirectory = true := by
  have hasks : askDirectory names = true → e.isDirectory = true := by
    intro ha
    rw [takes, ha, Bool.not_true, Bool.false_or, Bool.and_eq_true] at htakes
    exact htakes.1
  induction names with
  | nil => exact absurd rfl hne
  | cons name rest ih =>
    by_cases hdot : name = Path.dot
    · subst hdot
      by_cases hrest : rest = []
      · subst hrest
        exact hasks rfl
      · have hask : askDirectory (Path.dot :: rest) = askDirectory rest := by simp [askDirectory, hrest]
        rw [canonicalLinks_dot] at hr
        rw [takes, hask, ← takes] at htakes
        rw [hask] at hasks
        exact ih hrest htakes hr hasks
    by_cases hup : name = Path.dotDot
    · exact hasks (by simp [askDirectory, hup, Path.dot, Path.dotDot])
    by_cases hlong : longestName < name.size
    · cases links <;> simp [canonicalLinks, canonicalWalk, hdot, hup, hlong] at hr
    · cases hlook : t.look? (p ++ [name]) with
      | none =>
        rw [canonicalLinks_none ⟨hdot, hup, by omega⟩ hlook] at hr
        exact absurd hr (by simp)
      | some e' =>
        have hopen : t.barred? (p ++ [name]) = none := by
          by_contra hbarred
          rw [look?, if_pos (.inr (Option.isSome_iff_ne_none.2 hbarred))] at hlook
          exact absurd hlook (by simp)
        obtain ⟨mode, hmode, -⟩ := (barred?_concat_iff.1 hopen).2
        obtain rfl := Option.some.inj (he.symm.trans hmode)
        rfl

theorem walkLinks_shut {mode : Nat} (hp : t.get? p = some (.directory mode)) (hm : mayEnter mode = false) :
    t.walkLinks links p (name :: rest) = .error .denied := by
  cases links <;> simp [walkLinks, walk, hp, hm]

section

variable (enters : t.Enters p)

include enters

theorem walkLinks_dot : t.walkLinks links p (Path.dot :: rest) = t.walkLinks links p rest := by
  obtain ⟨mode, hp, hm⟩ := enters
  cases links <;> simp [walkLinks, walk, hp, hm]

theorem walkLinks_up : t.walkLinks links p (Path.dotDot :: rest) = t.walkLinks links p.dropLast rest := by
  obtain ⟨mode, hp, hm⟩ := enters
  have hne : Path.dotDot ≠ Path.dot := by decide
  cases links <;> simp [walkLinks, walk, hp, hm, hne]

theorem walkLinks_entry (named : Names name) (he : t.get? (p ++ [name]) = some e)
    (noLink : ∀ target, e ≠ .link target) :
    t.walkLinks links p (name :: rest) = t.walkLinks links (p ++ [name]) rest := by
  obtain ⟨mode, hp, hm⟩ := enters
  cases e with
  | link target => exact absurd rfl (noLink target)
  | _ => cases links <;> simp [walkLinks, walk, hp, hm, named.ne_dot, named.ne_dotDot, named.not_long, he]

theorem walkLinks_link (named : Names name) {target : Text} (hlink : t.get? (p ++ [name]) = some (.link target)) :
    t.walkLinks (links + 1) p (name :: rest) = t.walkLinks links (linkOrigin p target) (steps target ++ rest) := by
  obtain ⟨mode, hp, hm⟩ := enters
  simp [walkLinks, walk, hp, hm, named.ne_dot, named.ne_dotDot, named.not_long, hlink, linkOrigin]

end

/-- Where all the names come to a place, the system does not fail to follow the first of them but for a directory that
it may not enter. -/
theorem walkLinks_of_canonicalLinks (hp : names ++ rest ≠ [] → t.Rooted p)
    (hr : t.canonicalLinks links p (names ++ rest) = some r) :
    t.walkLinks links p names = .error .denied ∨
      ∃ d, t.walkLinks links p names = .ok d ∧ (rest ≠ [] → t.Rooted d) := by
  induction links using Nat.strongRecOn generalizing p names with
  | ind links ihLinks =>
  induction names generalizing p with
  | nil => exact .inr ⟨p, by cases links <;> rfl, hp⟩
  | cons name names ih =>
    have hrooted := hp (List.cons_ne_nil _ _)
    obtain ⟨mode, hmode⟩ := hrooted p List.prefix_rfl
    by_cases hm : mayEnter mode = true
    swap
    · rw [Bool.not_eq_true] at hm
      exact .inl (walkLinks_shut hmode hm)
    have enters : t.Enters p := ⟨mode, hmode, hm⟩
    rw [List.cons_append] at hr
    by_cases hdot : name = Path.dot
    · subst hdot
      rw [canonicalLinks_dot] at hr
      rw [walkLinks_dot enters]
      exact ih (fun _ => hrooted) hr
    by_cases hup : name = Path.dotDot
    · subst hup
      rw [canonicalLinks_up] at hr
      rw [walkLinks_up enters]
      exact ih (fun _ => hrooted.dropLast) hr
    by_cases hlong : longestName < name.size
    · cases links <;> simp [canonicalLinks, canonicalWalk, hdot, hup, hlong] at hr
    have named : Names name := ⟨hdot, hup, by omega⟩
    cases hlook : t.look? (p ++ [name]) with
    | none =>
      rw [canonicalLinks_none named hlook] at hr
      exact absurd hr (by simp)
    | some e =>
      have he := look?_eq_some hlook
      by_cases hlink : ∃ target, e = .link target
      · obtain ⟨target, rfl⟩ := hlink
        cases links with
        | zero =>
          rw [canonicalLinks_link_zero named hlook] at hr
          exact absurd hr (by simp)
        | succ links =>
          rw [canonicalLinks_link named hlook, ← List.append_assoc] at hr
          rw [walkLinks_link enters named he]
          exact ihLinks links (Nat.lt_succ_self _) (fun _ => hrooted.linkOrigin target) hr
      · rw [not_exists] at hlink
        rw [canonicalLinks_entry named hlook hlink, Option.ite_none_right_eq_some] at hr
        rw [walkLinks_entry enters named he hlink]
        refine ih (fun hne => ?_) hr.2
        -- what more names are taken from is a directory
        obtain ⟨mode, rfl⟩ := Entry.isDirectory_iff.1 (isDirectory_of_canonicalLinks he hne hr.1 hr.2)
        exact hrooted.concat he

theorem Rooted.origin (h : t.Rooted t.here) (path : Text) : t.Rooted (t.origin path) := by
  unfold Tree.origin
  split
  · exact rooted_nil t
  · exact h

theorem trace_eq_walkLinks (hzero : '\x00' ∉ path) (hne : path ≠ []) :
    t.trace path = t.walkLinks mostLinks (t.origin path) (steps path) := by
  simp [trace, hzero, hne]

/-- If directories stand all the way to where the path starts, the path leads to the place to which it comes unless the
system may not enter a directory on the way. -/
theorem trace_of_canonical? (hhere : t.Rooted t.here) (h : t.canonical? path = some p) :
    t.trace path = .ok p ∨ t.trace path = .error .denied := by
  obtain ⟨hzero, hne, hlinks⟩ := canonical?_eq_some_iff.1 h
  rw [← List.append_nil (steps path)] at hlinks
  have htrace := trace_eq_walkLinks (t := t) hzero hne
  obtain hdenied | ⟨d, hd, -⟩ := walkLinks_of_canonicalLinks (fun _ => hhere.origin path) hlinks
  · exact .inr (htrace.trans hdenied)
  · obtain rfl := eq_of_canonical?_of_trace h (htrace.trans hd)
    exact .inl (htrace.trans hd)

/-! ## Open trees -/

/-- No directory is shut, directories stand all the way to the working directory, and all paths are short. -/
structure Open (t : Tree) : Prop where
  rooted : t.Rooted t.here
  mayEnter : ∀ p mode, t.get? p = some (.directory mode) → mayEnter mode = true
  short : t.ShortPaths

theorem Open.barred?_eq_none (h : t.Open) (hp : t.Rooted p) : t.barred? p = none := by
  induction p using List.reverseRecOn with
  | nil => rfl
  | append_singleton above name ih =>
    have habove : t.Rooted above := fun q hq => hp q (hq.trans (List.prefix_append above [name]))
    obtain ⟨mode, hmode⟩ := habove above List.prefix_rfl
    exact barred?_concat_iff.2 ⟨ih habove, mode, hmode, h.mayEnter above mode hmode⟩

theorem Open.walk_ne_denied (h : t.Open) {follow : Place → List Text → Except Fault Place}
    (hf : ∀ p names, follow p names ≠ .error .denied) (p : Place) (names : List Text) :
    t.walk follow p names ≠ .error .denied := by
  induction names generalizing p with
  | nil => simp [walk]
  | cons name rest ih =>
    cases hp : t.get? p with
    | none => simp [walk, hp]
    | some e =>
      cases e with
      | file => simp [walk, hp]
      | link => simp [walk, hp]
      | directory mode =>
        have hm := h.mayEnter p mode hp
        by_cases hdot : name = Path.dot
        · simpa [walk, hp, hm, hdot] using ih p
        by_cases hup : name = Path.dotDot
        · subst hup
          simpa [walk, hp, hm, hdot] using ih p.dropLast
        by_cases hlong : longestName < name.size
        · simp [walk, hp, hm, hdot, hup, hlong]
        cases he : t.get? (p ++ [name]) with
        | none => simp [walk, hp, hm, hdot, hup, hlong, he]
        | some e =>
          cases e with
          | link target => simpa [walk, hp, hm, hdot, hup, hlong, he] using hf _ _
          | _ => simpa [walk, hp, hm, hdot, hup, hlong, he] using ih (p ++ [name])

theorem Open.walkLinks_ne_denied (h : t.Open) (links : Nat) (p : Place) (names : List Text) :
    t.walkLinks links p names ≠ .error .denied := by
  induction links generalizing p names with
  | zero =>
    rw [walkLinks]
    exact h.walk_ne_denied (by simp) p names
  | succ links ih => exact h.walk_ne_denied ih p names

/-- In an open tree, paths come to the places to which they lead. -/
theorem Open.canonical?_eq (h : t.Open) (path : Text) : t.canonical? path = (t.trace path).toOption := by
  cases htrace : t.trace path with
  | ok p => exact canonical?_of_trace h.short (h.barred?_eq_none (h.rooted.origin path)) htrace
  | error f =>
    rw [Except.toOption, Option.eq_none_iff_forall_ne_some]
    intro p hp
    obtain htrace' | hdenied := trace_of_canonical? h.rooted hp
    · exact absurd (htrace.symm.trans htrace') (by simp)
    · obtain ⟨hzero, hne, -⟩ := canonical?_eq_some_iff.1 hp
      exact h.walkLinks_ne_denied _ _ _ ((trace_eq_walkLinks hzero hne).symm.trans hdenied)

end LanguageRoster.Tree
