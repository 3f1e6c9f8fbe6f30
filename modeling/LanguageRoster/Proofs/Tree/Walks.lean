import LanguageRoster.Proofs.Path
import LanguageRoster.Tree.Resolve

/-!
# Walks

How names lead from place to place, as a relation: one rule for each step.

* `Tree.Leads t links p names left q` : from `p` the names lead to `q`, and of `links` links `left` are left;
  `walkLinks_eq_ok_iff`, `trace_eq_ok_iff`
* `leads_append_iff`, `leads_append_dot_iff` : names one after another; names that lead to a directory
* `Leads.without_dots`, `Leads.with_dots` : dots lead nowhere
* `leads_directory`, `trace_directory` : the directory of a path
* `Tree.AllBut p t t'` : the trees are the same but for the entry at `p`; `AllBut.leads_of_none`,
  `AllBut.leads_of_file` : a file more or less leaves all other ways as they are
-/

namespace LanguageRoster.Tree

set_option autoImplicit false

variable {t t' : Tree} {links mid left : Nat} {p q r d : Place} {name : Text} {names rest : List Text} {path : Text}

/-! ## Steps -/

/-- A directory stands at the place, and its mode lets walks go on from there. -/
def Enters (t : Tree) (p : Place) : Prop := ∃ mode, t.get? p = some (.directory mode) ∧ mayEnter mode = true

theorem Enters.ne_of_file {mode : Nat} {content : Bytes} (h : t.Enters q) (hp : t.get? p = some (.file mode content)) :
    q ≠ p := by
  rintro rfl
  obtain ⟨m, hm, -⟩ := h
  rw [hp] at hm
  exact absurd hm (by simp)

/-- The name of an entry. -/
structure Names (name : Text) : Prop where
  ne_dot : name ≠ Path.dot
  ne_dotDot : name ≠ Path.dotDot
  short : name.size ≤ longestName

theorem Names.not_long (h : Names name) : ¬ longestName < name.size := Nat.not_lt_of_le h.short

/-- Where the target of a link starts that stands in the directory `p`. -/
def linkOrigin (p : Place) (target : Text) : Place := if Path.isAbsolute target then [] else p

/-- From the place `p` the names lead to `q`. Of the `links` links that may be followed, `left` are left. -/
inductive Leads (t : Tree) : (links : Nat) → (p : Place) → List Text → (left : Nat) → (q : Place) → Prop where
  | here {links : Nat} {p : Place} : Leads t links p [] links p
  | dot {links left : Nat} {p q : Place} {rest : List Text} (enters : t.Enters p) (go : Leads t links p rest left q) :
    Leads t links p (Path.dot :: rest) left q
  | up {links left : Nat} {p q : Place} {rest : List Text} (enters : t.Enters p)
    (go : Leads t links p.dropLast rest left q) : Leads t links p (Path.dotDot :: rest) left q
  | entry {links left : Nat} {p q : Place} {name : Text} {rest : List Text} {e : Entry} (enters : t.Enters p)
    (named : Names name) (entry : t.get? (p ++ [name]) = some e) (noLink : ∀ target, e ≠ .link target)
    (go : Leads t links (p ++ [name]) rest left q) : Leads t links p (name :: rest) left q
  | link {links mid left : Nat} {p d q : Place} {name target : Text} {rest : List Text} (enters : t.Enters p)
    (named : Names name) (link : t.get? (p ++ [name]) = some (.link target))
    (away : Leads t links (linkOrigin p target) (steps target) mid d) (go : Leads t mid d rest left q) :
    Leads t (links + 1) p (name :: rest) left q

/-- What one step of a walk comes to, if the walk arrives. -/
theorem walk_cons_eq_ok_iff {follow : Place → List Text → Except Fault Place} :
    t.walk follow p (name :: rest) = .ok q ↔ t.Enters p ∧
      ((name = Path.dot ∧ t.walk follow p rest = .ok q) ∨ (name = Path.dotDot ∧ t.walk follow p.dropLast rest = .ok q) ∨
        (Names name ∧ ∃ e, t.get? (p ++ [name]) = some e ∧ (∀ target, e ≠ .link target) ∧
          t.walk follow (p ++ [name]) rest = .ok q) ∨
        (Names name ∧ ∃ target, t.get? (p ++ [name]) = some (.link target) ∧
          follow (linkOrigin p target) (steps target ++ rest) = .ok q)) := by
  rw [walk]
  match hp : t.get? p with
  | none => simp [Enters, hp]
  | some (.file ..) => simp [Enters, hp]
  | some (.link _) => simp [Enters, hp]
  | some (.directory mode) =>
    have henters : t.Enters p ↔ mayEnter mode = true := by simp [Enters, hp]
    rw [henters]
    by_cases hmode : mayEnter mode = false
    · simp [hmode]
    rw [Bool.not_eq_false] at hmode
    by_cases hdot : name = Path.dot
    · have hne : ¬ Names name := fun h => h.ne_dot hdot
      have hup : name ≠ Path.dotDot := by rw [hdot]; decide
      simp [hmode, hdot ▸ hne, hdot, hdot ▸ hup]
    by_cases hup : name = Path.dotDot
    · have hne : ¬ Names name := fun h => h.ne_dotDot hup
      simp [hmode, hup ▸ hne, hup, hup ▸ hdot]
    by_cases hlong : longestName < name.size
    · have hne : ¬ Names name := fun h => absurd h.short (by omega)
      simp [hmode, hdot, hup, hlong, hne]
    · have hnamed : Names name := ⟨hdot, hup, by omega⟩
      simp only [hmode, hdot, hup, hlong, hnamed, if_false, Bool.not_true, Bool.false_eq_true, false_and, false_or,
        true_and]
      match he : t.get? (p ++ [name]) with
      | none => simp
      | some (.link target) => simp [linkOrigin]
      | some (.file ..) => simp
      | some (.directory _) => simp

theorem leads_nil_iff : t.Leads links p [] left q ↔ links = left ∧ p = q := by
  constructor
  · rintro ⟨⟩
    exact ⟨rfl, rfl⟩
  · rintro ⟨rfl, rfl⟩
    exact .here

theorem leads_cons_iff : t.Leads links p (name :: rest) left q ↔ t.Enters p ∧
    ((name = Path.dot ∧ t.Leads links p rest left q) ∨ (name = Path.dotDot ∧ t.Leads links p.dropLast rest left q) ∨
      (Names name ∧ ∃ e, t.get? (p ++ [name]) = some e ∧ (∀ target, e ≠ .link target) ∧
        t.Leads links (p ++ [name]) rest left q) ∨
      (Names name ∧ ∃ target, t.get? (p ++ [name]) = some (.link target) ∧ ∃ fewer mid d, links = fewer + 1 ∧
        t.Leads fewer (linkOrigin p target) (steps target) mid d ∧ t.Leads mid d rest left q)) := by
  constructor
  · rintro (_ | ⟨enters, go⟩ | ⟨enters, go⟩ | ⟨enters, named, he, noLink, go⟩ | ⟨enters, named, hl, away, go⟩)
    · exact ⟨enters, .inl ⟨rfl, go⟩⟩
    · exact ⟨enters, .inr (.inl ⟨rfl, go⟩)⟩
    · exact ⟨enters, .inr (.inr (.inl ⟨named, _, he, noLink, go⟩))⟩
    · exact ⟨enters, .inr (.inr (.inr ⟨named, _, hl, _, _, _, rfl, away, go⟩))⟩
  · rintro ⟨enters, ⟨rfl, go⟩ | ⟨rfl, go⟩ | ⟨named, e, he, noLink, go⟩ |
      ⟨named, target, hl, fewer, mid, d, rfl, away, go⟩⟩
    · exact .dot enters go
    · exact .up enters go
    · exact .entry enters named he noLink go
    · exact .link enters named hl away go

theorem Leads.append (h : t.Leads links p names mid d) (go : t.Leads mid d rest left q) :
    t.Leads links p (names ++ rest) left q := by
  induction h with
  | here => exact go
  | dot enters _ ih => exact .dot enters (ih go)
  | up enters _ ih => exact .up enters (ih go)
  | entry enters named he noLink _ ih => exact .entry enters named he noLink (ih go)
  | link enters named hl away _ _ ih => exact .link enters named hl away (ih go)

/-- Names one after another lead where the last lead from where the first have led. -/
theorem leads_append_iff :
    t.Leads links p (names ++ rest) left q ↔ ∃ mid d, t.Leads links p names mid d ∧ t.Leads mid d rest left q := by
  constructor
  · intro h
    induction names generalizing links p with
    | nil => exact ⟨links, p, .here, h⟩
    | cons name names ih =>
      rw [List.cons_append] at h
      cases h with
      | dot enters go =>
        obtain ⟨mid, d, hnames, hrest⟩ := ih go
        exact ⟨mid, d, .dot enters hnames, hrest⟩
      | up enters go =>
        obtain ⟨mid, d, hnames, hrest⟩ := ih go
        exact ⟨mid, d, .up enters hnames, hrest⟩
      | entry enters named he noLink go =>
        obtain ⟨mid, d, hnames, hrest⟩ := ih go
        exact ⟨mid, d, .entry enters named he noLink hnames, hrest⟩
      | link enters named hl away go =>
        obtain ⟨mid, d, hnames, hrest⟩ := ih go
        exact ⟨mid, d, .link enters named hl away hnames, hrest⟩
  · rintro ⟨mid, d, hnames, hrest⟩
    exact hnames.append hrest

theorem walk_eq_ok_iff {follow : Place → List Text → Except Fault Place}
    (hf : ∀ p names q, follow p names = .ok q ↔ ∃ fewer left, links = fewer + 1 ∧ t.Leads fewer p names left q) :
    t.walk follow p names = .ok q ↔ ∃ left, t.Leads links p names left q := by
  induction names generalizing p with
  | nil => simp [walk, leads_nil_iff]
  | cons name rest ih =>
    rw [walk_cons_eq_ok_iff]
    simp only [ih, hf]
    constructor
    · rintro ⟨enters, ⟨rfl, left, go⟩ | ⟨rfl, left, go⟩ | ⟨named, e, he, noLink, left, go⟩ |
        ⟨named, target, hl, fewer, left, rfl, go⟩⟩
      · exact ⟨left, .dot enters go⟩
      · exact ⟨left, .up enters go⟩
      · exact ⟨left, .entry enters named he noLink go⟩
      · obtain ⟨mid, d, away, go⟩ := leads_append_iff.1 go
        exact ⟨left, .link enters named hl away go⟩
    · rintro ⟨left, _ | ⟨enters, go⟩ | ⟨enters, go⟩ | ⟨enters, named, he, noLink, go⟩ | ⟨enters, named, hl, away, go⟩⟩
      · exact ⟨enters, .inl ⟨rfl, left, go⟩⟩
      · exact ⟨enters, .inr (.inl ⟨rfl, left, go⟩)⟩
      · exact ⟨enters, .inr (.inr (.inl ⟨named, _, he, noLink, left, go⟩))⟩
      · exact ⟨enters, .inr (.inr (.inr ⟨named, _, hl, _, left, rfl, away.append go⟩))⟩

theorem walkLinks_eq_ok_iff : t.walkLinks links p names = .ok q ↔ ∃ left, t.Leads links p names left q := by
  induction links generalizing p names q with
  | zero => exact walk_eq_ok_iff fun p names q => by simp
  | succ links ih => exact walk_eq_ok_iff fun p names q => by simp [ih]

theorem trace_eq_ok_iff : t.trace path = .ok q ↔
    '\x00' ∉ path ∧ path ≠ [] ∧ ∃ left, t.Leads mostLinks (t.origin path) (steps path) left q := by
  unfold trace
  by_cases hzero : '\x00' ∈ path
  · simp [hzero]
  by_cases hnil : path = []
  · simp [hnil]
  · simp [hzero, hnil, walkLinks_eq_ok_iff]

theorem Leads.more (h : t.Leads links p names left q) (extra : Nat) :
    t.Leads (links + extra) p names (left + extra) q := by
  induction h with
  | here => exact .here
  | dot enters _ ih => exact .dot enters ih
  | up enters _ ih => exact .up enters ih
  | entry enters named he noLink _ ih => exact .entry enters named he noLink ih
  | link enters named hl _ _ ihAway ih =>
    rw [Nat.add_right_comm]
    exact .link enters named hl ihAway ih

theorem Leads.unique {links' left' : Nat} (h : t.Leads links p names left q) (h' : t.Leads links' p names left' r) :
    q = r := by
  have hq := walkLinks_eq_ok_iff.2 ⟨_, h.more links'⟩
  have hr := walkLinks_eq_ok_iff.2 ⟨_, h'.more links⟩
  rw [Nat.add_comm links' links] at hr
  exact Except.ok.inj (hq.symm.trans hr)

/-! ## Directories on the way -/

theorem leads_dot_iff : t.Leads links p [Path.dot] left q ↔ t.Enters p ∧ links = left ∧ p = q := by
  constructor
  · intro h
    cases h with
    | dot enters go => exact ⟨enters, leads_nil_iff.1 go⟩
    | entry enters named _ _ go => exact absurd rfl named.ne_dot
    | link enters named _ _ go => exact absurd rfl named.ne_dot
  · rintro ⟨enters, rfl, rfl⟩
    exact .dot enters .here

/-- Names that a dot ends lead to a directory, which takes the next names. -/
theorem leads_append_dot_iff :
    t.Leads links p (names ++ [Path.dot]) left d ↔ t.Leads links p names left d ∧ t.Enters d := by
  simp only [leads_append_iff, leads_dot_iff]
  constructor
  · rintro ⟨_, _, hnames, enters, rfl, rfl⟩
    exact ⟨hnames, enters⟩
  · rintro ⟨hnames, enters⟩
    exact ⟨left, d, hnames, enters, rfl, rfl⟩

theorem Leads.enters (h : t.Leads links p (name :: rest) left q) : t.Enters p := (leads_cons_iff.1 h).1

theorem Leads.before (h : t.Leads links p (names ++ name :: rest) left q) :
    ∃ mid d, t.Leads links p (names ++ [Path.dot]) mid d := by
  obtain ⟨mid, d, hnames, hrest⟩ := leads_append_iff.1 h
  exact ⟨mid, d, leads_append_dot_iff.2 ⟨hnames, hrest.enters⟩⟩

/-- Dots lead nowhere. -/
theorem Leads.without_dots (h : t.Leads links p names left q) :
    t.Leads links p (names.filter (· ≠ Path.dot)) left q := by
  induction h with
  | here => exact .here
  | dot enters _ ih => rwa [List.filter_cons_of_neg (by simp)]
  | up enters _ ih =>
    rw [List.filter_cons_of_pos (by decide)]
    exact .up enters ih
  | entry enters named he noLink _ ih =>
    rw [List.filter_cons_of_pos (by simpa using named.ne_dot)]
    exact .entry enters named he noLink ih
  | link enters named hl away _ _ ih =>
    rw [List.filter_cons_of_pos (by simpa using named.ne_dot)]
    exact .link enters named hl away ih

/-- Dots may stand wherever walks may go on. -/
theorem Leads.with_dots (h : t.Leads links p (names.filter (· ≠ Path.dot)) left q) (enters : t.Enters q) :
    t.Leads links p names left q := by
  induction names generalizing links p with
  | nil => exact h
  | cons name rest ih =>
    by_cases hname : name = Path.dot
    · subst hname
      rw [List.filter_cons_of_neg (by simp)] at h
      refine .dot ?_ (ih h)
      cases hrest : rest.filter (· ≠ Path.dot) with
      | nil =>
        rw [hrest, leads_nil_iff] at h
        exact h.2 ▸ enters
      | cons next more =>
        rw [hrest] at h
        exact h.enters
    · rw [List.filter_cons_of_pos (by simpa using hname), leads_cons_iff] at h
      obtain ⟨hp, ⟨rfl, -⟩ | ⟨rfl, go⟩ | ⟨named, e, he, noLink, go⟩ |
        ⟨named, target, hl, fewer, mid, d, rfl, away, go⟩⟩ := h
      · exact absurd rfl hname
      · exact .up hp (ih go)
      · exact .entry hp named he noLink (ih go)
      · exact .link hp named hl away (ih go)

/-! ## The directory of a path -/

theorem steps_ne_nil (h : path ≠ []) : steps path ≠ [] := by
  unfold steps
  intro hs
  obtain ⟨hnames, hslash⟩ := List.append_eq_nil_iff.1 hs
  rw [if_pos (Path.getLast?_of_names_eq_nil hnames h)] at hslash
  exact List.cons_ne_nil _ _ hslash

theorem filter_steps (path : Text) : (steps path).filter (· ≠ Path.dot) = Path.moves path := by
  unfold steps Path.moves
  rw [List.filter_append]
  split
  · rw [List.filter_cons_of_neg (by simp), List.filter_nil, List.append_nil]
  · rw [List.filter_nil, List.append_nil]

/-- The directory of a path leads to where the path's last move starts. -/
theorem leads_directory {init : List Text} (hm : Path.moves path = init ++ [name])
    (h : t.Leads links (t.origin path) init left d) (enters : t.Enters d) :
    t.Leads links (t.origin (Path.directory path)) (steps (Path.directory path)) left d := by
  have hne : Path.moves path ≠ [] := by
    rw [hm]
    exact List.append_ne_nil_of_right_ne_nil _ (List.cons_ne_nil _ _)
  have horigin : t.origin (Path.directory path) = t.origin path := by
    unfold origin
    rw [Path.isAbsolute_directory hne]
  have hmoves : Path.moves (Path.directory path) = init := by rw [Path.moves_directory, hm, List.dropLast_concat]
  rw [← hmoves, ← filter_steps, ← horigin] at h
  exact h.with_dots enters

/-- The directory of a path that leads to a file is there. -/
theorem trace_directory {mode : Nat} {content : Bytes} (h : t.trace path = .ok p)
    (hp : t.get? p = some (.file mode content)) :
    ∃ d, t.trace (Path.directory path) = .ok d ∧ t.Enters d := by
  obtain ⟨hzero, hne, left, hl⟩ := trace_eq_ok_iff.1 h
  have hmoves := hl.without_dots
  rw [filter_steps] at hmoves
  rcases List.eq_nil_or_concat (Path.moves path) with hm | ⟨init, name, hm⟩
  · -- A path that does not move leads to a directory.
    obtain ⟨step, rest, hsteps⟩ := List.exists_cons_of_ne_nil (steps_ne_nil hne)
    rw [hsteps] at hl
    rw [hm, leads_nil_iff] at hmoves
    exact absurd hmoves.2 (hl.enters.ne_of_file hp)
  · rw [List.concat_eq_append] at hm
    rw [hm, leads_append_iff] at hmoves
    obtain ⟨mid, d, hinit, hlast⟩ := hmoves
    have hl := leads_directory hm hinit hlast.enters
    refine ⟨d, trace_eq_ok_iff.2 ⟨?_, Path.directory_ne_nil path, mid, hl⟩, hlast.enters⟩
    exact fun hc => hzero (Path.mem_of_mem_directory (by decide) (by decide) hc)

/-! ## Trees that differ at one place -/

/-- The trees are the same but for the entry at the place. -/
structure AllBut (p : Place) (t t' : Tree) : Prop where
  here : t'.here = t.here
  get? : ∀ q, q ≠ p → t'.get? q = t.get? q

theorem allBut_put (t : Tree) {p : Place} (hp : p ≠ []) (e : Entry) : AllBut p t (t.put p e) where
  here := rfl
  get? q hq := by rw [get?_put _ _ _ _ hp, if_neg hq]

theorem allBut_erase (t : Tree) (p : Place) : AllBut p t (t.erase p) where
  here := rfl
  get? q hq := by
    by_cases hnil : q = []
    · rw [hnil]
      simp [Tree.get?]
    · rw [get?_erase _ _ _ hnil, if_neg hq]

namespace AllBut

theorem symm (h : AllBut p t t') : AllBut p t' t := ⟨h.here.symm, fun q hq => (h.get? q hq).symm⟩

theorem trans {t'' : Tree} (h : AllBut p t t') (h' : AllBut p t' t'') : AllBut p t t'' :=
  ⟨h'.here.trans h.here, fun q hq => (h'.get? q hq).trans (h.get? q hq)⟩

theorem origin (h : AllBut p t t') (path : Text) : t'.origin path = t.origin path := by
  unfold Tree.origin
  rw [h.here]

theorem enters (h : AllBut p t t') (hp : ∀ mode, t.get? p ≠ some (.directory mode)) (hq : t.Enters q) :
    t'.Enters q := by
  obtain ⟨mode, hmode, hm⟩ := hq
  have hne : q ≠ p := by
    rintro rfl
    exact hp mode hmode
  exact ⟨mode, (h.get? q hne).trans hmode, hm⟩

/-- Where nothing stood that the walks could use, they lead where they led. -/
theorem leads_of_none (h : AllBut p t t') (hp : t.get? p = none) {d : Place} (hl : t.Leads links d names left q) :
    t'.Leads links d names left q := by
  have henters {d : Place} (he : t.Enters d) : t'.Enters d := h.enters (by simp [hp]) he
  have hentry {q : Place} {e : Entry} (he : t.get? q = some e) : t'.get? q = some e := by
    rw [h.get? q, he]
    rintro rfl
    rw [hp] at he
    exact absurd he (by simp)
  induction hl with
  | here => exact .here
  | dot enters _ ih => exact .dot (henters enters) ih
  | up enters _ ih => exact .up (henters enters) ih
  | entry enters named he noLink _ ih => exact .entry (henters enters) named (hentry he) noLink ih
  | link enters named hlink _ _ ihAway ih => exact .link (henters enters) named (hentry hlink) ihAway ih

end AllBut

theorem Leads.eq_of_file {mode : Nat} {content : Bytes} (h : t.Leads links p names left q)
    (hp : t.get? p = some (.file mode content)) : q = p := by
  cases names with
  | nil => exact (leads_nil_iff.1 h).2.symm
  | cons name rest => exact absurd rfl (h.enters.ne_of_file hp)

/-- Walks that do not end at a file do not need it. -/
theorem AllBut.leads_of_file {mode : Nat} {content : Bytes} (h : AllBut p t t')
    (hp : t.get? p = some (.file mode content)) {d : Place} (hl : t.Leads links d names left q) (hq : q ≠ p) :
    t'.Leads links d names left q := by
  have henters {d : Place} (he : t.Enters d) : t'.Enters d := h.enters (by simp [hp]) he
  induction hl with
  | here => exact .here
  | dot enters _ ih => exact .dot (henters enters) (ih hq)
  | up enters _ ih => exact .up (henters enters) (ih hq)
  | @entry _ _ a _ name _ _ enters named he noLink go ih =>
    have hne : a ++ [name] ≠ p := fun e => hq ((go.eq_of_file (e ▸ hp)).trans e)
    exact .entry (henters enters) named ((h.get? _ hne).trans he) noLink (ih hq)
  | @link _ _ _ a d _ name _ _ enters named hlink away go ihAway ih =>
    have hne : a ++ [name] ≠ p := by
      intro e
      rw [e, hp] at hlink
      exact absurd hlink (by simp)
    have hd : d ≠ p := fun e => hq ((go.eq_of_file (e ▸ hp)).trans e)
    exact .link (henters enters) named ((h.get? _ hne).trans hlink) (ihAway hd) (ih hq)

end LanguageRoster.Tree
