import LanguageRoster.Proofs.Tree.Outcome

/-!
# Replacing a file, call by call

`Tree.replace` puts new content in place in one step. The system takes it in several calls: a temporary file is made in
the directory, takes the content piece by piece, is made safe, takes over the mode and then the place of the file that
was there. Each call may fail, also where the tree gives no reason; the temporary file is then dropped.

* `Tree.Call`, `Attempt.call` : the calls, and what each does to the tree
* `Attempt.run`, `Tree.attempt` : the calls in turn, and what is left of them
* `Attempt.run_staged` : until the last call succeeds, the temporary file is all that is new
* `attempt_cases` : an attempt leaves the tree as it was, or comes to what `Tree.replace` does
* `attempt_all_or_nothing` : what can be said of the tree after an attempt
-/

namespace LanguageRoster

set_option autoImplicit false

/-! ## Entries -/

def Entry.append (piece : Bytes) : Entry → Entry
  | .file mode content => .file mode (content ++ piece)
  | e => e

def Entry.withMode (mode : Nat) : Entry → Entry
  | .file _ content => .file mode content
  | e => e

namespace Tree

variable {t t' : Tree} {path name : Text} {p q : Place} {e : Entry}

def alter (t : Tree) (p : Place) (change : Entry → Entry) : Tree :=
  match t.get? p with
  | some e => t.put p (change e)
  | none => t

/-- The tree in which the entry at `p` has taken the place `q`. -/
def move (t : Tree) (p q : Place) : Tree :=
  if p = q then t
  else match t.get? p with
    | some e => (t.put q e).erase p
    | none => t

theorem alter_put (t : Tree) (hp : p ≠ []) (e : Entry) (change : Entry → Entry) :
    (t.put p e).alter p change = t.put p (change e) := by
  unfold alter
  rw [get?_put_self _ hp]
  simp only [put, Record.set_set]

theorem erase_put (hp : t.get? p = none) (e : Entry) : (t.put p e).erase p = t := by
  conv_rhs => rw [← erase_of_none hp]
  simp only [put, erase, Record.filter_ne_set_self]

/-- What was made at a place where nothing was takes another place, as if it had been made there. -/
theorem move_put (hp : t.get? p = none) (q : Place) (e : Entry) : (t.put p e).move p q = t.put q e := by
  unfold move
  rw [get?_put_self _ (ne_nil_of_none hp)]
  by_cases hpq : p = q
  · rw [if_pos hpq, hpq]
  · rw [if_neg hpq]
    conv_rhs => rw [← erase_put hp e]
    simp only [put, erase]
    rw [Record.filter_ne_set_of_ne (Ne.symm hpq)]

/-! ## Calls -/

/-- What is done to a temporary file, one after another. -/
inductive Call where
  | write (piece : Bytes)
  | sync
  | adopt
  | rename
  deriving DecidableEq

/-- The calls that write the pieces and put the file in place. -/
def calls (pieces : List Bytes) : List Call := pieces.map .write ++ [.sync, .adopt, .rename]

/-- An attempt to replace a file: the path, the place to which it came at the start, if any, and the place of the
temporary file. -/
structure Attempt where
  path : Text
  aim : Option Place
  temporary : Place

namespace Attempt

/-- The tree after a call. A rename is a single step. -/
def call (a : Attempt) (t : Tree) : Call → Except Fault Tree
  | .write piece => .ok (t.alter a.temporary (Entry.append piece))
  | .sync => .ok t
  | .adopt =>
    match t.adopted? a.aim a.path with
    | some mode => .ok (t.alter a.temporary (Entry.withMode mode))
    | none => .ok t
  | .rename =>
    match t.landing a.aim a.path with
    | .ok p => .ok (t.move a.temporary p)
    | .error f => .error f

/-- The calls in turn. If one fails, the temporary file is dropped. A call fails by `mishap`, under its number, for
reasons that the tree does not show. -/
def run (a : Attempt) : (mishap : Nat → Option Fault) → Tree → List Call → Except Fault Unit × Tree
  | _, t, [] => (.ok (), t)
  | mishap, t, c :: more =>
    match mishap 0, a.call t c with
    | none, .ok t => run a (fun n => mishap (n + 1)) t more
    | none, .error f => (.error f, t.erase a.temporary)
    | some f, _ => (.error f, t.erase a.temporary)

end Attempt

/-- The attempt to replace the content of the file to which the path comes. The temporary file has the name `name`; the
system takes the content in pieces. Mishap 0 is that no temporary file can be made. -/
def attempt (t : Tree) (path name : Text) (pieces : List Bytes) (mishap : Nat → Option Fault) :
    Except Fault Unit × Tree :=
  match t.staging path, mishap 0 with
  | .ok d, none =>
    Attempt.run ⟨path, t.canonical? path, d ++ [name]⟩ (fun n => mishap (n + 1))
      (t.put (d ++ [name]) (.file freshMode [])) (calls pieces)
  | .ok _, some f => (.error f, t)
  | .error e, _ => (.error e.fault, t)

/-! ## What the calls come to -/

section

variable {mishap : Nat → Option Fault} {r s u : Except Fault Unit × Tree}

/-- The calls come to `s`, unless a mishap ends them before; then nothing is left of them. -/
def ComesTo (mishap : Nat → Option Fault) (t : Tree) (r s : Except Fault Unit × Tree) : Prop :=
  r = s ∨ ∃ f n, mishap n ≠ none ∧ r = (.error f, t)

theorem ComesTo.refl (mishap : Nat → Option Fault) (t : Tree) (r : Except Fault Unit × Tree) : ComesTo mishap t r r :=
  .inl rfl

theorem ComesTo.trans (k : Nat) (h : ComesTo mishap t r s) (h' : ComesTo (fun n => mishap (n + k)) t s u) :
    ComesTo mishap t r u := by
  rcases h with rfl | h
  · rcases h' with rfl | ⟨f, n, hn, hr⟩
    · exact .inl rfl
    · exact .inr ⟨f, n + k, hn, hr⟩
  · exact .inr h

end

namespace Attempt

variable {a : Attempt}

/-- A call that fails leaves nothing of the attempt. -/
theorem run_cons_put (hn : t.get? a.temporary = none) (e : Entry) (c : Call) (more : List Call)
    (mishap : Nat → Option Fault) : ComesTo mishap t (a.run mishap (t.put a.temporary e) (c :: more))
      (match a.call (t.put a.temporary e) c with
      | .ok t' => a.run (fun n => mishap (n + 1)) t' more
      | .error f => (.error f, t)) := by
  rw [run]
  cases hm : mishap 0 with
  | some f => exact .inr ⟨f, 0, by simp [hm], by simp only [erase_put hn]⟩
  | none =>
    refine .inl ?_
    cases a.call (t.put a.temporary e) c with
    | ok t' => rfl
    | error f => simp only [erase_put hn]

theorem call_write_put (hn : t.get? a.temporary = none) (mode : Nat) (content piece : Bytes) :
    a.call (t.put a.temporary (.file mode content)) (.write piece) =
      .ok (t.put a.temporary (.file mode (content ++ piece))) := by
  simp only [call, alter_put _ (ne_nil_of_none hn), Entry.append]

theorem call_adopt_put (hn : t.get? a.temporary = none) (mode : Nat) (content : Bytes) :
    a.call (t.put a.temporary (.file mode content)) .adopt =
      .ok (t.put a.temporary
        (.file (((t.put a.temporary (.file mode content)).adopted? a.aim a.path).getD mode) content)) := by
  unfold call
  cases (t.put a.temporary (.file mode content)).adopted? a.aim a.path with
  | none => rfl
  | some m => simp only [alter_put _ (ne_nil_of_none hn), Entry.withMode, Option.getD_some]

theorem call_rename_put (hn : t.get? a.temporary = none) (e : Entry) :
    a.call (t.put a.temporary e) .rename =
      match (t.put a.temporary e).landing a.aim a.path with
      | .ok q => .ok (t.put q e)
      | .error f => .error f := by
  simp only [call, move_put hn]

theorem run_writes (hn : t.get? a.temporary = none) (mode : Nat) (content : Bytes) (pieces : List Bytes)
    (more : List Call) (mishap : Nat → Option Fault) :
    ComesTo mishap t (a.run mishap (t.put a.temporary (.file mode content)) (pieces.map .write ++ more))
      (a.run (fun n => mishap (n + pieces.length)) (t.put a.temporary (.file mode (content ++ pieces.flatten)))
        more) := by
  induction pieces generalizing content mishap with
  | nil =>
    rw [List.flatten_nil, List.append_nil]
    exact .refl _ _ _
  | cons piece pieces ih =>
    have hstep := run_cons_put hn (.file mode content) (.write piece) (pieces.map .write ++ more) mishap
    rw [call_write_put hn] at hstep
    have hrest := ih (content ++ piece) fun n => mishap (n + 1)
    rw [List.append_assoc, ← List.flatten_cons] at hrest
    exact hstep.trans 1 hrest

/-- Until the last call succeeds, the temporary file is all that is new. -/
theorem run_staged (hn : t.get? a.temporary = none) {mode mode' : Nat} {pieces : List Bytes}
    (hm : ((t.put a.temporary (.file mode pieces.flatten)).adopted? a.aim a.path).getD mode = mode')
    (mishap : Nat → Option Fault) :
    ComesTo mishap t (a.run mishap (t.put a.temporary (.file mode [])) (calls pieces))
      (match (t.put a.temporary (.file mode' pieces.flatten)).landing a.aim a.path with
      | .ok q => (.ok (), t.put q (.file mode' pieces.flatten))
      | .error f => (.error f, t)) := by
  refine (run_writes hn mode [] pieces _ mishap).trans pieces.length ?_
  rw [List.nil_append]
  refine (run_cons_put hn _ .sync _ _).trans 1 ((run_cons_put hn _ .adopt _ _).trans 1 ?_)
  rw [call_adopt_put hn, hm]
  refine (run_cons_put hn _ .rename _ _).trans 1 ?_
  rw [call_rename_put hn]
  cases (t.put a.temporary (.file mode' pieces.flatten)).landing a.aim a.path with
  | ok q => exact .refl _ _ _
  | error f => exact .refl _ _ _

end Attempt

/-! ## Attempts -/

/-- The name is free for a temporary file: nothing has it in the directory, and the path does not come to it (as it
could by a step up, if a directory were missing above one that is there). -/
structure Unused (t : Tree) (path name : Text) : Prop where
  free : ∀ d, t.staging path = .ok d → t.get? (d ++ [name]) = none
  apart : ∀ d, t.staging path = .ok d → t.canonical? path ≠ some (d ++ [name])

variable {pieces : List Bytes} {mishap : Nat → Option Fault} {content : Bytes} {mode : Nat} {aim : Option Place}

section

variable {temporary : Place}

/-- The temporary file is not in the way of where the content is to land. -/
theorem landing_put_iff (hn : t.get? temporary = none) (hapart : aim ≠ some temporary) :
    (t.put temporary (.file mode content)).landing aim path = .ok q ↔ t.landing aim path = .ok q := by
  have hput := allBut_put t (ne_nil_of_none hn) (.file mode content)
  have hnew := get?_put_self t (ne_nil_of_none hn) (.file mode content)
  cases aim with
  | some p => rw [landing_some_iff, landing_some_iff, hput.get? p fun hp => hapart (congrArg some hp)]
  | none =>
    simp only [landing, lastPlace_eq_ok_iff]
    simp only [hput.lastAt_iff hn hnew]

/-- Nor does it have another mode than a file that is new. -/
theorem adopted?_put (hn : t.get? temporary = none) (hapart : aim ≠ some temporary) (path : Text) (content : Bytes) :
    ((t.put temporary (.file freshMode content)).adopted? aim path).getD freshMode =
      (t.adopted? aim path).getD freshMode := by
  have hput := allBut_put t (ne_nil_of_none hn) (.file freshMode content)
  have hnew := get?_put_self t (ne_nil_of_none hn) (.file freshMode content)
  generalize t.put temporary (.file freshMode content) = staged at hput hnew
  have hmode (q : Place) : ((staged.get? q).bind Entry.mode?).getD freshMode =
      ((t.get? q).bind Entry.mode?).getD freshMode := by
    by_cases hq : q = temporary
    · rw [hq, hnew, hn]
      rfl
    · rw [hput.get? q hq]
  cases aim with
  | some p => exact hmode p
  | none =>
    have hstaged (q : Place) (hr : t.resolve path = .ok q) : staged.resolve path = .ok q := by
      obtain ⟨hshort, htrace⟩ := resolve_eq_ok_iff.1 hr
      obtain ⟨hzero, hne, left, hl⟩ := trace_eq_ok_iff.1 htrace
      rw [← hput.origin] at hl
      exact resolve_eq_ok_iff.2 ⟨hshort, trace_eq_ok_iff.2 ⟨hzero, hne, left, hput.leads_of_none hn hl⟩⟩
    unfold adopted?
    cases hr : t.resolve path with
    | ok q =>
      rw [hstaged q hr]
      exact hmode q
    | error f =>
      cases hr' : staged.resolve path with
      | error f' => rfl
      | ok q =>
        -- the path leads to the temporary file itself
        obtain ⟨hshort, htrace⟩ := resolve_eq_ok_iff.1 hr'
        obtain ⟨hzero, hne, left, hl⟩ := trace_eq_ok_iff.1 htrace
        rw [hput.origin] at hl
        have hq : q = temporary := by
          by_contra hq
          have hback := trace_eq_ok_iff.2 ⟨hzero, hne, left, hput.symm.leads_of_file hnew hl hq⟩
          rw [resolve_eq_ok_iff.2 ⟨hshort, hback⟩] at hr
          exact absurd hr (by simp)
        simp only [Except.toOption, Option.bind_some, hq, hnew, Entry.mode?, Option.getD_some, Option.bind_none,
          Option.getD_none]

end

/-- An attempt comes to what the replacement in one step comes to. -/
theorem attempt_comesTo (hu : t.Unused path name) (pieces : List Bytes) (mishap : Nat → Option Fault) :
    ∃ f, ComesTo mishap t (t.attempt path name pieces mishap)
      (match t.replace path pieces.flatten with
      | .ok t' => (.ok (), t')
      | .error _ => (.error f, t)) := by
  cases hs : t.staging path with
  | error e =>
    refine ⟨e.fault, .inl ?_⟩
    simp only [attempt, replace, spot, hs]
  | ok d =>
    have hn := hu.free d hs
    have hapart := hu.apart d hs
    have hstart : ComesTo mishap t (t.attempt path name pieces mishap)
        (Attempt.run ⟨path, t.canonical? path, d ++ [name]⟩ (fun n => mishap (n + 1))
          (t.put (d ++ [name]) (.file freshMode [])) (calls pieces)) := by
      unfold attempt
      rw [hs]
      cases hm : mishap 0 with
      | none => exact .refl _ _ _
      | some f => exact .inr ⟨f, 0, by simp [hm], rfl⟩
    have hall := hstart.trans 1 (Attempt.run_staged hn (adopted?_put hn hapart path pieces.flatten) _)
    simp only [replace, spot, hs]
    cases hland : t.landing (t.canonical? path) path with
    | ok q =>
      refine ⟨.busy, ?_⟩
      simpa only [(landing_put_iff hn hapart).2 hland] using hall
    | error f =>
      cases hland' : (t.put (d ++ [name]) (.file ((t.adopted? (t.canonical? path) path).getD freshMode)
          pieces.flatten)).landing (t.canonical? path) path with
      | ok q =>
        rw [(landing_put_iff hn hapart).1 hland'] at hland
        exact absurd hland (by simp)
      | error f' =>
        refine ⟨f', ?_⟩
        simpa only [hland'] using hall

theorem attempt_cases (hu : t.Unused path name) (pieces : List Bytes) (mishap : Nat → Option Fault) :
    (∃ f, t.attempt path name pieces mishap = (.error f, t) ∧
      ((∃ n, mishap n ≠ none) ∨ ∀ t', t.replace path pieces.flatten ≠ .ok t')) ∨
    ∃ t', t.attempt path name pieces mishap = (.ok (), t') ∧ t.replace path pieces.flatten = .ok t' := by
  obtain ⟨f, hall | ⟨f', n, hn, hall⟩⟩ := attempt_comesTo hu pieces mishap
  · cases hr : t.replace path pieces.flatten with
    | error _ =>
      rw [hr] at hall
      exact .inl ⟨f, hall, .inr (by simp)⟩
    | ok t' =>
      rw [hr] at hall
      exact .inr ⟨t', hall, rfl⟩
  · exact .inl ⟨f', hall, .inl ⟨n, hn⟩⟩

/-- The temporary file is gone, unless the path asked for a file of its very name. -/
theorem Unused.gone {d : Place} (hu : t.Unused path name) (hs : t.staging path = .ok d)
    (hr : t.replace path content = .ok t') :
    t'.get? (d ++ [name]) = none ∨ t.lastPlace path = .ok (d ++ [name]) := by
  obtain ⟨q, mode, hspot, rfl⟩ := replace_eq_ok_iff.1 hr
  have hq := (spot_eq_ok_iff.1 hspot).2.1
  by_cases hdq : d ++ [name] = q
  · right
    cases haim : t.canonical? path with
    | some p =>
      rw [haim] at hq
      obtain ⟨rfl, -⟩ := landing_some_iff.1 hq
      exact absurd (haim.trans (congrArg some hdq.symm)) (hu.apart d hs)
    | none =>
      rw [haim] at hq
      rwa [hdq]
  · left
    rw [get?_put _ _ _ _ (ne_nil_of_landing hq), if_neg hdq]
    exact hu.free d hs

/-- An attempt to replace a file does all or nothing. If it fails, the tree is as it was. If it succeeds, it comes to
the replacement in one step: one entry is another, and the temporary file is gone. It fails where a directory is in the
way or where there is none; without mishaps it succeeds where the replacement in one step does. -/
theorem attempt_all_or_nothing (hu : t.Unused path name) (pieces : List Bytes) (mishap : Nat → Option Fault) :
    (∀ f t', t.attempt path name pieces mishap = (.error f, t') → t' = t) ∧
    (∀ t', t.attempt path name pieces mishap = (.ok (), t') → t.replace path pieces.flatten = .ok t' ∧
      Written t t' path pieces.flatten ∧
      ∀ d, t.staging path = .ok d → t'.get? (d ++ [name]) = none ∨ t.lastPlace path = .ok (d ++ [name])) ∧
    (Blocked t path → ∃ f, t.attempt path name pieces mishap = (.error f, t)) ∧
    ((∀ n, mishap n = none) → ∀ t', t.replace path pieces.flatten = .ok t' →
      t.attempt path name pieces mishap = (.ok (), t')) := by
  obtain ⟨f, hall, hwhy⟩ | ⟨t', hall, hr⟩ := attempt_cases hu pieces mishap
  · refine ⟨?_, ?_, ?_, ?_⟩
    · intro f' t' h
      exact (Prod.mk.inj (hall.symm.trans h)).2.symm
    · intro t' h
      exact absurd (Prod.mk.inj (hall.symm.trans h)).1 (by simp)
    · exact fun _ => ⟨f, hall⟩
    · intro hcalm t' hr
      rcases hwhy with ⟨n, hn⟩ | hno
      · exact absurd (hcalm n) hn
      · exact absurd hr (hno t')
  · refine ⟨?_, ?_, ?_, ?_⟩
    · intro f' t'' h
      exact absurd (Prod.mk.inj (hall.symm.trans h)).1 (by simp)
    · intro t'' h
      obtain rfl := (Prod.mk.inj (hall.symm.trans h)).2
      exact ⟨hr, written_of_replace hr, fun d hs => hu.gone hs hr⟩
    · exact fun hb => absurd hr (replace_ne_ok_of_blocked hb _ _)
    · intro _ t'' hr'
      obtain rfl := Except.ok.inj (hr.symm.trans hr')
      exact hall

/-- A file is replaced by way of a link to it; the content comes in two pieces. -/
theorem attempt_all_or_nothing_link :
    let t : Tree :=
      ⟨[([['d']], .directory 0o755), ([['d'], ['f']], .file 0o644 [0]), ([['l']], .link ['d', '/', 'f'])], []⟩
    t.Unused ['l'] ".tmpA1b2C3".toList ∧
      ∃ t', t.attempt ['l'] ".tmpA1b2C3".toList [[1], [2]] (fun _ => none) = (.ok (), t') ∧
        Written t t' ['l'] [1, 2] := by
  intro t
  have hs : t.staging ['l'] = .ok [['d']] := by rfl
  have hu : t.Unused ['l'] ".tmpA1b2C3".toList := by
    refine ⟨fun d hd => ?_, fun d hd => ?_⟩
    · obtain rfl := Except.ok.inj (hs.symm.trans hd)
      rfl
    · obtain rfl := Except.ok.inj (hs.symm.trans hd)
      decide +kernel
  obtain ⟨-, hok, -, hcalm⟩ := attempt_all_or_nothing hu [[1], [2]] fun _ => none
  have hall := hcalm (fun _ => rfl) _ rfl
  exact ⟨hu, _, hall, (hok _ hall).2.1⟩

/-- What is written is not always read: the mode of the file may forbid it, a directory from which the path steps up may
be shut, and the names before the last one may have needed the link that gives way. -/
theorem not_read_after_replace :
    (∃ t' : Tree, (Tree.mk [([['a']], .file 0o200 [1])] []).replace ['a'] [2] = .ok t' ∧
      t'.readBytes ['a'] = .error .denied) ∧
    (∃ t' : Tree,
      (Tree.mk [([['d']], .directory 0), ([['f']], .file 0o644 [1])] []).replace "d/../f".toList [2] = .ok t' ∧
        t'.readBytes "d/../f".toList = .error .denied) ∧
    let path : Text := (List.replicate 40 ['l', '/']).flatten ++ ['l']
    ∃ t' : Tree, (Tree.mk [([['l']], .link ['.'])] []).replace path [2] = .ok t' ∧
      t'.readBytes path = .error .notDirectory :=
  ⟨⟨_, rfl, by decide +kernel⟩, ⟨_, rfl, by decide +kernel⟩, ⟨_, rfl, by decide +kernel⟩⟩

end Tree

end LanguageRoster
