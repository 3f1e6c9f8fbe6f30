import LanguageRoster.Proofs.Tree.Canonical
import LanguageRoster.Tree.Replace

/-!
# Contents of files

Where only the contents of files differ, all paths lead to the same places.

* `canonicalLinks_congr` : what is worked out depends on directories and links only
* `Tree.SameShape` : the trees differ in the contents of files at most; `SameShape.resolve`, `SameShape.canonical?`,
  `SameShape.staging`
* `Tree.FileAt` : the file to which a path leads; `readText_eq_ok_iff`
* `Tree.SamePlace` : two paths lead to one place; they then have one text
-/

namespace LanguageRoster

set_option autoImplicit false

/-- The entry without the content of a file. -/
def Entry.bare : Entry → Entry
  | .file mode _ => .file mode []
  | e => e

namespace Tree

/-- What is worked out depends on directories and links only. -/
theorem canonicalLinks_congr {t t' : Tree} (h : ∀ p, (t.look? p).map Entry.bare = (t'.look? p).map Entry.bare)
    (links : Nat) (p : Place) (names : List Text) :
    t.canonicalLinks links p names = t'.canonicalLinks links p names := by
  have hwalk (follow : Place → List Text → Option Place) (p : Place) (names : List Text) :
      t.canonicalWalk follow p names = t'.canonicalWalk follow p names := by
    induction names generalizing p with
    | nil => rfl
    | cons name rest ih =>
      have hlook := h (p ++ [name])
      simp only [canonicalWalk, ih]
      cases he : t.look? (p ++ [name]) with
      | none =>
        rw [he] at hlook
        rw [Option.map_eq_none_iff.1 hlook.symm]
      | some e =>
        rw [he] at hlook
        obtain ⟨e', he', hbare⟩ := Option.map_eq_some_iff.1 hlook.symm
        rw [he']
        cases e <;> cases e' <;> simp_all [Entry.bare, takes, Entry.isDirectory]
  induction links generalizing p names with
  | zero => exact hwalk _ p names
  | succ links ih =>
    rw [canonicalLinks, canonicalLinks, hwalk]
    congr 1
    funext p names
    exact ih p names

/-! ## Shape -/

/-- The trees differ in the contents of files at most. -/
structure SameShape (t t' : Tree) : Prop where
  here : t.here = t'.here
  bare : ∀ p, (t.get? p).map Entry.bare = (t'.get? p).map Entry.bare

namespace SameShape

variable {t t' t'' : Tree}

theorem refl (t : Tree) : t.SameShape t := ⟨rfl, fun _ => rfl⟩

theorem trans (h : t.SameShape t') (h' : t'.SameShape t'') : t.SameShape t'' :=
  ⟨h.here.trans h'.here, fun p => (h.bare p).trans (h'.bare p)⟩

theorem directory (h : t.SameShape t') {p : Place} {mode : Nat} (hp : t.get? p = some (.directory mode)) :
    t'.get? p = some (.directory mode) := by
  have hb := h.bare p
  rw [hp] at hb
  cases he : t'.get? p with
  | none => simp [he] at hb
  | some e => cases e <;> simp_all [Entry.bare]

theorem link (h : t.SameShape t') {p : Place} {target : Text} (hp : t.get? p = some (.link target)) :
    t'.get? p = some (.link target) := by
  have hb := h.bare p
  rw [hp] at hb
  cases he : t'.get? p with
  | none => simp [he] at hb
  | some e => cases e <;> simp_all [Entry.bare]

theorem file (h : t.SameShape t') {p : Place} {mode : Nat} {content : Bytes}
    (hp : t.get? p = some (.file mode content)) : ∃ content', t'.get? p = some (.file mode content') := by
  have hb := h.bare p
  rw [hp] at hb
  cases he : t'.get? p with
  | none => simp [he] at hb
  | some e => cases e <;> simp_all [Entry.bare]

theorem nothing (h : t.SameShape t') {p : Place} (hp : t.get? p = none) : t'.get? p = none := by
  have hb := h.bare p
  rw [hp] at hb
  simpa using hb.symm

/-- All walks go the same way: a walk sees directories and links only. -/
theorem walk (h : t.SameShape t') (follow : Place → List Text → Except Fault Place) (p : Place) (names : List Text) :
    t.walk follow p names = t'.walk follow p names := by
  induction names generalizing p with
  | nil => rfl
  | cons name rest ih =>
    rw [Tree.walk, Tree.walk]
    cases hp : t.get? p with
    | none => rw [h.nothing hp]
    | some e =>
      cases e with
      | link target => rw [h.link hp]
      | file mode content =>
        obtain ⟨_, hp'⟩ := h.file hp
        rw [hp']
      | directory mode =>
        rw [h.directory hp]
        simp only [ih]
        cases hq : t.get? (p ++ [name]) with
        | none => rw [h.nothing hq]
        | some e =>
          cases e with
          | directory mode => rw [h.directory hq]
          | link target => rw [h.link hq]
          | file mode content =>
            obtain ⟨_, hq'⟩ := h.file hq
            rw [hq']

theorem walkLinks (h : t.SameShape t') (links : Nat) : t.walkLinks links = t'.walkLinks links := by
  induction links with
  | zero => exact funext fun p => funext fun names => h.walk _ p names
  | succ links ih =>
    funext p names
    rw [Tree.walkLinks, Tree.walkLinks, ih]
    exact h.walk _ p names

theorem trace (h : t.SameShape t') (path : Text) : t.trace path = t'.trace path := by
  simp only [Tree.trace, Tree.origin, h.here, h.walkLinks]

theorem resolve (h : t.SameShape t') (path : Text) : t.resolve path = t'.resolve path := by
  rw [Tree.resolve, Tree.resolve, h.trace]

theorem barredFrom? (h : t.SameShape t') (p : Place) (names : List Text) :
    t.barredFrom? p names = t'.barredFrom? p names := by
  induction names generalizing p with
  | nil => rfl
  | cons name rest ih =>
    rw [Tree.barredFrom?, Tree.barredFrom?, ih]
    cases hp : t.get? p with
    | none => rw [h.nothing hp]
    | some e =>
      cases e with
      | directory mode => rw [h.directory hp]
      | link target => rw [h.link hp]
      | file mode content =>
        obtain ⟨_, hp'⟩ := h.file hp
        rw [hp']

theorem barred? (h : t.SameShape t') (p : Place) : t.barred? p = t'.barred? p := h.barredFrom? [] p

theorem canonical? (h : t.SameShape t') (path : Text) : t.canonical? path = t'.canonical? path := by
  have hlook (p : Place) : (t.look? p).map Entry.bare = (t'.look? p).map Entry.bare := by
    unfold look?
    rw [h.barred?]
    split
    · rfl
    · exact h.bare p
  simp only [Tree.canonical?, Tree.origin, h.here, canonicalLinks_congr hlook]

theorem noRoom? (h : t.SameShape t') (p : Place) : t.noRoom? p = t'.noRoom? p := by
  unfold Tree.noRoom?
  cases hp : t.get? p with
  | none => rw [h.nothing hp]
  | some e =>
    cases e with
    | directory mode => rw [h.directory hp]
    | link target => rw [h.link hp]
    | file mode content =>
      obtain ⟨_, hp'⟩ := h.file hp
      rw [hp']

theorem staging (h : t.SameShape t') (path : Text) : t.staging path = t'.staging path := by
  have hat : t.stagingAt path = t'.stagingAt path := by
    simp only [Tree.stagingAt, Tree.reach, Tree.traceAbsolute, h.canonical?, h.barred?, h.trace, h.here]
  simp only [Tree.staging, hat, h.here, h.noRoom?]

end SameShape

/-! ## Files -/

/-- The path leads to a file. -/
structure FileAt (t : Tree) (path : Text) (p : Place) (mode : Nat) (content : Bytes) : Prop where
  resolve : t.resolve path = .ok p
  entry : t.get? p = some (.file mode content)

section

variable {t t' : Tree} {path : Text} {p : Place} {mode : Nat} {content : Bytes}

theorem readBytes_eq_ok_iff :
    t.readBytes path = .ok content ↔ ∃ p mode, t.FileAt path p mode content ∧ mayRead mode = true := by
  constructor
  · intro h
    rw [readBytes] at h
    split at h
    · exact absurd h (by simp)
    next p hp =>
    split at h
    · next mode c hf =>
      split at h
      · next hm => exact ⟨p, mode, ⟨hp, Except.ok.inj h ▸ hf⟩, hm⟩
      · exact absurd h (by simp)
    · exact absurd h (by simp)
    · exact absurd h (by simp)
  · rintro ⟨p, mode, ⟨hp, hf⟩, hm⟩
    rw [readBytes, hp]
    simp [hf, hm]

theorem readText_eq_ok_iff {text : Text} : t.readText path = .ok text ↔ t.readBytes path = .ok text.bytes := by
  rw [readText]
  cases hb : t.readBytes path with
  | error f => simp
  | ok c =>
    simp only [Except.ok.injEq, ← Text.decode?_eq_some_iff]
    cases Text.decode? c <;> simp

theorem readText_congr (h : t'.readBytes path = t.readBytes path) : t'.readText path = t.readText path := by
  rw [readText, readText, h]

theorem trace_of_resolve (h : t.resolve path = .ok p) : t.trace path = .ok p := by
  unfold Tree.resolve at h
  split at h
  · exact absurd h (by simp)
  · exact h

theorem FileAt.trace (h : t.FileAt path p mode content) : t.trace path = .ok p := trace_of_resolve h.resolve

theorem ne_nil_of_file (h : t.get? p = some (.file mode content)) : p ≠ [] := by
  rintro rfl
  exact absurd h (by simp [get?])

theorem sameShape_put (h : t.get? p = some (.file mode content)) (content' : Bytes) :
    t.SameShape (t.put p (.file mode content')) where
  here := rfl
  bare q := by
    rw [get?_put _ _ _ _ (ne_nil_of_file h)]
    split
    · next hq => rw [hq, h]; rfl
    · rfl

end

/-! ## Paths to one place -/

section

variable {t : Tree} {a b x y : Text}

/-- Both paths lead to one place, by whatever links. -/
def SamePlace (t : Tree) (a b : Text) : Prop := ∃ p, t.trace a = .ok p ∧ t.trace b = .ok p

theorem SamePlace.text_eq (h : t.SamePlace a b) (hx : t.readText a = .ok x) (hy : t.readText b = .ok y) : x = y := by
  obtain ⟨p, ha, hb⟩ := h
  obtain ⟨q, mode, hq, -⟩ := readBytes_eq_ok_iff.1 (readText_eq_ok_iff.1 hx)
  obtain ⟨r, mode', hr, -⟩ := readBytes_eq_ok_iff.1 (readText_eq_ok_iff.1 hy)
  obtain rfl := Except.ok.inj (ha.symm.trans hq.trace)
  obtain rfl := Except.ok.inj (hb.symm.trans hr.trace)
  exact Text.bytes_inj (Entry.file.inj (Option.some.inj (hq.entry.symm.trans hr.entry))).2

end

end Tree

end LanguageRoster
