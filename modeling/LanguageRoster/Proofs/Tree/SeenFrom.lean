import LanguageRoster.Proofs.Tree.Apart

/-!
# Another directory at hand

Absolute paths lead to the same places, whatever directory is at hand. Files are read and replaced there alike.

* `Tree.seenFrom` : a tree with another directory at hand
* `trace_seenFrom`, `readText_seenFrom`, `canonical?_seenFrom` : absolute paths in it
* `LeadsTo.replace_seenFrom` : a file at an absolute path is replaced from wherever
-/

namespace LanguageRoster.Tree

set_option autoImplicit false

variable {t : Tree} {path : Text} {p : Place}

/-- The tree with another directory at hand. -/
def seenFrom (t : Tree) (h : Place) : Tree := { t with here := h }

@[simp] theorem seenFrom_seenFrom (t : Tree) (h h' : Place) : (t.seenFrom h).seenFrom h' = t.seenFrom h' := rfl

@[simp] theorem get?_seenFrom (t : Tree) (h p : Place) : (t.seenFrom h).get? p = t.get? p := rfl

/-! ## Following paths -/

theorem walk_seenFrom (t : Tree) (h : Place) (follow : Place → List Text → Except Fault Place) (p : Place)
    (names : List Text) : (t.seenFrom h).walk follow p names = t.walk follow p names := by
  induction names generalizing p with
  | nil => rfl
  | cons name rest ih => simp only [walk, get?_seenFrom, ih]

theorem walkLinks_seenFrom (t : Tree) (h : Place) (links : Nat) :
    (t.seenFrom h).walkLinks links = t.walkLinks links := by
  induction links with
  | zero => exact funext fun p => funext fun names => walk_seenFrom t h _ p names
  | succ links ih =>
    funext p names
    rw [walkLinks, walkLinks, ih]
    exact walk_seenFrom t h _ p names

theorem origin_seenFrom (habs : Path.isAbsolute path = true) (t : Tree) (h : Place) :
    (t.seenFrom h).origin path = t.origin path := by
  rw [origin, origin, if_pos habs, if_pos habs]

theorem trace_seenFrom (habs : Path.isAbsolute path = true) (t : Tree) (h : Place) :
    (t.seenFrom h).trace path = t.trace path := by
  simp only [trace, origin_seenFrom habs, walkLinks_seenFrom]

theorem resolve_seenFrom (habs : Path.isAbsolute path = true) (t : Tree) (h : Place) :
    (t.seenFrom h).resolve path = t.resolve path := by
  simp only [resolve, trace_seenFrom habs]

theorem readText_seenFrom (habs : Path.isAbsolute path = true) (t : Tree) (h : Place) :
    (t.seenFrom h).readText path = t.readText path := by
  simp only [readText, readBytes, resolve_seenFrom habs, get?_seenFrom]

/-! ## Working paths out -/

theorem barred?_seenFrom (t : Tree) (h p : Place) : (t.seenFrom h).barred? p = t.barred? p := by
  have hfrom (a : Place) (names : List Text) : (t.seenFrom h).barredFrom? a names = t.barredFrom? a names := by
    induction names generalizing a with
    | nil => rfl
    | cons name rest ih => simp only [barredFrom?, get?_seenFrom, ih]
  exact hfrom [] p

theorem look?_seenFrom (t : Tree) (h p : Place) : (t.seenFrom h).look? p = t.look? p := by
  simp only [look?, barred?_seenFrom, get?_seenFrom]

theorem canonical?_seenFrom (habs : Path.isAbsolute path = true) (t : Tree) (h : Place) :
    (t.seenFrom h).canonical? path = t.canonical? path := by
  have hlook (p : Place) : ((t.seenFrom h).look? p).map Entry.bare = (t.look? p).map Entry.bare := by
    rw [look?_seenFrom]
  simp only [Tree.canonical?, origin_seenFrom habs, canonicalLinks_congr hlook]

/-! ## Replacing files -/

/-- The path of a file has more than dots and slashes. -/
theorem LeadsTo.moves_ne_nil (hp : t.LeadsTo path p) (habs : Path.isAbsolute path = true) : Path.moves path ≠ [] := by
  obtain ⟨mode, content, he⟩ := hp.file
  obtain ⟨-, -, left, hl⟩ := trace_eq_ok_iff.1 hp.trace
  have hmoves := hl.without_dots
  rw [filter_steps] at hmoves
  intro hnil
  rw [hnil, leads_nil_iff, origin, if_pos habs] at hmoves
  exact ne_nil_of_file he hmoves.2.symm

/-- The directory in which new content is made ready has an absolute path too. -/
theorem LeadsTo.stagingAt_seenFrom (hp : t.LeadsTo path p) (habs : Path.isAbsolute path = true) (h : Place) :
    (t.seenFrom h).stagingAt path = t.stagingAt path ∧ Path.isAbsolute (t.stagingAt path).1 = true := by
  have hdir := (Path.isAbsolute_directory (hp.moves_ne_nil habs)).trans habs
  simp only [stagingAt, canonical?_seenFrom habs]
  split
  · next hroot =>
    obtain ⟨mode, content, he⟩ := hp.file
    exact absurd (eq_of_canonical?_of_trace hroot hp.trace).symm (ne_nil_of_file he)
  · exact ⟨by simp only [reach, barred?_seenFrom], Place.isAbsolute_path _⟩
  · simp only [traceAbsolute, hdir, if_true, trace_seenFrom hdir, and_self]

theorem LeadsTo.staging_seenFrom (hp : t.LeadsTo path p) (habs : Path.isAbsolute path = true) (h : Place) :
    (t.seenFrom h).staging path = t.staging path := by
  obtain ⟨hat, hdir⟩ := hp.stagingAt_seenFrom habs h
  have hjoin (here : Text) : Path.join here (t.stagingAt path).1 = (t.stagingAt path).1 := by
    rw [Path.join, if_pos hdir]
  have hroom (d : Place) : (t.seenFrom h).noRoom? d = t.noRoom? d := rfl
  simp only [staging, hat, hjoin, hroom]

theorem LeadsTo.spot_seenFrom (hp : t.LeadsTo path p) (habs : Path.isAbsolute path = true) (h : Place) :
    (t.seenFrom h).spot path = t.spot path := by
  simp only [spot, landing, lastPlace, adopted?, hp.staging_seenFrom habs h, canonical?_seenFrom habs,
    resolve_seenFrom habs, origin_seenFrom habs, walkLinks_seenFrom, get?_seenFrom]

theorem LeadsTo.replace_seenFrom (hp : t.LeadsTo path p) (habs : Path.isAbsolute path = true) (h : Place)
    (new : Bytes) : (t.seenFrom h).replace path new = (t.replace path new).map (·.seenFrom h) := by
  rw [replace, replace, hp.spot_seenFrom habs h]
  cases t.spot path with
  | error e => rfl
  | ok at' => rfl

end LanguageRoster.Tree
