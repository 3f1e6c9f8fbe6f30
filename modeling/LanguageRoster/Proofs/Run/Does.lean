import LanguageRoster.Run.Program

/-!
# What programs do

* `Program.Does` : from wherever the tools and the tree are in the given state, a program ends as `R` says: `R` is about
  its result, the tools and the tree behind it, and what it did
* `Does.ends` : what `R` says of the program in one world
* `Does.bind` : one program behind another
* `Does.read`, `Does.replace`, `Does.tell`, `Does.call`, `Does.callChecked` : a single step, and a program behind it
-/

namespace LanguageRoster.Program

set_option autoImplicit false

variable {σ α β : Type} {box : Toolbox σ} {root : Text} {mute : Prop} {s : σ × Tree}

/-- The world behind the program has the tools and the tree `s`, and the log has grown by `done`. -/
structure Leaves (w : World σ) (s : σ × Tree) (done : List Effect) (w' : World σ) : Prop where
  tools : w'.tools = s.1
  tree : w'.tree = s.2
  log : w'.log = w.log ++ done
  room : w.room = none → w'.room = none

theorem Leaves.cons {w w₁ w' : World σ} {e : Effect} {done : List Effect} (h : Leaves w₁ s done w')
    (hl : w₁.log = w.log ++ [e]) (hr : w₁.room = w.room) : Leaves w s (e :: done) w' :=
  ⟨h.tools, h.tree, by rw [h.log, hl, List.append_assoc]; rfl, fun hw => h.room (hr.trans hw)⟩

/-- Started with the tools and the tree `s`, the program ends as `R` says. Unless `mute`, the narration takes all that
is told. -/
def Does (box : Toolbox σ) (root : Text) (mute : Prop) (x : Program α) (s : σ × Tree)
    (R : Except Failure α → σ × Tree → List Effect → Prop) : Prop :=
  ∀ w : World σ, w.tools = s.1 → w.tree = s.2 → (w.room ≠ none → mute) →
    ∃ s' done, Leaves w s' done (x.run box root w).2 ∧ R (x.run box root w).1 s' done

theorem run_bind (x : Program α) (k : α → Program β) (w : World σ) :
    (x >>= k).run box root w = match x.run box root w with
      | (.ok a, w') => (k a).run box root w'
      | (.error f, w') => (.error f, w') := by
  show (x.andThen k).run box root w = _
  induction x generalizing w with
  | done a => rfl
  | stop f => rfl
  | read path next ih =>
    rw [andThen, run, run]
    cases w.tree.readText path with
    | ok t => exact ih t w
    | error f => rfl
  | replace path content next ih =>
    rw [andThen, run, run]
    cases w.tree.replace path content.bytes with
    | ok tree => exact ih _
    | error r => rfl
  | narrate text next ih =>
    rw [andThen, run, run]
    match w.tell text with
    | (w, true) => exact ih w
    | (w, false) => rfl
  | call i next ih => exact ih _ _

namespace Does

variable {x : Program α} {k : α → Program β} {R : Except Failure α → σ × Tree → List Effect → Prop}

theorem ends {w : World σ} (h : x.Does box root True (w.tools, w.tree) R) :
    ∃ d, R (x.run box root w).1 ((x.run box root w).2.tools, (x.run box root w).2.tree) d := by
  obtain ⟨⟨tools, tree⟩, d, hl, hr⟩ := h w rfl rfl fun _ => trivial
  rw [hl.tools, hl.tree]
  exact ⟨d, hr⟩

theorem done {a : α} (h : R (.ok a) s []) : (Program.done a).Does box root mute s R := fun w ht hs _ =>
  ⟨s, [], ⟨ht, hs, by simp [run], id⟩, h⟩

theorem stop {f : Failure} (h : R (.error f) s []) : (Program.stop f).Does box root mute s R := fun w ht hs _ =>
  ⟨s, [], ⟨ht, hs, by simp [run], id⟩, h⟩

theorem imp {R' : Except Failure α → σ × Tree → List Effect → Prop} (h : x.Does box root mute s R)
    (himp : ∀ r s' d, R r s' d → R' r s' d) : x.Does box root mute s R' := by
  intro w ht hs hm
  obtain ⟨s', d, hl, hr⟩ := h w ht hs hm
  exact ⟨s', d, hl, himp _ _ _ hr⟩

/-- The second program starts where the first one ends, and what both did comes one behind the other. -/
theorem bind {R' : Except Failure β → σ × Tree → List Effect → Prop} (h : x.Does box root mute s R)
    (herr : ∀ f s' d, R (.error f) s' d → R' (.error f) s' d)
    (hok : ∀ a s' d, R (.ok a) s' d → (k a).Does box root mute s' fun r s'' d' => R' r s'' (d ++ d')) :
    (x >>= k).Does box root mute s R' := by
  intro w ht hs hm
  obtain ⟨s', d, hl, hr⟩ := h w ht hs hm
  rw [run_bind]
  match hx : x.run box root w with
  | (.error f, w') =>
    rw [hx] at hl hr
    exact ⟨s', d, hl, herr f s' d hr⟩
  | (.ok a, w') =>
    rw [hx] at hl hr
    obtain ⟨s'', d', hl', hr'⟩ := hok a s' d hr w' hl.tools hl.tree fun h => hm (h ∘ hl.room)
    refine ⟨s'', d ++ d', ⟨hl'.tools, hl'.tree, ?_, hl'.room ∘ hl.room⟩, hr'⟩
    rw [hl'.log, hl.log, List.append_assoc]

section

variable {R : Except Failure β → σ × Tree → List Effect → Prop}

theorem read {path : Text} {k : Text → Program β}
    (hok : ∀ t, s.2.readText path = .ok t → (k t).Does box root mute s R)
    (herr : ∀ f, s.2.readText path = .error f → R (.error (.notRead path f)) s []) :
    (readText path >>= k).Does box root mute s R := by
  intro w ht hs hm
  show ∃ s' d, Leaves w s' d (run box root (.read path k) w).2 ∧ R (run box root (.read path k) w).1 s' d
  rw [run, hs]
  match h : s.2.readText path with
  | .ok t => exact hok t h w ht hs hm
  | .error f => exact ⟨s, [], ⟨ht, hs, by simp, id⟩, herr f h⟩

theorem replace {path content : Text} {k : Unit → Program β}
    (hok : ∀ t, s.2.replace path content.bytes = .ok t →
      (k ()).Does box root mute (s.1, t) fun r s' d => R r s' (.replaced path :: d))
    (herr : ∀ r, s.2.replace path content.bytes = .error r → R (.error (.notReplaced path r)) s []) :
    (replaceText path content >>= k).Does box root mute s R := by
  intro w ht hs hm
  show ∃ s' d, Leaves w s' d (run box root (.replace path content (k ())) w).2 ∧
    R (run box root (.replace path content (k ())) w).1 s' d
  rw [run, hs]
  match h : s.2.replace path content.bytes with
  | .ok t =>
    obtain ⟨s', d, hl, hr⟩ := hok t h { w with tree := t, log := w.log ++ [.replaced path] } ht rfl hm
    exact ⟨s', .replaced path :: d, hl.cons rfl rfl, hr⟩
  | .error r => exact ⟨s, [], ⟨ht, hs, by simp, id⟩, herr r h⟩

theorem tell {line : Text} {k : Unit → Program β} (hok : (k ()).Does box root mute s R)
    (herr : mute → R (.error .narration) s []) : (Program.tell line >>= k).Does box root mute s R := by
  intro w ht hs hm
  have told : ∀ t, Leaves w s [] (w.tell t).1 ∧ ((w.tell t).2 = false → w.room ≠ none) := by
    intro t
    rw [World.tell]
    match hr : w.room with
    | none => exact ⟨⟨ht, hs, by simp, fun _ => rfl⟩, by simp⟩
    | some room => exact ⟨⟨ht, hs, by simp, by simp [hr]⟩, by simp⟩
  obtain ⟨hl, hf⟩ := told (line ++ ['\n'])
  show ∃ s' d, Leaves w s' d (run box root (.narrate (line ++ ['\n']) (k ())) w).2 ∧
    R (run box root (.narrate (line ++ ['\n']) (k ())) w).1 s' d
  rw [run]
  match hw : w.tell (line ++ ['\n']) with
  | (w', true) =>
    rw [hw] at hl
    obtain ⟨s', d, hl', hr⟩ := hok w' hl.tools hl.tree fun h => hm (h ∘ hl.room)
    exact ⟨s', d, ⟨hl'.tools, hl'.tree, by rw [hl'.log, hl.log]; simp, hl'.room ∘ hl.room⟩, hr⟩
  | (w', false) =>
    rw [hw] at hl hf
    exact ⟨s, [], hl, herr (hm (hf rfl))⟩

theorem call {i : Tool.Invocation} {k : Except Tool.Refusal Tool.Output → Program β}
    (h : (k (box root i s).1).Does box root mute (box root i s).2 fun r s' d => R r s' (.called root i :: d)) :
    (callTool i >>= k).Does box root mute s R := by
  intro w ht hs hm
  obtain ⟨tools, tree⟩ := s
  obtain rfl := ht
  obtain rfl := hs
  obtain ⟨s', d, hl, hr⟩ := h { w with
    tools := (box root i (w.tools, w.tree)).2.1
    tree := (box root i (w.tools, w.tree)).2.2
    log := w.log ++ [.called root i] } rfl rfl hm
  exact ⟨s', .called root i :: d, hl.cons rfl rfl, hr⟩

end

end Does

/-! ## Tools that have to succeed -/

def verdict (i : Tool.Invocation) : Except Tool.Refusal Tool.Output → Except Failure Tool.Output
  | .ok o => if o.success then .ok o else .error (.failed i o)
  | .error r => .error (.refused i r)

theorem Does.callChecked {i : Tool.Invocation} {k : Tool.Output → Program β}
    {R : Except Failure β → σ × Tree → List Effect → Prop}
    (hok : ∀ out, verdict i (box root i s).1 = .ok out →
      (k out).Does box root mute (box root i s).2 fun r s' d => R r s' (.called root i :: d))
    (herr : ∀ f, verdict i (box root i s).1 = .error f → R (.error f) (box root i s).2 [.called root i]) :
    (Program.callChecked i >>= k).Does box root mute s R := by
  refine .bind (R := fun r s' d => r = verdict i (box root i s).1 ∧ s' = (box root i s).2 ∧ d = [.called root i])
    (.call ?_) ?_ ?_
  · match (box root i s).1 with
    | .error r => exact .stop ⟨rfl, rfl, rfl⟩
    | .ok o =>
      simp only [verdict]
      split
      · exact .done ⟨rfl, rfl, rfl⟩
      · exact .stop ⟨rfl, rfl, rfl⟩
  · rintro f s' d ⟨hf, rfl, rfl⟩
    exact herr f hf.symm
  · rintro out s' d ⟨ho, rfl, rfl⟩
    exact hok out ho.symm

end LanguageRoster.Program
