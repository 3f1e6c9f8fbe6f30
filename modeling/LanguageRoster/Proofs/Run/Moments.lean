import LanguageRoster.Proofs.Run.Does

/-!
# The moments of a run

* `Move`, `moments` : what a run is about to do, one moment after another, each with the world at that time
* `mem_moments_bind`, `mem_moments_read`, `mem_moments_replace`, `mem_moments_tell`, `mem_moments_call` : the moments
  of programs put together
* `Step` : how a program goes on, with the run, the moments and the log behind one step
* `Quiet` : the programs that replace no file
* `Grows`, `run_grows` : the narration and the log only grow
* `ReplacedWhen`, `replacedWhen` : what held at the moments at which files were replaced
* `CutAt`, `exists_cutAt` : where a run without enough room for its narration is cut
* `World.afresh`, `told` : a run with so much room for its narration, and all that it tells if nothing stops it
* `CutsClean`, `cutsClean` : what a narration that fails makes of a run, whatever the program
* `TakenInFull` : there is room for all that a program tells
-/

namespace LanguageRoster

set_option autoImplicit false

/-- What a run is about to do. -/
inductive Move where
  | ending
  | read (path : Text)
  | replace (path content : Text)
  | tell (text : Text)
  | call (i : Tool.Invocation)

/-- The world with nothing told so far, and so much room for the narration. -/
def World.afresh {σ : Type} (w : World σ) (room : Option Nat) : World σ := { w with narration := [], room }

namespace Program

variable {σ α β : Type} {box : Toolbox σ} {root : Text}

/-- The moments of the run: at each, what is done next, and the world as it is by then. -/
def moments (box : Toolbox σ) (root : Text) : Program α → World σ → List (Move × World σ)
  | .done _, w => [(.ending, w)]
  | .stop _, w => [(.ending, w)]
  | .read path next, w => (.read path, w) :: match w.tree.readText path with
    | .ok t => (next t).moments box root w
    | .error _ => []
  | .replace path content next, w => (.replace path content, w) :: match w.tree.replace path content.bytes with
    | .ok tree => next.moments box root { w with tree, log := w.log ++ [.replaced path] }
    | .error _ => []
  | .narrate text next, w => (.tell text, w) :: match w.tell text with
    | (w, true) => next.moments box root w
    | (_, false) => []
  | .call i next, w =>
    let (r, tools, tree) := box root i (w.tools, w.tree)
    (.call i, w) :: (next r).moments box root { w with tree, tools, log := w.log ++ [.called root i] }

/-! ## Programs put together -/

section

variable {m : Move × World σ} {w : World σ}

/-- A moment of two programs in a row is one of the first, or one of the second behind the first. -/
theorem mem_moments_bind {x : Program α} {k : α → Program β} (h : m ∈ (x >>= k).moments box root w) :
    m ∈ x.moments box root w ∨
      ∃ a w₁, x.run box root w = (.ok a, w₁) ∧ m ∈ (k a).moments box root w₁ := by
  change m ∈ (x.andThen k).moments box root w at h
  induction x generalizing w with
  | done a => exact .inr ⟨a, w, rfl, h⟩
  | stop f => exact .inl h
  | read path next ih =>
    rw [andThen, moments, List.mem_cons] at h
    rw [moments, List.mem_cons, run]
    rcases h with rfl | h
    · exact .inl (.inl rfl)
    · cases ht : w.tree.readText path with
      | error f => simp [ht] at h
      | ok t =>
        rw [ht] at h
        exact (ih t h).imp_left .inr
  | replace path content next ih =>
    rw [andThen, moments, List.mem_cons] at h
    rw [moments, List.mem_cons, run]
    rcases h with rfl | h
    · exact .inl (.inl rfl)
    · cases hr : w.tree.replace path content.bytes with
      | error r => simp [hr] at h
      | ok tree =>
        rw [hr] at h
        exact (ih h).imp_left .inr
  | narrate text next ih =>
    rw [andThen, moments, List.mem_cons] at h
    rw [moments, List.mem_cons, run]
    rcases h with rfl | h
    · exact .inl (.inl rfl)
    · rcases ht : w.tell text with ⟨w₁, ok⟩
      cases ok with
      | false => simp [ht] at h
      | true =>
        rw [ht] at h
        exact (ih h).imp_left .inr
  | call i next ih =>
    rw [andThen, moments, List.mem_cons] at h
    rw [moments, List.mem_cons, run]
    rcases h with rfl | h
    · exact .inl (.inl rfl)
    · exact (ih _ h).imp_left .inr

theorem mem_moments_read {path : Text} {k : Text → Program β}
    (h : m ∈ (readText path >>= k).moments box root w) :
    m = (.read path, w) ∨ ∃ t, w.tree.readText path = .ok t ∧ m ∈ (k t).moments box root w := by
  change m ∈ (Program.read path k).moments box root w at h
  rw [moments, List.mem_cons] at h
  refine h.imp_right fun h => ?_
  cases ht : w.tree.readText path with
  | error f => simp [ht] at h
  | ok t => exact ⟨t, rfl, by rwa [ht] at h⟩

theorem mem_moments_replace {path content : Text} {k : Unit → Program β}
    (h : m ∈ (replaceText path content >>= k).moments box root w) :
    m = (.replace path content, w) ∨ ∃ tree, w.tree.replace path content.bytes = .ok tree ∧
      m ∈ (k ()).moments box root { w with tree, log := w.log ++ [.replaced path] } := by
  change m ∈ (Program.replace path content (k ())).moments box root w at h
  rw [moments, List.mem_cons] at h
  refine h.imp_right fun h => ?_
  cases hr : w.tree.replace path content.bytes with
  | error r => simp [hr] at h
  | ok tree => exact ⟨tree, rfl, by rwa [hr] at h⟩

theorem mem_moments_tell {line : Text} {k : Unit → Program β} (h : m ∈ (tell line >>= k).moments box root w) :
    m = (.tell (line ++ ['\n']), w) ∨
      ∃ w₁, w.tell (line ++ ['\n']) = (w₁, true) ∧ m ∈ (k ()).moments box root w₁ := by
  change m ∈ (Program.narrate (line ++ ['\n']) (k ())).moments box root w at h
  rw [moments, List.mem_cons] at h
  refine h.imp_right fun h => ?_
  rcases ht : w.tell (line ++ ['\n']) with ⟨w₁, ok⟩
  cases ok with
  | false => simp [ht] at h
  | true => exact ⟨w₁, rfl, by rwa [ht] at h⟩

theorem mem_moments_call {i : Tool.Invocation} {k : Except Tool.Refusal Tool.Output → Program β}
    (h : m ∈ (callTool i >>= k).moments box root w) :
    m = (.call i, w) ∨ m ∈ (k (box root i (w.tools, w.tree)).1).moments box root { w with
      tree := (box root i (w.tools, w.tree)).2.2
      tools := (box root i (w.tools, w.tree)).2.1
      log := w.log ++ [.called root i] } := List.mem_cons.1 h

end

/-! ## Single steps -/

/-- The program goes on as another one, in another world, having done `d`. -/
inductive Step (box : Toolbox σ) (root : Text) :
    Program α → World σ → Program α → World σ → List Effect → Prop where
  | read {path : Text} {next : Text → Program α} {w : World σ} {t : Text} (ht : w.tree.readText path = .ok t) :
    Step box root (.read path next) w (next t) w []
  | replace {path content : Text} {next : Program α} {w : World σ} {tree : Tree}
    (hr : w.tree.replace path content.bytes = .ok tree) :
    Step box root (.replace path content next) w next { w with tree, log := w.log ++ [.replaced path] }
      [.replaced path]
  | narrate {text : Text} {next : Program α} {w w₁ : World σ} (ht : w.tell text = (w₁, true)) :
    Step box root (.narrate text next) w next w₁ []
  | call {i : Tool.Invocation} {next : Except Tool.Refusal Tool.Output → Program α} {w : World σ} :
    Step box root (.call i next) w (next (box root i (w.tools, w.tree)).1) { w with
      tree := (box root i (w.tools, w.tree)).2.2
      tools := (box root i (w.tools, w.tree)).2.1
      log := w.log ++ [.called root i] } [.called root i]

section

variable {x y : Program α} {w w₁ : World σ} {d : List Effect}

theorem Step.run_eq (h : Step box root x w y w₁ d) : x.run box root w = y.run box root w₁ := by
  cases h with
  | read ht | narrate ht => rw [run, ht]
  | replace hr => rw [run, hr]
  | call => rfl

theorem Step.moments_subset (h : Step box root x w y w₁ d) : y.moments box root w₁ ⊆ x.moments box root w := by
  cases h with
  | read ht | narrate ht =>
    rw [moments, ht]
    exact List.subset_cons_self ..
  | replace hr =>
    rw [moments, hr]
    exact List.subset_cons_self ..
  | call => exact List.subset_cons_self ..

theorem log_tell (w : World σ) (t : Text) : (w.tell t).1.log = w.log := by
  rw [World.tell]
  split <;> rfl

theorem Step.log_eq (h : Step box root x w y w₁ d) : w₁.log = w.log ++ d := by
  cases h with
  | read => exact (List.append_nil _).symm
  | replace | call => rfl
  | narrate ht =>
    have hlog := log_tell w ‹Text›
    rw [ht] at hlog
    rw [hlog, List.append_nil]

end

/-! ## Replacements -/

/-- The program replaces no file. -/
def Quiet (box : Toolbox σ) (root : Text) (x : Program α) : Prop :=
  ∀ w path content w', (Move.replace path content, w') ∉ x.moments box root w

theorem quiet_done (a : α) : Quiet box root (done a) := by
  intro w path content w' h
  simp [moments] at h

theorem quiet_stop (f : Failure) : Quiet box root (stop f : Program α) := by
  intro w path content w' h
  simp [moments] at h

theorem Quiet.of_bind {x : Program α} {k : α → Program β} {w w' : World σ} {path content : Text}
    (hx : Quiet box root x) (h : (.replace path content, w') ∈ (x >>= k).moments box root w) :
    ∃ a w₁, x.run box root w = (.ok a, w₁) ∧ (.replace path content, w') ∈ (k a).moments box root w₁ :=
  (mem_moments_bind h).resolve_left (hx w path content w')

theorem Quiet.bind {x : Program α} {k : α → Program β} (hx : Quiet box root x) (hk : ∀ a, Quiet box root (k a)) :
    Quiet box root (x >>= k) := by
  intro w path content w' h
  obtain ⟨a, w₁, -, h⟩ := hx.of_bind h
  exact hk a w₁ path content w' h

theorem quiet_readText (path : Text) : Quiet box root (readText path) := by
  intro w path' content w' h
  rcases mem_moments_read (k := done) h with h | ⟨t, -, h⟩
  · simp at h
  · exact quiet_done t w path' content w' h

theorem quiet_tell (line : Text) : Quiet box root (tell line) := by
  intro w path content w' h
  rcases mem_moments_tell (k := done) h with h | ⟨w₁, -, h⟩
  · simp at h
  · exact quiet_done () w₁ path content w' h

theorem quiet_callTool (i : Tool.Invocation) : Quiet box root (callTool i) := by
  intro w path content w' h
  rcases mem_moments_call (k := done) h with h | h
  · simp at h
  · exact quiet_done _ _ path content w' h

theorem quiet_callChecked (i : Tool.Invocation) : Quiet box root (callChecked i) := by
  refine (quiet_callTool i).bind fun r => ?_
  match r with
  | .error r => exact quiet_stop _
  | .ok out =>
    simp only
    split
    · exact quiet_done out
    · exact quiet_stop _

/-! ## What only grows -/

/-- The narration and the log of the second world go on from those of the first. -/
structure Grows (w w' : World σ) : Prop where
  narration : w.narration <+: w'.narration
  log : w.log <+: w'.log

theorem Grows.refl (w : World σ) : Grows w w := ⟨List.prefix_rfl, List.prefix_rfl⟩

theorem Grows.trans {w₁ w₂ w₃ : World σ} (h : Grows w₁ w₂) (h' : Grows w₂ w₃) : Grows w₁ w₃ :=
  ⟨h.narration.trans h'.narration, h.log.trans h'.log⟩

theorem grows_tell (w : World σ) (t : Text) : Grows w (w.tell t).1 := by
  rw [World.tell]
  split <;> exact ⟨List.prefix_append .., List.prefix_rfl⟩

theorem grows_effect (w : World σ) (tools : σ) (tree : Tree) (e : Effect) :
    Grows w { w with tree, tools, log := w.log ++ [e] } := ⟨List.prefix_rfl, List.prefix_append ..⟩

/-- A run takes nothing back of what it has told and done. -/
theorem run_grows (x : Program α) (w : World σ) : Grows w (x.run box root w).2 := by
  induction x generalizing w with
  | done | stop => exact .refl w
  | read path next ih =>
    rw [run]
    cases w.tree.readText path with
    | ok t => exact ih t w
    | error f => exact .refl w
  | replace path content next ih =>
    rw [run]
    cases w.tree.replace path content.bytes with
    | ok tree => exact (grows_effect w w.tools tree (.replaced path)).trans (ih _)
    | error r => exact .refl w
  | narrate text next ih =>
    rw [run]
    have h := grows_tell w text
    rcases ht : w.tell text with ⟨w₁, ok⟩
    rw [ht] at h
    cases ok with
    | true => exact h.trans (ih w₁)
    | false => exact h
  | call i next ih =>
    rw [run]
    exact (grows_effect w _ _ (.called root i)).trans (ih _ _)

/-- What the run has done is logged behind what was there before. Each file that it has replaced was replaced at a
moment of the run, and by then it was as `P` says. -/
def ReplacedWhen (box : Toolbox σ) (root : Text) (x : Program α) (w : World σ) (P : Text → World σ → Prop) : Prop :=
  ∃ done, (x.run box root w).2.log = w.log ++ done ∧ ∀ path, .replaced path ∈ done →
    ∃ content w', (.replace path content, w') ∈ x.moments box root w ∧ Grows w' (x.run box root w).2 ∧ P path w'

theorem ReplacedWhen.of_step {x y : Program α} {w w₁ : World σ} {d : List Effect} {P : Text → World σ → Prop}
    (h : ReplacedWhen box root y w₁ P) (hs : Step box root x w y w₁ d)
    (hnow : ∀ path, .replaced path ∈ d →
      ∃ content, (.replace path content, w) ∈ x.moments box root w ∧ P path w) : ReplacedWhen box root x w P := by
  obtain ⟨done, hdone, hall⟩ := h
  rw [ReplacedWhen, hs.run_eq]
  refine ⟨d ++ done, by rw [hdone, hs.log_eq, List.append_assoc], fun path hpath => ?_⟩
  rcases List.mem_append.1 hpath with hpath | hpath
  · obtain ⟨content, hm, hP⟩ := hnow path hpath
    exact ⟨content, w, hm, hs.run_eq ▸ run_grows x w, hP⟩
  · obtain ⟨content, w', hm, hgrows, hP⟩ := hall path hpath
    exact ⟨content, w', hs.moments_subset hm, hgrows, hP⟩

/-- Whatever holds whenever a file is about to be replaced held for those that were. -/
theorem replacedWhen {x : Program α} {w : World σ} {P : Text → World σ → Prop}
    (h : ∀ path content w', (.replace path content, w') ∈ x.moments box root w → P path w') :
    ReplacedWhen box root x w P := by
  have stays : ∀ {x : Program α} {w : World σ}, (x.run box root w).2.log = w.log → ReplacedWhen box root x w P :=
    fun hlog => ⟨[], by rw [hlog, List.append_nil], by simp⟩
  induction x generalizing w with
  | done | stop => exact stays rfl
  | read path next ih =>
    cases ht : w.tree.readText path with
    | error f => exact stays (by rw [run, ht])
    | ok t =>
      have hs : Step box root (.read path next) w _ _ _ := .read ht
      exact (ih t fun p c w' hm => h p c w' (hs.moments_subset hm)).of_step hs (by simp)
  | replace path content next ih =>
    cases hr : w.tree.replace path content.bytes with
    | error r => exact stays (by rw [run, hr])
    | ok tree =>
      have hs : Step box root (.replace path content next) w _ _ _ := .replace hr
      refine (ih fun p c w' hm => h p c w' (hs.moments_subset hm)).of_step hs fun p hp => ?_
      obtain rfl := Effect.replaced.inj (List.mem_singleton.1 hp)
      have hnow : (.replace p content, w) ∈ (Program.replace p content next).moments box root w := by
        rw [moments]
        exact List.mem_cons_self
      exact ⟨content, hnow, h _ _ _ hnow⟩
  | narrate text next ih =>
    rcases ht : w.tell text with ⟨w₁, ok⟩
    cases ok with
    | false =>
      have hlog := log_tell w text
      exact stays (by rw [run, ht, ← hlog, ht])
    | true =>
      have hs : Step box root (.narrate text next) w _ _ _ := .narrate ht
      exact (ih fun p c w' hm => h p c w' (hs.moments_subset hm)).of_step hs (by simp)
  | call i next ih =>
    have hs : Step box root (.call i next) w _ _ _ := .call
    exact (ih _ fun p c w' hm => h p c w' (hs.moments_subset hm)).of_step hs (by simp)

/-! ## A narration that fails -/

theorem tell_of_room_none {w : World σ} (h : w.room = none) (t : Text) :
    w.tell t = ({ w with narration := w.narration ++ t.bytes }, true) := by
  rw [World.tell, h]

theorem tell_of_size_le {w : World σ} {text : Text} {k : Nat} (h : text.size ≤ k) :
    World.tell { w with room := some k } text =
      ({ w with narration := w.narration ++ text.bytes, room := some (k - text.size) }, true) := by
  simp [World.tell, h, List.take_of_length_le]

theorem tell_of_lt_size {w : World σ} {text : Text} {k : Nat} (h : k < text.size) :
    World.tell { w with room := some k } text =
      ({ w with narration := w.narration ++ text.bytes.take k, room := some (k - text.size) }, false) := by
  simp [World.tell, h]

/-- With room for all that is told, the run is the one without a bound. -/
theorem run_eq_of_room (x : Program α) {w : World σ} (hroom : w.room = none) {k : Nat}
    (hk : (x.run box root w).2.narration.length ≤ w.narration.length + k) :
    x.run box root { w with room := some k } = ((x.run box root w).1, { (x.run box root w).2 with
      room := some (w.narration.length + k - (x.run box root w).2.narration.length) }) := by
  induction x generalizing w k with
  | done | stop => simp [run]
  | read path next ih =>
    cases ht : w.tree.readText path with
    | error f => simp [run, ht]
    | ok t =>
      have hs : Step box root (.read path next) w _ _ _ := .read ht
      have hs' : Step box root (.read path next) { w with room := some k } _ _ _ := .read ht
      rw [hs.run_eq] at hk ⊢
      rw [hs'.run_eq]
      exact ih t hroom hk
  | replace path content next ih =>
    cases hr : w.tree.replace path content.bytes with
    | error r => simp [run, hr]
    | ok tree =>
      have hs : Step box root (.replace path content next) w _ _ _ := .replace hr
      have hs' : Step box root (.replace path content next) { w with room := some k } _ _ _ := .replace hr
      rw [hs.run_eq] at hk ⊢
      rw [hs'.run_eq]
      exact ih (w := { w with tree, log := w.log ++ [.replaced path] }) hroom hk
  | narrate text next ih =>
    have hs : Step box root (.narrate text next) w _ _ _ := .narrate (tell_of_room_none hroom text)
    rw [hs.run_eq] at hk ⊢
    have hgrows : Grows _ (next.run box root { w with narration := w.narration ++ text.bytes }).2 := run_grows next _
    have hlen : (w.narration ++ text.bytes).length = w.narration.length + text.size := by
      rw [List.length_append, Text.length_bytes]
    have htold := hgrows.narration.length_le
    have hsize : text.size ≤ k := by
      simp only [hlen] at htold
      omega
    have hleft : w.narration.length + k = (w.narration ++ text.bytes).length + (k - text.size) := by omega
    have hs' : Step box root (.narrate text next) { w with room := some k } _ _ _ := .narrate (tell_of_size_le hsize)
    rw [hs'.run_eq, hleft]
    rw [hleft] at hk
    exact ih (w := { w with narration := w.narration ++ text.bytes }) hroom hk
  | call i next ih =>
    have hs : Step box root (.call i next) w _ _ _ := .call
    have hs' : Step box root (.call i next) { w with room := some k } _ _ _ := .call
    rw [hs.run_eq] at hk ⊢
    rw [hs'.run_eq]
    exact ih _ (w := { w with
      tree := (box root i (w.tools, w.tree)).2.2
      tools := (box root i (w.tools, w.tree)).2.1
      log := w.log ++ [.called root i] }) hroom hk

/-- With room for `k` bytes more, the run fails when it is about to tell a text that no longer fits, with as much of it
told as fits. The run without a bound goes on from there. -/
structure CutAt (box : Toolbox σ) (root : Text) (x : Program α) (w : World σ) (k : Nat) (text : Text)
    (w₁ : World σ) : Prop where
  moment : (.tell text, w₁) ∈ x.moments box root w
  before : w₁.narration.length ≤ w.narration.length + k
  behind : w.narration.length + k < w₁.narration.length + text.size
  told : w₁.narration ++ text.bytes <+: (x.run box root w).2.narration
  log : w₁.log <+: (x.run box root w).2.log
  fails : ∃ room, x.run box root { w with room := some k } = (.error .narration, { w₁ with
    narration := w₁.narration ++ text.bytes.take (w.narration.length + k - w₁.narration.length), room })

/-- A run is cut where the rest of it is. -/
theorem CutAt.of_step {x y : Program α} {w w' w₁ : World σ} {d : List Effect} {k k' : Nat} {text : Text}
    (h : CutAt box root y w' k' text w₁) (hs : Step box root x w y w' d)
    (hcut : Step box root x { w with room := some k } y { w' with room := some k' } d)
    (hk : w.narration.length + k = w'.narration.length + k') : CutAt box root x w k text w₁ where
  moment := hs.moments_subset h.moment
  before := hk ▸ h.before
  behind := hk ▸ h.behind
  told := hs.run_eq ▸ h.told
  log := hs.run_eq ▸ h.log
  fails := by
    rw [hcut.run_eq, hk]
    exact h.fails

/-- Without room for all that is told, the run is cut. -/
theorem exists_cutAt (x : Program α) {w : World σ} (hroom : w.room = none) {k : Nat}
    (hk : w.narration.length + k < (x.run box root w).2.narration.length) :
    ∃ text w₁, CutAt box root x w k text w₁ := by
  induction x generalizing w k with
  | done | stop =>
    simp only [run] at hk
    omega
  | read path next ih =>
    cases ht : w.tree.readText path with
    | error f =>
      simp only [run, ht] at hk
      omega
    | ok t =>
      have hs : Step box root (.read path next) w _ _ _ := .read ht
      rw [hs.run_eq] at hk
      obtain ⟨text, w₁, h⟩ := ih t hroom hk
      exact ⟨text, w₁, h.of_step hs (.read ht) rfl⟩
  | replace path content next ih =>
    cases hr : w.tree.replace path content.bytes with
    | error r =>
      simp only [run, hr] at hk
      omega
    | ok tree =>
      have hs : Step box root (.replace path content next) w _ _ _ := .replace hr
      rw [hs.run_eq] at hk
      obtain ⟨text, w₁, h⟩ := ih (w := { w with tree, log := w.log ++ [.replaced path] }) hroom hk
      exact ⟨text, w₁, h.of_step hs (.replace hr) rfl⟩
  | narrate text next ih =>
    have hs : Step box root (.narrate text next) w _ _ _ := .narrate (tell_of_room_none hroom text)
    by_cases hsize : text.size ≤ k
    · have hlen : w.narration.length + k = (w.narration ++ text.bytes).length + (k - text.size) := by
        rw [List.length_append, Text.length_bytes]
        omega
      rw [hs.run_eq, hlen] at hk
      obtain ⟨text', w₁, h⟩ := ih (w := { w with narration := w.narration ++ text.bytes }) hroom hk
      exact ⟨text', w₁, h.of_step hs (.narrate (tell_of_size_le hsize)) hlen⟩
    · -- the text itself is cut
      have hgrows : Grows _ (next.run box root { w with narration := w.narration ++ text.bytes }).2 :=
        run_grows next _
      have hsize := Nat.lt_of_not_le hsize
      refine ⟨text, w, ?_, Nat.le_add_right _ _, by omega, ?_, ?_, some (k - text.size), ?_⟩
      · rw [moments]
        exact List.mem_cons_self
      · rw [hs.run_eq]
        exact hgrows.narration
      · rw [hs.run_eq]
        exact hgrows.log
      · rw [run, tell_of_lt_size hsize, Nat.add_sub_cancel_left]
  | call i next ih =>
    have hs : Step box root (.call i next) w _ _ _ := .call
    rw [hs.run_eq] at hk
    obtain ⟨text, w₁, h⟩ := ih _ (w := { w with
      tree := (box root i (w.tools, w.tree)).2.2
      tools := (box root i (w.tools, w.tree)).2.1
      log := w.log ++ [.called root i] }) hroom hk
    exact ⟨text, w₁, h.of_step hs .call rfl⟩

/-! ## Runs from the same world -/

/-- All that the program tells to a narration that never fails. -/
def told (box : Toolbox σ) (root : Text) (x : Program α) (w : World σ) : Bytes :=
  (x.run box root (w.afresh none)).2.narration

/-- A narration that fails cuts the run at a clean point. -/
structure CutsClean (box : Toolbox σ) (root : Text) (x : Program α) (w : World σ) : Prop where
  /-- With room for all that is told, the run is as if there was no bound. -/
  whole : ∀ k, (told box root x w).length ≤ k → x.run box root (w.afresh (some k)) =
    ((x.run box root (w.afresh none)).1,
      { (x.run box root (w.afresh none)).2 with room := some (k - (told box root x w).length) })
  /-- With room for less, the run fails with that much told, and has done what it has done without a bound by the
  moment at which it is about to tell the byte behind. -/
  cut : ∀ k, k < (told box root x w).length →
    (x.run box root (w.afresh (some k))).1 = .error .narration ∧
    (x.run box root (w.afresh (some k))).2.narration = (told box root x w).take k ∧
    (x.run box root (w.afresh (some k))).2.log <+: (x.run box root (w.afresh none)).2.log ∧
    ∃ text w₁, (.tell text, w₁) ∈ x.moments box root (w.afresh none) ∧
      w₁.narration ++ text.bytes <+: told box root x w ∧
      w₁.narration.length ≤ k ∧ k < w₁.narration.length + text.size ∧
      (x.run box root (w.afresh (some k))).2.tree = w₁.tree ∧
      (x.run box root (w.afresh (some k))).2.tools = w₁.tools ∧
      (x.run box root (w.afresh (some k))).2.log = w₁.log

/-- This is so for all programs. -/
theorem cutsClean (x : Program α) (w : World σ) : CutsClean box root x w where
  whole k hk := by
    have h := run_eq_of_room x (w := w.afresh none) rfl (k := k) (by simpa [told, World.afresh] using hk)
    simpa [told, World.afresh] using h
  cut k hk := by
    obtain ⟨text, w₁, h⟩ := exists_cutAt x (w := w.afresh none) rfl (k := k) (by simpa [told, World.afresh] using hk)
    obtain ⟨room, hrun⟩ := h.fails
    have hlen : (w.afresh none).narration.length + k = k := Nat.zero_add k
    have hbefore := h.before
    have hbehind := h.behind
    rw [hlen] at hrun hbefore hbehind
    have hrun : x.run box root (w.afresh (some k)) = _ := hrun
    rw [hrun]
    refine ⟨rfl, ?_, h.log, text, w₁, h.moment, h.told, hbefore, hbehind, rfl, rfl, rfl⟩
    obtain ⟨rest, hrest⟩ := h.told
    have htold : told box root x w = w₁.narration ++ (text.bytes ++ rest) := by
      rw [told, ← hrest, List.append_assoc]
    have hshort : k - w₁.narration.length ≤ text.bytes.length := by
      rw [Text.length_bytes]
      omega
    rw [htold, List.take_append, List.take_of_length_le hbefore, List.take_append_of_le_length hshort]

/-- The narration of the program is taken in full where there is so much room. -/
def TakenInFull (box : Toolbox σ) (root : Text) (x : Program α) (w : World σ) (room : Option Nat) : Prop :=
  ∀ k, room = some k → (told box root x w).length ≤ k

theorem result_of_takenInFull {x : Program α} {w : World σ} {room : Option Nat}
    (h : TakenInFull box root x w room) :
    (x.run box root (w.afresh room)).1 = (x.run box root (w.afresh none)).1 := by
  cases room with
  | none => rfl
  | some k => rw [(cutsClean x w).whole k (h k rfl)]

theorem result_of_not_takenInFull {x : Program α} {w : World σ} {room : Option Nat}
    (h : ¬ TakenInFull box root x w room) : (x.run box root (w.afresh room)).1 = .error .narration := by
  cases room with
  | none => exact absurd (fun k hk => nomatch hk) h
  | some k =>
    have hk : k < (told box root x w).length := Nat.lt_of_not_le fun hk => h fun j hj => Option.some.inj hj ▸ hk
    exact ((cutsClean x w).cut k hk).1

end Program

end LanguageRoster
