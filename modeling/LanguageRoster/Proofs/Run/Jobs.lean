import LanguageRoster.Proofs.Run.ArtifactLog
import LanguageRoster.Proofs.Tree.Apart

/-!
# Edits of different files

An edit of one file has the same plan and the same outcome, whatever has been made of the other files.

* `Job`, `Job.bring` : an artifact and a language to bring into it
* `Job.planned`, `Edit.outcome`, `Job.outcome` : the plan of a job, the edit made, and both in one, for a tree alone
* `run_plan`, `run_commit`, `run_bring` : the programs come to that in any world
* `SameFile`, `outcome_apart` : where its file is the same, an edit comes to the same
* `Reached` : some of the jobs are done; `Reached.outcome`, `Reached.unique`
* `one_by_one` : jobs that are done one after another report what each alone reports
-/

namespace LanguageRoster

set_option autoImplicit false

/-- An artifact at a path, and a language to bring into it. -/
structure Job where
  table : Table
  path : Text
  language : Language

variable {σ : Type} {box : Toolbox σ} {root : Text} {w : World σ}

def Job.bring (box : Toolbox σ) (root : Text) (j : Job) (w : World σ) : Except Failure Table.Reconciled × World σ :=
  LanguageRoster.bring box root j.table j.path j.language w

/-! ## Programs on trees -/

def Job.planned (j : Job) (tree : Tree) : Except Failure Edit :=
  match tree.readText j.path with
  | .error f => .error (.notRead j.path f)
  | .ok text =>
    match j.table.revise j.language text with
    | .ok changed => .ok ⟨j.path, changed⟩
    | .error (.malformed m) => .error (.malformed j.path m)
    | .error (.lacking k) => .error (.lacking j.path k)

/-- What the edit reports, and the tree behind it. -/
def Edit.outcome (e : Edit) (tree : Tree) : Except Failure Table.Reconciled × Tree :=
  match e.text with
  | none => (.ok e.result, tree)
  | some text =>
    match tree.replace e.path text.bytes with
    | .ok tree' => (.ok e.result, tree')
    | .error r => (.error (.notReplaced e.path r), tree)

/-- What the job reports if it is planned and made at once, and the tree behind it. -/
def Job.outcome (j : Job) (tree : Tree) : Except Failure Table.Reconciled × Tree :=
  match j.planned tree with
  | .error f => (.error f, tree)
  | .ok e => e.outcome tree

theorem Job.outcome_of_ok {j : Job} {tree : Tree} {e : Edit} (h : j.planned tree = .ok e) :
    j.outcome tree = e.outcome tree := by
  rw [Job.outcome, h]

theorem Job.outcome_of_error {j : Job} {tree : Tree} {f : Failure} (h : j.planned tree = .error f) :
    j.outcome tree = (.error f, tree) := by
  rw [Job.outcome, h]

theorem Edit.tree_of_error {e : Edit} {tree : Tree} {f : Failure} (h : (e.outcome tree).1 = .error f) :
    (e.outcome tree).2 = tree := by
  unfold Edit.outcome at h ⊢
  cases hc : e.text with
  | none => rfl
  | some text =>
    simp only [hc] at h ⊢
    cases hr : tree.replace e.path text.bytes with
    | ok tree' =>
      rw [hr] at h
      exact absurd h (by simp)
    | error r => rfl

theorem run_plan (box : Toolbox σ) (root : Text) (j : Job) (w : World σ) :
    (Edit.plan j.table j.path j.language).run box root w = (j.planned w.tree, w) := by
  unfold Edit.plan
  rw [Program.run_bind, Program.readText, Program.run, Job.planned]
  cases w.tree.readText j.path with
  | error f => rfl
  | ok text =>
    simp only [Program.run]
    cases j.table.revise j.language text with
    | ok changed => rfl
    | error u => cases u <;> rfl

theorem run_commit (box : Toolbox σ) (root : Text) (e : Edit) (w : World σ) :
    (e.commit.run box root w).1 = (e.outcome w.tree).1 ∧ (e.commit.run box root w).2.tree = (e.outcome w.tree).2 := by
  obtain ⟨path, text⟩ := e
  unfold Edit.outcome
  cases text with
  | none => exact ⟨rfl, rfl⟩
  | some text =>
    show (Program.run box root (.replace path text (.done _)) w).1 = _ ∧
      (Program.run box root (.replace path text (.done _)) w).2.tree = _
    unfold Program.run
    simp only
    cases w.tree.replace path text.bytes with
    | ok tree' => exact ⟨rfl, rfl⟩
    | error r => exact ⟨rfl, rfl⟩

theorem run_bring (box : Toolbox σ) (root : Text) (j : Job) (w : World σ) :
    (j.bring box root w).1 = (j.outcome w.tree).1 ∧ (j.bring box root w).2.tree = (j.outcome w.tree).2 := by
  unfold Job.bring LanguageRoster.bring reconcile
  rw [Program.run_bind, run_plan]
  cases hp : j.planned w.tree with
  | error f =>
    rw [Job.outcome_of_error hp]
    exact ⟨rfl, rfl⟩
  | ok e =>
    rw [Job.outcome_of_ok hp]
    exact run_commit box root e w

/-! ## One file -/

section

variable {j : Job} {tree v : Tree} {p : Place} {e : Edit}

theorem Job.path_of_planned (h : j.planned tree = .ok e) : e.path = j.path := by
  unfold Job.planned at h
  split at h
  · exact absurd h (by simp)
  · split at h
    · obtain rfl := Except.ok.inj h
      rfl
    · exact absurd h (by simp)
    · exact absurd h (by simp)

theorem Job.readText_of_planned (h : j.planned tree = .ok e) : ∃ text, tree.readText j.path = .ok text := by
  unfold Job.planned at h
  split at h
  · exact absurd h (by simp)
  · next text ht => exact ⟨text, ht⟩

theorem planned_congr (h : v.readText j.path = tree.readText j.path) : j.planned v = j.planned tree := by
  unfold Job.planned
  rw [h]

/-- A path by which the same file is read, and its new content put in the same place. -/
structure SameFile (tree v : Tree) (path : Text) (p : Place) : Prop where
  leads : v.LeadsTo path p
  reads : v.readText path = tree.readText path
  spot : v.spot path = tree.spot path

theorem SameFile.refl (h : tree.LeadsTo j.path p) : SameFile tree tree j.path p := ⟨h, rfl, rfl⟩

theorem SameFile.rewritten {v' : Tree} {path : Text} {q s : Place} {mode : Nat} {old new : Bytes}
    (h : SameFile tree v path p) (hr : Tree.Rewritten v v' q s mode old new) (hp : p ≠ q) :
    SameFile tree v' path p where
  leads := hr.leadsTo h.leads hp
  reads := (hr.readText_eq h.leads hp).trans h.reads
  spot := (hr.spot_eq h.leads hp).trans h.spot

/-- Where the file is the same, the edit reports the same. It changes nothing, or puts the same content in the same
place. -/
theorem outcome_apart (he : j.planned tree = .ok e) (h : tree.LeadsTo j.path p) (hs : SameFile tree v j.path p) :
    (e.outcome v).1 = (e.outcome tree).1 ∧
      ((e.outcome v).2 = v ∧ (e.outcome tree).2 = tree ∨
        ∃ s mode old new, Tree.Rewritten v (e.outcome v).2 p s mode old new ∧
          Tree.Rewritten tree (e.outcome tree).2 p s mode old new) := by
  obtain ⟨before, ht⟩ := Job.readText_of_planned he
  have hv := hs.reads.trans ht
  rw [Tree.readText_eq_ok_iff] at ht hv
  unfold Edit.outcome
  rw [Job.path_of_planned he]
  cases e.text with
  | none => exact ⟨rfl, .inl ⟨rfl, rfl⟩⟩
  | some text =>
    simp only [Tree.replace, hs.spot]
    cases hspot : tree.spot j.path with
    | error f => exact ⟨rfl, .inl ⟨rfl, rfl⟩⟩
    | ok at' =>
      obtain ⟨s, mode⟩ := at'
      obtain ⟨q, hf, -, hrew, -⟩ := Tree.rewritten_of_spot ht hspot text.bytes
      obtain ⟨q', hf', -, hrew', -⟩ := Tree.rewritten_of_spot hv (hs.spot.trans hspot) text.bytes
      obtain rfl := Except.ok.inj (h.trace.symm.trans hf.trace)
      obtain rfl := Except.ok.inj (hs.leads.trace.symm.trans hf'.trace)
      exact ⟨rfl, .inr ⟨s, mode, before.bytes, text.bytes, hrew', hrew⟩⟩

/-- Made where its plan was made, an edit comes to what the plan says, if there is room for a new file. -/
theorem outcome_eq_result (h : j.planned tree = .ok e) (hroom : tree.HasRoom j.path ∨ e.result = .alreadyPresent) :
    (e.outcome tree).1 = .ok e.result := by
  obtain ⟨text, ht⟩ := Job.readText_of_planned h
  unfold Edit.outcome
  cases hc : e.text with
  | none => rfl
  | some new =>
    have hne : e.result ≠ .alreadyPresent := by simp [Edit.result, hc]
    obtain ⟨tree', hr⟩ := Tree.exists_replace (Tree.readText_eq_ok_iff.1 ht) (hroom.resolve_right hne) new.bytes
    rw [Job.path_of_planned h]
    simp only [hr]

/-- Without room for a new file, an edit with a new text fails, and changes nothing. -/
theorem outcome_eq_error (h : j.planned tree = .ok e) (hshut : ¬ tree.HasRoom j.path) (ha : e.result = .added) :
    ∃ r, e.outcome tree = (.error (.notReplaced j.path r), tree) := by
  unfold Edit.outcome
  cases hc : e.text with
  | none => simp [Edit.result, hc] at ha
  | some new =>
    obtain ⟨r, hr⟩ := Tree.replace_of_not_hasRoom hshut new.bytes
    rw [Job.path_of_planned h]
    simp only [hr]
    exact ⟨r, rfl⟩

end

/-! ## Files apart -/

section

variable {ι : Type} {jobs : ι → Job} {tree v v' : Tree} {places : ι → Place} {done done' : List ι} {i : ι}

/-- The paths of the jobs lead to files, each to one of its own. -/
structure Job.Apart (jobs : ι → Job) (tree : Tree) (places : ι → Place) : Prop where
  leads : ∀ i, tree.LeadsTo (jobs i).path (places i)
  injective : Function.Injective places

/-- From the first tree to the other, some jobs are done: what each of them alone changes is changed, and nothing else
is. The files of the others are the same. -/
structure Reached (jobs : ι → Job) (tree : Tree) (places : ι → Place) (done : List ι) (v : Tree) : Prop where
  here : v.here = tree.here
  there : ∀ i ∈ done, ∀ q, ((jobs i).outcome tree).2.get? q ≠ tree.get? q →
    v.get? q = ((jobs i).outcome tree).2.get? q
  elsewhere : ∀ q, (∀ i ∈ done, ((jobs i).outcome tree).2.get? q = tree.get? q) → v.get? q = tree.get? q
  undone : ∀ i ∉ done, SameFile tree v (jobs i).path (places i)

theorem Reached.start (hp : Job.Apart jobs tree places) : Reached jobs tree places [] tree :=
  ⟨rfl, by simp, fun _ _ => rfl, fun i _ => .refl (hp.leads i)⟩

theorem Reached.planned (h : Reached jobs tree places done v) (hi : i ∉ done) :
    (jobs i).planned v = (jobs i).planned tree :=
  planned_congr (h.undone i hi).reads

/-- Jobs that change nothing are done by doing nothing. -/
theorem Reached.widen (h : Reached jobs tree places done v) (hsub : ∀ i ∈ done, i ∈ done')
    (hsame : ∀ i ∈ done', i ∉ done → ((jobs i).outcome tree).2 = tree) : Reached jobs tree places done' v where
  here := h.here
  there := by
    intro i hi q hq
    by_cases hd : i ∈ done
    · exact h.there i hd q hq
    · exact absurd (by rw [hsame i hi hd]) hq
  elsewhere := by
    intro q hq
    exact h.elsewhere q fun i hi => hq i (hsub i hi)
  undone := by
    intro i hi
    exact h.undone i fun hd => hi (hsub i hd)

theorem Reached.skip (h : Reached jobs tree places done v) (hsame : ((jobs i).outcome tree).2 = tree) :
    Reached jobs tree places (done ++ [i]) v := by
  apply h.widen
  · exact fun k hk => List.mem_append_left _ hk
  · intro k hk hd
    rw [List.mem_append, List.mem_singleton] at hk
    obtain rfl := hk.resolve_left hd
    exact hsame

/-- What a job changes, it changes at the place of its own file. -/
theorem Job.Apart.rewritten (hp : Job.Apart jobs tree places) {q : Place}
    (hq : ((jobs i).outcome tree).2.get? q ≠ tree.get? q) :
    ∃ mode old new, Tree.Rewritten tree ((jobs i).outcome tree).2 (places i) q mode old new := by
  cases he : (jobs i).planned tree with
  | error f => exact absurd (by rw [Job.outcome_of_error he]) hq
  | ok e =>
    rw [Job.outcome_of_ok he] at hq ⊢
    obtain ⟨-, ⟨-, hsame⟩ | ⟨s, mode, old, new, -, hrew⟩⟩ := outcome_apart he (hp.leads i) (.refl (hp.leads i))
    · exact absurd (by rw [hsame]) hq
    · obtain rfl : q = s := by
        by_contra hs
        exact hq (hrew.others.get? q hs)
      exact ⟨mode, old, new, hrew⟩

/-- An edit that was planned at the start reports, wherever the others are, what its job alone reports. -/
theorem Reached.commit (h : Reached jobs tree places done v) (hp : Job.Apart jobs tree places) {e : Edit}
    (he : (jobs i).planned tree = .ok e) (hi : i ∉ done) :
    (e.outcome v).1 = ((jobs i).outcome tree).1 ∧ Reached jobs tree places (done ++ [i]) (e.outcome v).2 := by
  have houtcome := Job.outcome_of_ok he
  obtain ⟨hresult, ⟨hv, hsame⟩ | ⟨s, mode, old, new, hrew, hrew'⟩⟩ := outcome_apart he (hp.leads i) (h.undone i hi)
  · rw [hv]
    exact ⟨by rw [hresult, houtcome], h.skip (by rw [houtcome, hsame])⟩
  rw [houtcome]
  have hothers : (e.outcome v).2.here = v.here ∧ ∀ q, q ≠ s → (e.outcome v).2.get? q = v.get? q :=
    ⟨hrew.others.here, hrew.others.get?⟩
  rw [← houtcome] at hrew'
  refine ⟨hresult, hothers.1.trans h.here, ?_, ?_, ?_⟩
  · intro k hk q hq
    by_cases hki : k = i
    · subst hki
      obtain rfl : q = s := by
        by_contra hs
        exact hq (hrew'.others.get? q hs)
      rw [hrew.now, hrew'.now]
    · -- it was done before, and has changed another place
      obtain ⟨_, _, _, hother⟩ := hp.rewritten hq
      have hs : q ≠ s := by
        rintro rfl
        exact hki (hp.injective (hother.unique hrew'))
      rw [hothers.2 q hs]
      exact h.there k (by simpa [hki] using hk) q hq
  · intro q hq
    by_cases hs : q = s
    · rw [hs, hrew.now, ← hrew'.now, ← hs]
      exact hq i (by simp)
    · rw [hothers.2 q hs]
      exact h.elsewhere q fun k hk => hq k (List.mem_append_left _ hk)
  · intro k hk
    rw [List.mem_append, List.mem_singleton, not_or] at hk
    exact (h.undone k hk.1).rewritten hrew fun heq => hk.2 (hp.injective heq)

theorem Reached.outcome (h : Reached jobs tree places done v) (hp : Job.Apart jobs tree places) (hi : i ∉ done) :
    ((jobs i).outcome v).1 = ((jobs i).outcome tree).1 ∧
      Reached jobs tree places (done ++ [i]) ((jobs i).outcome v).2 := by
  cases he : (jobs i).planned tree with
  | error f =>
    have hv : (jobs i).planned v = .error f := by rw [h.planned hi, he]
    rw [Job.outcome_of_error hv, Job.outcome_of_error he]
    exact ⟨rfl, h.skip (by rw [Job.outcome_of_error he])⟩
  | ok e =>
    have hv : (jobs i).planned v = .ok e := by rw [h.planned hi, he]
    rw [Job.outcome_of_ok hv]
    exact h.commit hp he hi

/-- The jobs that are done say what all files are. -/
theorem Reached.unique (h : Reached jobs tree places done v) (h' : Reached jobs tree places done' v')
    (hd : ∀ i, i ∈ done ↔ i ∈ done') : v.here = v'.here ∧ ∀ q, v.get? q = v'.get? q := by
  refine ⟨h.here.trans h'.here.symm, fun q => ?_⟩
  by_cases hq : ∃ i ∈ done, ((jobs i).outcome tree).2.get? q ≠ tree.get? q
  · obtain ⟨i, hi, hq⟩ := hq
    rw [h.there i hi q hq, h'.there i ((hd i).1 hi) q hq]
  · have hq : ∀ i ∈ done, ((jobs i).outcome tree).2.get? q = tree.get? q := by simpa using hq
    rw [h.elsewhere q hq, h'.elsewhere q fun i hi => hq i ((hd i).2 hi)]

/-- Done one after another, the jobs report what each alone reports. -/
theorem one_by_one (box : Toolbox σ) (root : Text) (hp : Job.Apart jobs w.tree places) {order : List ι}
    (hn : order.Nodup) :
    Reached jobs w.tree places order (behind (fun i => (jobs i).bring box root) w order).tree ∧
      ∀ t ∈ turns (fun i => (jobs i).bring box root) w order, t.result = ((jobs t.asked).bring box root w).1 := by
  -- from the end: the last job meets what those before it have left
  induction order using List.reverseRecOn with
  | nil => exact ⟨.start hp, fun t ht => absurd ht (by simp [turns])⟩
  | append_singleton order i ih =>
    obtain ⟨hn, -, hi⟩ := List.nodup_append.1 hn
    obtain ⟨hreached, hall⟩ := ih hn
    obtain ⟨hresult, hreached'⟩ := hreached.outcome hp fun hi' => hi i hi' i (by simp) rfl
    rw [turns_append, behind_append]
    constructor
    · show Reached _ _ _ _ ((jobs i).bring box root _).2.tree
      rw [(run_bring box root (jobs i) _).2]
      exact hreached'
    · intro t ht
      rcases List.mem_append.1 ht with ht | ht
      · exact hall t ht
      · obtain rfl := List.mem_singleton.1 ht
        rw [turn_result, turn_asked, (run_bring box root (jobs i) _).1, hresult, (run_bring box root (jobs i) w).1]

end

end LanguageRoster
