import LanguageRoster.Proofs.Run.Jobs
import Mathlib.Data.List.Nodup
import Mathlib.Logic.Function.Basic

/-!
# Plans and edits in any order

Edits of different files are planned and made in any order, as long as each is planned before it is made.

* `Job.Move`, `Desk`, `play` : a plan or an edit, the world with the edits not yet made, and what a move does to it
* `Orderly` : no move is made twice, and each edit is planned before it is made
* `Underway`, `Played` : what the moves so far have made of the files and left on the desk, and what a move reports
* `plans_and_edits_apart` : all orders of the moves report the same and leave the same files, as do the jobs one by one
* `not_edits_as_planned` : an edit need not come to what was planned if the directory takes no new files
-/

namespace LanguageRoster

set_option autoImplicit false

/-- One move for a job: it is planned, or the edit is made that was planned. -/
inductive Job.Move (ι : Type) where
  | plan (i : ι)
  | commit (i : ι)
  deriving DecidableEq

/-- A world with the edits that are planned and not yet made. -/
structure Desk (ι σ : Type) where
  world : World σ
  pending : ι → Option Edit := fun _ => none

variable {ι σ : Type} [DecidableEq ι]

/-- What is reported of the move, and the desk behind it. Where no edit is pending, there is none to make, and nothing
to report. -/
def play (box : Toolbox σ) (root : Text) (jobs : ι → Job) :
    Job.Move ι → Desk ι σ → Option (Except Failure Table.Reconciled) × Desk ι σ
  | .plan i, d =>
    let (r, w) := (Edit.plan (jobs i).table (jobs i).path (jobs i).language).run box root d.world
    (some (r.map Edit.result), ⟨w, Function.update d.pending i r.toOption⟩)
  | .commit i, d =>
    match d.pending i with
    | none => (none, d)
    | some e =>
      let (r, w) := e.commit.run box root d.world
      (some r, ⟨w, Function.update d.pending i none⟩)

def scheduled (s : List (Job.Move ι)) : List ι := s.filterMap fun
  | .plan i => some i
  | .commit _ => none

def settled (s : List (Job.Move ι)) : List ι := s.filterMap fun
  | .plan _ => none
  | .commit i => some i

/-- No move is made twice, and each edit is planned before it is made. -/
structure Orderly (s : List (Job.Move ι)) : Prop where
  once : s.Nodup
  ordered : ∀ past i rest, s = past ++ .commit i :: rest → .plan i ∈ past

section

variable {s s' : List (Job.Move ι)} {i k : ι}

omit [DecidableEq ι] in
@[simp] theorem mem_scheduled : i ∈ scheduled s ↔ .plan i ∈ s := by
  rw [scheduled, List.mem_filterMap]
  constructor
  · rintro ⟨_ | _, hm, hi⟩
    · obtain rfl := Option.some.inj hi
      exact hm
    · exact absurd hi (by simp)
  · intro h
    exact ⟨.plan i, h, rfl⟩

omit [DecidableEq ι] in
@[simp] theorem mem_settled : i ∈ settled s ↔ .commit i ∈ s := by
  rw [settled, List.mem_filterMap]
  constructor
  · rintro ⟨_ | _, hm, hi⟩
    · exact absurd hi (by simp)
    · obtain rfl := Option.some.inj hi
      exact hm
  · intro h
    exact ⟨.commit i, h, rfl⟩

omit [DecidableEq ι] in
theorem settled_concat_plan : settled (s ++ [.plan i]) = settled s := by simp [settled]

omit [DecidableEq ι] in
theorem settled_concat_commit : settled (s ++ [.commit i]) = settled s ++ [i] := by simp [settled]

omit [DecidableEq ι] in
theorem Orderly.past (h : Orderly (s ++ s')) : Orderly s where
  once := (List.nodup_append.1 h.once).1
  ordered := by
    intro past i rest hs
    apply h.ordered past i (rest ++ s')
    rw [hs, List.append_assoc, List.cons_append]

omit [DecidableEq ι] in
theorem Orderly.new {m : Job.Move ι} (h : Orderly (s ++ [m])) : m ∉ s :=
  fun hm => (List.nodup_append.1 h.once).2.2 m hm m (by simp) rfl

omit [DecidableEq ι] in
theorem Orderly.planned (h : Orderly (s ++ [.commit i])) : .plan i ∈ s := h.ordered s i [] rfl

omit [DecidableEq ι] in
theorem Orderly.not_settled (h : Orderly (s ++ [.plan i])) : i ∉ settled s := by
  intro hi
  obtain ⟨past, rest, hs⟩ := List.append_of_mem (mem_settled.1 hi)
  have hplan : Job.Move.plan i ∈ past := by
    apply h.past.ordered past i rest hs
  apply h.new
  rw [hs]
  exact List.mem_append_left _ hplan

omit [DecidableEq ι] in
theorem Orderly.nodup_scheduled (h : Orderly s) : (scheduled s).Nodup := by
  refine List.Nodup.filterMap ?_ h.once
  rintro (_ | _) (_ | _) i hi hk
  all_goals simp_all

end

/-! ## Moves -/

section

variable {box : Toolbox σ} {root : Text} {jobs : ι → Job} {w : World σ} {places : ι → Place}
variable {past : List (Job.Move ι)} {d : Desk ι σ} {i : ι}

theorem play_plan (box : Toolbox σ) (root : Text) (jobs : ι → Job) (i : ι) (d : Desk ι σ) :
    play box root jobs (.plan i) d = (some (((jobs i).planned d.world.tree).map Edit.result),
      ⟨d.world, Function.update d.pending i ((jobs i).planned d.world.tree).toOption⟩) := by
  rw [play, run_plan]

theorem play_commit_none (box : Toolbox σ) (root : Text) (jobs : ι → Job) (h : d.pending i = none) :
    play box root jobs (.commit i) d = (none, d) := by
  simp only [play, h]

theorem play_commit_some (box : Toolbox σ) (root : Text) (jobs : ι → Job) {e : Edit} (h : d.pending i = some e) :
    play box root jobs (.commit i) d = (some (e.commit.run box root d.world).1,
      ⟨(e.commit.run box root d.world).2, Function.update d.pending i none⟩) := by
  simp only [play, h]

theorem pending_commit (box : Toolbox σ) (root : Text) (jobs : ι → Job) (i : ι) (d : Desk ι σ) :
    (play box root jobs (.commit i) d).2.pending = Function.update d.pending i none := by
  cases h : d.pending i with
  | none =>
    rw [play_commit_none box root jobs h, ← h]
    exact (Function.update_eq_self i d.pending).symm
  | some e => rw [play_commit_some box root jobs h]

/-! ## What a move leaves -/

/-- The edits that are planned at the start and not yet made. -/
def slots (jobs : ι → Job) (tree : Tree) (past : List (Job.Move ι)) : ι → Option Edit := fun i =>
  if .plan i ∈ past ∧ .commit i ∉ past then ((jobs i).planned tree).toOption else none

theorem slots_plan (jobs : ι → Job) (tree : Tree) (hi : .commit i ∉ past) :
    slots jobs tree (past ++ [.plan i]) =
      Function.update (slots jobs tree past) i ((jobs i).planned tree).toOption := by
  funext k
  unfold slots
  by_cases hk : k = i
  · subst hk
    simp [hi]
  · simp [hk]

theorem slots_commit (jobs : ι → Job) (tree : Tree) (past : List (Job.Move ι)) (i : ι) :
    slots jobs tree (past ++ [.commit i]) = Function.update (slots jobs tree past) i none := by
  funext k
  unfold slots
  by_cases hk : k = i
  · subst hk
    simp
  · simp [hk]

/-- What the moves so far have made of the files that were there at the start, and which edits are left. -/
structure Underway (jobs : ι → Job) (tree : Tree) (places : ι → Place) (past : List (Job.Move ι)) (d : Desk ι σ) :
    Prop where
  reached : Reached jobs tree places (settled past) d.world.tree
  pending : d.pending = slots jobs tree past

theorem Underway.planned (h : Underway jobs w.tree places past d) (ho : Orderly (past ++ [.plan i])) :
    (jobs i).planned d.world.tree = (jobs i).planned w.tree := h.reached.planned ho.not_settled

theorem Underway.slot (h : Underway jobs w.tree places past d) (ho : Orderly (past ++ [.commit i])) :
    d.pending i = ((jobs i).planned w.tree).toOption := by
  rw [h.pending]
  exact if_pos ⟨ho.planned, ho.new⟩

theorem Underway.plan (h : Underway jobs w.tree places past d) (ho : Orderly (past ++ [.plan i])) :
    Underway jobs w.tree places (past ++ [.plan i]) (play box root jobs (.plan i) d).2 := by
  have hi : .commit i ∉ past := fun hc => ho.not_settled (mem_settled.2 hc)
  rw [play_plan, h.planned ho]
  refine ⟨?_, ?_⟩
  · rw [settled_concat_plan]
    exact h.reached
  · rw [slots_plan jobs w.tree hi, ← h.pending]

theorem Underway.commit (h : Underway jobs w.tree places past d) (hp : Job.Apart jobs w.tree places)
    (ho : Orderly (past ++ [.commit i])) :
    Underway jobs w.tree places (past ++ [.commit i]) (play box root jobs (.commit i) d).2 where
  reached := by
    have hi : i ∉ settled past := fun hi => ho.new (mem_settled.1 hi)
    have hslot := h.slot ho
    rw [settled_concat_commit]
    cases he : (jobs i).planned w.tree with
    | error f =>
      rw [he] at hslot
      rw [play_commit_none box root jobs hslot]
      exact h.reached.skip (by rw [Job.outcome_of_error he])
    | ok e =>
      rw [he] at hslot
      rw [play_commit_some box root jobs hslot]
      show Reached _ _ _ _ (e.commit.run box root d.world).2.tree
      rw [(run_commit box root e d.world).2]
      exact (h.reached.commit hp he hi).2
  pending := by
    rw [pending_commit, slots_commit, h.pending]

/-! ## What a move reports -/

/-- What is reported of a move: of a plan, what is planned at the start, and the world stays as it is; of an edit, what
its job alone comes to at the start. -/
structure Played (box : Toolbox σ) (root : Text) (jobs : ι → Job) (w : World σ)
    (t : Turn (Job.Move ι) (Option (Except Failure Table.Reconciled)) (Desk ι σ)) : Prop where
  plan : ∀ i, t.asked = .plan i → t.after.world = t.before.world ∧ t.result = some
    (((Edit.plan (jobs i).table (jobs i).path (jobs i).language).run box root w).1.map Edit.result)
  commit : ∀ i e, t.asked = .commit i →
    ((Edit.plan (jobs i).table (jobs i).path (jobs i).language).run box root w).1 = .ok e →
    t.result = some ((jobs i).bring box root w).1 ∧
      (w.tree.HasRoom (jobs i).path ∨ e.result = .alreadyPresent → t.result = some (.ok e.result)) ∧
      (¬ w.tree.HasRoom (jobs i).path → e.result = .added →
        (∃ r, t.result = some (.error (.notReplaced (jobs i).path r))) ∧ t.after.world.tree = t.before.world.tree)

theorem Underway.plan_played (h : Underway jobs w.tree places past d) (ho : Orderly (past ++ [.plan i])) :
    Played box root jobs w (turn (play box root jobs) d (.plan i)) where
  plan := by
    intro k hk
    obtain rfl := Job.Move.plan.inj hk
    rw [turn_after, turn_before, turn_result, play_plan, h.planned ho, run_plan]
    exact ⟨rfl, rfl⟩
  commit := fun k e hk => absurd hk (by simp)

theorem Underway.commit_played (h : Underway jobs w.tree places past d) (hp : Job.Apart jobs w.tree places)
    (ho : Orderly (past ++ [.commit i])) : Played box root jobs w (turn (play box root jobs) d (.commit i)) where
  plan := fun k hk => absurd hk (by simp)
  commit := by
    intro k e hk he
    obtain rfl := Job.Move.commit.inj hk
    rw [run_plan] at he
    have he : (jobs i).planned w.tree = .ok e := he
    have hi : i ∉ settled past := fun hi => ho.new (mem_settled.1 hi)
    have hslot : d.pending i = some e := by rw [h.slot ho, he, Except.toOption]
    obtain ⟨hrun, htree⟩ := run_commit box root e d.world
    have hresult := (h.reached.commit hp he hi).1
    rw [turn_result, turn_after, turn_before, play_commit_some box root jobs hslot]
    simp only [hrun, htree, hresult, run_bring]
    -- the edit is made from another tree, with the outcome that it has at the start
    rw [Job.outcome_of_ok he] at hresult ⊢
    refine ⟨trivial, fun hopen => ?_, fun hshut hadded => ?_⟩
    · rw [outcome_eq_result he hopen]
    · obtain ⟨r, hr⟩ := outcome_eq_error he hshut hadded
      rw [hr] at hresult ⊢
      exact ⟨⟨r, rfl⟩, Edit.tree_of_error hresult⟩

/-! ## All moves -/

theorem Underway.start (hp : Job.Apart jobs w.tree places) : Underway jobs w.tree places [] { world := w } :=
  ⟨.start hp, funext fun i => by simp [slots]⟩

theorem underway (box : Toolbox σ) (root : Text) (hp : Job.Apart jobs w.tree places) {s : List (Job.Move ι)}
    (ho : Orderly s) :
    Underway jobs w.tree places s (behind (play box root jobs) { world := w } s) ∧
      ∀ t ∈ turns (play box root jobs) { world := w } s, Played box root jobs w t := by
  -- from the end, as what comes before the last move is orderly too
  induction s using List.reverseRecOn with
  | nil => exact ⟨.start hp, fun t ht => absurd ht (by simp [turns])⟩
  | append_singleton s m ih =>
    obtain ⟨hunder, hall⟩ := ih ho.past
    have hmove : Underway jobs w.tree places (s ++ [m])
          (play box root jobs m (behind (play box root jobs) { world := w } s)).2 ∧
        Played box root jobs w (turn (play box root jobs) (behind (play box root jobs) { world := w } s) m) := by
      cases m with
      | plan i => exact ⟨hunder.plan ho, hunder.plan_played ho⟩
      | commit i => exact ⟨hunder.commit hp ho, hunder.commit_played hp ho⟩
    rw [turns_append, behind_append]
    refine ⟨hmove.1, fun t ht => ?_⟩
    rcases List.mem_append.1 ht with ht | ht
    · exact hall t ht
    · obtain rfl := List.mem_singleton.1 ht
      exact hmove.2

/-- Where no edit is left, all jobs that were planned are done. -/
theorem Underway.finished {s : List (Job.Move ι)} (h : Underway jobs w.tree places s d) (ho : Orderly s)
    (hend : ∀ i, d.pending i = none) :
    Reached jobs w.tree places (scheduled s) d.world.tree := by
  -- a job that was planned and not made had no plan to make
  apply h.reached.widen
  · intro i hi
    obtain ⟨past, rest, hs⟩ := List.append_of_mem (mem_settled.1 hi)
    rw [mem_scheduled, hs]
    exact List.mem_append_left _ (ho.ordered past i rest hs)
  · intro i hi hleft
    rw [mem_scheduled] at hi
    rw [mem_settled] at hleft
    have hnone : ((jobs i).planned w.tree).toOption = none := by
      rw [← hend i, h.pending]
      exact (if_pos ⟨hi, hleft⟩).symm
    cases he : (jobs i).planned w.tree with
    | error f => rw [Job.outcome_of_error he]
    | ok e =>
      rw [he] at hnone
      exact absurd hnone (by simp [Except.toOption])

end

/-- Edits of different files may be planned and made in any order in which each is planned before it is made. All plans
leave the world as it is, and report what they report at the start. Each edit reports what its job alone reports at the
start: what was planned, unless it has a new text and there is no room to make it ready. When no edit is left, the files
are the same as behind the jobs one by one in any order. -/
theorem plans_and_edits_apart (box : Toolbox σ) (root : Text) (jobs : ι → Job) (w : World σ) (places : ι → Place)
    (s : List (Job.Move ι)) (hp : Job.Apart jobs w.tree places) (ho : Orderly s)
    (hend : ∀ i, (behind (play box root jobs) { world := w } s).pending i = none) :
    (∀ t ∈ turns (play box root jobs) { world := w } s, Played box root jobs w t) ∧
    ∀ order : List ι, order.Perm (scheduled s) →
      (∀ t ∈ turns (fun i => (jobs i).bring box root) w order, t.result = ((jobs t.asked).bring box root w).1) ∧
      (behind (play box root jobs) { world := w } s).world.tree.here =
        (behind (fun i => (jobs i).bring box root) w order).tree.here ∧
      ∀ q, (behind (play box root jobs) { world := w } s).world.tree.get? q =
        (behind (fun i => (jobs i).bring box root) w order).tree.get? q := by
  obtain ⟨hunder, hall⟩ := underway box root hp ho
  refine ⟨hall, fun order hperm => ?_⟩
  have hn : order.Nodup := hperm.nodup_iff.2 ho.nodup_scheduled
  obtain ⟨hreached, hresults⟩ := one_by_one box root hp hn
  exact ⟨hresults, (hunder.finished ho hend).unique hreached fun i => hperm.mem_iff.symm⟩

namespace Sample

def desk : Tree := (Sample.tree 0o755).put ["list".toList] (.link "repo/src/node-types.json".toList)

/-- `kotlin` for the grammar, and for the list of node types by way of the link. -/
def jobs : Bool → Job
  | true => ⟨.grammar options.pattern.rule, "repo/src/grammar.json".toList, kotlin⟩
  | false => ⟨.nodeTypes, "list".toList, kotlin⟩

def jobPlaces : Bool → Place
  | true => ["repo".toList, "src".toList, "grammar.json".toList]
  | false => ["repo".toList, "src".toList, "node-types.json".toList]

theorem jobs_apart : Job.Apart jobs desk jobPlaces where
  leads := by
    rintro (_ | _)
    · exact ⟨rfl, _, _, rfl⟩
    · exact ⟨rfl, _, _, rfl⟩
  injective := by
    intro i k h
    revert i k h
    decide

theorem orderly : Orderly [Job.Move.plan true, .plan false, .commit false, .commit true] where
  once := by decide
  ordered := by
    intro past i rest h
    -- both plans stand in front
    match past with
    | [] | [m] => simp at h
    | m :: m' :: past =>
      obtain ⟨rfl, h'⟩ := List.cons.inj h
      obtain ⟨rfl, -⟩ := List.cons.inj h'
      cases i with
      | true => exact .head _
      | false => exact .tail _ (.head _)

end Sample

/-- In the small repository, both edits are planned, and the one that was planned last is made first. -/
theorem plans_and_edits_apart_kotlin :
    (turns (play Sample.idle [] Sample.jobs) ⟨⟨Sample.desk, (), [], none, []⟩, fun _ => none⟩
      [.plan true, .plan false, .commit false, .commit true]).map Turn.result =
        List.replicate 4 (some (.ok .added)) ∧
    ∀ q, (behind (play Sample.idle [] Sample.jobs) ⟨⟨Sample.desk, (), [], none, []⟩, fun _ => none⟩
        [.plan true, .plan false, .commit false, .commit true]).world.tree.get? q =
      (behind (fun i => (Sample.jobs i).bring Sample.idle []) ⟨Sample.desk, (), [], none, []⟩ [false, true]).tree.get?
        q := by
  have hruns : (turns (play Sample.idle [] Sample.jobs) ⟨⟨Sample.desk, (), [], none, []⟩, fun _ => none⟩
      [.plan true, .plan false, .commit false, .commit true]).map Turn.result =
        List.replicate 4 (some (.ok .added)) ∧
      ∀ i, (behind (play Sample.idle [] Sample.jobs) ⟨⟨Sample.desk, (), [], none, []⟩, fun _ => none⟩
        [.plan true, .plan false, .commit false, .commit true]).pending i = none := by decide +kernel
  obtain ⟨hresults, hend⟩ := hruns
  obtain ⟨-, hfiles⟩ := plans_and_edits_apart Sample.idle [] Sample.jobs ⟨Sample.desk, (), [], none, []⟩
    Sample.jobPlaces _ Sample.jobs_apart Sample.orderly hend
  exact ⟨hresults, (hfiles [false, true] (by decide)).2.2⟩

def Sample.shelfJob : Unit → Job := fun _ => ⟨.nodeTypes, shelfPath, kotlin⟩

/-- What was planned need not be what the edit comes to: where the directory takes no new files, a language can be
planned, and not be brought in. -/
theorem not_edits_as_planned : ¬ ∀ (jobs : Unit → Job) (w : World Unit) (places : Unit → Place)
    (s : List (Job.Move Unit)), Job.Apart jobs w.tree places → Orderly s →
    (∀ i, (behind (play Sample.idle [] jobs) ⟨w, fun _ => none⟩ s).pending i = none) →
    ∀ t ∈ turns (play Sample.idle [] jobs) ⟨w, fun _ => none⟩ s,
    ∀ t' ∈ turns (play Sample.idle [] jobs) ⟨w, fun _ => none⟩ s,
    ∀ i, t.asked = .plan i → t'.asked = .commit i → t'.result = t.result := by
  intro hall
  have happart : Job.Apart Sample.shelfJob (Sample.shelf 0o555).tree
      fun _ => ["repo".toList, "node-types.json".toList] :=
    ⟨fun _ => ⟨rfl, _, _, rfl⟩, fun _ _ _ => rfl⟩
  have horderly : Orderly [Job.Move.plan (), .commit ()] := by
    refine ⟨by decide, fun past i rest h => ?_⟩
    match past with
    | [] => simp at h
    | m :: past =>
      obtain ⟨rfl, -⟩ := List.cons.inj h
      exact .head _
  have hruns : (play Sample.idle [] Sample.shelfJob (.commit ())
        (play Sample.idle [] Sample.shelfJob (.plan ()) ⟨Sample.shelf 0o555, fun _ => none⟩).2).1 ≠
          (play Sample.idle [] Sample.shelfJob (.plan ()) ⟨Sample.shelf 0o555, fun _ => none⟩).1 ∧
      (behind (play Sample.idle [] Sample.shelfJob) ⟨Sample.shelf 0o555, fun _ => none⟩
        [.plan (), .commit ()]).pending () = none := by decide +kernel
  obtain ⟨hresults, hend⟩ := hruns
  have hsame := hall Sample.shelfJob (Sample.shelf 0o555) _ [.plan (), .commit ()] happart horderly fun () => hend
  rw [turns, turns, turns] at hsame
  have heq := hsame _ (.head _) _ (.tail _ (.head _)) () rfl rfl
  rw [turn_result, turn_result] at heq
  exact hresults heq

end LanguageRoster
