import LanguageRoster.Proofs.Run.Does
import LanguageRoster.Run.Workflow

/-!
# The course of a run

What each part of a run can come to: how it ends, the state it leaves, and what it did. All that is said about runs
follows from these cases.

* `Sourcing` : the step on the grammar source, `updateSource_does`
* `Unusable`, `Planned`, `Committed`, `Uncommitted` : edits of artifacts, planned and made
* `planned_of_run`, `edit_of_reconcile`, `committed_of_commit`, `committed_of_announce` : the same of one run
* `Reconciling` : the step on the artifacts, `reconcileArtifacts_does`
* `Course` : what comes behind the grammar source, `afterSource_does`
* `addLanguage_fails`, `addLanguage_goesOn` : whole runs, by what the step on the grammar source comes to
-/

namespace LanguageRoster

set_option autoImplicit false

open Program (verdict)

variable {σ : Type} {box : Toolbox σ} {root : Text} {mute : Prop} {s : σ × Tree}
variable {layout : Layout} {o : Options} {l : Language}

/-! ## Effects -/

def SourceEdit.effects (layout : Layout) : SourceEdit → List Effect
  | .inserted => [.replaced layout.sourceFile.path]
  | .alreadyListed => []

def Table.Reconciled.effects (path : Text) : Table.Reconciled → List Effect
  | .added => [.replaced path]
  | .alreadyPresent => []

/-! ## The grammar source -/

/-- How the step on the grammar source can end. -/
inductive Sourcing (layout : Layout) (o : Options) (l : Language) (mute : Prop) (tree : Tree) :
    Except Failure SourceEdit → Tree → List Effect → Prop where
  | unread {f} (ht : tree.readText layout.sourceFile.path = .error f) :
    Sourcing layout o l mute tree (.error (.notRead layout.sourceFile.path f)) tree []
  | mismatch {text m} (ht : tree.readText layout.sourceFile.path = .ok text)
    (hb : Choice.locate o.pattern text = .error m) :
    Sourcing layout o l mute tree (.error (.mismatch layout.sourceFile.path m)) tree []
  | untold (hm : mute) : Sourcing layout o l mute tree (.error .narration) tree []
  | listed {text b} (ht : tree.readText layout.sourceFile.path = .ok text) (hb : Choice.locate o.pattern text = .ok b)
    (hl : (o.skipExisting && b.lists l) = true) : Sourcing layout o l mute tree (.ok .alreadyListed) tree []
  | unreplaced {text b r} (ht : tree.readText layout.sourceFile.path = .ok text)
    (hb : Choice.locate o.pattern text = .ok b) (hl : (o.skipExisting && b.lists l) = false)
    (hr : tree.replace layout.sourceFile.path (b.insert l).render.bytes = .error r) :
    Sourcing layout o l mute tree (.error (.notReplaced layout.sourceFile.path r)) tree []
  | inserted {text b tree'} (ht : tree.readText layout.sourceFile.path = .ok text)
    (hb : Choice.locate o.pattern text = .ok b) (hl : (o.skipExisting && b.lists l) = false)
    (hr : tree.replace layout.sourceFile.path (b.insert l).render.bytes = .ok tree') :
    Sourcing layout o l mute tree (.ok .inserted) tree' [.replaced layout.sourceFile.path]

theorem updateSource_does : (updateSource layout o l).Does box root mute s fun r s' d =>
    s'.1 = s.1 ∧ Sourcing layout o l mute s.2 r s'.2 d := by
  refine .read (fun text ht => ?_) fun f hf => ⟨rfl, .unread hf⟩
  match hb : Choice.locate o.pattern text with
  | .error m => exact .stop ⟨rfl, .mismatch ht hb⟩
  | .ok b =>
    refine .tell (.tell ?_ fun hm => ⟨rfl, .untold hm⟩) fun hm => ⟨rfl, .untold hm⟩
    match hl : o.skipExisting && b.lists l with
    | true => exact .tell (.done ⟨rfl, .listed ht hb hl⟩) fun hm => ⟨rfl, .untold hm⟩
    | false =>
      exact .replace (fun tree' hr => .done ⟨rfl, .inserted ht hb hl hr⟩) fun r hr => ⟨rfl, .unreplaced ht hb hl hr⟩

/-! ## Artifacts -/

/-- The failure says why there is no artifact of the table at the path. -/
inductive Unusable (tree : Tree) (t : Table) (path : Text) (l : Language) : Failure → Prop where
  | notRead {f} (ht : tree.readText path = .error f) : Unusable tree t path l (.notRead path f)
  | malformed {text m} (ht : tree.readText path = .ok text) (hr : t.revise l text = .error (.malformed m)) :
    Unusable tree t path l (.malformed path m)
  | lacking {text k} (ht : tree.readText path = .ok text) (hr : t.revise l text = .error (.lacking k)) :
    Unusable tree t path l (.lacking path k)

/-- The edit is the one that brings the language into the artifact at the path. -/
structure Planned (tree : Tree) (t : Table) (path : Text) (l : Language) (e : Edit) : Prop where
  target : e.path = path
  revise : ∃ text, tree.readText path = .ok text ∧ t.revise l text = .ok e.text

theorem plan_does {t : Table} {path : Text} : (Edit.plan t path l).Does box root mute s fun r s' d =>
    s' = s ∧ d = [] ∧ match r with
      | .ok e => Planned s.2 t path l e
      | .error f => Unusable s.2 t path l f := by
  refine .read (fun text ht => ?_) fun f hf => ⟨rfl, rfl, .notRead hf⟩
  match hr : t.revise l text with
  | .ok c => exact .done ⟨rfl, rfl, rfl, text, ht, hr⟩
  | .error (.malformed m) => exact .stop ⟨rfl, rfl, .malformed ht hr⟩
  | .error (.lacking k) => exact .stop ⟨rfl, rfl, .lacking ht hr⟩

inductive Committed (tree : Tree) (e : Edit) : Tree → Prop where
  | kept (h : e.text = none) : Committed tree e tree
  | replaced {text tree'} (h : e.text = some text) (hr : tree.replace e.path text.bytes = .ok tree') :
    Committed tree e tree'

inductive Uncommitted (mute : Prop) (tree : Tree) (e : Edit) : Failure → Prop where
  | untold (hm : mute) : Uncommitted mute tree e .narration
  | unreplaced {text r} (h : e.text = some text) (hr : tree.replace e.path text.bytes = .error r) :
    Uncommitted mute tree e (.notReplaced e.path r)

/-- An edit is made without a word, so the narration has no part in it. -/
theorem commit_does {m : Prop} {e : Edit} : e.commit.Does box root mute s fun r s' d => match r with
    | .ok x => x = e.result ∧ s'.1 = s.1 ∧ Committed s.2 e s'.2 ∧ d = e.result.effects e.path
    | .error f => s' = s ∧ d = [] ∧ Uncommitted m s.2 e f := by
  obtain ⟨path, text⟩ := e
  match text with
  | none => exact .done ⟨rfl, rfl, .kept rfl, rfl⟩
  | some text =>
    exact .replace (fun tree' hr => .done ⟨rfl, rfl, .replaced rfl hr, rfl⟩) fun r hr => ⟨rfl, rfl, .unreplaced rfl hr⟩

/-- The step on one artifact; it does nothing unless it succeeds. -/
theorem reconcile_does {t : Table} {path : Text} : (reconcile t path l).Does box root mute s fun r s' _ => match r with
    | .ok x => ∃ e, Planned s.2 t path l e ∧ Committed s.2 e s'.2 ∧ x = e.result
    | .error f => s' = s ∧ (Unusable s.2 t path l f ∨ ∃ e, Planned s.2 t path l e ∧ Uncommitted False s.2 e f) := by
  refine .bind plan_does ?_ ?_
  · rintro f s' d ⟨rfl, rfl, h⟩
    exact ⟨rfl, .inl h⟩
  rintro e s' d ⟨rfl, rfl, he⟩
  refine (commit_does (m := False)).imp fun r s'' d h => ?_
  match r with
  | .ok x =>
    obtain ⟨rfl, -, hc, -⟩ := h
    exact ⟨e, he, hc, rfl⟩
  | .error f =>
    obtain ⟨rfl, -, hc⟩ := h
    exact ⟨rfl, .inr ⟨e, he, hc⟩⟩

theorem announce_does {e : Edit} {a : Artifact} : (e.announce a l).Does box root mute s fun r s' d => match r with
    | .ok x => x = e.result ∧ s'.1 = s.1 ∧ Committed s.2 e s'.2 ∧ d = e.result.effects e.path
    | .error f => s' = s ∧ d = [] ∧ Uncommitted mute s.2 e f := by
  rw [Edit.announce]
  split <;> exact .tell commit_does fun hm => ⟨rfl, rfl, .untold hm⟩

section

variable {t : Table} {path : Text} {e : Edit} {a : Artifact} {x : Table.Reconciled} {w w' : World σ}

theorem planned_of_run (h : (Edit.plan t path l).run box root w = (.ok e, w')) :
    w'.tree = w.tree ∧ Planned w.tree t path l e := by
  obtain ⟨d, hs, -, hr⟩ := plan_does.ends (x := Edit.plan t path l)
  rw [h] at hs hr
  exact ⟨(Prod.mk.inj hs).2, hr⟩

theorem committed_of_commit (h : e.commit.run box root w = (.ok x, w')) : Committed w.tree e w'.tree := by
  obtain ⟨d, hr⟩ := (commit_does (m := False)).ends (x := e.commit)
  rw [h] at hr
  exact hr.2.2.1

theorem edit_of_reconcile (h : (reconcile t path l).run box root w = (.ok x, w')) :
    ∃ e, Planned w.tree t path l e ∧ Committed w.tree e w'.tree ∧ x = e.result := by
  obtain ⟨d, hr⟩ := reconcile_does.ends (x := reconcile t path l)
  rw [h] at hr
  exact hr

theorem committed_of_announce (h : (e.announce a l).run box root w = (.ok x, w')) : Committed w.tree e w'.tree := by
  obtain ⟨d, hr⟩ := announce_does.ends (x := e.announce a l)
  rw [h] at hr
  exact hr.2.2.1

end

structure Plans (layout : Layout) (o : Options) (l : Language) (tree : Tree) (e n : Edit) : Prop where
  grammar : Planned tree (.grammar o.pattern.rule) layout.jsonFile.path l e
  nodes : Planned tree .nodeTypes layout.nodeFile.path l n

/-- How the step on the artifacts can end. -/
inductive Reconciling (layout : Layout) (o : Options) (l : Language) (mute : Prop) (tree : Tree) :
    Except Failure (Table.Reconciled × Table.Reconciled) → Tree → List Effect → Prop where
  | unusable {f} (h : Unusable tree (.grammar o.pattern.rule) layout.jsonFile.path l f ∨
      Unusable tree .nodeTypes layout.nodeFile.path l f) : Reconciling layout o l mute tree (.error f) tree []
  | neither {e n f} (hp : Plans layout o l tree e n) (h : Uncommitted mute tree e f) :
    Reconciling layout o l mute tree (.error f) tree []
  | first {e n tree' f} (hp : Plans layout o l tree e n) (he : Committed tree e tree')
    (h : Uncommitted mute tree' n f) :
    Reconciling layout o l mute tree (.error f) tree' (e.result.effects layout.jsonFile.path)
  | both {e n tree' tree''} (hp : Plans layout o l tree e n) (he : Committed tree e tree')
    (hn : Committed tree' n tree'') : Reconciling layout o l mute tree (.ok (e.result, n.result)) tree''
      (e.result.effects layout.jsonFile.path ++ n.result.effects layout.nodeFile.path)

theorem Reconciling.plans {tree tree' : Tree} {d : List Effect} {p : Table.Reconciled × Table.Reconciled}
    (h : Reconciling layout o l mute tree (.ok p) tree' d) : ∃ e n, Plans layout o l tree e n := by
  cases h with
  | both hp => exact ⟨_, _, hp⟩

theorem reconcileArtifacts_does : (reconcileArtifacts layout o l).Does box root mute s fun r s' d =>
    s'.1 = s.1 ∧ Reconciling layout o l mute s.2 r s'.2 d := by
  refine .bind plan_does ?_ ?_
  · rintro f s' d ⟨rfl, rfl, h⟩
    exact ⟨rfl, .unusable (.inl h)⟩
  rintro e s' d ⟨rfl, rfl, he⟩
  refine .bind plan_does ?_ ?_
  · rintro f s' d ⟨rfl, rfl, h⟩
    exact ⟨rfl, .unusable (.inr h)⟩
  rintro n s' d ⟨rfl, rfl, hn⟩
  have hp : Plans layout o l s'.2 e n := ⟨he, hn⟩
  refine .bind announce_does ?_ ?_
  · rintro f s' d ⟨rfl, rfl, h⟩
    exact ⟨rfl, .neither hp h⟩
  rintro _ s₁ d ⟨rfl, ht, hc, rfl⟩
  refine .bind announce_does ?_ ?_
  · rintro f s' d ⟨rfl, rfl, h⟩
    simp only [he.target, List.nil_append, List.append_nil]
    exact ⟨ht, .first hp hc h⟩
  rintro _ s₂ d ⟨rfl, ht', hc', rfl⟩
  simp only [he.target, hn.target, List.nil_append]
  exact .done ⟨ht'.trans ht, by rw [List.append_nil]; exact .both hp hc hc'⟩

/-! ## The run -/

def asked (box : Toolbox σ) (layout : Layout) (o : Options) (s : σ × Tree) :
    Except Tool.Refusal Tool.Output × σ × Tree := box layout.root o.generator.version s

def made (box : Toolbox σ) (layout : Layout) (o : Options) (s : σ × Tree) :
    Except Tool.Refusal Tool.Output × σ × Tree := box layout.root o.generator.generate (asked box layout o s).2

def shown (box : Toolbox σ) (layout : Layout) (o : Options) (s : σ × Tree) :
    Except Tool.Refusal Tool.Output × σ × Tree := box layout.root o.status s

structure Generated (box : Toolbox σ) (layout : Layout) (o : Options) (s : σ × Tree) (version : Text) : Prop where
  asked : o.generator.versionOf (asked box layout o s).1 = .ok version
  made : ∃ out, verdict o.generator.generate (made box layout o s).1 = .ok out

def generatorCalls (layout : Layout) (o : Options) : List Effect :=
  [.called layout.root o.generator.version, .called layout.root o.generator.generate]

/-- How a run can end behind the grammar source, from the state `s`. -/
inductive Course (box : Toolbox σ) (layout : Layout) (o : Options) (l : Language) (mute : Prop) (source : SourceEdit)
    (s : σ × Tree) : Except Failure Outcome → σ × Tree → List Effect → Prop where
  | missing {why} (hv : o.generator.versionOf (asked box layout o s).1 = .error why) :
    Course box layout o l mute source s (.ok (.generatorMissing source why)) (asked box layout o s).2
      [.called layout.root o.generator.version]
  | askedUntold (hm : mute) :
    Course box layout o l mute source s (.error .narration) (asked box layout o s).2
      [.called layout.root o.generator.version]
  | unmade {v f} (hv : o.generator.versionOf (asked box layout o s).1 = .ok v)
    (hg : verdict o.generator.generate (made box layout o s).1 = .error f) :
    Course box layout o l mute source s (.error f) (made box layout o s).2 (generatorCalls layout o)
  | madeUntold {v} (hg : Generated box layout o s v) (hm : mute) :
    Course box layout o l mute source s (.error .narration) (made box layout o s).2 (generatorCalls layout o)
  | unreconciled {v f tree d} (hg : Generated box layout o s v)
    (hr : Reconciling layout o l mute (made box layout o s).2.2 (.error f) tree d) :
    Course box layout o l mute source s (.error f) ((made box layout o s).2.1, tree) (generatorCalls layout o ++ d)
  | unshown {v g n tree d f} (hg : Generated box layout o s v)
    (hr : Reconciling layout o l mute (made box layout o s).2.2 (.ok (g, n)) tree d)
    (hs : verdict o.status (shown box layout o ((made box layout o s).2.1, tree)).1 = .error f) :
    Course box layout o l mute source s (.error f) (shown box layout o ((made box layout o s).2.1, tree)).2
      (generatorCalls layout o ++ d ++ [.called layout.root o.status])
  | shownUntold {v g n tree d} (hg : Generated box layout o s v)
    (hr : Reconciling layout o l mute (made box layout o s).2.2 (.ok (g, n)) tree d) (hm : mute) :
    Course box layout o l mute source s (.error .narration) (shown box layout o ((made box layout o s).2.1, tree)).2
      (generatorCalls layout o ++ d ++ [.called layout.root o.status])
  | completed {v g n tree d out} (hg : Generated box layout o s v)
    (hr : Reconciling layout o l mute (made box layout o s).2.2 (.ok (g, n)) tree d)
    (hs : verdict o.status (shown box layout o ((made box layout o s).2.1, tree)).1 = .ok out) :
    Course box layout o l mute source s (.ok (.completed ⟨source, v, g, n, out.stdout.trim⟩))
      (shown box layout o ((made box layout o s).2.1, tree)).2
      (generatorCalls layout o ++ d ++ [.called layout.root o.status])

def afterSource (layout : Layout) (o : Options) (l : Language) (source : SourceEdit) : Program Outcome := do
  match ← probe o.generator with
  | .error why =>
    Program.tell (o.generator.name ++ " is not installed. Please install it first.".toList)
    Program.tell ("using `".toList ++ o.generator.installHint ++ ['`'])
    return .generatorMissing source why
  | .ok version =>
    Program.tell ("using ".toList ++ version)
    tellOutput (← Program.callChecked o.generator.generate)
    let (grammarJson, nodeTypes) ← reconcileArtifacts layout o l
    let status ← Program.callChecked o.status
    tellOutput status
    return .completed ⟨source, version, grammarJson, nodeTypes, status.stdout.trim⟩

theorem addLanguage_eq : addLanguage layout o l = updateSource layout o l >>= afterSource layout o l := rfl

theorem tellOutput_does {out : Tool.Output} {α : Type} {k : Unit → Program α}
    {R : Except Failure α → σ × Tree → List Effect → Prop} (hok : (k ()).Does box root mute s R)
    (herr : mute → R (.error .narration) s []) : (tellOutput out >>= k).Does box root mute s R := by
  rw [tellOutput]
  split
  · exact hok
  · exact .tell hok herr

theorem afterSource_does {source : SourceEdit} : (afterSource layout o l source).Does box layout.root mute s
    (Course box layout o l mute source s) := by
  refine .bind (R := fun r s' d => r = .ok (o.generator.versionOf (asked box layout o s).1) ∧
    s' = (asked box layout o s).2 ∧ d = [.called layout.root o.generator.version])
    (.call (.done ⟨rfl, rfl, rfl⟩)) (fun f s' d h => absurd h.1 (by simp)) ?_
  rintro v s' d ⟨hv, rfl, rfl⟩
  obtain rfl := Except.ok.inj hv
  match hv : o.generator.versionOf (asked box layout o s).1 with
  | .error why =>
    exact .tell (.tell (.done (.missing hv)) fun hm => .askedUntold hm) fun hm => .askedUntold hm
  | .ok v =>
  refine .tell (.callChecked (fun out hg => ?_) fun f hg => .unmade hv hg) fun hm => .askedUntold hm
  have hg : Generated box layout o s v := ⟨hv, out, hg⟩
  refine tellOutput_does (.bind reconcileArtifacts_does ?_ ?_) fun hm => .madeUntold hg hm
  · rintro f ⟨tools, tree⟩ d ⟨rfl, hr⟩
    exact .unreconciled hg hr
  rintro ⟨g, n⟩ ⟨tools, tree⟩ d ⟨rfl, hr⟩
  refine .callChecked (fun out hs => ?_) fun f hs => ?_
  · refine tellOutput_does (.done ?_) fun hm => ?_
    · exact .completed hg hr hs
    · exact .shownUntold hg hr hm
  · exact .unshown hg hr hs

/-! ## Whole runs -/

theorem Sourcing.failed {tree tree' : Tree} {d : List Effect} {f : Failure}
    (h : Sourcing layout o l mute tree (.error f) tree' d) : d = [] ∧ tree' = tree := by
  cases h <;> exact ⟨rfl, rfl⟩

theorem Sourcing.effects {tree tree' : Tree} {d : List Effect} {source : SourceEdit}
    (h : Sourcing layout o l mute tree (.ok source) tree' d) : d = source.effects layout := by
  cases h <;> rfl

section

variable (box) (layout) (o) (l) (w : World σ)

theorem run_updateSource : ∃ s' d, Program.Leaves w s' d ((updateSource layout o l).run box layout.root w).2 ∧
    s'.1 = w.tools ∧
    Sourcing layout o l (w.room ≠ none) w.tree ((updateSource layout o l).run box layout.root w).1 s'.2 d := by
  have h : (updateSource layout o l).Does box layout.root (w.room ≠ none) (w.tools, w.tree) _ := updateSource_does
  exact h w rfl rfl id

/-- A run that fails at the grammar source ends there. -/
theorem addLanguage_fails {f : Failure} {w' : World σ}
    (h : (updateSource layout o l).run box layout.root w = (.error f, w')) :
    (addLanguage layout o l).run box layout.root w = (.error f, w') ∧ Program.Leaves w (w.tools, w.tree) [] w' ∧
      Sourcing layout o l (w.room ≠ none) w.tree (.error f) w.tree [] := by
  obtain ⟨⟨tools, tree⟩, d, hl, rfl, hs⟩ := run_updateSource box layout o l w
  rw [h] at hl hs
  obtain ⟨rfl, rfl⟩ := hs.failed
  exact ⟨by rw [addLanguage_eq, Program.run_bind, h], hl, hs⟩

/-- All other runs go on from there. -/
theorem addLanguage_goesOn {source : SourceEdit} {w₁ : World σ}
    (h : (updateSource layout o l).run box layout.root w = (.ok source, w₁)) :
    Program.Leaves w (w.tools, w₁.tree) (source.effects layout) w₁ ∧
      Sourcing layout o l (w.room ≠ none) w.tree (.ok source) w₁.tree (source.effects layout) ∧
      ∃ s' d, Program.Leaves w₁ s' d ((addLanguage layout o l).run box layout.root w).2 ∧
        Course box layout o l (w₁.room ≠ none) source (w.tools, w₁.tree)
          ((addLanguage layout o l).run box layout.root w).1 s' d := by
  obtain ⟨⟨tools, tree⟩, d, hl, rfl, hs⟩ := run_updateSource box layout o l w
  rw [h] at hl hs
  obtain rfl := hs.effects
  obtain rfl := hl.tree
  refine ⟨hl, hs, ?_⟩
  have ha : (afterSource layout o l source).Does box layout.root (w₁.room ≠ none) (w.tools, w₁.tree) _ :=
    afterSource_does
  rw [addLanguage_eq, Program.run_bind, h]
  exact ha w₁ hl.tools rfl id

/-- A complete run went through all of its steps. -/
theorem of_completed {report : Report} {w' : World σ}
    (h : (addLanguage layout o l).run box layout.root w = (.ok (.completed report), w')) :
    ∃ w₁, (updateSource layout o l).run box layout.root w = (.ok report.source, w₁) ∧ w₁.tools = w.tools ∧
      Sourcing layout o l (w.room ≠ none) w.tree (.ok report.source) w₁.tree (report.source.effects layout) ∧
      Generated box layout o (w.tools, w₁.tree) report.version ∧
      ∃ tree d, Reconciling layout o l (w₁.room ≠ none) (made box layout o (w.tools, w₁.tree)).2.2
          (.ok (report.grammarJson, report.nodeTypes)) tree d ∧
        w'.tree = (shown box layout o ((made box layout o (w.tools, w₁.tree)).2.1, tree)).2.2 := by
  match hu : (updateSource layout o l).run box layout.root w with
  | (.error f, w₁) =>
    rw [(addLanguage_fails box layout o l w hu).1] at h
    exact absurd h (by simp)
  | (.ok source, w₁) =>
    obtain ⟨hl, hs, s', d, hl', hc⟩ := addLanguage_goesOn box layout o l w hu
    rw [h] at hl' hc
    cases hc with
    | completed hg hr _ => exact ⟨w₁, rfl, hl.tools, hs, hg, _, _, hr, hl'.tree⟩

end

end LanguageRoster
