import LanguageRoster.Proofs.Artifact.Revision
import LanguageRoster.Proofs.Run.Course

/-!
# What a run has done when it ends

* `steps` : all that a run can do, in order
* `Tells` : what is to be done about an artifact, by the list that it holds
* `Contained` : the part of the steps that a run has done, by how it ended
* `addLanguage_contained` : every run is contained; one that fails at the grammar source has done nothing
-/

namespace LanguageRoster

set_option autoImplicit false

open Program (verdict)

variable {σ : Type} {box : Toolbox σ} {mute : Prop} {s s' : σ × Tree} {tree tree' : Tree}
variable {layout : Layout} {o : Options} {l : Language} {source : SourceEdit} {d : List Effect}

/-! ## Artifacts -/

/-- The artifact at the path says that the language is present, or that it is to be added. -/
def Tells (tree : Tree) (t : Table) (path : Text) (l : Language) (r : Table.Reconciled) : Prop :=
  ∀ text doc items, tree.readText path = .ok text → t.Holds text doc items →
    (r = .alreadyPresent ↔ ∃ e ∈ items, t.lists l e = true)

theorem Planned.tells {t : Table} {path : Text} {e : Edit} (h : Planned tree t path l e) :
    Tells tree t path l e.result := by
  intro text doc items ht hd
  obtain ⟨_, ht', hr⟩ := h.revise
  obtain rfl := Except.ok.inj (ht.symm.trans ht')
  obtain ⟨_, _, hd', hr⟩ := Table.revise_eq_ok_iff.1 hr
  obtain ⟨rfl, rfl⟩ := hd.unique hd'
  rw [Edit.result, hr, ← List.any_eq_true]
  split <;> simp_all

theorem exists_tells (tree : Tree) (t : Table) (path : Text) (l : Language) : ∃ r, Tells tree t path l r := by
  by_cases h : ∃ text doc items, tree.readText path = .ok text ∧ t.Holds text doc items ∧
      ∃ e ∈ items, t.lists l e = true
  · refine ⟨.alreadyPresent, fun text doc items ht hd => ⟨fun _ => ?_, fun _ => rfl⟩⟩
    obtain ⟨_, _, _, ht', hd', he⟩ := h
    obtain rfl := Except.ok.inj (ht.symm.trans ht')
    obtain ⟨rfl, rfl⟩ := hd.unique hd'
    exact he
  · exact ⟨.added, fun text doc items ht hd => ⟨fun hr => absurd hr (by simp), fun he =>
      absurd ⟨text, doc, items, ht, hd, he⟩ h⟩⟩

/-- The artifacts are replaced in order, and all of them if nothing fails. -/
theorem Reconciling.order {r : Except Failure (Table.Reconciled × Table.Reconciled)}
    (h : Reconciling layout o l mute tree r tree' d) :
    ∃ g n, Tells tree (.grammar o.pattern.rule) layout.jsonFile.path l g ∧
      Tells tree .nodeTypes layout.nodeFile.path l n ∧
      d <+: g.effects layout.jsonFile.path ++ n.effects layout.nodeFile.path ∧
      ∀ p, r = .ok p → p = (g, n) ∧ d = g.effects layout.jsonFile.path ++ n.effects layout.nodeFile.path := by
  obtain ⟨g, hg⟩ := exists_tells tree (.grammar o.pattern.rule) layout.jsonFile.path l
  obtain ⟨n, hn⟩ := exists_tells tree .nodeTypes layout.nodeFile.path l
  cases h with
  | unusable | neither => exact ⟨g, n, hg, hn, List.nil_prefix, by simp⟩
  | first hp he h => exact ⟨_, _, hp.grammar.tells, hp.nodes.tells, List.prefix_append .., by simp⟩
  | both hp he hn =>
    exact ⟨_, _, hp.grammar.tells, hp.nodes.tells, List.prefix_rfl, fun p h => ⟨(Except.ok.inj h).symm, rfl⟩⟩

/-! ## The steps of a run -/

def steps (layout : Layout) (o : Options) (source : SourceEdit) (g n : Table.Reconciled) : List Effect :=
  source.effects layout ++ (generatorCalls layout o ++
    (g.effects layout.jsonFile.path ++ n.effects layout.nodeFile.path) ++ [.called layout.root o.status])

/-- The failure is that of a tool that was called. -/
def Failure.OfTool (i : Tool.Invocation) (f : Failure) : Prop := (∃ x, f = .refused i x) ∨ ∃ out, f = .failed i out

/-- The failure is that the file at the path is unreadable, or no artifact. -/
def Failure.OfArtifact (path : Text) (f : Failure) : Prop :=
  (∃ x, f = .notRead path x) ∨ (∃ m, f = .malformed path m) ∨ ∃ k, f = .lacking path k

/-- What a run has done that went on behind the grammar source, from the state `s` to `s'`, by how it ended. -/
structure Contained (box : Toolbox σ) (layout : Layout) (o : Options) (l : Language) (source : SourceEdit)
    (s : σ × Tree) (r : Except Failure Outcome) (s' : σ × Tree) (done : List Effect) : Prop where
  /-- What was done is a part of the steps, from the first on. -/
  order : ∃ g n, Tells (made box layout o s).2.2 (.grammar o.pattern.rule) layout.jsonFile.path l g ∧
    Tells (made box layout o s).2.2 .nodeTypes layout.nodeFile.path l n ∧ done <+: steps layout o source g n
  /-- The version is always asked for. -/
  begun : source.effects layout ++ [.called layout.root o.generator.version] <+: done
  /-- Nothing is generated unless the generator has told its version. -/
  generated : source.effects layout ++ generatorCalls layout o <+: done →
    ∃ out, (asked box layout o s).1 = .ok out ∧ out.success = true
  /-- Where the generator is missing, nothing is done behind the question for its version. -/
  missing : ∀ source' why, r = .ok (.generatorMissing source' why) → source' = source ∧
    done = source.effects layout ++ [.called layout.root o.generator.version] ∧ s' = (asked box layout o s).2
  /-- Where the generator fails, nothing is done behind it. -/
  unmade : ∀ f, verdict o.generator.generate (made box layout o s).1 = .error f →
    done <+: source.effects layout ++ generatorCalls layout o
  /-- A tool that has to succeed is the generator or the last step. -/
  refused : ∀ f i, r = .error f → f.OfTool i →
    (i = o.generator.generate ∧ done = source.effects layout ++ generatorCalls layout o ∧
      s' = (made box layout o s).2) ∨
    (i = o.status ∧ ∃ g n, done = steps layout o source g n)
  /-- Where an artifact is unusable, neither is replaced. -/
  unusable : ∀ f path, r = .error f → f.OfArtifact path → (path = layout.jsonFile.path ∨ path = layout.nodeFile.path) ∧
    done = source.effects layout ++ generatorCalls layout o ∧ s' = (made box layout o s).2
  /-- The artifact that cannot be replaced is the last to be touched. -/
  unreplaced : ∀ path x, r = .error (.notReplaced path x) →
    (path = layout.jsonFile.path ∧ done = source.effects layout ++ generatorCalls layout o ∧
      s' = (made box layout o s).2) ∨
    (path = layout.nodeFile.path ∧ ∃ g : Table.Reconciled,
      done = source.effects layout ++ (generatorCalls layout o ++ g.effects layout.jsonFile.path))
  completed : ∀ report, r = .ok (.completed report) → report.source = source ∧
    done = steps layout o source report.grammarJson report.nodeTypes

/-! ## Where a run ends -/

theorem ofTool_of_verdict {i : Tool.Invocation} {x : Except Tool.Refusal Tool.Output} {f : Failure}
    (h : verdict i x = .error f) : f.OfTool i := by
  match x with
  | .error r => exact .inl ⟨r, (Except.error.inj h).symm⟩
  | .ok out =>
    rw [verdict] at h
    split at h
    · exact absurd h (by simp)
    · exact .inr ⟨out, (Except.error.inj h).symm⟩

theorem Failure.OfTool.unique {i j : Tool.Invocation} {f : Failure} (hi : f.OfTool i) (hj : f.OfTool j) : i = j := by
  rcases hi with ⟨x, rfl⟩ | ⟨out, rfl⟩ <;> rcases hj with ⟨y, h⟩ | ⟨out', h⟩ <;> simp_all

theorem Failure.OfTool.not_ofArtifact {i : Tool.Invocation} {path : Text} {f : Failure} (h : f.OfTool i) :
    ¬ f.OfArtifact path := by
  rcases h with ⟨x, rfl⟩ | ⟨out, rfl⟩ <;> simp [Failure.OfArtifact]

theorem Failure.OfArtifact.unique {path path' : Text} {f : Failure} (h : f.OfArtifact path) (h' : f.OfArtifact path') :
    path = path' := by
  rcases h with ⟨x, rfl⟩ | ⟨m, rfl⟩ | ⟨k, rfl⟩ <;> simp [Failure.OfArtifact] at h' <;> exact h'

theorem Unusable.ofArtifact {t : Table} {path : Text} {f : Failure} (h : Unusable tree t path l f) :
    f.OfArtifact path := by
  cases h with
  | notRead => exact .inl ⟨_, rfl⟩
  | malformed => exact .inr (.inl ⟨_, rfl⟩)
  | lacking => exact .inr (.inr ⟨_, rfl⟩)

/-- Where the step on the artifacts can fail. -/
theorem Reconciling.failed {f : Failure} (h : Reconciling layout o l mute tree (.error f) tree' d) :
    ((f.OfArtifact layout.jsonFile.path ∨ f.OfArtifact layout.nodeFile.path) ∧ d = [] ∧ tree' = tree) ∨ f = .narration ∨
      (∃ x, f = .notReplaced layout.jsonFile.path x ∧ d = [] ∧ tree' = tree) ∨
      ∃ x, ∃ g : Table.Reconciled, f = .notReplaced layout.nodeFile.path x ∧ d = g.effects layout.jsonFile.path := by
  cases h with
  | unusable h => exact .inl ⟨h.imp Unusable.ofArtifact Unusable.ofArtifact, rfl, rfl⟩
  | neither hp h =>
    cases h with
    | untold => exact .inr (.inl rfl)
    | unreplaced => exact .inr (.inr (.inl ⟨_, by rw [hp.grammar.target], rfl, rfl⟩))
  | first hp he h =>
    cases h with
    | untold => exact .inr (.inl rfl)
    | unreplaced => exact .inr (.inr (.inr ⟨_, _, by rw [hp.nodes.target], rfl⟩))

theorem versionOf_eq_ok {g : Generator} {x : Except Tool.Refusal Tool.Output} {v : Text} (h : g.versionOf x = .ok v) :
    ∃ out, x = .ok out ∧ out.success = true := by
  match x with
  | .error r => exact absurd h (by simp [Generator.versionOf])
  | .ok out =>
    rw [Generator.versionOf] at h
    split at h
    · next hs => exact ⟨out, rfl, hs⟩
    · exact absurd h (by simp)

section

variable {r : Except Failure Outcome}

theorem Course.order (h : Course box layout o l mute source s r s' d) :
    ∃ g n, Tells (made box layout o s).2.2 (.grammar o.pattern.rule) layout.jsonFile.path l g ∧
      Tells (made box layout o s).2.2 .nodeTypes layout.nodeFile.path l n ∧
      source.effects layout ++ d <+: steps layout o source g n := by
  -- what came before the artifacts is a part whatever is to be done about them
  have early : ∀ {d}, d <+: generatorCalls layout o → ∃ g n,
      Tells (made box layout o s).2.2 (.grammar o.pattern.rule) layout.jsonFile.path l g ∧
      Tells (made box layout o s).2.2 .nodeTypes layout.nodeFile.path l n ∧
      source.effects layout ++ d <+: steps layout o source g n := by
    rintro d ⟨rest, hd⟩
    obtain ⟨g, hg⟩ := exists_tells (made box layout o s).2.2 (.grammar o.pattern.rule) layout.jsonFile.path l
    obtain ⟨n, hn⟩ := exists_tells (made box layout o s).2.2 .nodeTypes layout.nodeFile.path l
    exact ⟨g, n, hg, hn, by simp [steps, ← hd]⟩
  cases h with
  | missing | askedUntold => exact early ⟨[.called layout.root o.generator.generate], rfl⟩
  | unmade | madeUntold => exact early List.prefix_rfl
  | unreconciled hg hr =>
    obtain ⟨g, n, hg, hn, ⟨rest, hd⟩, -⟩ := hr.order
    exact ⟨g, n, hg, hn, by simp [steps, ← hd]⟩
  | unshown hg hr | shownUntold hg hr | completed hg hr =>
    obtain ⟨g, n, hg, hn, -, hd⟩ := hr.order
    obtain ⟨-, rfl⟩ := hd _ rfl
    exact ⟨g, n, hg, hn, List.prefix_rfl⟩

/-- Where a run can fail behind the grammar source, and what it has done by then. -/
theorem Course.failed {f : Failure} (h : Course box layout o l mute source s (.error f) s' d) :
    f = .narration ∨
    (f.OfTool o.generator.generate ∧ d = generatorCalls layout o ∧ s' = (made box layout o s).2) ∨
    ((f.OfArtifact layout.jsonFile.path ∨ f.OfArtifact layout.nodeFile.path) ∧ d = generatorCalls layout o ∧
      s' = (made box layout o s).2) ∨
    (∃ x, f = .notReplaced layout.jsonFile.path x ∧ d = generatorCalls layout o ∧ s' = (made box layout o s).2) ∨
    (∃ x, ∃ g : Table.Reconciled, f = .notReplaced layout.nodeFile.path x ∧
      d = generatorCalls layout o ++ g.effects layout.jsonFile.path) ∨
    (f.OfTool o.status ∧ ∃ g n, source.effects layout ++ d = steps layout o source g n) := by
  cases h with
  | askedUntold | madeUntold | shownUntold => exact .inl rfl
  | unmade hv hg => exact .inr (.inl ⟨ofTool_of_verdict hg, rfl, rfl⟩)
  | unreconciled hg hr =>
    rcases hr.failed with ⟨h, rfl, rfl⟩ | rfl | ⟨x, rfl, rfl, rfl⟩ | ⟨x, g, rfl, rfl⟩
    · exact .inr (.inr (.inl ⟨h, List.append_nil _, rfl⟩))
    · exact .inl rfl
    · exact .inr (.inr (.inr (.inl ⟨x, rfl, List.append_nil _, rfl⟩)))
    · exact .inr (.inr (.inr (.inr (.inl ⟨x, g, rfl, rfl⟩))))
  | unshown hg hr hs =>
    obtain ⟨g, n, -, -, -, hd⟩ := hr.order
    exact .inr (.inr (.inr (.inr (.inr ⟨ofTool_of_verdict hs, g, n, by rw [steps, (hd _ rfl).2]⟩))))

/-- A run that went on behind the grammar source is contained. -/
theorem Course.contained (h : Course box layout o l mute source s r s' d) :
    Contained box layout o l source s r s' (source.effects layout ++ d) where
  order := h.order
  begun := by
    rw [List.prefix_append_right_inj]
    cases h <;> simp [generatorCalls]
  generated hd := by
    rw [List.prefix_append_right_inj] at hd
    cases h with
    | missing | askedUntold => exact absurd hd.length_le (by simp [generatorCalls])
    | unmade hv => exact versionOf_eq_ok hv
    | madeUntold hg | unreconciled hg | unshown hg | shownUntold hg | completed hg => exact versionOf_eq_ok hg.asked
  missing source' why hr := by
    cases h <;> simp_all
  unmade f hf := by
    rw [List.prefix_append_right_inj]
    cases h with
    | missing | askedUntold => simp [generatorCalls]
    | unmade => exact List.prefix_rfl
    | madeUntold hg | unreconciled hg | unshown hg | shownUntold hg | completed hg =>
      obtain ⟨out, ho⟩ := hg.made
      exact absurd (ho.symm.trans hf) (by simp)
  refused f i hr hi := by
    subst hr
    rcases h.failed with rfl | ⟨hj, rfl, rfl⟩ | ⟨hj, -⟩ | ⟨x, rfl, -⟩ | ⟨x, g, rfl, -⟩ | ⟨hj, hd⟩
    · exact absurd hi (by simp [Failure.OfTool])
    · exact .inl ⟨hi.unique hj, rfl, rfl⟩
    · exact (hj.elim hi.not_ofArtifact hi.not_ofArtifact).elim
    · exact absurd hi (by simp [Failure.OfTool])
    · exact absurd hi (by simp [Failure.OfTool])
    · exact .inr ⟨hi.unique hj, hd⟩
  unusable f path hr hp := by
    subst hr
    rcases h.failed with rfl | ⟨hj, -⟩ | ⟨hj, rfl, rfl⟩ | ⟨x, rfl, -⟩ | ⟨x, g, rfl, -⟩ | ⟨hj, -⟩
    · exact absurd hp (by simp [Failure.OfArtifact])
    · exact (hj.not_ofArtifact hp).elim
    · exact ⟨hj.imp hp.unique hp.unique, rfl, rfl⟩
    · exact absurd hp (by simp [Failure.OfArtifact])
    · exact absurd hp (by simp [Failure.OfArtifact])
    · exact (hj.not_ofArtifact hp).elim
  unreplaced path x hr := by
    subst hr
    rcases h.failed with hf | ⟨hj, -⟩ | ⟨hj, -⟩ | ⟨y, hf, rfl, rfl⟩ | ⟨y, g, hf, rfl⟩ | ⟨hj, -⟩
    · exact absurd hf (by simp)
    · exact absurd hj (by simp [Failure.OfTool])
    · exact absurd hj (by simp [Failure.OfArtifact])
    · exact .inl ⟨(Failure.notReplaced.inj hf).1, rfl, rfl⟩
    · exact .inr ⟨(Failure.notReplaced.inj hf).1, g, rfl⟩
    · exact absurd hj (by simp [Failure.OfTool])
  completed report hr := by
    subst hr
    cases h with
    | completed hg hrec hs =>
      obtain ⟨g, n, -, -, -, hd⟩ := hrec.order
      obtain ⟨hgn, rfl⟩ := hd _ rfl
      obtain ⟨rfl, rfl⟩ := Prod.mk.inj hgn
      exact ⟨rfl, rfl⟩

end

/-! ## Whole runs -/

/-- A run that fails at the grammar source has done nothing at all, and all others are contained. -/
theorem addLanguage_contained (box : Toolbox σ) (layout : Layout) (o : Options) (l : Language) (w : World σ) :
    match (updateSource layout o l).run box layout.root w, (addLanguage layout o l).run box layout.root w with
    | (.error f, _), (r, w') => r = .error f ∧ w'.log = w.log ∧ w'.tools = w.tools ∧ w'.tree = w.tree
    | (.ok source, w₁), (r, w') => ∃ done, w'.log = w.log ++ done ∧
      Contained box layout o l source (w₁.tools, w₁.tree) r (w'.tools, w'.tree) done := by
  match hu : (updateSource layout o l).run box layout.root w with
  | (.error f, w₁) =>
    obtain ⟨hr, hl, -⟩ := addLanguage_fails box layout o l w hu
    rw [hr]
    exact ⟨rfl, by rw [hl.log, List.append_nil], hl.tools, hl.tree⟩
  | (.ok source, w₁) =>
    obtain ⟨hl, -, s', d, hl', hc⟩ := addLanguage_goesOn box layout o l w hu
    refine ⟨source.effects layout ++ d, ?_, ?_⟩
    · rw [hl'.log, hl.log, List.append_assoc]
    · rw [hl'.tools, hl'.tree, hl.tools]
      exact hc.contained

end LanguageRoster
