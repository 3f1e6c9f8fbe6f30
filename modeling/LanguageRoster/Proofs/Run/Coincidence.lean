import LanguageRoster.Proofs.Run.Ready

/-!
# Paths of one file

What becomes of a run where two of the three paths of a layout lead to one file. Nothing looks out for that, but the
artifacts are read before either is written, and what is read cannot be two things at once.

* `Layout.Coincides` : two of the three paths lead to one place
* `WritesNothing` : a tool that writes no file
* `Plans.apart`, `Plans.apart_source` : the edits of both artifacts are planned only if the three files are three
* `Course.of_not_plans` : a run that does not come to these plans changes nothing behind the grammar source
* `coinciding_paths` : a run is never complete then, and has replaced no file unless it put the language into the
  grammar source
-/

namespace LanguageRoster

set_option autoImplicit false

/-- Two of the three paths lead to one place. -/
def Layout.Coincides (layout : Layout) (tree : Tree) : Prop :=
  tree.SamePlace layout.sourceFile.path layout.jsonFile.path ∨
  tree.SamePlace layout.sourceFile.path layout.nodeFile.path ∨
  tree.SamePlace layout.jsonFile.path layout.nodeFile.path

/-- Called in the directory, the tool writes no file. -/
def WritesNothing {σ : Type} (box : Toolbox σ) (root : Text) (i : Tool.Invocation) : Prop :=
  ∀ s, (box root i s).2.2 = s.2

variable {σ : Type} {box : Toolbox σ} {layout : Layout} {o : Options} {l : Language} {mute : Prop}
variable {tree tree' : Tree} {d : List Effect}

/-! ## Plans -/

theorem Planned.holds {t : Table} {path : Text} {e : Edit} (h : Planned tree t path l e) :
    ∃ text doc items, tree.readText path = .ok text ∧ t.Holds text doc items := by
  obtain ⟨text, ht, hr⟩ := h.revise
  obtain ⟨doc, items, hd, -⟩ := Table.revise_eq_ok_iff.1 hr
  exact ⟨text, doc, items, ht, hd⟩

theorem Plans.apart {e n : Edit} (h : Plans layout o l tree e n) :
    ¬ tree.SamePlace layout.jsonFile.path layout.nodeFile.path := by
  intro hsame
  obtain ⟨text, doc, items, ht, hd⟩ := h.grammar.holds
  obtain ⟨text', doc', items', ht', hd'⟩ := h.nodes.holds
  obtain rfl := hsame.text_eq ht ht'
  exact hd.apart hd'

theorem Plans.apart_source {e n : Edit} {text : Text} (h : Plans layout o l tree e n)
    (ht : tree.readText layout.sourceFile.path = .ok text) (hno : ∀ doc, Json.read text ≠ .ok doc) :
    ¬ tree.SamePlace layout.sourceFile.path layout.jsonFile.path ∧
      ¬ tree.SamePlace layout.sourceFile.path layout.nodeFile.path := by
  constructor
  · intro hsame
    obtain ⟨text', doc, items, ht', hd⟩ := h.grammar.holds
    obtain rfl := hsame.text_eq ht ht'
    exact hno doc hd.read
  · intro hsame
    obtain ⟨text', doc, items, ht', hd⟩ := h.nodes.holds
    obtain rfl := hsame.text_eq ht ht'
    exact hno doc hd.read

/-- What the step on the grammar source starts from is no document. -/
theorem Sourcing.no_document {source : SourceEdit} (h : Sourcing layout o l mute tree (.ok source) tree' d) :
    ∃ text, tree.readText layout.sourceFile.path = .ok text ∧ ∀ doc, Json.read text ≠ .ok doc := by
  cases h with
  | listed ht hb | inserted ht hb => exact ⟨_, ht, Choice.read_ne_ok_of_locate hb⟩

/-- Nor is what it leaves there, so that behind it an edit is planned only for what could be read before. -/
theorem Sourcing.planned_back {source : SourceEdit} (h : Sourcing layout o l mute tree (.ok source) tree' d)
    {t : Table} {path : Text} {e : Edit} (hp : Planned tree' t path l e) : Planned tree t path l e := by
  cases h with
  | listed => exact hp
  | inserted ht hb hl hr =>
    obtain ⟨text, ht', hrevise⟩ := hp.revise
    obtain ⟨doc, items, hd, -⟩ := Table.revise_eq_ok_iff.1 hrevise
    refine ⟨hp.target, text, (Tree.readText_back ht hr ht').resolve_right ?_, hrevise⟩
    rintro rfl
    exact Choice.read_ne_ok_of_insert hb l doc hd.read

/-- Behind the step on the grammar source, the artifacts of a layout that coincides are not planned. -/
theorem Sourcing.not_plans {source : SourceEdit} (h : Sourcing layout o l mute tree (.ok source) tree' d)
    (hsame : layout.Coincides tree) (e n : Edit) : ¬ Plans layout o l tree' e n := by
  intro hplans
  have hp : Plans layout o l tree e n := ⟨h.planned_back hplans.grammar, h.planned_back hplans.nodes⟩
  obtain ⟨text, ht, hno⟩ := h.no_document
  obtain ⟨hjson, hnode⟩ := hp.apart_source ht hno
  rcases hsame with hs | hs | hs
  · exact hjson hs
  · exact hnode hs
  · exact hp.apart hs

/-! ## Runs without plans -/

theorem Reconciling.of_not_plans (hno : ∀ e n, ¬ Plans layout o l tree e n)
    {r : Except Failure (Table.Reconciled × Table.Reconciled)} (h : Reconciling layout o l mute tree r tree' d) :
    (∃ f, r = .error f) ∧ tree' = tree ∧ d = [] := by
  cases h with
  | unusable h => exact ⟨⟨_, rfl⟩, rfl, rfl⟩
  | neither hp | first hp | both hp => exact (hno _ _ hp).elim

/-- A run that does not come to the plans is not complete, and behind the grammar source it calls the generator at
most. -/
theorem Course.of_not_plans {source : SourceEdit} {s s' : σ × Tree} {r : Except Failure Outcome}
    (hversion : WritesNothing box layout.root o.generator.version)
    (hgenerate : WritesNothing box layout.root o.generator.generate) (hno : ∀ e n, ¬ Plans layout o l s.2 e n)
    (h : Course box layout o l mute source s r s' d) :
    (∀ report, r ≠ .ok (.completed report)) ∧ s'.2 = s.2 ∧ d <+: generatorCalls layout o := by
  have hasked : (asked box layout o s).2.2 = s.2 := hversion s
  have hmade : (made box layout o s).2.2 = s.2 := (hgenerate _).trans hasked
  cases h with
  | missing => exact ⟨by simp, hasked, [_], rfl⟩
  | askedUntold => exact ⟨by simp, hasked, [_], rfl⟩
  | unmade => exact ⟨by simp, hmade, List.prefix_rfl⟩
  | madeUntold => exact ⟨by simp, hmade, List.prefix_rfl⟩
  | unreconciled hg hr =>
    rw [hmade] at hr
    obtain ⟨-, rfl, rfl⟩ := hr.of_not_plans hno
    exact ⟨by simp, rfl, by simp⟩
  | unshown hg hr | shownUntold hg hr | completed hg hr =>
    rw [hmade] at hr
    obtain ⟨⟨f, hf⟩, -⟩ := hr.of_not_plans hno
    exact absurd hf (by simp)

/-! ## Layouts that coincide -/

/-- Between the trees, no file was replaced unless the language was put into the grammar source, and nothing else was
done but calls of the generator. -/
inductive SourceOnly (layout : Layout) (o : Options) (l : Language) (tree : Tree) : Tree → List Effect → Prop where
  | untouched {calls} (hcalls : calls <+: generatorCalls layout o) : SourceOnly layout o l tree tree calls
  | inserted {text b tree' calls} (ht : tree.readText layout.sourceFile.path = .ok text)
    (hb : Choice.locate o.pattern text = .ok b)
    (hr : tree.replace layout.sourceFile.path (b.insert l).render.bytes = .ok tree')
    (hcalls : calls <+: generatorCalls layout o) :
    SourceOnly layout o l tree tree' (.replaced layout.sourceFile.path :: calls)

theorem Sourcing.sourceOnly {source : SourceEdit} {calls : List Effect}
    (h : Sourcing layout o l mute tree (.ok source) tree' d) (hcalls : calls <+: generatorCalls layout o) :
    SourceOnly layout o l tree tree' (d ++ calls) := by
  cases h with
  | listed => exact .untouched hcalls
  | inserted ht hb hl hr => exact .inserted ht hb hr hcalls

section

variable (box : Toolbox σ) (layout : Layout) (o : Options) (l : Language) (w : World σ)

theorem addLanguage_of_coincides (hversion : WritesNothing box layout.root o.generator.version)
    (hgenerate : WritesNothing box layout.root o.generator.generate) (hsame : layout.Coincides w.tree) :
    (∀ report, ((addLanguage layout o l).run box layout.root w).1 ≠ .ok (.completed report)) ∧
    ∃ done, ((addLanguage layout o l).run box layout.root w).2.log = w.log ++ done ∧
      SourceOnly layout o l w.tree ((addLanguage layout o l).run box layout.root w).2.tree done := by
  match hu : (updateSource layout o l).run box layout.root w with
  | (.error f, w₁) =>
    obtain ⟨hrun, hl, -⟩ := addLanguage_fails box layout o l w hu
    rw [hrun, hl.tree]
    exact ⟨by simp, [], hl.log, .untouched List.nil_prefix⟩
  | (.ok source, w₁) =>
    obtain ⟨hl, hs, s', d, hl', hc⟩ := addLanguage_goesOn box layout o l w hu
    obtain ⟨hres, htree, hcalls⟩ := hc.of_not_plans hversion hgenerate (hs.not_plans hsame)
    refine ⟨hres, source.effects layout ++ d, ?_, ?_⟩
    · rw [hl'.log, hl.log, List.append_assoc]
    · rw [hl'.tree, htree]
      exact hs.sourceOnly hcalls

theorem reconcileArtifacts_of_samePlace (hsame : w.tree.SamePlace layout.jsonFile.path layout.nodeFile.path) :
    (∃ f, ((reconcileArtifacts layout o l).run box layout.root w).1 = .error f) ∧
    ((reconcileArtifacts layout o l).run box layout.root w).2.tree = w.tree ∧
    ((reconcileArtifacts layout o l).run box layout.root w).2.log = w.log := by
  have hdoes : (reconcileArtifacts layout o l).Does box layout.root (w.room ≠ none) (w.tools, w.tree) _ :=
    reconcileArtifacts_does
  obtain ⟨s', d, hl, -, hr⟩ := hdoes w rfl rfl id
  obtain ⟨hf, htree, rfl⟩ := hr.of_not_plans fun e n hp => hp.apart hsame
  exact ⟨hf, hl.tree.trans htree, hl.log.trans (List.append_nil _)⟩

end

/-- Where two of the three paths lead to one file and the tools write none, no run is complete. The only file that a run
may have replaced is the grammar source, with the language put into it. Where the paths of the two artifacts lead to
one file, the step on the artifacts fails and changes nothing. All this is so because no text is a grammar source, even
with one more language in it, and a document, and because no document has the lists of both tables. -/
theorem coinciding_paths (box : Toolbox σ) (layout : Layout) (o : Options) (l : Language) (w : World σ)
    (htools : ∀ i ∈ [o.generator.version, o.generator.generate, o.status], WritesNothing box layout.root i)
    (hsame : layout.Coincides w.tree) :
    (∀ report, ((addLanguage layout o l).run box layout.root w).1 ≠ .ok (.completed report)) ∧
    (∃ done, ((addLanguage layout o l).run box layout.root w).2.log = w.log ++ done ∧
      SourceOnly layout o l w.tree ((addLanguage layout o l).run box layout.root w).2.tree done) ∧
    (w.tree.SamePlace layout.jsonFile.path layout.nodeFile.path →
      (∃ f, ((reconcileArtifacts layout o l).run box layout.root w).1 = .error f) ∧
      ((reconcileArtifacts layout o l).run box layout.root w).2.tree = w.tree ∧
      ((reconcileArtifacts layout o l).run box layout.root w).2.log = w.log) ∧
    (∀ p text b, Choice.locate p text = .ok b →
      (∀ doc, Json.read text ≠ .ok doc) ∧ ∀ l doc, Json.read (b.insert l).render ≠ .ok doc) ∧
    (∀ rule doc items items', (Table.grammar rule).entries doc = .ok items →
      Table.nodeTypes.entries doc ≠ .ok items') := by
  obtain ⟨hincomplete, hdone⟩ := addLanguage_of_coincides box layout o l w
    (htools o.generator.version (by simp)) (htools o.generator.generate (by simp)) hsame
  refine ⟨hincomplete, hdone, reconcileArtifacts_of_samePlace box layout o l w, ?_, ?_⟩
  · intro p text b hb
    exact ⟨Choice.read_ne_ok_of_locate hb, Choice.read_ne_ok_of_insert hb⟩
  · intro rule doc items items' hitems
    exact Table.entries_apart hitems

/-- The small repository, with a link to the description of the grammar in place of the node types. -/
def Sample.linked : World Unit where
  tree := (Sample.tree 0o755).put ["repo".toList, "src".toList, "node-types.json".toList] (.link "grammar.json".toList)
  tools := ()

/-- In the small repository with the link, the run for a new language is not complete. -/
theorem coinciding_paths_link :
    Sample.linked.tree.SamePlace Sample.layout.jsonFile.path Sample.layout.nodeFile.path ∧
    (∀ report, ((addLanguage Sample.layout Sample.options Sample.kotlin).run Sample.idle Sample.layout.root
      Sample.linked).1 ≠ .ok (.completed report)) ∧
    ((reconcileArtifacts Sample.layout Sample.options Sample.kotlin).run Sample.idle Sample.layout.root
      Sample.linked).2.tree = Sample.linked.tree := by
  have hsame : Sample.linked.tree.SamePlace Sample.layout.jsonFile.path Sample.layout.nodeFile.path :=
    ⟨["repo".toList, "src".toList, "grammar.json".toList], rfl, rfl⟩
  obtain ⟨hincomplete, -, hartifacts, -⟩ := coinciding_paths Sample.idle Sample.layout Sample.options Sample.kotlin
    Sample.linked (fun i _ s => (Sample.obliging Sample.layout.root i s).2) (.inr (.inr hsame))
  exact ⟨hsame, hincomplete, (hartifacts hsame).2.1⟩

end LanguageRoster
