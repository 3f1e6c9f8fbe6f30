import LanguageRoster.Proofs.Run.Settled

/-!
# Repositories that are ready

* `Ready` : the three files hold a choice and two artifacts
* `Obliging` : a tool that succeeds and writes no file
* `Ready.source_step`, `Ready.artifacts_step` : each step of a run succeeds if the files that it changes can be
  replaced, and leaves the repository ready
* `Ready.run` : so does a whole run
* `Sample` : a small repository
-/

namespace LanguageRoster

set_option autoImplicit false

open Program (verdict)

/-- The choice with the language behind its last member; one that lists it stays as it is if `skip`. -/
def Choice.Block.joined (skip : Bool) (b : Choice.Block) (l : Language) : Choice.Block :=
  if skip && b.lists l then b else b.insert l

/-- The grammar source holds the choice `b`, and the artifacts hold the document `doc` with the list `items` and the
list `nodes`. All numbers of these are integers. -/
structure Ready (layout : Layout) (o : Options) (tree : Tree) (b : Choice.Block) (doc : Json)
    (items nodes : List Json) : Prop where
  source : ∃ text, tree.readText layout.sourceFile.path = .ok text ∧ Choice.locate o.pattern text = .ok b
  grammar : ∃ text, tree.readText layout.jsonFile.path = .ok text ∧
    (Table.grammar o.pattern.rule).Holds text doc items
  types : ∃ text, tree.readText layout.nodeFile.path = .ok text ∧ Table.nodeTypes.Holds text (.list nodes) nodes
  wholeGrammar : doc.Whole
  wholeNodes : (Json.list nodes).Whole

/-- Called in the directory, the tool succeeds and writes no file. -/
def Obliging {σ : Type} (box : Toolbox σ) (root : Text) (i : Tool.Invocation) : Prop :=
  ∀ s, (∃ out, (box root i s).1 = .ok out ∧ out.success = true) ∧ (box root i s).2.2 = s.2

section

variable {σ : Type} {box : Toolbox σ} {layout : Layout} {o : Options} {l : Language} {mute : Prop}
variable {tree tree' : Tree} {d : List Effect}

/-! ## Failures that do not happen -/

theorem not_unusable {t : Table} {path text : Text} {doc : Json} {items : List Json} {f : Failure}
    (ht : tree.readText path = .ok text) (hd : t.Holds text doc items) : ¬ Unusable tree t path l f := by
  have hr := Table.revise_eq_ok_iff (l := l).2 ⟨doc, items, hd, rfl⟩
  intro h
  cases h with
  | notRead h => exact absurd (ht.symm.trans h) (by simp)
  | malformed h hm | lacking h hm =>
    obtain rfl := Except.ok.inj (ht.symm.trans h)
    exact absurd (hr.symm.trans hm) (by simp)

theorem not_uncommitted {t : Table} {path text : Text} {doc : Json} {items : List Json} {e : Edit} {f : Failure}
    (hm : ¬ mute) (hp : Planned tree t path l e) (ht : tree.readText path = .ok text) (hd : t.Holds text doc items)
    (hroom : items.any (t.lists l) = false → tree.HasRoom path) : ¬ Uncommitted mute tree e f := by
  intro h
  cases h with
  | untold h => exact hm h
  | unreplaced h hf =>
    obtain ⟨_, ht', hr⟩ := hp.revise
    obtain rfl := Except.ok.inj (ht.symm.trans ht')
    obtain ⟨_, _, hd', hr⟩ := Table.revise_eq_ok_iff.1 hr
    obtain ⟨rfl, rfl⟩ := hd.unique hd'
    cases ha : items.any (t.lists l) with
    | true =>
      rw [ha, if_pos rfl, h] at hr
      exact absurd hr (by simp)
    | false =>
      obtain ⟨tree', ht'⟩ := Tree.exists_replace (Tree.readText_eq_ok_iff.1 ht) (hroom ha) _
      rw [hp.target] at hf
      exact absurd (ht'.symm.trans hf) (by simp)

theorem Obliging.verdict {root : Text} {i : Tool.Invocation} (h : Obliging box root i) (s : σ × Tree) (f : Failure) :
    verdict i (box root i s).1 ≠ .error f := by
  obtain ⟨⟨out, ho, hs⟩, -⟩ := h s
  simp [Program.verdict, ho, hs]

theorem Obliging.versionOf {root : Text} {g : Generator} (h : Obliging box root g.version) (s : σ × Tree)
    (why : Generator.Missing) : g.versionOf (box root g.version s).1 ≠ .error why := by
  obtain ⟨⟨out, ho, hs⟩, -⟩ := h s
  simp [Generator.versionOf, ho, hs]

/-! ## The steps -/

variable {b : Choice.Block} {doc : Json} {items nodes : List Json}

theorem Ready.whole (h : Ready layout o tree b doc items nodes) :
    ∀ path ∈ [layout.jsonFile.path, layout.nodeFile.path], ∀ text doc,
      tree.readText path = .ok text → Json.read text = .ok doc → doc.Whole := by
  obtain ⟨gtext, hg, hgd⟩ := h.grammar
  obtain ⟨ntext, hn, hnd⟩ := h.types
  intro path hpath text doc' ht hd
  simp only [List.mem_cons, List.not_mem_nil, or_false] at hpath
  rcases hpath with rfl | rfl
  · obtain rfl := Except.ok.inj (hg.symm.trans ht)
    exact Except.ok.inj (hgd.read.symm.trans hd) ▸ h.wholeGrammar
  · obtain rfl := Except.ok.inj (hn.symm.trans ht)
    exact Except.ok.inj (hnd.read.symm.trans hd) ▸ h.wholeNodes

theorem Ready.source_step (h : Ready layout o tree b doc items nodes) (hp : o.pattern.SingleLine) (hm : ¬ mute)
    (hopen : (o.skipExisting && b.lists l) = false → tree.Replaceable layout.sourceFile.path)
    {r : Except Failure SourceEdit} (hs : Sourcing layout o l mute tree r tree' d) :
    r = .ok (if o.skipExisting && b.lists l then .alreadyListed else .inserted) ∧
      Ready layout o tree' (b.joined o.skipExisting l) doc items nodes ∧ tree.SameShape tree' ∧
      ((o.skipExisting && b.lists l) = true → tree' = tree) := by
  obtain ⟨text, ht, hb⟩ := h.source
  cases hs with
  | unread hf => exact absurd (ht.symm.trans hf) (by simp)
  | untold h => exact absurd h hm
  | mismatch ht' hb' =>
    obtain rfl := Except.ok.inj (ht.symm.trans ht')
    exact absurd (hb.symm.trans hb') (by simp)
  | listed ht' hb' hl =>
    obtain rfl := Except.ok.inj (ht.symm.trans ht')
    obtain rfl := Except.ok.inj (hb.symm.trans hb')
    rw [hl, Choice.Block.joined, hl]
    exact ⟨rfl, h, .refl tree, fun _ => rfl⟩
  | unreplaced ht' hb' hl hr =>
    obtain rfl := Except.ok.inj (ht.symm.trans ht')
    obtain rfl := Except.ok.inj (hb.symm.trans hb')
    obtain ⟨tree', ht'⟩ := Tree.exists_replace (Tree.readText_eq_ok_iff.1 ht) (hopen hl).2 _
    exact absurd (ht'.symm.trans hr) (by simp)
  | inserted ht' hb' hl hr =>
    obtain rfl := Except.ok.inj (ht.symm.trans ht')
    obtain rfl := Except.ok.inj (hb.symm.trans hb')
    have hs : Sourcing layout o l mute tree (.ok .inserted) tree' _ := .inserted ht hb hl hr
    obtain ⟨gtext, hg, hgd⟩ := h.grammar
    obtain ⟨ntext, hn, hnd⟩ := h.types
    rw [hl, Choice.Block.joined, hl]
    exact ⟨rfl, {
      source := ⟨_, Tree.readText_replaced ht hr, Choice.locate_insert hp hb l⟩
      grammar := ⟨gtext, (hs.readText_iff hp hgd).2 hg, hgd⟩
      types := ⟨ntext, (hs.readText_iff hp hnd).2 hn, hnd⟩
      wholeGrammar := h.wholeGrammar
      wholeNodes := h.wholeNodes }, Tree.sameShape_replaced (hopen hl).1 hr, by simp⟩

theorem Ready.artifacts_step (h : Ready layout o tree b doc items nodes) (hm : ¬ mute)
    (hopen : items.any ((Table.grammar o.pattern.rule).lists l) = false → tree.Replaceable layout.jsonFile.path)
    (hopen' : nodes.any (Table.nodeTypes.lists l) = false → tree.Replaceable layout.nodeFile.path)
    {r : Except Failure (Table.Reconciled × Table.Reconciled)} (hr : Reconciling layout o l mute tree r tree' d) :
    r = .ok (if items.any ((Table.grammar o.pattern.rule).lists l) then .alreadyPresent else .added,
        if nodes.any (Table.nodeTypes.lists l) then .alreadyPresent else .added) ∧
      Ready layout o tree' b ((Table.grammar o.pattern.rule).withEntries
          ((Table.grammar o.pattern.rule).joined items l) doc)
        ((Table.grammar o.pattern.rule).joined items l) (Table.nodeTypes.joined nodes l) ∧ tree.SameShape tree' ∧
      (items.any ((Table.grammar o.pattern.rule).lists l) = true → nodes.any (Table.nodeTypes.lists l) = true →
        tree' = tree) := by
  obtain ⟨gtext, hg, hgd⟩ := h.grammar
  obtain ⟨ntext, hn, hnd⟩ := h.types
  match r with
  | .error f =>
    exfalso
    cases hr with
    | unusable hf => exact hf.elim (not_unusable hg hgd) (not_unusable hn hnd)
    | neither hp hf =>
      exact not_uncommitted hm hp.grammar hg hgd (fun ha => (hopen ha).2) hf
    | first hp he hf =>
      obtain ⟨_, _, _, hs⟩ := hp.grammar.settles he
      obtain rfl := Except.ok.inj (hg.symm.trans hs.reads)
      obtain ⟨rfl, rfl⟩ := hgd.unique hs.holds
      have hne : ntext ≠ gtext := by
        rintro rfl
        exact hgd.apart hnd
      have hmid := Tree.readText_congr (hs.others _ _ hn hne)
      exact not_uncommitted hm (hp.nodes.of_readText hmid) (hmid.trans hn) hnd
        (fun ha => ((hopen' ha).of_sameShape (hs.shape fun ha => (hopen ha).1)).2) hf
  | .ok (g, n) =>
    obtain ⟨mid, text, doc', items', text', doc'', items'', hj, hn', hmid, hend, hothers⟩ :=
      hr.settles (h.whole _ (by simp))
    obtain rfl := Except.ok.inj (hg.symm.trans hj.reads)
    obtain ⟨rfl, rfl⟩ := hgd.unique hj.holds
    obtain rfl := Except.ok.inj (hn.symm.trans ((Tree.readText_congr hmid).symm.trans hn'.reads))
    obtain ⟨rfl, rfl⟩ := hnd.unique hn'.holds
    obtain ⟨stext, hs, hb⟩ := h.source
    have hshape := hj.shape fun ha => (hopen ha).1
    refine ⟨by rw [hj.result, hn'.result], {
      source := ⟨stext, (Tree.readText_congr (hothers _ _ _ hs hb)).trans hs, hb⟩
      grammar := ⟨_, (Tree.readText_congr hend).trans hj.settled, hgd.settled h.wholeGrammar l⟩
      types := ⟨_, hn'.settled, hnd.settled h.wholeNodes l⟩
      wholeGrammar := Table.whole_joined hgd.entries h.wholeGrammar l
      wholeNodes := Table.whole_joined hnd.entries h.wholeNodes l },
      hshape.trans (hn'.shape fun ha => ((hopen' ha).of_sameShape hshape).1), ?_⟩
    intro hgl hnl
    rw [hn'.kept hnl, hj.kept hgl]

/-! ## Whole runs -/

/-- What a run reports and leaves, from a repository that is ready. -/
theorem Ready.run {w : World σ} (h : Ready layout o w.tree b doc items nodes) (hp : o.pattern.SingleLine)
    (htools : ∀ i ∈ [o.generator.version, o.generator.generate, o.status], Obliging box layout.root i)
    (hroom : w.room = none) (l : Language)
    (hopen : (o.skipExisting && b.lists l) = false → w.tree.Replaceable layout.sourceFile.path)
    (hopen' : items.any ((Table.grammar o.pattern.rule).lists l) = false → w.tree.Replaceable layout.jsonFile.path)
    (hopen'' : nodes.any (Table.nodeTypes.lists l) = false → w.tree.Replaceable layout.nodeFile.path) :
    ∃ report w', (addLanguage layout o l).run box layout.root w = (.ok (.completed report), w') ∧ w'.room = none ∧
      report.source = (if o.skipExisting && b.lists l then .alreadyListed else .inserted) ∧
      report.grammarJson = (if items.any ((Table.grammar o.pattern.rule).lists l) then .alreadyPresent else .added) ∧
      report.nodeTypes = (if nodes.any (Table.nodeTypes.lists l) then .alreadyPresent else .added) ∧
      Ready layout o w'.tree (b.joined o.skipExisting l) ((Table.grammar o.pattern.rule).withEntries
          ((Table.grammar o.pattern.rule).joined items l) doc)
        ((Table.grammar o.pattern.rule).joined items l) (Table.nodeTypes.joined nodes l) ∧
      w.tree.SameShape w'.tree ∧
      ((o.skipExisting && b.lists l) = true → items.any ((Table.grammar o.pattern.rule).lists l) = true →
        nodes.any (Table.nodeTypes.lists l) = true → w'.tree = w.tree) := by
  have hversion := htools o.generator.version (by simp)
  have hgenerate := htools o.generator.generate (by simp)
  have hstatus := htools o.status (by simp)
  match hu : (updateSource layout o l).run box layout.root w with
  | (.error f, w₁) =>
    obtain ⟨-, -, hs⟩ := addLanguage_fails box layout o l w hu
    exact absurd (h.source_step hp (by simp [hroom]) hopen hs).1 (by simp)
  | (.ok source, w₁) =>
  obtain ⟨hl, hs, s', d, hl', hc⟩ := addLanguage_goesOn box layout o l w hu
  obtain ⟨hsource, hready, hshape, hsame⟩ := h.source_step hp (by simp [hroom]) hopen hs
  have hroom₁ := hl.room hroom
  have hmade : (made box layout o (w.tools, w₁.tree)).2.2 = w₁.tree :=
    (hgenerate _).2.trans (hversion _).2
  have hartifacts : ∀ {mute r tree d}, ¬ mute → Reconciling layout o l mute w₁.tree r tree d → _ := fun hm hr =>
    hready.artifacts_step hm (fun ha => (hopen' ha).of_sameShape hshape) (fun ha => (hopen'' ha).of_sameShape hshape) hr
  match hrun : (addLanguage layout o l).run box layout.root w with
  | (r, w') =>
  rw [hrun] at hc hl'
  cases hc with
  | missing hv => exact absurd hv (hversion.versionOf _ _)
  | askedUntold hm | madeUntold _ hm | shownUntold _ _ hm => exact absurd hroom₁ hm
  | unmade _ hg => exact absurd hg (hgenerate.verdict _ _)
  | unshown _ _ hs => exact absurd hs (hstatus.verdict _ _)
  | unreconciled _ hr =>
    rw [hmade] at hr
    exact absurd (hartifacts (by simp [hroom₁]) hr).1 (by simp)
  | completed hg hr hs =>
    rw [hmade] at hr
    obtain ⟨hres, hready', hshape', hsame'⟩ := hartifacts (by simp [hroom₁]) hr
    obtain ⟨rfl, rfl⟩ := Prod.mk.inj (Except.ok.inj hres)
    have htree := hl'.tree.trans (hstatus _).2
    refine ⟨_, w', rfl, hl'.room hroom₁, Except.ok.inj hsource, rfl, rfl, ?_, ?_, fun h₁ h₂ h₃ => ?_⟩
    · rw [htree]
      exact hready'
    · rw [htree]
      exact hshape.trans hshape'
    · rw [htree]
      exact (hsame' h₂ h₃).trans (hsame h₁)

end

/-! ## A small repository -/

namespace Sample

open Table (rulesKey membersKey typeKey valueKey)

def layout : Layout := { root := "repo".toList }

def options : Options := { skipExisting := true }

def js : Language := ⟨"js".toList, by decide⟩

def kotlin : Language := ⟨"kotlin".toList, by decide⟩

def block : Choice.Block where
  before := []
  header := "// These are target languages\nlanguageName: (_$) =>\nchoice(\n".toList
  members := [⟨[], "grit".toList, [], ['\n']⟩, ⟨[], js.name, [], ['\n']⟩]
  closing := "),".toList
  after := ['\n']

def items : List Json := [.object [(valueKey, .string js.name)]]

def nodes : List Json := [.object [(typeKey, .string js.name)]]

def document : Json := .object [(rulesKey, .object [(options.pattern.rule, .object [(membersKey, .list items)])])]

/-- A repository that lists one language, in a directory with the mode. -/
def tree (mode : Nat) : Tree where
  here := []
  entries := [
    (["repo".toList], .directory mode),
    (["repo".toList, "grammar.js".toList], .file 0o644 block.render.bytes),
    (["repo".toList, "src".toList], .directory 0o755),
    (["repo".toList, "src".toList, "grammar.json".toList], .file 0o644 (Table.render document).bytes),
    (["repo".toList, "src".toList, "node-types.json".toList], .file 0o644 (Table.render (.list nodes)).bytes)]

def world (mode : Nat) : World Unit := { tree := tree mode, tools := () }

def idle : Toolbox Unit := fun _ _ s => (.ok ⟨true, some 0, [], []⟩, s)

theorem obliging (root : Text) (i : Tool.Invocation) : Obliging idle root i := fun _ => ⟨⟨_, rfl, rfl⟩, rfl⟩

theorem singleLine : options.pattern.SingleLine := ⟨by decide, by decide⟩

theorem wholeNodes : (Json.list nodes).Whole := by simp [nodes, Json.Whole, Json.WholeItems, Json.WholeFields]

theorem holds_nodes : Table.nodeTypes.Holds (Table.render (.list nodes)) (.list nodes) nodes := by
  refine ⟨Json.read_pretty ?_ wholeNodes, rfl⟩
  simp [nodes, Json.Nested, Json.NestedItems, Json.NestedFields, Json.greatestDepth]

set_option maxRecDepth 100000 in
theorem ready {mode : Nat} (h : mode = 0o755 ∨ mode = 0o555) :
    Ready layout options (world mode).tree block document items nodes where
  source := by
    refine ⟨block.render, Tree.readText_eq_ok_iff.2 ?_, by decide⟩
    rcases h with rfl | rfl <;> rfl
  grammar := by
    refine ⟨Table.render document, Tree.readText_eq_ok_iff.2 ?_, Json.read_pretty ?_ ?_, rfl⟩
    · rcases h with rfl | rfl <;> rfl
    · simp [document, items, Json.Nested, Json.NestedItems, Json.NestedFields, Json.greatestDepth]
    · simp [document, items, Json.Whole, Json.WholeItems, Json.WholeFields]
  types := by
    refine ⟨Table.render (.list nodes), Tree.readText_eq_ok_iff.2 ?_, holds_nodes⟩
    rcases h with rfl | rfl <;> rfl
  wholeGrammar := by simp [document, items, Json.Whole, Json.WholeItems, Json.WholeFields]
  wholeNodes := wholeNodes

theorem replaceable {path : Text} (h : path ∈ layout.paths) : (world 0o755).tree.Replaceable path := by
  simp only [Layout.paths, List.mem_cons, List.not_mem_nil, or_false] at h
  rcases h with rfl | rfl | rfl <;> exact ⟨⟨_, rfl⟩, _, rfl⟩

theorem completes (l : Language) : ∃ report w',
    (addLanguage layout options l).run idle layout.root (world 0o755) = (.ok (.completed report), w') := by
  obtain ⟨report, w', hrun, -⟩ := (ready (.inl rfl)).run singleLine (fun i _ => obliging _ i) rfl l
    (fun _ => replaceable (by simp [Layout.paths])) (fun _ => replaceable (by simp [Layout.paths]))
    (fun _ => replaceable (by simp [Layout.paths]))
  exact ⟨report, w', hrun⟩

theorem replace_denied (content : Bytes) :
    ∃ r, (world 0o555).tree.replace layout.sourceFile.path content = .error r := ⟨_, rfl⟩

end Sample

end LanguageRoster
