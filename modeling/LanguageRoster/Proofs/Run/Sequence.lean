import LanguageRoster.Proofs.Run.Ready

/-!
# One run after another

* `runAll` : the world behind runs for several languages
* `Ready.runAll` : a repository that is ready stays so, and its lists grow run by run
* `ready_of_completed` : where one run is complete, the repository was ready
* `runAll_in_step` : the three files keep in step over any number of runs
* `not_runAll_completed` : they need not if a directory takes no new files
-/

namespace LanguageRoster

set_option autoImplicit false

variable {σ : Type} {box : Toolbox σ} {layout : Layout} {o : Options}
variable {b : Choice.Block} {doc : Json} {items nodes : List Json}

/-- The world behind runs for the languages, one after another. -/
def runAll (box : Toolbox σ) (layout : Layout) (o : Options) (w : World σ) (ls : List Language) : World σ :=
  ls.foldl (fun w l => ((addLanguage layout o l).run box layout.root w).2) w

/-! ## Lists -/

namespace Choice.Block

theorem lists_eq_any (b : Block) (l : Language) : b.lists l = b.values.any fun v => l.name == v := by
  rw [lists, List.contains_eq_any_beq]

theorem values_joined_true (b : Block) (l : Language) :
    (b.joined true l).values = enroll (fun l v => l.name == v) Language.name b.values l := by
  rw [joined, enroll, Bool.true_and, lists_eq_any]
  split
  · rfl
  · exact values_insert l b

theorem values_joined_false (b : Block) (l : Language) : (b.joined false l).values = b.values ++ [l.name] :=
  values_insert l b

theorem values_foldl_true (b : Block) (ls : List Language) :
    (ls.foldl (joined true) b).values = ls.foldl (enroll (fun l v => l.name == v) Language.name) b.values := by
  induction ls generalizing b with
  | nil => rfl
  | cons l ls ih => rw [List.foldl_cons, ih, values_joined_true, List.foldl_cons]

theorem values_foldl_false (b : Block) (ls : List Language) :
    (ls.foldl (joined false) b).values = b.values ++ ls.map Language.name := by
  induction ls generalizing b with
  | nil => simp
  | cons l ls ih => rw [List.foldl_cons, ih, values_joined_false]; simp

end Choice.Block

theorem name_item (l m : Language) : ((l.name == m.name) = true) ↔ m = l := by
  rw [beq_iff_eq, Language.ext_iff_name, eq_comm]

theorem entry_item (t : Table) (l m : Language) : t.lists l (t.entry m) = true ↔ m = l := by
  rw [Table.lists_entry_iff, Language.ext_iff_name]

theorem Table.foldl_joined (t : Table) (items : List Json) (ls : List Language) : ls.foldl t.joined items =
    items ++ (ls.eraseDups.filter fun l => !items.any (t.lists l)).map t.entry :=
  foldl_enroll (entry_item t) items ls

theorem Table.any_foldl_joined_iff (t : Table) (items : List Json) (ls : List Language) {l : Language} :
    (ls.foldl t.joined items).any (t.lists l) = true ↔ items.any (t.lists l) = true ∨ l ∈ ls := by
  have h : (ls.foldl t.joined items).any (t.lists l) = _ := any_foldl_enroll (entry_item t) items ls l
  rw [h, Bool.or_eq_true, decide_eq_true_iff]

theorem Table.any_foldl_joined (t : Table) (items : List Json) (ls : List Language) {l : Language} (hl : l ∈ ls) :
    (ls.foldl t.joined items).any (t.lists l) = true := (t.any_foldl_joined_iff items ls).2 (.inr hl)

theorem Choice.Block.lists_foldl (b : Choice.Block) (ls : List Language) {l : Language} (hl : l ∈ ls) :
    (ls.foldl (joined true) b).lists l = true := by
  rw [lists_eq_any, values_foldl_true, any_foldl_enroll name_item]
  simp [hl]

/-! ## Runs -/

/-- The lists grow run by run. -/
theorem Ready.runAll {w : World σ} (h : Ready layout o w.tree b doc items nodes) (hp : o.pattern.SingleLine)
    (htools : ∀ i ∈ [o.generator.version, o.generator.generate, o.status], Obliging box layout.root i)
    (hroom : w.room = none) (hopen : ∀ path ∈ layout.paths, w.tree.Replaceable path) (ls : List Language) :
    (runAll box layout o w ls).room = none ∧
      (∀ path ∈ layout.paths, (runAll box layout o w ls).tree.Replaceable path) ∧
      Ready layout o (runAll box layout o w ls).tree (ls.foldl (Choice.Block.joined o.skipExisting) b)
        ((Table.grammar o.pattern.rule).withEntries (ls.foldl (Table.grammar o.pattern.rule).joined items) doc)
        (ls.foldl (Table.grammar o.pattern.rule).joined items) (ls.foldl Table.nodeTypes.joined nodes) := by
  induction ls generalizing w b doc items nodes with
  | nil =>
    obtain ⟨_, -, hd⟩ := h.grammar
    refine ⟨hroom, hopen, ?_⟩
    simp only [List.foldl_nil]
    rw [Table.withEntries_entries hd.entries]
    exact h
  | cons l ls ih =>
    obtain ⟨report, w', hrun, hroom', -, -, -, hready, hshape, -⟩ := h.run hp htools hroom l
      (fun _ => hopen _ (by simp [Layout.paths])) (fun _ => hopen _ (by simp [Layout.paths]))
      (fun _ => hopen _ (by simp [Layout.paths]))
    have := ih hready hroom' fun path hp => (hopen path hp).of_sameShape hshape
    rw [Table.withEntries_withEntries] at this
    rw [LanguageRoster.runAll, List.foldl_cons, hrun]
    exact this

theorem ready_of_completed {w w' : World σ} {l : Language} {report : Report}
    (hp : o.pattern.SingleLine)
    (htools : ∀ i ∈ [o.generator.version, o.generator.generate, o.status], Obliging box layout.root i)
    (hwhole : ∀ path ∈ [layout.jsonFile.path, layout.nodeFile.path], ∀ text doc,
      w.tree.readText path = .ok text → Json.read text = .ok doc → doc.Whole)
    (hrun : (addLanguage layout o l).run box layout.root w = (.ok (.completed report), w')) :
    ∃ b doc items nodes, Ready layout o w.tree b doc items nodes := by
  obtain ⟨w₁, -, -, hs, -, tree, d, hr, -⟩ := of_completed box layout o l w hrun
  have hmade : (made box layout o (w.tools, w₁.tree)).2.2 = w₁.tree :=
    (htools o.generator.generate (by simp) _).2.trans (htools o.generator.version (by simp) _).2
  rw [hmade] at hr
  obtain ⟨text, c, -, -, ht, hb, -⟩ := hs.located hp
  obtain ⟨e, n, hplan⟩ := hr.plans
  obtain ⟨gtext, hg, hgr⟩ := hplan.grammar.revise
  obtain ⟨doc, items, hgd, -⟩ := Table.revise_eq_ok_iff.1 hgr
  obtain ⟨ntext, hn, hnr⟩ := hplan.nodes.revise
  obtain ⟨ndoc, nodes, hnd, -⟩ := Table.revise_eq_ok_iff.1 hnr
  have hg := (hs.readText_iff hp hgd).1 hg
  have hn := (hs.readText_iff hp hnd).1 hn
  obtain rfl := Table.entries_nodeTypes_iff.1 hnd.entries
  exact ⟨c, doc, items, nodes, {
    source := ⟨text, ht, hb⟩
    grammar := ⟨gtext, hg, hgd⟩
    types := ⟨ntext, hn, hnd⟩
    wholeGrammar := hwhole _ (by simp) _ _ hg hgd.read
    wholeNodes := hwhole _ (by simp) _ _ hn hnd.read }⟩

/-- A first run that is complete is followed by complete runs only. Behind all of them, each list is the one before the
first run, with the languages that it lacked in the order of their first occurrence; the grammar source has all
languages unless those that it lists are skipped. Where they are, a run for a language that had one changes nothing. -/
theorem runAll_in_step (box : Toolbox σ) (layout : Layout) (o : Options) (w : World σ) (l : Language)
    (more : List Language) (hp : o.pattern.SingleLine)
    (htools : ∀ i ∈ [o.generator.version, o.generator.generate, o.status], Obliging box layout.root i)
    (hroom : w.room = none)
    (hwhole : ∀ path ∈ [layout.jsonFile.path, layout.nodeFile.path], ∀ text doc,
      w.tree.readText path = .ok text → Json.read text = .ok doc → doc.Whole)
    (hopen : ∀ path ∈ layout.paths, w.tree.Replaceable path)
    (hfirst : ∃ report w', (addLanguage layout o l).run box layout.root w = (.ok (.completed report), w')) :
    (∀ before m after, l :: more = before ++ m :: after → ∃ report w',
      (addLanguage layout o m).run box layout.root (runAll box layout o w before) = (.ok (.completed report), w') ∧
      (o.skipExisting = true → m ∈ before → w'.tree = (runAll box layout o w before).tree ∧
        report.source = .alreadyListed ∧ report.grammarJson = .alreadyPresent ∧ report.nodeTypes = .alreadyPresent)) ∧
    ∃ b doc items nodes b',
      Ready layout o w.tree b doc items nodes ∧
      Ready layout o (runAll box layout o w (l :: more)).tree b'
        ((Table.grammar o.pattern.rule).withEntries (items ++ ((l :: more).eraseDups.filter fun m =>
          !items.any ((Table.grammar o.pattern.rule).lists m)).map (Table.grammar o.pattern.rule).entry) doc)
        (items ++ ((l :: more).eraseDups.filter fun m =>
          !items.any ((Table.grammar o.pattern.rule).lists m)).map (Table.grammar o.pattern.rule).entry)
        (nodes ++ ((l :: more).eraseDups.filter fun m =>
          !nodes.any (Table.nodeTypes.lists m)).map Table.nodeTypes.entry) ∧
      b'.values = if o.skipExisting then
          b.values ++ ((l :: more).eraseDups.filter fun m => !b.lists m).map Language.name
        else b.values ++ (l :: more).map Language.name := by
  obtain ⟨_, _, hfirst⟩ := hfirst
  obtain ⟨b, doc, items, nodes, h⟩ := ready_of_completed hp htools hwhole hfirst
  constructor
  · intro before m after _
    obtain ⟨hroom', hopen', h'⟩ := h.runAll hp htools hroom hopen before
    obtain ⟨report, w', hrun, -, hs, hg, hn, -, -, hsame⟩ := h'.run hp htools hroom' m
      (fun _ => hopen' _ (by simp [Layout.paths])) (fun _ => hopen' _ (by simp [Layout.paths]))
      (fun _ => hopen' _ (by simp [Layout.paths]))
    refine ⟨report, w', hrun, fun hskip hm => ?_⟩
    have hb : (o.skipExisting && (before.foldl (Choice.Block.joined o.skipExisting) b).lists m) = true := by
      rw [hskip, Choice.Block.lists_foldl b before hm]
      rfl
    have hgm := (Table.grammar o.pattern.rule).any_foldl_joined items before hm
    have hnm := Table.nodeTypes.any_foldl_joined nodes before hm
    exact ⟨hsame hb hgm hnm, hs.trans (if_pos hb), hg.trans (if_pos hgm), hn.trans (if_pos hnm)⟩
  · obtain ⟨-, -, h'⟩ := h.runAll hp htools hroom hopen (l :: more)
    rw [Table.foldl_joined, Table.foldl_joined] at h'
    refine ⟨b, doc, items, nodes, _, h, h', ?_⟩
    cases o.skipExisting with
    | true =>
      rw [if_pos rfl, Choice.Block.values_foldl_true, foldl_enroll name_item]
      simp only [Choice.Block.lists_eq_any]
    | false => rw [if_neg (by simp), Choice.Block.values_foldl_false]

/-- In the small repository, runs for `kotlin`, `js` and again `kotlin` are such runs, and leave one more language. -/
theorem runAll_in_step_kotlin :
    (∀ before m after, [Sample.kotlin, Sample.js, Sample.kotlin] = before ++ m :: after → ∃ report w',
      (addLanguage Sample.layout Sample.options m).run Sample.idle Sample.layout.root
        (runAll Sample.idle Sample.layout Sample.options (Sample.world 0o755) before) =
          (.ok (.completed report), w')) ∧
    ∃ b doc items nodes, b.values = ["grit".toList, Sample.js.name, Sample.kotlin.name] ∧
      Ready Sample.layout Sample.options (runAll Sample.idle Sample.layout Sample.options (Sample.world 0o755)
        [Sample.kotlin, Sample.js, Sample.kotlin]).tree b doc items nodes := by
  have h := Sample.ready (.inl rfl)
  obtain ⟨hruns, b, doc, items, nodes, b', hr, hr', hv⟩ := runAll_in_step Sample.idle Sample.layout Sample.options
    (Sample.world 0o755) Sample.kotlin [Sample.js, Sample.kotlin] Sample.singleLine
    (fun i _ => Sample.obliging _ i) rfl h.whole (fun _ => Sample.replaceable) (Sample.completes _)
  refine ⟨fun before m after hm => ?_, b', _, _, _, ?_, hr'⟩
  · obtain ⟨report, w', hrun, -⟩ := hruns before m after hm
    exact ⟨report, w', hrun⟩
  · obtain ⟨text, ht, hb⟩ := h.source
    obtain ⟨text', ht', hb'⟩ := hr.source
    obtain rfl := Except.ok.inj (ht.symm.trans ht')
    obtain rfl := Except.ok.inj (hb.symm.trans hb')
    rw [hv]
    decide

/-- That the directories take new files has to be said: where that of the grammar source does not, a run for a language
that is listed is complete, and a run for another one behind it is not. -/
theorem not_runAll_completed : ¬ ∀ (layout : Layout) (o : Options) (w : World Unit) (l : Language)
    (more : List Language), o.pattern.SingleLine →
    (∀ i ∈ [o.generator.version, o.generator.generate, o.status], Obliging Sample.idle layout.root i) →
    w.room = none →
    (∀ path ∈ [layout.jsonFile.path, layout.nodeFile.path], ∀ text doc,
      w.tree.readText path = .ok text → Json.read text = .ok doc → doc.Whole) →
    (∃ report w', (addLanguage layout o l).run Sample.idle layout.root w = (.ok (.completed report), w')) →
    ∀ before m after, l :: more = before ++ m :: after → ∃ report w',
      (addLanguage layout o m).run Sample.idle layout.root (runAll Sample.idle layout o w before) =
        (.ok (.completed report), w') := by
  intro hall
  have h := Sample.ready (.inr rfl)
  obtain ⟨report, w', hrun, -, -, -, -, -, -, hsame⟩ := h.run Sample.singleLine (fun i _ => Sample.obliging _ i) rfl
    Sample.js (fun hb => absurd hb (by decide)) (fun ha => absurd ha (by decide)) (fun ha => absurd ha (by decide))
  have hsame := hsame (by decide) (by decide) (by decide)
  obtain ⟨report', w'', hrun'⟩ := hall Sample.layout Sample.options (Sample.world 0o555) Sample.js [Sample.kotlin]
    Sample.singleLine (fun i _ => Sample.obliging _ i) rfl h.whole ⟨report, w', hrun⟩ [Sample.js] Sample.kotlin [] rfl
  obtain ⟨w₁, -, -, hs, -⟩ := of_completed _ _ _ _ _ hrun'
  rw [runAll, List.foldl_cons, List.foldl_nil, hrun, hsame] at hs
  obtain ⟨text, ht, hb⟩ := h.source
  have hdenied := Sample.replace_denied
  generalize report'.source = source, (Sample.world 0o555).tree = tree at ht hs hdenied
  cases hs with
  | listed ht' hb' hl =>
    obtain rfl := Except.ok.inj (ht.symm.trans ht')
    obtain rfl := Except.ok.inj (hb.symm.trans hb')
    exact absurd hl (by decide)
  | inserted ht' hb' hl hr =>
    obtain ⟨r, hr'⟩ := hdenied _
    exact absurd (hr'.symm.trans hr) (by simp)

end LanguageRoster
