import LanguageRoster.Proofs.Run.Ready

/-!
# Complete runs

* `Reconciles` : what a complete run guarantees about an artifact, between two trees
* `behindSource`, `behindGenerator` : the world behind the step on the grammar source, and the tree as the generator
  left it
* `addLanguage_completed` : the guarantees of a complete run about all three files
-/

namespace LanguageRoster

set_option autoImplicit false

/-- The artifact at the path lists the language in the tree `after`. If it was added, the list is that of the tree
`before` with one entry more, the only one of the language, and with the old list in place of the new one the document
is the old one. If it was present, the file is the same. -/
structure Reconciles (t : Table) (path : Text) (l : Language) (before after : Tree) (r : Table.Reconciled) : Prop where
  listed : ∃ text doc items, after.readText path = .ok text ∧ t.Holds text doc items ∧ ∃ e ∈ items, t.lists l e = true
  added : r = .added → ∃ text doc items text' doc',
    before.readText path = .ok text ∧ t.Holds text doc items ∧
    after.readText path = .ok text' ∧ t.Holds text' doc' (items ++ [t.entry l]) ∧
    (items ++ [t.entry l]).filter (t.lists l) = [t.entry l] ∧ t.withEntries items doc' = doc
  present : r = .alreadyPresent → after.readBytes path = before.readBytes path

variable {σ : Type} {layout : Layout} {o : Options} {l : Language}

theorem Settles.reconciles {t : Table} {path text : Text} {doc : Json} {items : List Json} {tree tree' : Tree}
    {r : Table.Reconciled} (h : Settles t path l text doc items tree tree' r) (hw : doc.Whole) :
    Reconciles t path l tree tree' r where
  listed := ⟨_, _, _, h.settled, h.holds.settled hw l, List.any_eq_true.1 (Table.any_joined l)⟩
  added hr := by
    have ha : items.any (t.lists l) = false := by
      have := h.result
      cases ha : items.any (t.lists l) <;> simp_all
    have hs := h.holds.settled hw l
    rw [Table.joined_of_not_any ha] at hs
    refine ⟨text, doc, items, _, _, h.reads, h.holds, h.settled, hs, ?_, ?_⟩
    · rw [List.filter_append, List.filter_eq_nil_iff.2 (List.any_eq_false.1 ha)]
      simp [Table.lists_entry_iff]
    · rw [Table.withEntries_withEntries, Table.withEntries_entries h.holds.entries]
  present hr := by
    have ha : items.any (t.lists l) = true := by
      have := h.result
      cases ha : items.any (t.lists l) <;> simp_all
    rw [h.kept ha]

theorem Reconciles.of_readBytes {t : Table} {path : Text} {before before' after after' : Tree} {r : Table.Reconciled}
    (h : Reconciles t path l before after r) (hb : before'.readBytes path = before.readBytes path)
    (ha : after'.readBytes path = after.readBytes path) : Reconciles t path l before' after' r where
  listed := by rw [Tree.readText_congr ha]; exact h.listed
  added hr := by rw [Tree.readText_congr ha, Tree.readText_congr hb]; exact h.added hr
  present hr := by rw [ha, hb]; exact h.present hr

section

variable (box : Toolbox σ) (layout : Layout) (o : Options) (l : Language) (w : World σ)

/-- The world behind the step on the grammar source. -/
def behindSource : World σ := ((updateSource layout o l).run box layout.root w).2

/-- The tree as the generator left it. -/
def behindGenerator : Tree :=
  (made box layout o ((behindSource box layout o l w).tools, (behindSource box layout o l w).tree)).2.2

end

/-- A complete run has brought the language into both artifacts as the generator left them, and, unless a tool has
changed it, into the grammar source. -/
theorem addLanguage_completed (box : Toolbox σ) (layout : Layout) (o : Options) (l : Language) (w : World σ)
    (hp : o.pattern.SingleLine) (hstatus : ∀ s, (box layout.root o.status s).2.2 = s.2)
    (hwhole : ∀ path ∈ [layout.jsonFile.path, layout.nodeFile.path], ∀ text doc,
      (behindGenerator box layout o l w).readText path = .ok text → Json.read text = .ok doc → doc.Whole)
    {report : Report} {w' : World σ}
    (hrun : (addLanguage layout o l).run box layout.root w = (.ok (.completed report), w')) :
    Reconciles (.grammar o.pattern.rule) layout.jsonFile.path l (behindGenerator box layout o l w) w'.tree
      report.grammarJson ∧
    Reconciles .nodeTypes layout.nodeFile.path l (behindGenerator box layout o l w) w'.tree report.nodeTypes ∧
    ((behindGenerator box layout o l w).readBytes layout.sourceFile.path =
        (behindSource box layout o l w).tree.readBytes layout.sourceFile.path →
      ∃ text b text' b', w.tree.readText layout.sourceFile.path = .ok text ∧ Choice.locate o.pattern text = .ok b ∧
        w'.tree.readText layout.sourceFile.path = .ok text' ∧ Choice.locate o.pattern text' = .ok b' ∧
        b'.lists l = true ∧ (report.source = .inserted → b' = b.insert l ∧ b'.values = b.values ++ [l.name]) ∧
        (report.source = .alreadyListed → text' = text)) := by
  obtain ⟨w₁, hu, ht, hs, hg, tree, d, hr, htree⟩ := of_completed box layout o l w hrun
  have hsource : behindSource box layout o l w = w₁ := by rw [behindSource, hu]
  have hgen : (made box layout o (w.tools, w₁.tree)).2.2 = behindGenerator box layout o l w := by
    rw [behindGenerator, hsource, ht]
  rw [hgen] at hr
  obtain rfl : w'.tree = tree := htree.trans (hstatus _)
  obtain ⟨mid, text, doc, items, text', doc', items', hj, hn, hmid, hend, hothers⟩ :=
    hr.settles (hwhole _ (by simp))
  refine ⟨?_, ?_, fun hkept => ?_⟩
  · exact (hj.reconciles (hwhole _ (by simp) _ _ hj.reads hj.holds.read)).of_readBytes rfl hend
  · have ht' := (Tree.readText_congr hmid).symm.trans hn.reads
    exact (hn.reconciles (hwhole _ (by simp) _ _ ht' hn.holds.read)).of_readBytes hmid.symm rfl
  · rw [hsource] at hkept
    obtain ⟨before, b, after, b', hb, hlb, ha, hla, hins, hlist⟩ := hs.located hp
    have hend := hothers _ _ _ ((Tree.readText_congr hkept).trans ha) hla
    refine ⟨before, b, after, b', hb, hlb, ?_, hla, ?_, fun hi => ?_, fun hi => (hlist hi).1⟩
    · rw [Tree.readText_congr hend, Tree.readText_congr hkept, ha]
    · match hk : report.source with
      | .inserted => rw [hins hk, Choice.Block.lists, Choice.values_insert]; simp
      | .alreadyListed => exact (hlist hk).2
    · exact ⟨hins hi, by rw [hins hi, Choice.values_insert]⟩

/-- In the small repository, the run for a new language is such a run. -/
theorem addLanguage_completed_kotlin : ∃ report w',
    (addLanguage Sample.layout Sample.options Sample.kotlin).run Sample.idle Sample.layout.root (Sample.world 0o755) =
      (.ok (.completed report), w') ∧
    Reconciles (.grammar Sample.options.pattern.rule) Sample.layout.jsonFile.path Sample.kotlin
      (behindGenerator Sample.idle Sample.layout Sample.options Sample.kotlin (Sample.world 0o755)) w'.tree
      report.grammarJson ∧
    Reconciles .nodeTypes Sample.layout.nodeFile.path Sample.kotlin
      (behindGenerator Sample.idle Sample.layout Sample.options Sample.kotlin (Sample.world 0o755)) w'.tree
      report.nodeTypes ∧
    ∃ text b, w'.tree.readText Sample.layout.sourceFile.path = .ok text ∧
      Choice.locate Sample.options.pattern text = .ok b ∧ b.lists Sample.kotlin = true := by
  have h := Sample.ready (.inl rfl)
  obtain ⟨report, w', hrun⟩ := Sample.completes Sample.kotlin
  obtain ⟨w₁, hu, -, hs, -⟩ := of_completed _ _ _ _ _ hrun
  have hready := (h.source_step Sample.singleLine (by simp [Sample.world])
    (fun _ => Sample.replaceable (by simp [Layout.paths])) hs).2.1
  have hsource : behindSource Sample.idle Sample.layout Sample.options Sample.kotlin (Sample.world 0o755) = w₁ := by
    rw [behindSource, hu]
  have hgen :
      behindGenerator Sample.idle Sample.layout Sample.options Sample.kotlin (Sample.world 0o755) = w₁.tree := by
    rw [behindGenerator, hsource]
    rfl
  obtain ⟨hg, hn, hc⟩ := addLanguage_completed Sample.idle Sample.layout Sample.options Sample.kotlin
    (Sample.world 0o755) Sample.singleLine (fun _ => rfl) (by rw [hgen]; exact hready.whole) hrun
  obtain ⟨-, -, text, b, -, -, ht, hb, hl, -⟩ := hc (by rw [hgen, hsource])
  exact ⟨report, w', hrun, hg, hn, text, b, ht, hb, hl⟩

end LanguageRoster
