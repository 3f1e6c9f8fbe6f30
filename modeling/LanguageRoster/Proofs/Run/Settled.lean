import LanguageRoster.Proofs.Artifact.Revision
import LanguageRoster.Proofs.Run.Course
import LanguageRoster.Proofs.Tree.Replaced

/-!
# The files behind each step

* `Settles` : an artifact is brought up to date between two trees, and no file with another text is touched
* `Planned.settles` : an edit that was planned and made settles its artifact
* `Reconciling.settles` : the step on the artifacts settles both, one behind the other, and leaves each grammar source
  alone
* `Sourcing.located`, `Sourcing.readText_iff` : the step on the grammar source leaves a choice, and each artifact alone
-/

namespace LanguageRoster

set_option autoImplicit false

/-- Between the trees `tree` and `tree'`, the artifact at the path got an entry for the language, unless it had one. -/
structure Settles (t : Table) (path : Text) (l : Language) (text : Text) (doc : Json) (items : List Json)
    (tree tree' : Tree) (r : Table.Reconciled) : Prop where
  reads : tree.readText path = .ok text
  holds : t.Holds text doc items
  result : r = if items.any (t.lists l) then .alreadyPresent else .added
  settled : tree'.readText path = .ok (t.settled l text doc items)
  kept : items.any (t.lists l) = true → tree' = tree
  shape : (items.any (t.lists l) = false → ∃ p, tree.canonical? path = some p) → tree.SameShape tree'
  others : ∀ path' other, tree.readText path' = .ok other → other ≠ text → tree'.readBytes path' = tree.readBytes path'

variable {tree tree' : Tree} {layout : Layout} {o : Options} {l : Language} {mute : Prop} {d : List Effect}
variable {g n : Table.Reconciled}

theorem Planned.settles {t : Table} {path : Text} {e : Edit} (hp : Planned tree t path l e)
    (hc : Committed tree e tree') : ∃ text doc items, Settles t path l text doc items tree tree' e.result := by
  obtain ⟨text, ht, hr⟩ := hp.revise
  obtain ⟨doc, items, hd, he⟩ := Table.revise_eq_ok_iff.1 hr
  refine ⟨text, doc, items, ?_⟩
  cases ha : items.any (t.lists l) with
  | true =>
    rw [ha, if_pos rfl] at he
    cases hc with
    | replaced h => exact absurd (he.symm.trans h) (by simp)
    | kept =>
      exact {
        reads := ht
        holds := hd
        result := by simp [Edit.result, he, ha]
        settled := by rw [ht, Table.settled, if_pos ha]
        kept := fun _ => rfl
        shape := fun _ => .refl tree
        others := fun _ _ _ _ => rfl }
  | false =>
    rw [ha, if_neg (by simp)] at he
    cases hc with
    | kept h => exact absurd (h.symm.trans he) (by simp)
    | replaced h hr =>
      obtain rfl := Option.some.inj (h.symm.trans he)
      rw [hp.target] at hr
      exact {
        reads := ht
        holds := hd
        result := by simp [Edit.result, he, ha]
        settled := Tree.readText_replaced ht hr
        kept := fun h => absurd (ha.symm.trans h) (by simp)
        shape := fun hcome => Tree.sameShape_replaced (hcome ha) hr
        others := fun _ _ h' hne => Tree.readBytes_replaced_of_text_ne ht hr h' hne }

theorem Planned.of_readText {t : Table} {path : Text} {e : Edit} (hp : Planned tree t path l e)
    (h : tree'.readText path = tree.readText path) : Planned tree' t path l e :=
  ⟨hp.target, h ▸ hp.revise⟩

/-- Both artifacts are settled. They are different files, and none of them is a grammar source. -/
theorem Reconciling.settles (h : Reconciling layout o l mute tree (.ok (g, n)) tree' d)
    (hw : ∀ text doc, tree.readText layout.jsonFile.path = .ok text → Json.read text = .ok doc → doc.Whole) :
    ∃ mid text doc items text' doc' items',
      Settles (.grammar o.pattern.rule) layout.jsonFile.path l text doc items tree mid g ∧
      Settles .nodeTypes layout.nodeFile.path l text' doc' items' mid tree' n ∧
      mid.readBytes layout.nodeFile.path = tree.readBytes layout.nodeFile.path ∧
      tree'.readBytes layout.jsonFile.path = mid.readBytes layout.jsonFile.path ∧
      ∀ path other b, tree.readText path = .ok other → Choice.locate o.pattern other = .ok b →
        tree'.readBytes path = tree.readBytes path := by
  cases h with
  | both hp he hn =>
  rename_i mid
  obtain ⟨text, doc, items, hs⟩ := hp.grammar.settles he
  -- the text of the node types is none of a grammar, so the first edit has not touched it
  obtain ⟨text', ht', hr'⟩ := hp.nodes.revise
  obtain ⟨_, _, hd', -⟩ := Table.revise_eq_ok_iff.1 hr'
  have hne : text' ≠ text := by
    rintro rfl
    exact hs.holds.apart hd'
  have hmid := hs.others _ _ ht' hne
  obtain ⟨text'', doc', items', hs'⟩ := (hp.nodes.of_readText (Tree.readText_congr hmid)).settles hn
  obtain rfl : text'' = text' := Except.ok.inj (hs'.reads.symm.trans ((Tree.readText_congr hmid).trans ht'))
  -- and the other way round for the second one
  have hset := hs.holds.settled (hw _ _ hs.reads hs.holds.read) l
  refine ⟨mid, text, doc, items, text'', doc', items', hs, hs', hmid, hs'.others _ _ hs.settled ?_, ?_⟩
  · intro h
    exact hset.apart (h ▸ hd')
  · intro path other b ho hb
    have hfirst := hs.others path other ho fun h => hs.holds.not_located (h ▸ hb)
    rw [hs'.others path other ((Tree.readText_congr hfirst).trans ho) fun h => hd'.not_located (h ▸ hb), hfirst]

/-! ## The grammar source -/

section

variable {source : SourceEdit}

/-- The choice behind the step on the grammar source. -/
theorem Sourcing.located (hp : o.pattern.SingleLine) (h : Sourcing layout o l mute tree (.ok source) tree' d) :
    ∃ text b text' b', tree.readText layout.sourceFile.path = .ok text ∧ Choice.locate o.pattern text = .ok b ∧
      tree'.readText layout.sourceFile.path = .ok text' ∧ Choice.locate o.pattern text' = .ok b' ∧
      (source = .inserted → b' = b.insert l) ∧ (source = .alreadyListed → text' = text ∧ b'.lists l = true) := by
  cases h with
  | listed ht hb hl =>
    rw [Bool.and_eq_true] at hl
    exact ⟨_, _, _, _, ht, hb, ht, hb, by simp, fun _ => ⟨rfl, hl.2⟩⟩
  | inserted ht hb hl hr =>
    exact ⟨_, _, _, _, ht, hb, Tree.readText_replaced ht hr, Choice.locate_insert hp hb l, fun _ => rfl, by simp⟩

/-- The step on the grammar source touches no artifact. -/
theorem Sourcing.readText_iff (hp : o.pattern.SingleLine) (h : Sourcing layout o l mute tree (.ok source) tree' d)
    {t : Table} {path text : Text} {doc : Json} {items : List Json} (hd : t.Holds text doc items) :
    tree'.readText path = .ok text ↔ tree.readText path = .ok text := by
  cases h with
  | listed => rfl
  | inserted ht hb hl hr =>
    constructor
    · intro h'
      refine (Tree.readText_back ht hr h').resolve_right ?_
      rintro rfl
      exact absurd (Choice.locate_insert hp hb l) hd.not_located
    · intro h'
      rw [Tree.readText_congr (Tree.readBytes_replaced_of_text_ne ht hr h' fun h => hd.not_located (h ▸ hb)), h']

end

end LanguageRoster
