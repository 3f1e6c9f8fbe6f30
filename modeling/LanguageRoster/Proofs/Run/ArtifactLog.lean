import LanguageRoster.Proofs.Run.Sequence
import LanguageRoster.Proofs.Run.Series

/-!
# Languages brought into one artifact

An artifact that languages are brought into one after another loses nothing and gets no entry twice.

* `Table.Stands` : the file at a path is an artifact of the table
* `bring` : the step that brings one language into it; `Holds.bring` and `Stands.bring` say what the step does
* `Answered`, `Recorded` : what one step reports, and what the steps so far have made of the artifact
* `artifact_logs_additions` : any series of steps succeeds, and adds an entry for each language that was not there
* `not_artifact_logs_additions` : it need not if the directory takes no new files
-/

namespace LanguageRoster

set_option autoImplicit false

/-- The file at the path is an artifact of the table, with this document and list. All its numbers are integers. -/
structure Table.Stands (t : Table) (tree : Tree) (path : Text) (doc : Json) (items : List Json) : Prop where
  holds : ∃ text, tree.readText path = .ok text ∧ t.Holds text doc items
  whole : doc.Whole

variable {σ : Type} {box : Toolbox σ} {root : Text} {t : Table} {path : Text} {w : World σ}
variable {doc : Json} {items : List Json} {l : Language}

def bring (box : Toolbox σ) (root : Text) (t : Table) (path : Text) (l : Language) (w : World σ) :
    Except Failure Table.Reconciled × World σ := (reconcile t path l).run box root w

/-! ## One step -/

theorem Table.Holds.bring {text : Text} (box : Toolbox σ) (root : Text) (l : Language) (hd : t.Holds text doc items)
    (ht : w.tree.readText path = .ok text) (hroom : items.any (t.lists l) = false → w.tree.HasRoom path) :
    ∃ r, (bring box root t path l w).1 = .ok r ∧
      Settles t path l text doc items w.tree (bring box root t path l w).2.tree r := by
  have hdoes : (reconcile t path l).Does box root True (w.tools, w.tree) _ := reconcile_does
  obtain ⟨s', d, hl, hr⟩ := hdoes w rfl rfl fun _ => trivial
  rw [LanguageRoster.bring, hl.tree]
  generalize ((reconcile t path l).run box root w).1 = r at hr
  match r with
  | .error f =>
    obtain ⟨-, hf | ⟨e, hp, hf⟩⟩ := hr
    · exact absurd hf (not_unusable ht hd)
    · exact absurd hf (not_uncommitted id hp ht hd hroom)
  | .ok x =>
    obtain ⟨e, hp, hc, rfl⟩ := hr
    obtain ⟨text', doc', items', hs⟩ := hp.settles hc
    obtain rfl := Except.ok.inj (ht.symm.trans hs.reads)
    obtain ⟨rfl, rfl⟩ := hd.unique hs.holds
    exact ⟨e.result, rfl, hs⟩

/-- The step succeeds, brings the language into the list, and changes no file if the language is in it. -/
theorem Table.Stands.bring (box : Toolbox σ) (root : Text) (l : Language) (h : t.Stands w.tree path doc items)
    (hopen : items.any (t.lists l) = false → w.tree.Replaceable path) :
    (bring box root t path l w).1 = .ok (if items.any (t.lists l) then .alreadyPresent else .added) ∧
      t.Stands (bring box root t path l w).2.tree path (t.withEntries (t.joined items l) doc) (t.joined items l) ∧
      w.tree.SameShape (bring box root t path l w).2.tree ∧
      (items.any (t.lists l) = true → (bring box root t path l w).2.tree = w.tree) := by
  obtain ⟨text, ht, hd⟩ := h.holds
  obtain ⟨r, hr, hs⟩ := hd.bring box root l ht fun ha => (hopen ha).2
  exact ⟨by rw [hr, hs.result], ⟨⟨_, hs.settled, hd.settled h.whole l⟩, Table.whole_joined hd.entries h.whole l⟩,
    hs.shape fun ha => (hopen ha).1, hs.kept⟩

/-! ## Series of steps -/

/-- What a step reports that comes behind the steps `past` on an artifact with the list `items`. -/
structure Answered (t : Table) (items : List Json)
    (past : List (Turn Language (Except Failure Table.Reconciled) (World σ)))
    (step : Turn Language (Except Failure Table.Reconciled) (World σ)) : Prop where
  present : step.result = .ok .alreadyPresent ↔
    items.any (t.lists step.asked) = true ∨ step.asked ∈ past.map Turn.asked
  added : step.result = .ok .added ↔ ¬ (items.any (t.lists step.asked) = true ∨ step.asked ∈ past.map Turn.asked)
  kept : step.result = .ok .alreadyPresent → step.after.tree = step.before.tree

/-- What the steps `past` have made of an artifact with this document and list. -/
structure Recorded (t : Table) (path : Text) (doc : Json) (items : List Json)
    (past : List (Turn Language (Except Failure Table.Reconciled) (World σ))) (w : World σ) : Prop where
  stands : t.Stands w.tree path (t.withEntries ((past.map Turn.asked).foldl t.joined items) doc)
    ((past.map Turn.asked).foldl t.joined items)
  replaceable : w.tree.Replaceable path
  log : (past.map Turn.asked).foldl t.joined items = items ++ (reported (.ok .added) past).map t.entry

section

variable {past : List (Turn Language (Except Failure Table.Reconciled) (World σ))}

theorem Recorded.answered (box : Toolbox σ) (root : Text) (l : Language) (h : Recorded t path doc items past w) :
    Answered t items past (turn (bring box root t path) w l) := by
  obtain ⟨hr, -, -, hsame⟩ := h.stands.bring box root l fun _ => h.replaceable
  have hany := t.any_foldl_joined_iff items (past.map Turn.asked) (l := l)
  constructor
  · rw [turn_result, turn_asked, ← hany, hr]
    simp
  · rw [turn_result, turn_asked, ← hany, hr]
    simp
  · rw [turn_result, turn_after, turn_before, hr]
    exact fun h => hsame (by simpa using h)

theorem Recorded.concat (box : Toolbox σ) (root : Text) (l : Language) (h : Recorded t path doc items past w) :
    Recorded t path doc items (past ++ [turn (bring box root t path) w l]) (bring box root t path l w).2 := by
  obtain ⟨hr, hstands, hshape, -⟩ := h.stands.bring box root l fun _ => h.replaceable
  have hlist : ((past ++ [turn (LanguageRoster.bring box root t path) w l]).map Turn.asked).foldl t.joined items =
      t.joined ((past.map Turn.asked).foldl t.joined items) l := by
    rw [List.map_append, List.foldl_append]
    rfl
  rw [Table.withEntries_withEntries] at hstands
  refine ⟨by rwa [hlist], h.replaceable.of_sameShape hshape, ?_⟩
  rw [hlist]
  cases hl : ((past.map Turn.asked).foldl t.joined items).any (t.lists l) with
  | true =>
    rw [hl, if_pos rfl] at hr
    have hne : (turn (LanguageRoster.bring box root t path) w l).result ≠ .ok .added := fun h =>
      absurd (hr.symm.trans h) (by simp)
    rw [Table.joined_of_any hl, h.log, reported_concat_of_ne hne]
  | false =>
    rw [hl, if_neg (by simp)] at hr
    have hadded : reported (.ok .added) (past ++ [turn (LanguageRoster.bring box root t path) w l]) = _ :=
      reported_concat hr
    rw [Table.joined_of_not_any hl, h.log, hadded, List.map_append, List.append_assoc]
    rfl

end

/-- Languages that are brought into an artifact one after another all get there. Those that it lists, or that were
asked for before, are reported as present, and no file is changed for them. The others are reported as added, and
behind all of them the artifact is the document that it was, with their entries at the end of its list. -/
theorem artifact_logs_additions (box : Toolbox σ) (root : Text) (t : Table) (path : Text) (w : World σ) (doc : Json)
    (items : List Json) (ls : List Language) (h : t.Stands w.tree path doc items) (hopen : w.tree.Replaceable path) :
    (∀ past step rest, turns (bring box root t path) w ls = past ++ step :: rest → Answered t items past step) ∧
    ∃ doc' items', items' = items ++ (reported (.ok .added) (turns (bring box root t path) w ls)).map t.entry ∧
      t.Stands (behind (bring box root t path) w ls).tree path doc' items' ∧
      Json.ChangedAt (.list items) (.list items') t.keys doc doc' ∧
      ∀ l ∈ ls, ∃ e ∈ items', t.lists l e = true := by
  obtain ⟨text, -, hd⟩ := h.holds
  have start : Recorded t path doc items [] w :=
    ⟨by simpa [Table.withEntries_entries hd.entries] using h, hopen, by simp [reported]⟩
  obtain ⟨hrec, hall⟩ := series_induction start
    (fun past v l hrec => ⟨hrec.concat box root l, hrec.answered box root l⟩) ls
  obtain ⟨hstands, -, hlog⟩ := hrec
  rw [map_asked_turns] at hstands hlog
  exact ⟨hall, _, _, hlog, hstands, t.changedAt_withEntries hd.entries _,
    fun l hl => List.any_eq_true.1 (t.any_foldl_joined items ls hl)⟩

namespace Sample

def shelfPath : Text := "repo/node-types.json".toList

/-- A list of node types, in a directory with the mode. -/
def shelf (mode : Nat) : World Unit where
  tree := {
    here := []
    entries := [
      (["repo".toList], .directory mode),
      (["repo".toList, "node-types.json".toList], .file 0o644 (Table.render (.list nodes)).bytes)] }
  tools := ()

set_option maxRecDepth 100000 in
theorem stands {mode : Nat} (h : mode = 0o755 ∨ mode = 0o555) :
    Table.nodeTypes.Stands (shelf mode).tree shelfPath (.list nodes) nodes where
  holds := by
    refine ⟨_, Tree.readText_eq_ok_iff.2 ?_, holds_nodes⟩
    rcases h with rfl | rfl <;> rfl
  whole := wholeNodes

theorem shelf_replaceable : (shelf 0o755).tree.Replaceable shelfPath :=
  ⟨⟨_, rfl⟩, _, rfl⟩

end Sample

/-- On the small shelf, `kotlin` is added once, and `js` is there. -/
theorem artifact_logs_additions_kotlin :
    (turns (bring Sample.idle [] .nodeTypes Sample.shelfPath) (Sample.shelf 0o755)
      [Sample.kotlin, Sample.js, Sample.kotlin]).map Turn.result =
        [.ok .added, .ok .alreadyPresent, .ok .alreadyPresent] ∧
    ∃ doc, Table.nodeTypes.Stands (behind (bring Sample.idle [] .nodeTypes Sample.shelfPath) (Sample.shelf 0o755)
      [Sample.kotlin, Sample.js, Sample.kotlin]).tree Sample.shelfPath doc
        (Sample.nodes ++ [Table.nodeTypes.entry Sample.kotlin]) := by
  have hruns : (turns (bring Sample.idle [] .nodeTypes Sample.shelfPath) (Sample.shelf 0o755)
      [Sample.kotlin, Sample.js, Sample.kotlin]).map Turn.result =
        [.ok .added, .ok .alreadyPresent, .ok .alreadyPresent] ∧
      reported (.ok .added) (turns (bring Sample.idle [] .nodeTypes Sample.shelfPath) (Sample.shelf 0o755)
        [Sample.kotlin, Sample.js, Sample.kotlin]) = [Sample.kotlin] := by decide +kernel
  obtain ⟨hresults, hlog⟩ := hruns
  obtain ⟨-, doc, items, hitems, hstands, -⟩ := artifact_logs_additions Sample.idle [] .nodeTypes Sample.shelfPath
    (Sample.shelf 0o755) (.list Sample.nodes) Sample.nodes [Sample.kotlin, Sample.js, Sample.kotlin]
    (Sample.stands (.inl rfl)) Sample.shelf_replaceable
  rw [hlog] at hitems
  exact ⟨hresults, doc, hitems ▸ hstands⟩

/-- That the directory takes new files has to be said: where it does not, an artifact can be read, and no language
that it lacks can be brought into it. -/
theorem not_artifact_logs_additions : ¬ ∀ (t : Table) (path : Text) (w : World Unit) (doc : Json) (items : List Json)
    (ls : List Language), t.Stands w.tree path doc items →
    ∀ step ∈ turns (bring Sample.idle [] t path) w ls, ∃ r, step.result = .ok r := by
  intro hall
  obtain ⟨r, hr⟩ := hall .nodeTypes Sample.shelfPath (Sample.shelf 0o555) (.list Sample.nodes) Sample.nodes
    [Sample.kotlin] (Sample.stands (.inr rfl)) (turn _ _ Sample.kotlin) List.mem_cons_self
  rw [turn_result] at hr
  have hdenied : ∀ r, (bring Sample.idle [] .nodeTypes Sample.shelfPath Sample.kotlin (Sample.shelf 0o555)).1 ≠
      .ok r := by
    rintro ⟨⟩ <;> decide +kernel
  exact hdenied r hr

end LanguageRoster
