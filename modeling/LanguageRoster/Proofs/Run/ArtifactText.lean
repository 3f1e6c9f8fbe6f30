import LanguageRoster.Proofs.Artifact.Splice
import LanguageRoster.Proofs.Run.ArtifactLog

/-!
# The text of an artifact with a new entry

A language that is brought into an artifact in the layout of the generator changes its text by one insertion.

* `Table.Laid` : the file at a path is a document of the table in the layout of the generator
* `Laid.bring`, `Laid.behind` : so it is behind a step that brings a language into it, and behind any number of them
* `entry_spliced_in` : the step inserts the entry behind the others, and no other character changes
* `not_entry_spliced_in` : it need not if the file cannot be read, or its directory takes no new files
-/

namespace LanguageRoster

set_option autoImplicit false

open Json (Nested Whole greatestDepth prettyAt listHead listTail newItem)

/-- The file at the path is the document in the layout of the generator. -/
structure Table.Laid (t : Table) (tree : Tree) (path : Text) (doc : Json) (items : List Json) : Prop where
  reads : tree.readText path = .ok (Table.render doc)
  nested : Nested greatestDepth doc
  whole : Whole doc
  entries : t.entries doc = .ok items

variable {σ : Type} {t : Table} {tree : Tree} {path : Text} {doc : Json} {items : List Json} {l : Language}

theorem Table.Laid.holds (h : t.Laid tree path doc items) : t.Holds (Table.render doc) doc items :=
  ⟨Json.read_pretty h.nested h.whole, h.entries⟩

theorem Table.Laid.bring {w : World σ} (box : Toolbox σ) (root : Text) (h : t.Laid w.tree path doc items)
    (hnew : items.any (t.lists l) = false) (hroom : w.tree.HasRoom path) :
    (bring box root t path l w).1 = .ok .added ∧
      t.Laid (bring box root t path l w).2.tree path (t.withEntries (items ++ [t.entry l]) doc)
        (items ++ [t.entry l]) ∧
      (w.tree.Replaceable path → (bring box root t path l w).2.tree.Replaceable path) := by
  obtain ⟨r, hr, hs⟩ := h.holds.bring box root l h.reads fun _ => hroom
  have hreads := hs.settled
  have hresult := hs.result
  rw [Table.settled, hnew, if_neg (by simp), Table.joined_of_not_any hnew] at hreads
  rw [hnew, if_neg (by simp)] at hresult
  rw [hr, hresult]
  exact ⟨rfl, {
    reads := hreads
    nested := Table.nested_add h.entries h.nested l
    whole := Table.whole_add h.entries h.whole l
    entries := Table.entries_withEntries h.entries _ }, fun hopen => hopen.of_sameShape (hs.shape fun _ => hopen.1)⟩

/-- Languages that are brought into the artifact one after another leave it in the layout of the generator, and leave
all of its text, in the same order. -/
theorem Table.Laid.behind {w : World σ} (box : Toolbox σ) (root : Text) (h : t.Laid w.tree path doc items)
    (hopen : w.tree.Replaceable path) (ls : List Language) :
    ∃ doc' items', t.Laid (LanguageRoster.behind (LanguageRoster.bring box root t path) w ls).tree path doc' items' ∧
      (Table.render doc).Sublist (Table.render doc') := by
  induction ls generalizing w doc items with
  | nil => exact ⟨doc, items, h, .refl _⟩
  | cons l ls ih =>
    cases hl : items.any (t.lists l) with
    | true =>
      obtain ⟨r, -, hs⟩ := h.holds.bring box root l h.reads fun _ => hopen.2
      rw [← hs.kept hl] at h hopen
      exact ih h hopen
    | false =>
      obtain ⟨-, hlaid, hstill⟩ := h.bring box root hl hopen.2
      obtain ⟨doc', items', hlaid', hsub⟩ := ih hlaid (hstill hopen)
      exact ⟨doc', items', hlaid', (Table.render_sublist_snoc h.entries (t.entry l)).trans hsub⟩

/-- A new entry is brought into an artifact in the layout of the generator by one insertion into its text. The text
around its list stays; in the list, the entry comes behind a comma, right after the last of the others, or between the
two brackets. The artifact is then in the same layout again, with the entry at the end of its list. -/
theorem entry_spliced_in (box : Toolbox σ) (root : Text) (t : Table) (path : Text) (l : Language) (w : World σ)
    (doc : Json) (items : List Json) (h : t.Laid w.tree path doc items) (hnew : items.any (t.lists l) = false)
    (hroom : w.tree.HasRoom path) :
    (bring box root t path l w).1 = .ok .added ∧
    t.Laid (bring box root t path l w).2.tree path (t.withEntries (items ++ [t.entry l]) doc)
      (items ++ [t.entry l]) ∧
    (w.tree.Replaceable path → (bring box root t path l w).2.tree.Replaceable path) ∧
    ∃ start finish,
      (∀ list, Table.render (t.withEntries list doc) = start ++ prettyAt t.keys.length (.list list) ++ finish) ∧
      w.tree.readText path =
        .ok (start ++ listHead t.keys.length items ++ (listTail t.keys.length items ++ finish)) ∧
      (bring box root t path l w).2.tree.readText path =
        .ok (start ++ listHead t.keys.length items ++ newItem t.keys.length (t.entry l) items ++
          (listTail t.keys.length items ++ finish)) ∧
      ∀ init last, items = init ++ [last] →
        ∃ head, listHead t.keys.length items = head ++ prettyAt (t.keys.length + 1) last := by
  obtain ⟨hadded, hlaid, hstill⟩ := h.bring box root hnew hroom
  obtain ⟨start, finish, hsetting⟩ := Table.exists_setting h.entries
  refine ⟨hadded, hlaid, hstill, start, finish, hsetting, ?_, ?_, ?_⟩
  · rw [h.reads, ← Table.withEntries_entries h.entries, hsetting, Json.prettyAt_list]
    simp only [List.append_assoc]
  · rw [hlaid.reads, hsetting, Json.prettyAt_snoc]
    simp only [List.append_assoc]
  · rintro init last rfl
    exact Json.listHead_snoc t.keys.length init last

namespace Sample

theorem nestedNodes : Nested greatestDepth (.list nodes) := by
  simp [nodes, Nested, Json.NestedItems, Json.NestedFields, greatestDepth]

theorem laid : Table.nodeTypes.Laid (shelf 0o755).tree shelfPath (.list nodes) nodes where
  reads := Tree.readText_eq_ok_iff.2 rfl
  nested := nestedNodes
  whole := wholeNodes
  entries := rfl

/-- The shelf with its list closed to readers. -/
def closedShelf : World Unit where
  tree := (shelf 0o755).tree.put ["repo".toList, "node-types.json".toList]
    (.file 0o200 (Table.render (.list nodes)).bytes)
  tools := ()

end Sample

set_option maxRecDepth 100000 in
/-- On the small shelf, the entry for `kotlin` comes right behind the one for `js`. -/
theorem entry_spliced_in_kotlin :
    (bring Sample.idle [] .nodeTypes Sample.shelfPath Sample.kotlin (Sample.shelf 0o755)).1 = .ok .added ∧
    ∃ before after, (Sample.shelf 0o755).tree.readText Sample.shelfPath =
        .ok (before ++ "  \x7b\n    \"type\": \"js\"\n  \x7d".toList ++ after) ∧
      (bring Sample.idle [] .nodeTypes Sample.shelfPath Sample.kotlin (Sample.shelf 0o755)).2.tree.readText
        Sample.shelfPath = .ok (before ++ "  \x7b\n    \"type\": \"js\"\n  \x7d".toList ++
          ",\n  \x7b\n    \"type\": \"kotlin\",\n    \"named\": false\n  \x7d".toList ++ after) := by
  obtain ⟨hadded, -, -, start, finish, -, hold, hnew, -⟩ := entry_spliced_in Sample.idle [] .nodeTypes
    Sample.shelfPath Sample.kotlin (Sample.shelf 0o755) (.list Sample.nodes) Sample.nodes Sample.laid (by decide)
    Sample.shelf_replaceable.2
  have hhead : listHead Table.nodeTypes.keys.length Sample.nodes =
      ['[', '\n'] ++ "  \x7b\n    \"type\": \"js\"\n  \x7d".toList := by decide +kernel
  have hitem : newItem Table.nodeTypes.keys.length (Table.nodeTypes.entry Sample.kotlin) Sample.nodes =
      ",\n  \x7b\n    \"type\": \"kotlin\",\n    \"named\": false\n  \x7d".toList := by decide +kernel
  rw [hhead] at hold
  rw [hhead, hitem] at hnew
  refine ⟨hadded, start ++ ['[', '\n'], listTail Table.nodeTypes.keys.length Sample.nodes ++ finish, ?_, ?_⟩
  · rw [hold]
    simp only [List.append_assoc]
  · rw [hnew]
    simp only [List.append_assoc]

/-- No file has its old content with something inserted. -/
theorem not_inserted {tree tree' : Tree} {p : Place} {mode mode' : Nat} {before piece after : Text}
    (h : tree.FileAt path p mode (before ++ after).bytes)
    (h' : tree'.FileAt path p mode' (before ++ piece ++ after).bytes)
    (hsame : tree'.get? p = tree.get? p) : piece = [] := by
  have hentry := h'.entry.symm.trans (hsame.trans h.entry)
  simp only [Option.some.injEq, Entry.file.injEq] at hentry
  have hlength := congrArg List.length (Text.bytes_inj hentry.2)
  simp only [List.length_append] at hlength
  exact List.length_eq_zero_iff.1 (by omega)

/-- That the file can be read has to be said, and that its directory takes new files: where one of both is not so, an
artifact in the layout of the generator stays as it is. -/
theorem not_entry_spliced_in :
    (¬ ∀ (t : Table) (path : Text) (l : Language) (w : World Unit) (p : Place) (mode : Nat) (doc : Json)
      (items : List Json), w.tree.FileAt path p mode (Table.render doc).bytes → Nested greatestDepth doc → Whole doc →
      t.entries doc = .ok items → items.any (t.lists l) = false → mayRead mode = true →
      ∃ before after, Table.render doc = before ++ after ∧ (bring Sample.idle [] t path l w).2.tree.FileAt path p mode
        (before ++ newItem t.keys.length (t.entry l) items ++ after).bytes) ∧
    ¬ ∀ (t : Table) (path : Text) (l : Language) (w : World Unit) (p : Place) (mode : Nat) (doc : Json)
      (items : List Json), w.tree.FileAt path p mode (Table.render doc).bytes → Nested greatestDepth doc → Whole doc →
      t.entries doc = .ok items → items.any (t.lists l) = false → w.tree.Replaceable path →
      ∃ before after, Table.render doc = before ++ after ∧ (bring Sample.idle [] t path l w).2.tree.FileAt path p mode
        (before ++ newItem t.keys.length (t.entry l) items ++ after).bytes := by
  constructor
  · intro hall
    have hfile : (Sample.shelf 0o555).tree.FileAt Sample.shelfPath ["repo".toList, "node-types.json".toList] 0o644
        (Table.render (.list Sample.nodes)).bytes := ⟨rfl, rfl⟩
    obtain ⟨before, after, hold, hnew⟩ := hall .nodeTypes Sample.shelfPath Sample.kotlin (Sample.shelf 0o555) _ _
      (.list Sample.nodes) Sample.nodes hfile Sample.nestedNodes Sample.wholeNodes rfl (by decide) (by decide)
    rw [hold] at hfile
    exact Json.newItem_ne_nil _ _ _ (not_inserted hfile hnew (by decide +kernel))
  · intro hall
    have hfile : Sample.closedShelf.tree.FileAt Sample.shelfPath ["repo".toList, "node-types.json".toList] 0o200
        (Table.render (.list Sample.nodes)).bytes := ⟨rfl, rfl⟩
    obtain ⟨before, after, hold, hnew⟩ := hall .nodeTypes Sample.shelfPath Sample.kotlin Sample.closedShelf _ _
      (.list Sample.nodes) Sample.nodes hfile Sample.nestedNodes Sample.wholeNodes rfl (by decide)
      ⟨⟨_, rfl⟩, _, rfl⟩
    rw [hold] at hfile
    exact Json.newItem_ne_nil _ _ _ (not_inserted hfile hnew (by decide +kernel))

end LanguageRoster
