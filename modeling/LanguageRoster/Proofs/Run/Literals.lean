import LanguageRoster.Proofs.Json.Outline
import LanguageRoster.Proofs.Run.ArtifactLog

/-!
# The literal of a language

An entry is taken for a language's by one of its fields. Entries that are no literals can have this field too: a type
with a name, or a pattern.

* `Table.IsLiteral` : the entry is a literal of the grammar, or the type of a literal
* `Table.entries_of_outline`, `Table.lists_of_outline`, `Table.isLiteral_of_outline` : neither the list nor the literals
  of a document depend on its numbers
* `literal_or_namesake` : behind a step that brings a language into an artifact, the artifact has an entry that is
  taken for the language's; this is its literal if the step added it, or if the literal was there before
* `not_literal` : it need not be the literal if the step found the language present
-/

namespace LanguageRoster

set_option autoImplicit false

namespace Table

/-- The entry is the literal of the language: a literal of the grammar with its name as the value, or a type without
a name of its own. -/
def IsLiteral (t : Table) (l : Language) (e : Json) : Prop :=
  match t with
  | .grammar _ =>
    e.field? typeKey = some (.string ['S', 'T', 'R', 'I', 'N', 'G']) ∧ e.field? valueKey = some (.string l.name)
  | .nodeTypes => e.field? typeKey = some (.string l.name) ∧ e.field? namedKey = some (.bool false)

variable {t : Table} {l : Language} {e e' doc doc' : Json} {items : List Json}

instance : (t : Table) → (l : Language) → (e : Json) → Decidable (t.IsLiteral l e)
  | .grammar _, _, _ => inferInstanceAs (Decidable (_ ∧ _))
  | .nodeTypes, _, _ => inferInstanceAs (Decidable (_ ∧ _))

theorem IsLiteral.lists (h : t.IsLiteral l e) : t.lists l e = true := by
  rw [lists_iff]
  cases t with
  | grammar => exact h.2
  | nodeTypes => exact h.1

/-- A new entry is the literal of its language. -/
theorem isLiteral_entry : t.IsLiteral l (t.entry l) := by
  cases t <;> exact ⟨rfl, rfl⟩

/-! ## Documents that differ in their numbers -/

theorem field?_eq_of_outline (h : e'.outline = e.outline) (key : Text) {v : Json}
    (hv : ∀ u : Json, u.outline = v ↔ u = v) : e'.field? key = some v ↔ e.field? key = some v := by
  have outline_iff : ∀ u : Json, u.field? key = some v ↔ u.outline.field? key = some v := by
    intro u
    rw [Json.field?_outline, Option.map_eq_some_iff]
    simp only [hv, exists_eq_right]
  rw [outline_iff e', outline_iff e, h]

theorem lists_of_outline (h : e'.outline = e.outline) : t.lists l e' = true ↔ t.lists l e = true := by
  rw [lists_iff, lists_iff, field?_eq_of_outline h _ fun _ => Json.outline_eq_string]

theorem isLiteral_of_outline (h : e'.outline = e.outline) : t.IsLiteral l e' ↔ t.IsLiteral l e := by
  have text := fun key name => field?_eq_of_outline h key fun _ => Json.outline_eq_string (t := name)
  have flag := fun key b => field?_eq_of_outline h key fun _ => Json.outline_eq_bool (b := b)
  cases t with
  | grammar => exact and_congr (text ..) (text ..)
  | nodeTypes => exact and_congr (text ..) (flag ..)

theorem entries_outline (h : t.entries doc = .ok items) : t.entries doc.outline = .ok (items.map Json.outline) := by
  cases t with
  | nodeTypes =>
    obtain rfl := entries_nodeTypes_iff.1 h
    rw [Json.outline, Json.outlineItems_eq, entries]
  | grammar rule =>
    obtain ⟨rules, body, hr, hb, hm⟩ := entries_grammar_iff.1 h
    refine entries_grammar_iff.2 ⟨rules.outline, body.outline, ?_, ?_, ?_⟩
    · rw [Json.field?_outline, hr, Option.map_some]
    · rw [Json.field?_outline, hb, Option.map_some]
    · rw [Json.field?_outline, hm, Option.map_some, Json.outline, Json.outlineItems_eq]

theorem entries_of_outline {items' : List Json} (h : doc'.outline = doc.outline) (hd : t.entries doc = .ok items)
    (hd' : t.entries doc' = .ok items') : items'.map Json.outline = items.map Json.outline :=
  Except.ok.inj ((entries_outline hd').symm.trans (h ▸ entries_outline hd))

/-- What does not depend on numbers holds of an entry of both lists or of none. -/
theorem exists_mem_of_outline {items' : List Json} {P : Json → Prop}
    (h : items'.map Json.outline = items.map Json.outline)
    (hP : ∀ {e e' : Json}, e'.outline = e.outline → (P e' ↔ P e)) : (∃ e ∈ items', P e) ↔ ∃ e ∈ items, P e := by
  have half : ∀ {as bs : List Json}, as.map Json.outline = bs.map Json.outline → (∃ e ∈ as, P e) → ∃ e ∈ bs, P e := by
    rintro as bs h ⟨e, he, hp⟩
    obtain ⟨e', he', heq⟩ := List.mem_map.1 (h ▸ List.mem_map_of_mem he)
    exact ⟨e', he', (hP heq).2 hp⟩
  exact ⟨half h, half h.symm⟩

theorem Holds.of_added {text : Text} {items' : List Json} (h : t.Holds text doc items)
    (h' : t.Holds (render (t.withEntries (items ++ [t.entry l]) doc)) doc' items') :
    items'.map Json.outline = (items ++ [t.entry l]).map Json.outline :=
  entries_of_outline
    (Json.outline_of_read_pretty (nested_add h.entries (Json.nested_of_read h.read) l) h'.read)
    (entries_withEntries h.entries _) h'.entries

end Table

variable {σ : Type} {t : Table} {path : Text} {w : World σ} {l : Language}

/-! ## What the step leaves -/

/-- Behind a step that brings a language into an artifact, the artifact has an entry that is taken for the
language's. If none was there, the step has added its literal at the end of the list and changed nothing else. If one
was there, the artifact is as before, and so it has the literal if it had it: an entry with the same name, be it a
type with a name of its own or a pattern, is enough to keep the literal out. -/
theorem literal_or_namesake (box : Toolbox σ) (root : Text) (t : Table) (path : Text) (l : Language) (w : World σ)
    (r : Table.Reconciled) (h : (bring box root t path l w).1 = .ok r) :
    ∃ text doc items, w.tree.readText path = .ok text ∧ t.Holds text doc items ∧
      (r = .alreadyPresent ↔ ∃ e ∈ items, t.lists l e = true) ∧
      (r = .alreadyPresent → (bring box root t path l w).2.tree = w.tree) ∧
      (r = .added → ∃ doc', t.entries doc' = .ok (items ++ [t.entry l]) ∧ t.IsLiteral l (t.entry l) ∧
        Json.ChangedAt (.list items) (.list (items ++ [t.entry l])) t.keys doc doc' ∧
        (bring box root t path l w).2.tree.readText path = .ok (Table.render doc') ∧
        (doc.Whole → t.Holds (Table.render doc') doc' (items ++ [t.entry l]))) ∧
      ∀ text' doc' items', (bring box root t path l w).2.tree.readText path = .ok text' →
        t.Holds text' doc' items' → (∃ e ∈ items', t.lists l e = true) ∧
          ((∃ e ∈ items', t.IsLiteral l e) ↔ r = .added ∨ ∃ e ∈ items, t.IsLiteral l e) := by
  rw [bring] at h ⊢
  obtain ⟨e, hp, hc, rfl⟩ := edit_of_reconcile (Prod.ext h rfl)
  obtain ⟨text, doc, items, hs⟩ := hp.settles hc
  refine ⟨text, doc, items, hs.reads, hs.holds, ?_⟩
  have hresult := hs.result
  have hreads := hs.settled
  cases hany : items.any (t.lists l) with
  | true =>
    rw [hany, if_pos rfl] at hresult
    have hmem : ∃ e ∈ items, t.lists l e = true := List.any_eq_true.1 hany
    refine ⟨by simp [hresult, hmem], fun _ => hs.kept hany, by simp [hresult], ?_⟩
    intro text' doc' items' ht' hd'
    -- the file is as before
    rw [hs.kept hany] at ht'
    obtain rfl := Except.ok.inj (hs.reads.symm.trans ht')
    obtain ⟨rfl, rfl⟩ := hs.holds.unique hd'
    exact ⟨hmem, by simp [hresult]⟩
  | false =>
    rw [hany, if_neg (by simp)] at hresult
    rw [Table.settled, hany, if_neg (by simp), Table.joined_of_not_any hany] at hreads
    have hnone : ¬ ∃ e ∈ items, t.lists l e = true := by
      rw [← List.any_eq_true, hany]
      simp
    refine ⟨by simp [hresult, hnone], by simp [hresult], fun _ => ?_, ?_⟩
    · refine ⟨_, Table.entries_withEntries hs.holds.entries _, Table.isLiteral_entry,
        t.changedAt_withEntries hs.holds.entries _, hreads, fun hw => ?_⟩
      have hset := hs.holds.settled hw l
      rwa [Table.settled, hany, if_neg (by simp), Table.joined_of_not_any hany] at hset
    · intro text' doc' items' ht' hd'
      obtain rfl := Except.ok.inj (hreads.symm.trans ht')
      have hlist := hs.holds.of_added hd'
      have hlast : t.entry l ∈ items ++ [t.entry l] := by simp
      refine ⟨?_, ?_⟩
      · exact (Table.exists_mem_of_outline hlist Table.lists_of_outline).2
          ⟨_, hlast, Table.lists_entry_iff.2 rfl⟩
      · rw [Table.exists_mem_of_outline hlist Table.isLiteral_of_outline]
        exact ⟨fun _ => .inl hresult, fun _ => ⟨_, hlast, Table.isLiteral_entry⟩⟩

/-- On the small shelf, the literal of `kotlin` is added behind the type `js`. -/
theorem literal_or_namesake_kotlin :
    (bring Sample.idle [] .nodeTypes Sample.shelfPath Sample.kotlin (Sample.shelf 0o755)).1 = .ok .added ∧
    ∃ text doc items, (bring Sample.idle [] .nodeTypes Sample.shelfPath Sample.kotlin
        (Sample.shelf 0o755)).2.tree.readText Sample.shelfPath = .ok text ∧ Table.nodeTypes.Holds text doc items ∧
      ∃ e ∈ items, Table.nodeTypes.IsLiteral Sample.kotlin e := by
  have hadded : (bring Sample.idle [] .nodeTypes Sample.shelfPath Sample.kotlin (Sample.shelf 0o755)).1 =
      .ok .added := by decide +kernel
  obtain ⟨text, doc, items, ht, hd, -, -, hnew, -⟩ := literal_or_namesake Sample.idle [] .nodeTypes Sample.shelfPath
    Sample.kotlin (Sample.shelf 0o755) .added hadded
  obtain ⟨doc', -, hlit, -, hreads, hholds⟩ := hnew rfl
  -- all numbers of the shelf are integers, since it has none
  obtain ⟨text', ht', hd'⟩ := (Sample.stands (.inl rfl)).holds
  obtain rfl := Except.ok.inj (ht.symm.trans ht')
  obtain ⟨rfl, rfl⟩ := hd.unique hd'
  exact ⟨hadded, _, doc', _, hreads, hholds Sample.wholeNodes, _, by simp, hlit⟩

/-- An artifact that has an entry with the name of the language, but not its literal, is left without the literal. -/
theorem Table.Holds.literal_missing {text : Text} {doc : Json} {items : List Json} (box : Toolbox σ) (root path : Text)
    (l : Language) (hd : t.Holds text doc items) (ht : w.tree.readText path = .ok text)
    (hany : items.any (t.lists l) = true) (hnot : ∀ e ∈ items, ¬ t.IsLiteral l e) :
    (LanguageRoster.bring box root t path l w).1 = .ok .alreadyPresent ∧
      ∀ text' doc' items', (LanguageRoster.bring box root t path l w).2.tree.readText path = .ok text' →
        t.Holds text' doc' items' → ∀ e ∈ items', ¬ t.IsLiteral l e := by
  obtain ⟨r, hr, hs⟩ := hd.bring box root l ht fun h => absurd (hany.symm.trans h) (by simp)
  refine ⟨by rw [hr, hs.result, hany, if_pos rfl], fun text' doc' items' ht' hd' => ?_⟩
  rw [hs.kept hany] at ht'
  obtain rfl := Except.ok.inj (ht.symm.trans ht')
  obtain ⟨rfl, rfl⟩ := hd.unique hd'
  exact hnot

namespace Sample

def namedTypes : List Json := [.object [(Table.typeKey, .string kotlin.name), (Table.namedKey, .bool true)]]

def patterns : List Json :=
  [.object [(Table.typeKey, .string "PATTERN".toList), (Table.valueKey, .string kotlin.name)]]

def patternGrammar : Json :=
  .object [(Table.rulesKey, .object [(options.pattern.rule, .object [(Table.membersKey, .list patterns)])])]

def shelfOf (doc : Json) : World Unit where
  tree := {
    here := []
    entries := [
      (["repo".toList], .directory 0o755),
      (["repo".toList, "node-types.json".toList], .file 0o644 (Table.render doc).bytes)] }
  tools := ()

theorem holds_namedTypes : Table.nodeTypes.Holds (Table.render (.list namedTypes)) (.list namedTypes) namedTypes := by
  refine ⟨Json.read_pretty ?_ ?_, rfl⟩
  · simp [namedTypes, Json.Nested, Json.NestedItems, Json.NestedFields, Json.greatestDepth, Table.typeKey,
      Table.namedKey]
  · simp [namedTypes, Json.Whole, Json.WholeItems, Json.WholeFields]

theorem holds_patterns :
    (Table.grammar options.pattern.rule).Holds (Table.render patternGrammar) patternGrammar patterns := by
  refine ⟨Json.read_pretty ?_ ?_, rfl⟩
  · simp [patternGrammar, patterns, Json.Nested, Json.NestedItems, Json.NestedFields, Json.greatestDepth,
      Table.typeKey, Table.valueKey]
  · simp [patternGrammar, patterns, Json.Whole, Json.WholeItems, Json.WholeFields]

end Sample

set_option maxRecDepth 100000 in
/-- The step can succeed and leave the literal out: a type with a name, or a pattern, with the name of the language is
taken for it. -/
theorem not_literal :
    (¬ ∀ (path : Text) (l : Language) (w : World Unit) (r : Table.Reconciled),
      (bring Sample.idle [] .nodeTypes path l w).1 = .ok r →
      ∃ text doc items, (bring Sample.idle [] .nodeTypes path l w).2.tree.readText path = .ok text ∧
        Table.nodeTypes.Holds text doc items ∧ ∃ e ∈ items, Table.nodeTypes.IsLiteral l e) ∧
    ¬ ∀ (rule path : Text) (l : Language) (w : World Unit) (r : Table.Reconciled),
      (bring Sample.idle [] (.grammar rule) path l w).1 = .ok r →
      ∃ text doc items, (bring Sample.idle [] (.grammar rule) path l w).2.tree.readText path = .ok text ∧
        (Table.grammar rule).Holds text doc items ∧ ∃ e ∈ items, (Table.grammar rule).IsLiteral l e := by
  constructor
  · intro hall
    obtain ⟨hr, hnone⟩ := Sample.holds_namedTypes.literal_missing Sample.idle [] Sample.shelfPath Sample.kotlin
      (w := Sample.shelfOf (.list Sample.namedTypes)) (Tree.readText_eq_ok_iff.2 rfl) (by decide) (by decide)
    obtain ⟨text, doc, items, ht, hd, e, he, hlit⟩ := hall _ _ _ _ hr
    exact hnone text doc items ht hd e he hlit
  · intro hall
    obtain ⟨hr, hnone⟩ := Sample.holds_patterns.literal_missing Sample.idle [] Sample.shelfPath Sample.kotlin
      (w := Sample.shelfOf Sample.patternGrammar) (Tree.readText_eq_ok_iff.2 rfl) (by decide) (by decide)
    obtain ⟨text, doc, items, ht, hd, e, he, hlit⟩ := hall _ _ _ _ _ hr
    exact hnone text doc items ht hd e he hlit

end LanguageRoster
