import LanguageRoster.Artifact.Table
import LanguageRoster.Proofs.Json.Shape

/-!
# The list of a table

A document is its list in a setting that no change to the list touches.

* `field?_update`, `update_update`, `update_self` : fields of a document, changed and looked up
* `ChangedAt`, `Table.changedAt_withEntries` : documents that differ in one place only
* `Table.entries_withEntries`, `Table.withEntries_withEntries`, `Table.withEntries_entries` : the same for the list of
  a table
* `Table.nested_add`, `Table.whole_add` : a new entry keeps a document nested and whole
* `Table.entries_apart` : no document is one of both tables
-/

namespace LanguageRoster

set_option autoImplicit false

namespace Json

/-! ## Fields -/

section

variable {key : Text} {f g : Json → Json}

theorem lookup_updateField (fields : List (Text × Json)) :
    (updateField key f fields).lookup key = (fields.lookup key).map f := by
  induction fields with
  | nil => rfl
  | cons x fields ih =>
    obtain ⟨k, v⟩ := x
    rw [updateField]
    split
    · next h => simp [h]
    · next h => simp [List.lookup_cons, beq_false_of_ne (Ne.symm h), ih]

theorem updateField_updateField (fields : List (Text × Json)) :
    updateField key g (updateField key f fields) = updateField key (g ∘ f) fields := by
  induction fields with
  | nil => rfl
  | cons x fields ih =>
    obtain ⟨k, v⟩ := x
    by_cases h : k = key <;> simp [updateField, h, ih]

theorem updateField_congr {fields : List (Text × Json)} {v : Json} (h : fields.lookup key = some v)
    (hv : f v = g v) : updateField key f fields = updateField key g fields := by
  induction fields with
  | nil => rfl
  | cons x fields ih =>
    obtain ⟨k, w⟩ := x
    by_cases hk : k = key
    · subst hk
      obtain rfl : w = v := by simpa [List.lookup_cons] using h
      simp [updateField, hv]
    · have h : fields.lookup key = some v := by simpa [List.lookup_cons, beq_false_of_ne (Ne.symm hk)] using h
      simp [updateField, hk, ih h]

theorem updateField_id (fields : List (Text × Json)) : updateField key id fields = fields := by
  induction fields with
  | nil => rfl
  | cons x fields ih =>
    obtain ⟨k, v⟩ := x
    by_cases h : k = key <;> simp [updateField, h, ih]

@[simp] theorem keys_updateField (fields : List (Text × Json)) :
    (updateField key f fields).map Prod.fst = fields.map Prod.fst := by
  induction fields with
  | nil => rfl
  | cons x fields ih =>
    obtain ⟨k, v⟩ := x
    by_cases h : k = key <;> simp [updateField, h, ih]

/-- Each field is an old one, or the changed one. -/
theorem mem_updateField {fields : List (Text × Json)} {x : Text × Json} (h : x ∈ updateField key f fields) :
    x ∈ fields ∨ ∃ v, fields.lookup key = some v ∧ x = (key, f v) := by
  induction fields with
  | nil => exact absurd h (by simp [updateField])
  | cons y fields ih =>
    obtain ⟨k, v⟩ := y
    by_cases hk : k = key
    · subst hk
      simp only [updateField, if_true, List.mem_cons] at h
      rcases h with rfl | h
      · exact .inr ⟨v, by simp, rfl⟩
      · exact .inl (List.mem_cons_of_mem _ h)
    · simp only [updateField, hk, if_false, List.mem_cons] at h
      rcases h with rfl | h
      · exact .inl List.mem_cons_self
      · rcases ih h with h | ⟨v, hv, rfl⟩
        · exact .inl (List.mem_cons_of_mem _ h)
        · exact .inr ⟨v, by simpa [List.lookup_cons, beq_false_of_ne (Ne.symm hk)] using hv, rfl⟩

theorem field?_update (doc : Json) : (doc.update key f).field? key = (doc.field? key).map f := by
  cases doc with
  | object fields => exact lookup_updateField fields
  | _ => rfl

theorem update_update (doc : Json) : (doc.update key f).update key g = doc.update key (g ∘ f) := by
  cases doc with
  | object fields => exact congrArg Json.object (updateField_updateField fields)
  | _ => rfl

theorem update_congr {doc v : Json} (h : doc.field? key = some v) (hv : f v = g v) :
    doc.update key f = doc.update key g := by
  cases doc with
  | object fields => exact congrArg Json.object (updateField_congr h hv)
  | _ => rfl

theorem update_self {doc v : Json} (h : doc.field? key = some v) (hv : f v = v) : doc.update key f = doc := by
  rw [update_congr (g := id) h hv]
  cases doc with
  | object fields => exact congrArg Json.object (updateField_id fields)
  | _ => rfl

/-! ## One place -/

/-- The second document is the first one with `new` for `old` in the place that the keys lead to. All else is the same,
in the same order. -/
inductive ChangedAt (old new : Json) : List Text → Json → Json → Prop where
  | here : ChangedAt old new [] old new
  | field {key : Text} {keys : List Text} {v v' : Json} {before after : List (Text × Json)}
    (hkey : key ∉ before.map Prod.fst) (h : ChangedAt old new keys v v') :
    ChangedAt old new (key :: keys) (.object (before ++ (key, v) :: after)) (.object (before ++ (key, v') :: after))

theorem updateField_append {before after : List (Text × Json)} {v : Json} (hkey : key ∉ before.map Prod.fst) :
    updateField key f (before ++ (key, v) :: after) = before ++ (key, f v) :: after := by
  induction before with
  | nil => simp [updateField]
  | cons x before ih =>
    obtain ⟨k, w⟩ := x
    simp only [List.map_cons, List.mem_cons, not_or] at hkey
    simp [updateField, Ne.symm hkey.1, ih hkey.2]

/-- Where a field stands, and the document with another value in its place. -/
theorem exists_update {doc v : Json} (hv : doc.field? key = some v) :
    ∃ before after, key ∉ before.map Prod.fst ∧ doc = .object (before ++ (key, v) :: after) ∧
      ∀ f, doc.update key f = .object (before ++ (key, f v) :: after) := by
  cases doc with
  | object fields =>
    obtain ⟨before, after, rfl, hkey⟩ := List.lookup_eq_some_iff.1 hv
    have hkey : key ∉ before.map Prod.fst := by
      rintro hmem
      obtain ⟨x, hx, rfl⟩ := List.mem_map.1 hmem
      exact absurd (hkey x hx) (by simp)
    exact ⟨before, after, hkey, rfl, fun f => congrArg Json.object (updateField_append hkey)⟩
  | _ => exact absurd hv (by simp [field?])

theorem ChangedAt.update {old new doc v : Json} {keys : List Text} (hv : doc.field? key = some v)
    (h : ChangedAt old new keys v (f v)) : ChangedAt old new (key :: keys) doc (doc.update key f) := by
  obtain ⟨before, after, hkey, hdoc, hupdate⟩ := exists_update hv
  rw [hupdate, hdoc]
  exact .field hkey h

/-! ## Shape -/

theorem nested_field? {room : Nat} {doc v : Json} (h : Nested room doc) (hv : doc.field? key = some v) :
    Nested (room - 1) v := by
  cases doc with
  | object fields =>
    obtain ⟨_, _, rfl, -⟩ := List.lookup_eq_some_iff.1 hv
    exact nestedFields_iff.1 h.2.2 (key, v) (by simp)
  | _ => exact absurd hv (by simp [field?])

theorem nested_update {room : Nat} {doc : Json} (h : Nested room doc)
    (hf : ∀ v, doc.field? key = some v → Nested (room - 1) (f v)) : Nested room (doc.update key f) := by
  cases doc with
  | object fields =>
    obtain ⟨hr, hk, hn⟩ := h
    refine ⟨hr, by rwa [keys_updateField], nestedFields_iff.2 fun x hx => ?_⟩
    rcases mem_updateField hx with hx | ⟨v, hv, rfl⟩
    · exact nestedFields_iff.1 hn x hx
    · exact hf v hv
  | _ => exact h

theorem whole_field? {doc v : Json} (h : Whole doc) (hv : doc.field? key = some v) : Whole v := by
  cases doc with
  | object fields =>
    obtain ⟨_, _, rfl, -⟩ := List.lookup_eq_some_iff.1 hv
    exact wholeFields_iff.1 h (key, v) (by simp)
  | _ => exact absurd hv (by simp [field?])

theorem whole_update {doc : Json} (h : Whole doc) (hf : ∀ v, doc.field? key = some v → Whole (f v)) :
    Whole (doc.update key f) := by
  cases doc with
  | object fields =>
    refine wholeFields_iff.2 fun x hx => ?_
    rcases mem_updateField hx with hx | ⟨v, hv, rfl⟩
    · exact wholeFields_iff.1 h x hx
    · exact hf v hv
  | _ => exact h

end

end Json

namespace Table

open Json (Nested Whole greatestDepth nestedItems_iff wholeItems_iff)

/-! ## The list -/

section

variable {t : Table} {doc : Json} {items : List Json}

theorem entries_nodeTypes_iff : nodeTypes.entries doc = .ok items ↔ doc = .list items := by
  cases doc <;> simp [entries]

theorem entries_grammar_iff {rule : Text} : (grammar rule).entries doc = .ok items ↔
    ∃ rules body, doc.field? rulesKey = some rules ∧ rules.field? rule = some body ∧
      body.field? membersKey = some (.list items) := by
  rw [entries]
  cases hr : doc.field? rulesKey with
  | none => simp
  | some rules =>
    simp only [Option.some.injEq, exists_and_left, exists_eq_left']
    cases hb : rules.field? rule with
    | none => simp
    | some body =>
      simp only [Option.some.injEq, exists_eq_left']
      cases hm : body.field? membersKey with
      | none => simp
      | some v => cases v <;> simp

/-- A document with a new list has this list. -/
theorem entries_withEntries (h : t.entries doc = .ok items) (new : List Json) :
    t.entries (t.withEntries new doc) = .ok new := by
  cases t with
  | nodeTypes => rfl
  | grammar rule =>
    obtain ⟨rules, body, hr, hb, hm⟩ := entries_grammar_iff.1 h
    rw [entries_grammar_iff, withEntries]
    exact ⟨_, _, by rw [Json.field?_update, hr]; rfl, by rw [Json.field?_update, hb]; rfl,
      by rw [Json.field?_update, hm]; rfl⟩

theorem withEntries_withEntries (a b : List Json) (doc : Json) :
    t.withEntries b (t.withEntries a doc) = t.withEntries b doc := by
  cases t with
  | nodeTypes => rfl
  | grammar rule => simp [withEntries, Json.update_update, Function.comp_def]

theorem withEntries_entries (h : t.entries doc = .ok items) : t.withEntries items doc = doc := by
  cases t with
  | nodeTypes => exact (entries_nodeTypes_iff.1 h).symm
  | grammar rule =>
    obtain ⟨rules, body, hr, hb, hm⟩ := entries_grammar_iff.1 h
    exact Json.update_self hr (Json.update_self hb (Json.update_self hm rfl))

/-- The keys that lead to the list. -/
def keys : Table → List Text
  | .grammar rule => [rulesKey, rule, membersKey]
  | .nodeTypes => []

/-- With another list, a document is changed where the list stands, and nowhere else. -/
theorem changedAt_withEntries (h : t.entries doc = .ok items) (new : List Json) :
    Json.ChangedAt (.list items) (.list new) t.keys doc (t.withEntries new doc) := by
  cases t with
  | nodeTypes =>
    obtain rfl := entries_nodeTypes_iff.1 h
    exact .here
  | grammar rule =>
    obtain ⟨rules, body, hr, hb, hm⟩ := entries_grammar_iff.1 h
    exact .update hr (.update hb (.update hm .here))

theorem entries_apart {rule : Text} {items' : List Json} (h : (grammar rule).entries doc = .ok items) :
    nodeTypes.entries doc ≠ .ok items' := by
  rintro h'
  obtain ⟨_, _, hr, -⟩ := entries_grammar_iff.1 h
  rw [entries_nodeTypes_iff.1 h'] at hr
  exact absurd hr (by simp [Json.field?])

/-! ## New entries -/

theorem lists_iff {l : Language} {e : Json} : t.lists l e = true ↔
    e.field? (match t with | .grammar _ => valueKey | .nodeTypes => typeKey) = some (.string l.name) := by
  cases t <;> rw [lists] <;> simp only [beq_iff_eq, Option.bind_eq_some_iff] <;>
  · constructor
    · rintro ⟨v, hv, ht⟩
      cases v <;> simp_all [Json.text?]
    · exact fun h => ⟨_, h, rfl⟩

/-- A new entry stands for its own language and for no other. -/
theorem lists_entry_iff {l m : Language} : t.lists l (t.entry m) = true ↔ m.name = l.name := by
  cases t <;> simp [lists_iff, entry, Json.field?, List.lookup_cons, typeKey, valueKey]

theorem nested_entry {room : Nat} (hr : 0 < room) (l : Language) : Nested room (t.entry l) := by
  cases t with
  | grammar => exact ⟨hr, (by decide : [typeKey, valueKey].Nodup), trivial, trivial, trivial⟩
  | nodeTypes => exact ⟨hr, (by decide : [typeKey, namedKey].Nodup), trivial, trivial, trivial⟩

theorem whole_entry (l : Language) : Whole (t.entry l) := by
  cases t <;> exact ⟨trivial, trivial, trivial⟩

theorem nested_snoc {room : Nat} (hr : 1 < room) (h : Nested room (.list items)) (l : Language) :
    Nested room (.list (items ++ [t.entry l])) := by
  refine ⟨h.1, nestedItems_iff.2 fun v hv => ?_⟩
  rcases List.mem_append.1 hv with hv | hv
  · exact nestedItems_iff.1 h.2 v hv
  · exact List.mem_singleton.1 hv ▸ nested_entry (by omega) l

theorem whole_snoc (h : Whole (.list items)) (l : Language) : Whole (.list (items ++ [t.entry l])) := by
  refine wholeItems_iff.2 fun v hv => ?_
  rcases List.mem_append.1 hv with hv | hv
  · exact wholeItems_iff.1 h v hv
  · exact List.mem_singleton.1 hv ▸ whole_entry l

/-- What holds of a document holds of it with a new list, if it is handed down to fields and back, and the new list
keeps it. A list stands in three brackets at most. -/
theorem holds_withEntries {P : Nat → Json → Prop}
    (down : ∀ {n key v doc}, P n doc → doc.field? key = some v → P (n - 1) v)
    (up : ∀ {n key f doc}, P n doc → (∀ v, doc.field? key = some v → P (n - 1) (f v)) → P n (doc.update key f))
    {n : Nat} {new : List Json} (h : t.entries doc = .ok items) (hd : P n doc)
    (hl : ∀ m, n - 3 ≤ m → P m (.list items) → P m (.list new)) : P n (t.withEntries new doc) := by
  cases t with
  | nodeTypes =>
    obtain rfl := entries_nodeTypes_iff.1 h
    exact hl n (Nat.sub_le n 3) hd
  | grammar rule =>
    obtain ⟨rules, body, hr, hb, hm⟩ := entries_grammar_iff.1 h
    refine up hd fun rules' hr' => ?_
    obtain rfl := Option.some.inj (hr.symm.trans hr')
    have hd := down hd hr
    refine up hd fun body' hb' => ?_
    obtain rfl := Option.some.inj (hb.symm.trans hb')
    have hd := down hd hb
    exact up hd fun _ _ => hl _ (Nat.le_refl _) (down hd hm)

/-- The list of a document is far from the deepest place of all, so there is room for the brackets of an entry. -/
theorem nested_add (h : t.entries doc = .ok items) (hn : Nested greatestDepth doc) (l : Language) :
    Nested greatestDepth (t.withEntries (items ++ [t.entry l]) doc) :=
  holds_withEntries Json.nested_field? Json.nested_update h hn fun m hm hi =>
    nested_snoc (Nat.lt_of_lt_of_le (by decide) hm) hi l

theorem whole_add (h : t.entries doc = .ok items) (hw : Whole doc) (l : Language) :
    Whole (t.withEntries (items ++ [t.entry l]) doc) :=
  holds_withEntries (P := fun _ => Whole) Json.whole_field? Json.whole_update h (n := 0) hw fun _ _ hi =>
    whole_snoc hi l

end

end Table

end LanguageRoster
