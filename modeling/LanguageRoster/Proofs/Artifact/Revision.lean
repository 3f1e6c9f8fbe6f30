import LanguageRoster.Artifact.Revision
import LanguageRoster.Proofs.Artifact.Table
import LanguageRoster.Proofs.Choice.Insertion
import LanguageRoster.Proofs.Json.Refusal
import LanguageRoster.Proofs.Json.RoundTrip
import LanguageRoster.Proofs.Roster

/-!
# Revised artifacts

* `Choice.read_ne_ok_of_locate`, `Choice.read_ne_ok_of_insert` : no grammar source is a document, with one language more
  or without
* `Table.Holds t text doc items` : the text is that of a document whose list is `items`
* `Table.joined`, `Table.settled` : the list and the text with an entry for a language
* `Table.revise_eq_ok_iff` : what `revise` makes of such a text
* `Table.Holds.settled` : what is written reads back, as the same document with the longer list
* `Table.Holds.apart`, `Table.Holds.not_located` : no text holds a list for both tables, and none of a grammar source
  holds any
-/

namespace LanguageRoster

set_option autoImplicit false

/-! ## Grammar sources -/

namespace Choice

variable {p : Pattern} {text : Text} {b : Block}

/-- The arrow in a header can stand in no document. -/
theorem read_ne_ok_of_header {header : Text} (h : Spells p.header header) (before rest : Text) (doc : Json) :
    Json.read (before ++ header ++ rest) ≠ .ok doc := by
  intro hread
  obtain ⟨x, y, z, rfl, -, hy, -⟩ := spells_header_iff.1 h
  obtain ⟨u, v, rfl, -, _, v, rfl, rfl, blanks, _, rfl, hb, e, _, rfl, he, rfl⟩ :=
    (@spells_append (p.ruleLine.take 12) _ _).1 hy
  have hb : ∀ c ∈ blanks, c ≠ '"' ∧ c ≠ '\\' := fun c hc => by
    have := hb c hc
    constructor <;> rintro rfl <;> exact absurd this (by decide)
  obtain ⟨cr, hcr, rfl⟩ : ∃ cr, (∀ c ∈ cr, c ≠ '"' ∧ c ≠ '\\') ∧ e = cr ++ ['\n'] := by
    rcases he with rfl | rfl
    · exact ⟨['\r'], by simp, rfl⟩
    · exact ⟨[], by simp, rfl⟩
  have hu : ∀ c ∈ '>' :: (blanks ++ cr), c ≠ '"' ∧ c ≠ '\\' := by
    intro c hc
    rcases List.mem_cons.1 hc with rfl | hc
    · decide
    · exact (List.mem_append.1 hc).elim (hb c) (hcr c)
  refine Json.read_ne_ok (a := before ++ (x ++ u)) hu (z ++ rest) doc ?_
  simpa only [List.append_assoc, List.cons_append, List.nil_append, List.append_nil] using hread

theorem read_ne_ok_of_locate (h : locate p text = .ok b) (doc : Json) : Json.read text ≠ .ok doc := by
  obtain ⟨hit, hf, -⟩ := locate_eq_ok.1 h
  obtain ⟨ht, hs, -⟩ := find?_eq_some hf
  rw [ht]
  exact read_ne_ok_of_header hs hit.before hit.rest doc

theorem read_ne_ok_of_insert (h : locate p text = .ok b) (l : Language) (doc : Json) :
    Json.read (b.insert l).render ≠ .ok doc := by
  obtain ⟨hit, hf, -, -, hheader, -⟩ := locate_eq_ok.1 h
  obtain ⟨-, hs, -⟩ := find?_eq_some hf
  rw [Block.render_insert, List.append_assoc _ (b.members.flatMap Member.render)]
  exact read_ne_ok_of_header (hheader ▸ hs) b.before _ doc

end Choice

namespace Table

open Json (Whole)

/-- The text is that of a document with the list `items`. -/
structure Holds (t : Table) (text : Text) (doc : Json) (items : List Json) : Prop where
  read : Json.read text = .ok doc
  entries : t.entries doc = .ok items

/-- The list with an entry for the language, at its end unless there is one. -/
def joined (t : Table) (items : List Json) (l : Language) : List Json := enroll t.lists t.entry items l

/-- The text of an artifact with an entry for the language; it stays the same if there is one. -/
def settled (t : Table) (l : Language) (text : Text) (doc : Json) (items : List Json) : Text :=
  if items.any (t.lists l) then text else render (t.withEntries (t.joined items l) doc)

variable {t : Table} {text : Text} {doc : Json} {items : List Json}

theorem joined_of_any {l : Language} (h : items.any (t.lists l) = true) : t.joined items l = items := if_pos h

theorem joined_of_not_any {l : Language} (h : items.any (t.lists l) = false) :
    t.joined items l = items ++ [t.entry l] :=
  if_neg (by simp [h])

theorem any_joined (l : Language) : (t.joined items l).any (t.lists l) = true := by
  cases h : items.any (t.lists l) with
  | true => rwa [joined_of_any h]
  | false => simp [joined_of_not_any h, lists_entry_iff]

theorem revise_eq_ok_iff {l : Language} {r : Option Text} : t.revise l text = .ok r ↔
    ∃ doc items, t.Holds text doc items ∧
      r = if items.any (t.lists l) then none else some (t.settled l text doc items) := by
  have hs : ∀ {doc items}, items.any (t.lists l) = false →
      t.settled l text doc items = render (t.withEntries (items ++ [t.entry l]) doc) := by
    intro doc items h
    simp [settled, joined_of_not_any h, h]
  constructor
  · intro h
    rw [revise] at h
    split at h
    · exact absurd h (by simp)
    next doc hd =>
    rw [add] at h
    cases he : t.entries doc with
    | error lack => exact absurd h (by simp [he])
    | ok items =>
      simp only [he, Except.ok.injEq] at h
      refine ⟨doc, items, ⟨hd, he⟩, ?_⟩
      rw [← h]
      cases ha : items.any (t.lists l) with
      | true => rfl
      | false => simp [hs ha]
  · rintro ⟨doc, items, ⟨hd, he⟩, rfl⟩
    simp only [revise, add, hd, he]
    cases ha : items.any (t.lists l) with
    | true => rfl
    | false => simp [hs ha]

theorem Holds.unique {doc' : Json} {items' : List Json} (h : t.Holds text doc items) (h' : t.Holds text doc' items') :
    doc = doc' ∧ items = items' := by
  obtain rfl := Except.ok.inj (h.read.symm.trans h'.read)
  exact ⟨rfl, Except.ok.inj (h.entries.symm.trans h'.entries)⟩

theorem whole_joined (h : t.entries doc = .ok items) (hw : Whole doc) (l : Language) :
    Whole (t.withEntries (t.joined items l) doc) := by
  cases ha : items.any (t.lists l) with
  | true => rwa [joined_of_any ha, withEntries_entries h]
  | false =>
    rw [joined_of_not_any ha]
    exact whole_add h hw l

/-- What is written reads back. -/
theorem Holds.settled (h : t.Holds text doc items) (hw : Whole doc) (l : Language) :
    t.Holds (t.settled l text doc items) (t.withEntries (t.joined items l) doc) (t.joined items l) := by
  refine ⟨?_, entries_withEntries h.entries _⟩
  rw [Table.settled]
  cases ha : items.any (t.lists l) with
  | true => rw [if_pos rfl, joined_of_any ha, withEntries_entries h.entries, h.read]
  | false =>
    rw [if_neg (by simp), joined_of_not_any ha]
    exact Json.read_pretty (nested_add h.entries (Json.nested_of_read h.read) l) (whole_add h.entries hw l)

theorem Holds.apart {rule : Text} {doc' : Json} {items' : List Json} (h : (grammar rule).Holds text doc items) :
    ¬ nodeTypes.Holds text doc' items' := by
  rintro ⟨hr, he⟩
  obtain rfl := Except.ok.inj (h.read.symm.trans hr)
  exact entries_apart h.entries he

/-- No text with a choice is an artifact. -/
theorem Holds.not_located {p : Choice.Pattern} {b : Choice.Block} (h : t.Holds text doc items) :
    Choice.locate p text ≠ .ok b := fun hl => Choice.read_ne_ok_of_locate hl doc h.read

end Table

end LanguageRoster
