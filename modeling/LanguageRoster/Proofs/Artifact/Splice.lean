import LanguageRoster.Artifact.Revision
import LanguageRoster.Proofs.Artifact.Table

/-!
# Artifacts as texts

The text of an artifact is the text of its list, in a setting that no change to the list touches; and a list with one
item more is the text of the list with one piece inserted.

* `Json.prettyItems_append`, `Json.prettyFields_append` : items and fields, one after another
* `Json.Setting` : what stands around one place of a document, whatever stands there
* `Table.exists_setting`, `Table.render_sublist_snoc` : what stands around the list of an artifact
* `Json.listHead`, `Json.listTail`, `Json.newItem` : the text of a list before and behind the place of a new item, and
  what is inserted there
* `Json.prettyAt_list`, `Json.prettyAt_snoc` : a list without the new item and with it
-/

namespace LanguageRoster

set_option autoImplicit false

namespace Json

variable {d n : Nat} {key : Text} {doc v : Json}

theorem prettyItems_append (d : Nat) (items more : List Json) :
    prettyItems d (items ++ more) = prettyItems d items ++ prettyItems d more := by
  induction items with
  | nil => rw [prettyItems, List.nil_append, List.nil_append]
  | cons v items ih =>
    rw [List.cons_append, prettyItems, ih, prettyItems]
    simp only [List.append_assoc, List.cons_append]

theorem prettyFields_append (d : Nat) (fields more : List (Text × Json)) :
    prettyFields d (fields ++ more) = prettyFields d fields ++ prettyFields d more := by
  induction fields with
  | nil => rw [prettyFields, List.nil_append, List.nil_append]
  | cons x fields ih =>
    obtain ⟨k, v⟩ := x
    rw [List.cons_append, prettyFields, ih, prettyFields]
    simp only [List.append_assoc, List.cons_append]

/-! ## Settings -/

/-- Whatever stands in one place of the document, inside `n` brackets, the texts around it are `start` and `finish`. -/
def Setting (d n : Nat) (start finish : Text) (doc : Json → Json) : Prop :=
  ∀ v, prettyAt d (doc v) = start ++ prettyAt n v ++ finish

theorem setting_self (d : Nat) : Setting d d [] [] fun v => v := by
  intro v
  rw [List.nil_append, List.append_nil]

/-- What stands around a field of an object. -/
theorem exists_setting_field (d : Nat) (key : Text) (before after : List (Text × Json)) :
    ∃ start finish, Setting d (d + 1) start finish fun v => .object (before ++ (key, v) :: after) := by
  cases before with
  | nil =>
    refine ⟨'{' :: newLine (d + 1) ++ quoted key ++ [':', ' '],
      prettyFields (d + 1) after ++ newLine d ++ ['}'], fun v => ?_⟩
    show prettyAt d (.object ((key, v) :: after)) = _
    rw [prettyAt]
    simp only [List.append_assoc, List.cons_append, List.nil_append]
  | cons x before =>
    obtain ⟨k, w⟩ := x
    refine ⟨'{' :: newLine (d + 1) ++ quoted k ++ ':' :: ' ' :: prettyAt (d + 1) w ++ prettyFields (d + 1) before ++
        ',' :: newLine (d + 1) ++ quoted key ++ [':', ' '],
      prettyFields (d + 1) after ++ newLine d ++ ['}'], fun v => ?_⟩
    show prettyAt d (.object ((k, w) :: (before ++ (key, v) :: after))) = _
    rw [prettyAt, prettyFields_append, prettyFields]
    simp only [List.append_assoc, List.cons_append, List.nil_append]

/-- A place in the value of a field is a place in the document. -/
theorem exists_setting_update {g : Json → Json → Json} (hv : doc.field? key = some v)
    (h : ∃ start finish, Setting (d + 1) n start finish fun x => g x v) :
    ∃ start finish, Setting d n start finish fun x => doc.update key (g x) := by
  obtain ⟨before, after, -, -, hupdate⟩ := exists_update hv
  obtain ⟨start, finish, hg⟩ := h
  obtain ⟨start', finish', hf⟩ := exists_setting_field d key before after
  refine ⟨start' ++ start, finish ++ finish', fun x => ?_⟩
  have hf : prettyAt d (.object (before ++ (key, g x v) :: after)) = start' ++ prettyAt (d + 1) (g x v) ++ finish' :=
    hf (g x v)
  have hg : prettyAt (d + 1) (g x v) = start ++ prettyAt n x ++ finish := hg x
  simp only [hupdate, hf, hg, List.append_assoc]

/-! ## A new item -/

/-- The text of a list up to the place of a new item: up to the end of the last item, or behind the bracket. -/
def listHead (d : Nat) : List Json → Text
  | [] => ['[']
  | v :: items => '[' :: newLine (d + 1) ++ prettyAt (d + 1) v ++ prettyItems (d + 1) items

/-- The text of a list from the place of a new item on. -/
def listTail (d : Nat) : List Json → Text
  | [] => [']']
  | _ :: _ => newLine d ++ [']']

/-- The text of a new item: on lines of its own between the brackets of the empty list, or behind a comma and a line
feed, in a line with the other items. -/
def newItem (d : Nat) (v : Json) : List Json → Text
  | [] => newLine (d + 1) ++ prettyAt (d + 1) v ++ newLine d
  | _ :: _ => ',' :: newLine (d + 1) ++ prettyAt (d + 1) v

theorem newItem_ne_nil (d : Nat) (v : Json) (items : List Json) : newItem d v items ≠ [] := by
  cases items <;> simp [newItem, newLine]

theorem prettyAt_list (d : Nat) (items : List Json) :
    prettyAt d (.list items) = listHead d items ++ listTail d items := by
  cases items with
  | nil => rfl
  | cons v items =>
    rw [prettyAt, listHead, listTail]
    simp only [List.append_assoc]

theorem prettyAt_snoc (d : Nat) (items : List Json) (v : Json) :
    prettyAt d (.list (items ++ [v])) = listHead d items ++ newItem d v items ++ listTail d items := by
  cases items with
  | nil =>
    rw [List.nil_append, prettyAt, listHead, newItem, listTail, prettyItems]
    simp only [List.append_assoc, List.cons_append, List.nil_append]
  | cons w items =>
    rw [List.cons_append, prettyAt, prettyItems_append, prettyItems, prettyItems, listHead, newItem, listTail]
    simp only [List.append_assoc, List.cons_append, List.nil_append]

/-- A new item comes right behind the last one. -/
theorem listHead_snoc (d : Nat) (items : List Json) (v : Json) :
    ∃ start, listHead d (items ++ [v]) = start ++ prettyAt (d + 1) v := by
  cases items with
  | nil =>
    refine ⟨'[' :: newLine (d + 1), ?_⟩
    rw [List.nil_append, listHead, prettyItems, List.append_nil]
  | cons w items =>
    refine ⟨'[' :: newLine (d + 1) ++ prettyAt (d + 1) w ++ prettyItems (d + 1) items ++ ',' :: newLine (d + 1), ?_⟩
    rw [List.cons_append, listHead, prettyItems_append, prettyItems, prettyItems, List.append_nil]
    simp only [List.append_assoc, List.cons_append]

end Json

namespace Table

open Json (prettyAt Setting)

variable {t : Table} {doc : Json} {items : List Json}

/-- The list stands in as many brackets as keys lead to it. -/
theorem exists_setting (h : t.entries doc = .ok items) : ∃ start finish, ∀ list,
    render (t.withEntries list doc) = start ++ prettyAt t.keys.length (.list list) ++ finish := by
  have hsetting : ∃ start finish, ∀ list,
      (t.withEntries list doc).pretty = start ++ prettyAt t.keys.length (.list list) ++ finish := by
    cases t with
    | nodeTypes =>
      refine ⟨[], [], fun list => ?_⟩
      exact Json.setting_self 0 (.list list)
    | grammar rule =>
      obtain ⟨rules, body, hr, hb, hm⟩ := entries_grammar_iff.1 h
      have hset : ∃ start finish, Setting 0 3 start finish fun x =>
          doc.update rulesKey fun rules => rules.update rule fun body => body.update membersKey fun _ => x := by
        apply Json.exists_setting_update hr
        apply Json.exists_setting_update hb
        apply Json.exists_setting_update hm
        exact ⟨[], [], Json.setting_self 3⟩
      obtain ⟨start, finish, hset⟩ := hset
      exact ⟨start, finish, fun list => hset (.list list)⟩
  obtain ⟨start, finish, hset⟩ := hsetting
  refine ⟨start, finish ++ ['\n'], fun list => ?_⟩
  rw [render, hset, List.append_assoc]

/-- All that stood in the text of an artifact stands there when its list has one item more, in the same order. -/
theorem render_sublist_snoc (h : t.entries doc = .ok items) (v : Json) :
    (render doc).Sublist (render (t.withEntries (items ++ [v]) doc)) := by
  obtain ⟨start, finish, hset⟩ := exists_setting h
  have hold : render doc = start ++ prettyAt t.keys.length (.list items) ++ finish := by
    rw [← hset, withEntries_entries h]
  rw [hold, hset, Json.prettyAt_list, Json.prettyAt_snoc]
  apply List.Sublist.append_right
  apply List.Sublist.append_left
  apply List.Sublist.append_right
  exact List.sublist_append_left _ _

end Table

end LanguageRoster
