import LanguageRoster.Language
import Mathlib.Data.List.Induction

/-!
# Rosters

A roster is a list in which languages have items. A language that is enrolled gets one at the end, unless it has one.

* `enroll` : the roster with an item for the language
* `foldl_enroll` : languages enrolled one after another get their items in the order of their first occurrence
* `any_foldl_enroll` : who is on the roster then
-/

namespace LanguageRoster

set_option autoImplicit false

variable {α : Type} {has : Language → α → Bool} {item : Language → α}

/-- The roster with an item for the language, at the end unless there is one. -/
def enroll (has : Language → α → Bool) (item : Language → α) (items : List α) (l : Language) : List α :=
  if items.any (has l) then items else items ++ [item l]

theorem Language.ext_iff_name {l m : Language} : l = m ↔ l.name = m.name := by
  obtain ⟨a, ha⟩ := l
  obtain ⟨b, hb⟩ := m
  simp

section

variable (hitem : ∀ l m, has l (item m) = true ↔ m = l)

include hitem

theorem any_map_item (l : Language) (ls : List Language) : (ls.map item).any (has l) = decide (l ∈ ls) := by
  rw [Bool.eq_iff_iff, List.any_eq_true, decide_eq_true_iff]
  constructor
  · rintro ⟨x, hx, h⟩
    obtain ⟨m, hm, rfl⟩ := List.mem_map.1 hx
    exact (hitem l m).1 h ▸ hm
  · exact fun h => ⟨item l, List.mem_map_of_mem h, (hitem l l).2 rfl⟩

/-- Enrolled one after another, the languages without an item get one each, in the order of their first occurrence. -/
theorem foldl_enroll (items : List α) (ls : List Language) : ls.foldl (enroll has item) items =
    items ++ (ls.eraseDups.filter fun l => !items.any (has l)).map item := by
  induction ls using List.reverseRecOn with
  | nil => simp
  | append_singleton ls l ih =>
    have hnew : ([l].removeAll ls).eraseDups = if l ∈ ls then [] else [l] := by
      by_cases hm : l ∈ ls <;> simp [List.removeAll, hm, List.eraseDups_cons]
    rw [List.foldl_append, ih, List.foldl_cons, List.foldl_nil, enroll, List.any_append, any_map_item hitem,
      List.eraseDups_append, hnew]
    cases hl : items.any (has l) <;> by_cases hm : l ∈ ls <;>
      simp only [List.mem_filter, List.mem_eraseDups, hl, hm] <;> simp [hl]

theorem any_foldl_enroll (items : List α) (ls : List Language) (l : Language) :
    (ls.foldl (enroll has item) items).any (has l) = (items.any (has l) || decide (l ∈ ls)) := by
  rw [foldl_enroll hitem, List.any_append, any_map_item hitem]
  cases hl : items.any (has l) <;> simp only [List.mem_filter, List.mem_eraseDups, hl] <;> simp

end

end LanguageRoster
