/-!
# Records

Values under keys, in an order of their own.

* `Record.set` : the record with one value set
* `lookup_set`, `keys_set`, `nodup_keys_set`, `mem_set` : what is set is found, all else is as before, and no key moves
* `lookup_filter_ne` : what a record without a key holds
* `set_set`, `filter_ne_set_self`, `filter_ne_set_of_ne`, `filter_ne_of_lookup` : values set twice, or set and taken
  out again
-/

namespace LanguageRoster.Record

set_option autoImplicit false

variable {κ ν : Type} [BEq κ]

/-- The record with `value` under `key`: at its old place if it had one, at the end if not. -/
def set (key : κ) (value : ν) : List (κ × ν) → List (κ × ν)
  | [] => [(key, value)]
  | (k, v) :: more => if k == key then (key, value) :: more else (k, v) :: set key value more

variable [LawfulBEq κ]

theorem lookup_set [DecidableEq κ] (key k : κ) (value : ν) (r : List (κ × ν)) :
    (set key value r).lookup k = if k = key then some value else r.lookup k := by
  induction r with
  | nil => by_cases h : k = key <;> simp [set, List.lookup_cons, List.lookup_nil, h, beq_false_of_ne]
  | cons x r ih =>
    obtain ⟨l, v⟩ := x
    by_cases hl : l = key
    · by_cases hk : k = key <;> simp [set, List.lookup_cons, hl, hk, beq_false_of_ne]
    · by_cases hkl : k = l
      · simp [set, hl, hkl]
      · simp [set, List.lookup_cons, hl, hkl, ih, beq_false_of_ne]

theorem keys_set (key : κ) (value : ν) (r : List (κ × ν)) :
    (set key value r).map Prod.fst =
      if key ∈ r.map Prod.fst then r.map Prod.fst else r.map Prod.fst ++ [key] := by
  induction r with
  | nil => simp [set]
  | cons x r ih =>
    obtain ⟨l, v⟩ := x
    by_cases hl : l = key
    · simp [set, hl]
    · rw [set, if_neg (by simpa using hl), List.map_cons, ih, List.map_cons]
      simp only [List.mem_cons, Ne.symm hl, false_or]
      split <;> simp

theorem nodup_keys_set {key : κ} {value : ν} {r : List (κ × ν)} (h : (r.map Prod.fst).Nodup) :
    ((set key value r).map Prod.fst).Nodup := by
  rw [keys_set]
  split
  · exact h
  · next hk =>
    refine List.nodup_append.2 ⟨h, by simp, fun a ha b hb => ?_⟩
    rw [List.mem_singleton.1 hb]
    rintro rfl
    exact hk ha

omit [LawfulBEq κ] in
theorem mem_set {key : κ} {value : ν} {r : List (κ × ν)} {x : κ × ν} (h : x ∈ set key value r) :
    x = (key, value) ∨ x ∈ r := by
  induction r with
  | nil => exact .inl (List.mem_singleton.1 h)
  | cons y r ih =>
    obtain ⟨k, v⟩ := y
    unfold set at h
    split at h
    · rcases List.mem_cons.1 h with rfl | h
      · exact .inl rfl
      · exact .inr (List.mem_cons_of_mem _ h)
    · rcases List.mem_cons.1 h with rfl | h
      · exact .inr List.mem_cons_self
      · exact (ih h).imp_right (List.mem_cons_of_mem _)

theorem lookup_filter_ne [DecidableEq κ] (key k : κ) (r : List (κ × ν)) :
    (r.filter fun x => x.1 ≠ key).lookup k = if k = key then none else r.lookup k := by
  induction r with
  | nil => simp
  | cons x r ih =>
    obtain ⟨l, v⟩ := x
    by_cases hl : l = key
    · rw [List.filter_cons_of_neg (by simpa using hl), ih]
      by_cases hk : k = key
      · simp [hk]
      · simp [hk, List.lookup_cons, beq_false_of_ne (hl ▸ hk : k ≠ l)]
    · rw [List.filter_cons_of_pos (by simpa using hl)]
      by_cases hkl : k = l
      · simp [hkl, hl]
      · simp only [List.lookup_cons, beq_false_of_ne hkl, ih]

theorem set_set (key : κ) (value value' : ν) (r : List (κ × ν)) :
    set key value' (set key value r) = set key value' r := by
  induction r with
  | nil => simp [set]
  | cons x r ih =>
    obtain ⟨l, v⟩ := x
    by_cases hl : l = key
    · simp [set, hl]
    · simp [set, hl, ih]

theorem filter_ne_set_self [DecidableEq κ] (key : κ) (value : ν) (r : List (κ × ν)) :
    (set key value r).filter (fun x => x.1 ≠ key) = r.filter fun x => x.1 ≠ key := by
  induction r with
  | nil => simp [set]
  | cons x r ih =>
    obtain ⟨l, v⟩ := x
    by_cases hl : l = key
    · simp [set, hl]
    · rw [set, if_neg (by simpa using hl), List.filter_cons_of_pos (by simpa using hl), ih,
        List.filter_cons_of_pos (by simpa using hl)]

theorem filter_ne_set_of_ne [DecidableEq κ] {key k : κ} (h : key ≠ k) (value : ν) (r : List (κ × ν)) :
    (set key value r).filter (fun x => x.1 ≠ k) = set key value (r.filter fun x => x.1 ≠ k) := by
  induction r with
  | nil => simp [set, h]
  | cons x r ih =>
    obtain ⟨l, v⟩ := x
    by_cases hl : l = key
    · simp [set, hl, h]
    · rw [set, if_neg (by simpa using hl)]
      by_cases hk : l = k
      · rw [List.filter_cons_of_neg (by simpa using hk), ih, List.filter_cons_of_neg (by simpa using hk)]
      · rw [List.filter_cons_of_pos (by simpa using hk), ih, List.filter_cons_of_pos (by simpa using hk), set,
          if_neg (by simpa using hl)]

theorem filter_ne_of_lookup [DecidableEq κ] {key : κ} {r : List (κ × ν)} (h : r.lookup key = none) :
    r.filter (fun x => x.1 ≠ key) = r := by
  rw [List.filter_eq_self]
  intro x hx
  have hne : x.1 ≠ key := by
    intro e
    have hbeq := List.lookup_eq_none_iff.1 h x hx
    simp [e] at hbeq
  simpa using hne

end LanguageRoster.Record
