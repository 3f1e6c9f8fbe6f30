import LanguageRoster.Json.Reader

/-!
# The shape of documents

* `Json.Nested room v` : no object of `v` repeats a key, and at most `room` brackets are open at once
* `Json.Whole v` : all numbers of `v` are integers of 64 bits, with or without a sign
* `Reading.Sound` : what the reader has read so far is nested as deep as the open brackets allow; `step_sound` says
  that a character keeps it so, and `nested_of_read` that all documents read are nested
-/

namespace LanguageRoster.Json

set_option autoImplicit false

/-! ## Depth and keys -/

mutual

/-- The document has at most `room` brackets open at once, and none of its objects repeats a key. -/
def Nested : (room : Nat) → Json → Prop
  | room, .list items => 0 < room ∧ NestedItems (room - 1) items
  | room, .object fields => 0 < room ∧ (fields.map Prod.fst).Nodup ∧ NestedFields (room - 1) fields
  | _, _ => True

def NestedItems : (room : Nat) → List Json → Prop
  | _, [] => True
  | room, v :: items => Nested room v ∧ NestedItems room items

def NestedFields : (room : Nat) → List (Text × Json) → Prop
  | _, [] => True
  | room, (_, v) :: fields => Nested room v ∧ NestedFields room fields

end

theorem nestedItems_iff {room : Nat} {items : List Json} : NestedItems room items ↔ ∀ v ∈ items, Nested room v := by
  induction items with
  | nil => simp [NestedItems]
  | cons v items ih => simp [NestedItems, ih]

theorem nestedFields_iff {room : Nat} {fields : List (Text × Json)} :
    NestedFields room fields ↔ ∀ f ∈ fields, Nested room f.2 := by
  induction fields with
  | nil => simp [NestedFields]
  | cons f fields ih => obtain ⟨k, v⟩ := f; simp [NestedFields, ih]

/-! ## Numbers -/

mutual

/-- All numbers are integers that fit in 64 bits, with or without a sign. Zero with a minus sign is one of them; it is
read as a fraction. -/
def Whole : Json → Prop
  | .integer n => -(leastInteger : Int) ≤ n ∧ n ≤ greatestInteger
  | .float x => x = Binary64.zero true
  | .list items => WholeItems items
  | .object fields => WholeFields fields
  | _ => True

def WholeItems : List Json → Prop
  | [] => True
  | v :: items => Whole v ∧ WholeItems items

def WholeFields : List (Text × Json) → Prop
  | [] => True
  | (_, v) :: fields => Whole v ∧ WholeFields fields

end

theorem wholeItems_iff {items : List Json} : WholeItems items ↔ ∀ v ∈ items, Whole v := by
  induction items with
  | nil => simp [WholeItems]
  | cons v items ih => simp [WholeItems, ih]

theorem wholeFields_iff {fields : List (Text × Json)} : WholeFields fields ↔ ∀ f ∈ fields, Whole f.2 := by
  induction fields with
  | nil => simp [WholeFields]
  | cons f fields ih => obtain ⟨k, v⟩ := f; simp [WholeFields, ih]

/-! ## Setting fields -/

theorem nested_set {room : Nat} {key : Text} {v : Json} {fields : List (Text × Json)} (h : NestedFields room fields)
    (hv : Nested room v) : NestedFields room (Record.set key v fields) := by
  rw [nestedFields_iff] at h ⊢
  intro f hf
  rcases Record.mem_set hf with rfl | hf
  · exact hv
  · exact h f hf

/-! ## Refusals with their positions -/

section

variable {ε ε' α : Type} {f : ε → ε'}

@[simp] theorem mapError_ok (a : α) : (Except.ok a : Except ε α).mapError f = .ok a := rfl

@[simp] theorem mapError_error (e : ε) : (Except.error e : Except ε α).mapError f = .error (f e) := rfl

theorem mapError_eq_ok {r : Except ε α} {a : α} (h : r.mapError f = .ok a) : r = .ok a := by
  cases r with
  | error e => exact absurd h (by simp)
  | ok b => simpa using h

end

/-! ## What the reader has read -/

/-- The room for values inside `n` open brackets. -/
def roomAt (n : Nat) : Nat := greatestDepth - n

def Frame.Sound (room : Nat) : Frame → Prop
  | .list items => NestedItems room items
  | .field fields _ => (fields.map Prod.fst).Nodup ∧ NestedFields room fields

/-- No more brackets are open than may be, and each holds what fits in it. -/
def StackSound : List Frame → Prop
  | [] => True
  | f :: outer => outer.length < greatestDepth ∧ f.Sound (roomAt (outer.length + 1)) ∧ StackSound outer

/-- The fields read so far of an object inside `n` open brackets. -/
def FieldsSound (n : Nat) (fields : List (Text × Json)) : Prop :=
  n < greatestDepth ∧ (fields.map Prod.fst).Nodup ∧ NestedFields (roomAt (n + 1)) fields

/-- What the reader is in the middle of, inside `n` open brackets. Words are made of letters. -/
def Phase.Sound (n : Nat) : Phase → Prop
  | .value | .nextItem | .number .. | .string none .. => True
  | .firstItem | .firstKey => n < greatestDepth
  | .nextKey fields | .colon fields _ | .string (some fields) .. => FieldsSound n fields
  | .word rest v => (∀ c ∈ rest, c.isAlpha = true) ∧ Nested (roomAt n) v
  | .done v => Nested (roomAt n) v

/-- What the reader has read so far fits in the brackets that are open. -/
structure Reading.Sound (s : Reading) : Prop where
  stack : StackSound s.stack
  phase : s.phase.Sound s.stack.length

section

variable {stack : List Frame} {p : Position} {c : Char}

theorem start_sound {ph : Phase} (h : Reading.start stack c = .ok ph) : ph.Sound stack.length := by
  unfold Reading.start at h
  split at h
  case h_2 | h_3 =>
    split at h
    · exact absurd h (by simp)
    · next hd => exact Except.ok.inj h ▸ (Nat.lt_of_not_le hd : stack.length < greatestDepth)
  case h_4 | h_5 | h_6 => exact Except.ok.inj h ▸ ⟨by simp, trivial⟩
  case h_8 =>
    split at h
    · exact Except.ok.inj h ▸ trivial
    · exact absurd h (by simp)
  all_goals exact Except.ok.inj h ▸ trivial

theorem nested_of_float? {room : Nat} {negative : Bool} {n : Nat} {e : Int} {v : Json}
    (h : Number.float? negative n e = some v) : Nested room v := by
  simp only [Number.float?, Option.bind_eq_bind, Option.bind_eq_some_iff] at h
  obtain ⟨_, -, _, -, h⟩ := h
  exact Option.some.inj h ▸ trivial

theorem nested_of_whole? {room : Nat} {negative : Bool} {n : Nat} {v : Json}
    (h : Number.whole? negative n = some v) : Nested room v := by
  rw [Number.whole?] at h
  split at h
  · exact Option.some.inj h ▸ trivial
  split at h
  · exact Option.some.inj h ▸ trivial
  · exact nested_of_float? h

theorem nested_of_value? {room : Nat} {negative : Bool} {n : Number} {v : Json} (h : n.value? negative = some v) :
    Nested room v := by
  cases n with
  | sign | mark | markSign => exact absurd h (by simp [Number.value?])
  | zero | whole => exact nested_of_whole? h
  | long | decimals | longDecimals | exponent => exact nested_of_float? h
  | vanishing => exact Option.some.inj h ▸ trivial

theorem nested_list {n : Nat} {items : List Json} (hn : n < greatestDepth) (h : NestedItems (roomAt (n + 1)) items) :
    Nested (roomAt n) (.list items) := by
  simp only [roomAt] at *
  exact ⟨by omega, by rwa [Nat.sub_sub]⟩

theorem nested_object {n : Nat} {fields : List (Text × Json)} (h : FieldsSound n fields) :
    Nested (roomAt n) (.object fields) := by
  obtain ⟨hn, hk, hf⟩ := h
  simp only [roomAt] at *
  exact ⟨by omega, hk, by rwa [Nat.sub_sub]⟩

theorem after_sound {s : Reading} {v : Json} (hs : StackSound stack) (hv : Nested (roomAt stack.length) v)
    (h : Reading.after stack v c = .ok s) : s.Sound := by
  unfold Reading.after at h
  split at h
  · exact Except.ok.inj h ▸ ⟨hs, hv⟩
  split at h
  · exact absurd h (by simp)
  · next items outer =>
    obtain ⟨hl, hi, ho⟩ := hs
    have hi' : NestedItems (roomAt (outer.length + 1)) (v :: items) := ⟨hv, hi⟩
    split at h
    · exact Except.ok.inj h ▸ ⟨⟨hl, hi', ho⟩, trivial⟩
    split at h
    · refine Except.ok.inj h ▸ ⟨ho, nested_list hl ?_⟩
      rw [nestedItems_iff] at hi' ⊢
      exact fun x hx => hi' x (List.mem_reverse.1 hx)
    · exact absurd h (by simp)
  · next fields key outer =>
    obtain ⟨hl, ⟨hk, hf⟩, ho⟩ := hs
    have hfs : FieldsSound outer.length (Record.set key v fields) := ⟨hl, Record.nodup_keys_set hk, nested_set hf hv⟩
    split at h
    · exact Except.ok.inj h ▸ ⟨ho, hfs⟩
    split at h
    · exact Except.ok.inj h ▸ ⟨ho, nested_object hfs⟩
    · exact absurd h (by simp)

theorem inString_sound {s : Reading} {key : Option (List (Text × Json))} {read : Text} {e : Escape}
    (hs : StackSound stack) (hk : (Phase.string key read e).Sound stack.length)
    (h : Reading.inString p stack key read e c = .ok s) : s.Sound := by
  have stay : ∀ (t : Text) (e : Escape), Reading.Sound ⟨stack, .string key t e⟩ := fun t e =>
    ⟨hs, by cases key <;> exact hk⟩
  unfold Reading.inString at h
  split at h
  · split at h
    · refine Except.ok.inj h ▸ ⟨hs, ?_⟩
      cases key with
      | none => trivial
      | some fields => exact hk
    split at h
    · exact Except.ok.inj h ▸ stay _ _
    split at h
    · exact absurd h (by simp)
    · exact Except.ok.inj h ▸ stay _ _
  · split at h
    · exact Except.ok.inj h ▸ stay _ _
    split at h
    · exact Except.ok.inj h ▸ stay _ _
    · exact absurd h (by simp)
  · simp only at h
    split at h
    · exact Except.ok.inj h ▸ stay _ _
    split at h
    · exact absurd h (by simp)
    split at h
    · exact Except.ok.inj h ▸ stay _ _
    · exact absurd h (by simp)
  · split at h
    · exact Except.ok.inj h ▸ stay _ _
    · exact absurd h (by simp)
  · split at h
    · exact Except.ok.inj h ▸ stay _ _
    · exact absurd h (by simp)

theorem value_sound {k : List Frame} {s' : Reading} {f : Complaint → Malformed} (hk : StackSound k)
    (h : ((Reading.start k c).map fun ph => (⟨k, ph⟩ : Reading)).mapError f = .ok s') : s'.Sound := by
  have h := mapError_eq_ok h
  cases hp : Reading.start k c with
  | error e => rw [hp] at h; exact absurd h (by simp [Except.map])
  | ok ph => rw [hp] at h; exact Except.ok.inj h ▸ ⟨hk, start_sound hp⟩

/-- Reading a character keeps what was read in its brackets. -/
theorem step_sound {s s' : Reading} (hs : s.Sound) (h : s.step p c = .ok s') : s'.Sound := by
  obtain ⟨stack, phase⟩ := s
  obtain ⟨hst, hph⟩ := hs
  have same : (.ok ⟨stack, phase⟩ : Except Malformed Reading) = .ok s' → s'.Sound := fun hr =>
    Except.ok.inj hr ▸ ⟨hst, hph⟩
  unfold Reading.step at h
  simp only at h
  cases phase with
  | value =>
    simp only at h
    split at h
    · exact same h
    · exact value_sound hst h
  | firstItem =>
    simp only at h
    have hn : stack.length < greatestDepth := hph
    split at h
    · exact same h
    split at h
    · exact Except.ok.inj h ▸ ⟨hst, nested_list hn trivial⟩
    · have hk : StackSound (.list [] :: stack) := ⟨hn, trivial, hst⟩
      exact value_sound hk h
  | nextItem =>
    simp only at h
    split at h
    · exact same h
    split at h
    · exact absurd (mapError_eq_ok h) (by simp)
    · exact value_sound hst h
  | firstKey =>
    simp only at h
    have hf : FieldsSound stack.length [] := ⟨hph, by simp, trivial⟩
    split at h
    · exact same h
    split at h
    · exact Except.ok.inj h ▸ ⟨hst, nested_object hf⟩
    split at h
    · exact Except.ok.inj h ▸ ⟨hst, hf⟩
    · exact absurd (mapError_eq_ok h) (by simp)
  | nextKey fields =>
    simp only at h
    split at h
    · exact same h
    split at h
    · exact Except.ok.inj h ▸ ⟨hst, hph⟩
    split at h
    · exact absurd (mapError_eq_ok h) (by simp)
    · exact absurd (mapError_eq_ok h) (by simp)
  | colon fields key =>
    simp only at h
    obtain ⟨hn, hk, hf⟩ : FieldsSound stack.length fields := hph
    split at h
    · exact same h
    split at h
    · exact Except.ok.inj h ▸ ⟨⟨hn, ⟨hk, hf⟩, hst⟩, trivial⟩
    · exact absurd (mapError_eq_ok h) (by simp)
  | word rest v =>
    simp only at h
    obtain ⟨hr, hv⟩ := hph
    split at h
    · exact after_sound hst hv (mapError_eq_ok h)
    · split at h
      · exact Except.ok.inj h ▸ ⟨hst, hv⟩
      · exact absurd (mapError_eq_ok h) (by simp)
    · split at h
      · exact Except.ok.inj h ▸ ⟨hst, fun x hx => hr x (List.mem_cons_of_mem _ hx), hv⟩
      · exact absurd (mapError_eq_ok h) (by simp)
  | number negative n =>
    simp only at h
    split at h
    · exact absurd (mapError_eq_ok h) (by simp)
    · exact absurd (mapError_eq_ok h) (by simp)
    · exact Except.ok.inj h ▸ ⟨hst, trivial⟩
    · split at h
      · next v hv => exact after_sound hst (nested_of_value? hv) (mapError_eq_ok h)
      · exact absurd h (by simp)
  | string key read e => exact inString_sound hst hph h
  | done v => exact after_sound hst hph (mapError_eq_ok h)

end

theorem finish_sound {s : Reading} {v : Json} (hs : s.Sound) (h : s.finish = .ok v) : Nested greatestDepth v := by
  obtain ⟨stack, phase⟩ := s
  obtain ⟨-, hph⟩ := hs
  have close : ∀ {w : Json}, Nested (roomAt stack.length) w → Reading.close stack w = .ok v →
      Nested greatestDepth v := by
    intro w hw hc
    cases stack with
    | nil => exact Except.ok.inj hc ▸ hw
    | cons f stack => cases f <;> exact absurd hc (by simp [Reading.close])
  unfold Reading.finish at h
  cases phase with
  | number negative n =>
    simp only at h
    split at h
    · split at h
      · next w hw => exact close (nested_of_value? hw) h
      · exact absurd h (by simp)
    · exact absurd h (by simp)
  | done w => exact close hph h
  | _ => exact absurd h (by simp)

theorem run_sound {t : Text} {p : Position} {s : Reading} {v : Json} (hs : s.Sound)
    (h : Reading.run p s t = .ok v) : Nested greatestDepth v := by
  induction t generalizing p s with
  | nil =>
    rw [Reading.run] at h
    exact finish_sound hs (mapError_eq_ok h)
  | cons c t ih =>
    rw [Reading.run] at h
    split at h
    · next s' hs' => exact ih (step_sound hs hs') h
    · exact absurd h (by simp)

/-- A document that was read is no deeper than may be, and repeats no key. -/
theorem nested_of_read {t : Text} {v : Json} (h : read t = .ok v) : Nested greatestDepth v :=
  run_sound (s := ⟨[], .value⟩) ⟨trivial, trivial⟩ h

end LanguageRoster.Json
