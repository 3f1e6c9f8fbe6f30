import LanguageRoster.Json.Printer
import LanguageRoster.Proofs.Json.Shape

/-!
# What is written reads back

* `Comes s t s' t'` : up to positions, reading `t` from the state `s` comes to the same as reading `t'` from `s'`
* `comes_string`, `comes_digits` : a quoted text and the digits of a number, read
* `comes_value` : a written value, read behind any brackets that leave room for it
* `read_pretty` : a document that is nested and whole is what its printed form reads as
-/

namespace LanguageRoster.Json

set_option autoImplicit false

/-! ## Reading in steps -/

/-- Up to positions, reading `t` from `s` comes to the same as reading `t'` from `s'`. -/
def Comes (s : Reading) (t : Text) (s' : Reading) (t' : Text) : Prop :=
  ∀ p, ∃ p', Reading.run p s t = Reading.run p' s' t'

theorem Comes.refl (s : Reading) (t : Text) : Comes s t s t := fun p => ⟨p, rfl⟩

theorem Comes.trans {s₁ s₂ s₃ : Reading} {t₁ t₂ t₃ : Text} (h₁ : Comes s₁ t₁ s₂ t₂) (h₂ : Comes s₂ t₂ s₃ t₃) :
    Comes s₁ t₁ s₃ t₃ := by
  intro p
  obtain ⟨q, hq⟩ := h₁ p
  obtain ⟨r, hr⟩ := h₂ q
  exact ⟨r, hq.trans hr⟩

theorem Comes.char {s r : Reading} {c : Char} {t : Text} (h : ∀ p, s.step p c = .ok r) : Comes s (c :: t) r t :=
  fun p => ⟨p.past c, by rw [Reading.run, h p]⟩

theorem Comes.of_step_eq {s s' : Reading} {c : Char} {t : Text} (h : ∀ p, s.step p c = s'.step p c) :
    Comes s (c :: t) s' (c :: t) :=
  fun p => ⟨p, by rw [Reading.run, Reading.run, h p]⟩

/-- The reader passes over blanks here. -/
def Reading.Idle (s : Reading) : Prop := ∀ p c, isBlank c = true → s.step p c = .ok s

theorem Reading.Idle.comes {s : Reading} (h : s.Idle) {b : Text} (hb : ∀ c ∈ b, isBlank c = true) (t : Text) :
    Comes s (b ++ t) s t := by
  induction b with
  | nil => exact .refl s t
  | cons c b ih =>
    exact .trans (.char fun p => h p c (hb c List.mem_cons_self)) (ih fun x hx => hb x (List.mem_cons_of_mem _ hx))

theorem isBlank_newLine (depth : Nat) : ∀ c ∈ newLine depth, isBlank c = true := by
  intro c hc
  rcases List.mem_cons.1 hc with rfl | hc
  · rfl
  · rw [List.eq_of_mem_replicate hc]; rfl

theorem idle_value (k : List Frame) : (⟨k, .value⟩ : Reading).Idle := fun p c hc => by simp [Reading.step, hc]

theorem idle_firstItem (k : List Frame) : (⟨k, .firstItem⟩ : Reading).Idle := fun p c hc => by simp [Reading.step, hc]

theorem idle_nextItem (k : List Frame) : (⟨k, .nextItem⟩ : Reading).Idle := fun p c hc => by simp [Reading.step, hc]

theorem idle_firstKey (k : List Frame) : (⟨k, .firstKey⟩ : Reading).Idle := fun p c hc => by simp [Reading.step, hc]

theorem idle_nextKey (k : List Frame) (fields : List (Text × Json)) : (⟨k, .nextKey fields⟩ : Reading).Idle :=
  fun p c hc => by simp [Reading.step, hc]

theorem idle_done (k : List Frame) (v : Json) : (⟨k, .done v⟩ : Reading).Idle := fun p c hc => by
  simp [Reading.step, Reading.after, hc]

/-! ## Strings -/

theorem hexDigit?_digitChar {n : Nat} (h : n < 16) : hexDigit? (Nat.digitChar n) = some n := by
  have : ∀ n < 16, hexDigit? (Nat.digitChar n) = some n := by decide
  exact this n h

theorem utf8Size_digitChar {n : Nat} (h : n < 16) : (Nat.digitChar n).utf8Size = 1 := by
  have : ∀ n < 16, (Nat.digitChar n).utf8Size = 1 := by decide
  exact this n h

section

variable (k : List Frame) (key : Option (List (Text × Json))) (read t : Text)

theorem comes_control {c : Char} (hc : c.toNat < 0x20) :
    Comes ⟨k, .string key read .outside⟩ (['\\', 'u', '0', '0'] ++ controlDigits c.toNat ++ t)
      ⟨k, .string key (c :: read) .outside⟩ t := by
  have hi : c.toNat / 16 < 16 := by omega
  have lo : c.toNat % 16 < 16 := by omega
  have hn : c.toNat / 16 * 16 + c.toNat % 16 = c.toNat := by omega
  have num : ∀ p (bytes n : Nat) (d : Char) (m : Nat), d.utf8Size = 1 → bytes < 3 → hexDigit? d = some m →
      Reading.step p ⟨k, .string key read (.number none bytes (some n))⟩ d =
        .ok ⟨k, .string key read (.number none (bytes + 1) (some (n * 16 + m)))⟩ := by
    intro p bytes n d m hd hb hm
    simp [Reading.step, Reading.inString, hd, hm, show bytes + 1 < 4 by omega]
  refine .trans (.char (r := ⟨k, .string key read .slash⟩) fun p => by simp [Reading.step, Reading.inString]) ?_
  refine .trans (.char (r := ⟨k, .string key read (.number none 0 (some 0))⟩) fun p => by
    simp [Reading.step, Reading.inString]) ?_
  refine .trans (.char fun p => num p 0 0 '0' 0 rfl (by decide) rfl) ?_
  refine .trans (.char fun p => num p 1 _ '0' 0 rfl (by decide) rfl) ?_
  refine .trans (.char fun p => num p 2 _ _ _ (utf8Size_digitChar hi) (by decide) (hexDigit?_digitChar hi)) ?_
  refine .char fun p => ?_
  have h₁ : ¬ (0xDC00 ≤ c.toNat ∧ c.toNat ≤ 0xDFFF) := by omega
  have h₂ : ¬ (0xD800 ≤ c.toNat ∧ c.toNat ≤ 0xDBFF) := by omega
  simp [Reading.step, Reading.inString, utf8Size_digitChar lo, hexDigit?_digitChar lo, hn, Escape.ofNumber, h₁, h₂,
    Char.ofNat_toNat]

theorem comes_quotedChar (c : Char) :
    Comes ⟨k, .string key read .outside⟩ (quotedChar c ++ t) ⟨k, .string key (c :: read) .outside⟩ t := by
  have escape : ∀ {d : Char}, d ≠ 'u' → escaped? d = some c →
      Comes ⟨k, .string key read .outside⟩ (['\\', d] ++ t) ⟨k, .string key (c :: read) .outside⟩ t := by
    intro d hd he
    refine .trans (.char (r := ⟨k, .string key read .slash⟩) fun p => by simp [Reading.step, Reading.inString]) ?_
    exact .char fun p => by simp [Reading.step, Reading.inString, hd, he]
  rw [quotedChar]
  split
  · next h => rcases h with rfl | rfl <;> exact escape (by decide) rfl
  next h₁ =>
  split
  · next h => exact escape (by decide) (h ▸ rfl)
  split
  · next h => exact escape (by decide) (h ▸ rfl)
  split
  · next h => exact escape (by decide) (h ▸ rfl)
  split
  · next h => exact escape (by decide) (h ▸ rfl)
  split
  · next h => exact escape (by decide) (h ▸ rfl)
  split
  · next h => exact comes_control k key read t h
  · next h =>
    rw [not_or] at h₁
    exact .char fun p => by simp [Reading.step, Reading.inString, h₁.1, h₁.2, h]

theorem comes_quotedChars (u : Text) : Comes ⟨k, .string key read .outside⟩ (u.flatMap quotedChar ++ t)
    ⟨k, .string key (u.reverse ++ read) .outside⟩ t := by
  induction u generalizing read with
  | nil => exact .refl _ _
  | cons c u ih =>
    rw [List.flatMap_cons, List.append_assoc, List.reverse_cons, List.append_assoc]
    exact .trans (comes_quotedChar k key read _ c) (ih (c :: read))

theorem comes_string (u : Text) : Comes ⟨k, .string key [] .outside⟩ (u.flatMap quotedChar ++ '"' :: t)
    ⟨k, Phase.ofString key u⟩ t := by
  refine .trans (comes_quotedChars k key [] _ u) (.char fun p => ?_)
  simp [Reading.step, Reading.inString]

end

/-! ## Where a value starts and ends -/

/-- The text goes on with a comma or on the next line, as it does behind each value written. -/
def Follows (t : Text) : Prop := t.head? = some ',' ∨ t.head? = some '\n'

theorem Follows.exists_cons {t : Text} (h : Follows t) : ∃ c r, t = c :: r ∧ (c = ',' ∨ c = '\n') := by
  cases t with
  | nil => rcases h with h | h <;> exact absurd h (by simp)
  | cons c r => exact ⟨c, r, rfl, h.imp (by simp) (by simp)⟩

/-- The reader is where a value may start, and the value's brackets open inside `k`. -/
def Reading.Awaits (s : Reading) (k : List Frame) : Prop :=
  ∀ p c ph, isBlank c = false → c ≠ ']' → Reading.start k c = .ok ph → s.step p c = .ok ⟨k, ph⟩

theorem awaits_value (k : List Frame) : (⟨k, .value⟩ : Reading).Awaits k := fun p c ph hb _ h => by
  simp [Reading.step, hb, h, Except.map]

theorem awaits_firstItem (k : List Frame) : (⟨k, .firstItem⟩ : Reading).Awaits (.list [] :: k) :=
  fun p c ph hb hc h => by simp [Reading.step, hb, hc, h, Except.map]

theorem awaits_nextItem (k : List Frame) : (⟨k, .nextItem⟩ : Reading).Awaits k := fun p c ph hb hc h => by
  simp [Reading.step, hb, hc, h, Except.map]

/-! ## Words and numbers -/

section

variable {k : List Frame} {s : Reading}

theorem comes_word {rest : Text} (hr : rest ≠ []) (v : Json) (t : Text) :
    Comes ⟨k, .word rest v⟩ (rest ++ t) ⟨k, .done v⟩ t := by
  induction rest with
  | nil => exact absurd rfl hr
  | cons c rest ih =>
    cases rest with
    | nil => exact .char fun p => by simp [Reading.step]
    | cons d rest => exact .trans (.char fun p => by simp [Reading.step]) (ih (by simp))

theorem comes_of_value? {negative : Bool} {n : Number} {v : Json} {t : Text} (ht : Follows t)
    (hn : ∀ c, c = ',' ∨ c = '\n' → n.next c = .ok none) (hv : n.value? negative = some v) :
    Comes ⟨k, .number negative n⟩ t ⟨k, .done v⟩ t := by
  obtain ⟨c, r, rfl, hc⟩ := ht.exists_cons
  exact .of_step_eq fun p => by simp [Reading.step, hn c hc, hv]

def Number.ofWhole (n : Nat) : Number := if n = 0 then .zero else .whole n

theorem next_ofWhole (n : Nat) (c : Char) (hc : c = ',' ∨ c = '\n') : (Number.ofWhole n).next c = .ok none := by
  rw [Number.ofWhole]
  rcases hc with rfl | rfl <;> split <;> rfl

theorem value?_ofWhole (negative : Bool) (n : Nat) : (Number.ofWhole n).value? negative = Number.whole? negative n := by
  rw [Number.ofWhole]
  split
  · next h => rw [h]; rfl
  · rfl

theorem digit?_digitChar {d : Nat} (h : d < 10) : Number.digit? (Nat.digitChar d) = some d := by
  have : ∀ d < 10, Number.digit? (Nat.digitChar d) = some d := by decide
  exact this d h

theorem next_sign {d : Nat} (h : d < 10) : Number.sign.next (Nat.digitChar d) = .ok (some (.ofWhole d)) := by
  simp only [Number.next, digit?_digitChar h, Number.ofWhole]
  split <;> rfl

/-- The decimal digits of a number, from wherever its first digit may stand. -/
theorem comes_digits {negative : Bool} {n : Nat} (hn : n ≤ greatestInteger)
    (hs : ∀ p d, d < 10 → s.step p (Nat.digitChar d) = .ok ⟨k, .number negative (.ofWhole d)⟩) (t : Text) :
    Comes s (Text.ofNat n ++ t) ⟨k, .number negative (.ofWhole n)⟩ t := by
  induction n using Nat.strongRecOn generalizing t with
  | ind n ih =>
    rw [Text.ofNat]
    by_cases h : n < 10
    · rw [Nat.toDigits_of_lt_base h]
      exact .char fun p => hs p n h
    · have hd : n % 10 < 10 := Nat.mod_lt n (by decide)
      have hq : Number.ofWhole (n / 10) = .whole (n / 10) := if_neg (by omega)
      have hw : Number.ofWhole n = .whole n := if_neg (by omega)
      have hsum : n / 10 * 10 + n % 10 = n := by omega
      rw [Nat.toDigits_of_base_le (by decide) (by omega), List.append_assoc]
      refine .trans (ih (n / 10) (by omega) (by omega) _) (.char fun p => ?_)
      simp [Reading.step, hq, hw, Number.next, digit?_digitChar hd, hsum, hn]

theorem Reading.Awaits.step_digit (h : s.Awaits k) (p : Position) {d : Nat} (hd : d < 10) :
    s.step p (Nat.digitChar d) = .ok ⟨k, .number false (.ofWhole d)⟩ := by
  have : ∀ d < 10, isBlank (Nat.digitChar d) = false ∧ Nat.digitChar d ≠ ']' ∧
      Reading.start k (Nat.digitChar d) = .ok (.number false (.ofWhole d)) := by
    intro d hd
    match d, hd with
    | 0, _ | 1, _ | 2, _ | 3, _ | 4, _ | 5, _ | 6, _ | 7, _ | 8, _ | 9, _ => exact ⟨rfl, by decide, rfl⟩
  obtain ⟨h₁, h₂, h₃⟩ := this d hd
  exact h p _ _ h₁ h₂ h₃

theorem Reading.Awaits.step_minus (h : s.Awaits k) (p : Position) : s.step p '-' = .ok ⟨k, .number true .sign⟩ :=
  h p '-' _ rfl (by decide) rfl

theorem comes_integer (h : s.Awaits k) {n : Int} (hn : Whole (.integer n)) {t : Text} (ht : Follows t) :
    Comes s (Text.ofInt n ++ t) ⟨k, .done (.integer n)⟩ t := by
  obtain ⟨hl, hg⟩ : -(leastInteger : Int) ≤ n ∧ n ≤ greatestInteger := hn
  cases n with
  | ofNat n =>
    have hn : n ≤ greatestInteger := Int.ofNat_le.1 hg
    refine .trans (comes_digits hn (fun p d hd => h.step_digit p hd) t) (comes_of_value? ht (next_ofWhole n) ?_)
    rw [value?_ofWhole]
    rfl
  | negSucc n =>
    have hn : n + 1 ≤ leastInteger := by omega
    have hg : n + 1 ≤ greatestInteger := Nat.le_trans hn (by decide)
    refine .trans (.char fun p => h.step_minus p) ?_
    have hs : ∀ p d, d < 10 → Reading.step p ⟨k, .number true .sign⟩ (Nat.digitChar d) =
        .ok ⟨k, .number true (.ofWhole d)⟩ := by
      intro p d hd
      simp [Reading.step, next_sign hd]
    refine .trans (comes_digits hg hs t) (comes_of_value? ht (next_ofWhole _) ?_)
    rw [value?_ofWhole, Number.whole?, if_neg (by decide), if_pos ⟨Nat.succ_ne_zero n, hn⟩]
    rfl

/-- Zero with a minus sign, which is written as a fraction. -/
theorem comes_minusZero (h : s.Awaits k) {t : Text} (ht : Follows t) :
    Comes s (fractions.write (Binary64.zero true) ++ t) ⟨k, .done (.float (Binary64.zero true))⟩ t := by
  have hw : fractions.write (Binary64.zero true) = ['-', '0', '.', '0'] := by decide
  rw [hw]
  refine .trans (.char fun p => h.step_minus p) ?_
  refine .trans (.char (r := ⟨k, .number true .zero⟩) fun p => rfl) ?_
  refine .trans (.char (r := ⟨k, .number true (.decimals 0 0 0)⟩) fun p => rfl) ?_
  refine .trans (.char (r := ⟨k, .number true (.decimals 0 0 1)⟩) fun p => rfl) ?_
  refine comes_of_value? ht (fun c hc => ?_) (by decide)
  rcases hc with rfl | rfl <;> rfl

end

/-! ## Values -/

theorem follows_prettyItems (d e : Nat) (items : List Json) (t : Text) :
    Follows (prettyItems d items ++ (newLine e ++ t)) := by
  cases items with
  | nil => exact .inr rfl
  | cons v items => exact .inl rfl

theorem follows_prettyFields (d e : Nat) (fields : List (Text × Json)) (t : Text) :
    Follows (prettyFields d fields ++ (newLine e ++ t)) := by
  cases fields with
  | nil => exact .inr rfl
  | cons f fields => exact .inl rfl

theorem set_of_notMem {key : Text} {v : Json} {fields : List (Text × Json)} (h : key ∉ fields.map Prod.fst) :
    Record.set key v fields = fields ++ [(key, v)] := by
  induction fields with
  | nil => rfl
  | cons f fields ih =>
    obtain ⟨l, w⟩ := f
    rw [List.map_cons, List.mem_cons, not_or] at h
    rw [Record.set, if_neg (by simpa using Ne.symm h.1), ih h.2, List.cons_append]

theorem comes_key (k : List Frame) (fields : List (Text × Json)) (key t : Text) :
    Comes ⟨k, .string (some fields) [] .outside⟩ (key.flatMap quotedChar ++ '"' :: ':' :: ' ' :: t)
      ⟨.field fields key :: k, .value⟩ t := by
  refine .trans (comes_string k (some fields) _ key) ?_
  refine .trans (.char (r := ⟨.field fields key :: k, .value⟩) fun p => rfl) ?_
  exact .char fun p => idle_value _ p ' ' rfl

mutual

/-- A written value, wherever a value may start with room for its brackets. -/
theorem comes_value (d : Nat) (v : Json) {s : Reading} {k : List Frame} (hs : s.Awaits k)
    (hn : Nested (roomAt k.length) v) (hw : Whole v) {t : Text} (ht : Follows t) :
    Comes s (prettyAt d v ++ t) ⟨k, .done v⟩ t := by
  have free : 0 < roomAt k.length → ¬ greatestDepth ≤ k.length := fun h => by rw [roomAt] at h; omega
  have room : roomAt k.length - 1 = roomAt (k.length + 1) := by rw [roomAt, roomAt, Nat.sub_sub]
  match v with
  | .null => exact .trans (.char fun p => hs p 'n' _ rfl (by decide) rfl) (comes_word (by simp) _ t)
  | .bool true => exact .trans (.char fun p => hs p 't' _ rfl (by decide) rfl) (comes_word (by simp) _ t)
  | .bool false => exact .trans (.char fun p => hs p 'f' _ rfl (by decide) rfl) (comes_word (by simp) _ t)
  | .integer n => exact comes_integer hs hw ht
  | .float x =>
    obtain rfl : x = Binary64.zero true := hw
    exact comes_minusZero hs ht
  | .string u =>
    have hq : prettyAt d (.string u) = '"' :: u.flatMap quotedChar ++ ['"'] := rfl
    simp only [hq, List.cons_append, List.append_assoc, List.nil_append]
    exact .trans (.char fun p => hs p '"' _ rfl (by decide) rfl) (comes_string k none t u)
  | .list [] =>
    have h := free hn.1
    refine .trans (.char (r := ⟨k, .firstItem⟩) fun p => hs p '[' _ rfl (by decide) ?_) (.char fun p => rfl)
    simp [Reading.start, h]
  | .object [] =>
    have h := free hn.1
    refine .trans (.char (r := ⟨k, .firstKey⟩) fun p => hs p '{' _ rfl (by decide) ?_) (.char fun p => rfl)
    simp [Reading.start, h]
  | .list (v :: items) =>
    have h := free hn.1
    have hi := hn.2
    rw [room] at hi
    rw [prettyAt]
    simp only [List.cons_append, List.append_assoc, List.nil_append]
    refine .trans (.char (r := ⟨k, .firstItem⟩) fun p => hs p '[' _ rfl (by decide) ?_) ?_
    · simp [Reading.start, h]
    refine .trans ((idle_firstItem k).comes (isBlank_newLine _) _) ?_
    refine .trans (comes_value (d + 1) v (awaits_firstItem k) hi.1 hw.1 (follows_prettyItems ..)) ?_
    exact comes_items (d + 1) d items [] v hi.2 hw.2 t
  | .object ((key, v) :: fields) =>
    have h := free hn.1
    obtain ⟨-, hk, hf⟩ := hn
    rw [room] at hf
    rw [prettyAt, quoted]
    simp only [List.cons_append, List.append_assoc, List.nil_append]
    refine .trans (.char (r := ⟨k, .firstKey⟩) fun p => hs p '{' _ rfl (by decide) ?_) ?_
    · simp [Reading.start, h]
    refine .trans ((idle_firstKey k).comes (isBlank_newLine _) _) ?_
    refine .trans (.char (r := ⟨k, .string (some []) [] .outside⟩) fun p => rfl) ?_
    refine .trans (comes_key k [] key _) ?_
    refine .trans (comes_value (d + 1) v (awaits_value (.field [] key :: k)) hf.1 hw.1 (follows_prettyFields ..)) ?_
    exact comes_fields (d + 1) d fields [] key v hk hf.2 hw.2 t

/-- The items behind one that has been read, up to the end of their list. -/
theorem comes_items (d e : Nat) (items read : List Json) (v : Json) {k : List Frame}
    (hn : NestedItems (roomAt (k.length + 1)) items) (hw : WholeItems items) (t : Text) :
    Comes ⟨.list read :: k, .done v⟩ (prettyItems d items ++ (newLine e ++ ']' :: t))
      ⟨k, .done (.list (read.reverse ++ v :: items))⟩ t := by
  match items with
  | [] =>
    refine .trans ((idle_done _ v).comes (isBlank_newLine e) _) (.char fun p => ?_)
    simp [Reading.step, Reading.after, isBlank]
  | w :: items =>
    rw [prettyItems]
    simp only [List.cons_append, List.append_assoc]
    refine .trans (.char (r := ⟨.list (v :: read) :: k, .nextItem⟩) fun p => rfl) ?_
    refine .trans ((idle_nextItem _).comes (isBlank_newLine d) _) ?_
    refine .trans (comes_value d w (awaits_nextItem (.list (v :: read) :: k)) hn.1 hw.1 (follows_prettyItems ..)) ?_
    have := comes_items d e items (v :: read) w hn.2 hw.2 t
    rwa [List.reverse_cons, List.append_assoc] at this

/-- The fields behind one that has been read, up to the end of their object. -/
theorem comes_fields (d e : Nat) (fields read : List (Text × Json)) (key : Text) (v : Json) {k : List Frame}
    (hk : ((read ++ (key, v) :: fields).map Prod.fst).Nodup) (hn : NestedFields (roomAt (k.length + 1)) fields)
    (hw : WholeFields fields) (t : Text) :
    Comes ⟨.field read key :: k, .done v⟩ (prettyFields d fields ++ (newLine e ++ '}' :: t))
      ⟨k, .done (.object (read ++ (key, v) :: fields))⟩ t := by
  have hset : Record.set key v read = read ++ [(key, v)] := set_of_notMem fun h => by
    rw [List.map_append, List.map_cons] at hk
    exact (List.nodup_append.1 hk).2.2 key h key List.mem_cons_self rfl
  match fields with
  | [] =>
    refine .trans ((idle_done _ v).comes (isBlank_newLine e) _) (.char fun p => ?_)
    simp [Reading.step, Reading.after, isBlank, hset]
  | (l, w) :: fields =>
    rw [prettyFields, quoted]
    simp only [List.cons_append, List.append_assoc, List.nil_append]
    refine .trans (.char (r := ⟨k, .nextKey (read ++ [(key, v)])⟩) fun p => ?_) ?_
    · simp [Reading.step, Reading.after, isBlank, hset]
    refine .trans ((idle_nextKey _ _).comes (isBlank_newLine d) _) ?_
    refine .trans (.char (r := ⟨k, .string (some (read ++ [(key, v)])) [] .outside⟩) fun p => rfl) ?_
    refine .trans (comes_key k _ l _) ?_
    refine .trans
      (comes_value d w (awaits_value (.field (read ++ [(key, v)]) l :: k)) hn.1 hw.1 (follows_prettyFields ..)) ?_
    have := comes_fields d e fields (read ++ [(key, v)]) l w (by rwa [List.append_assoc]) hn.2 hw.2 t
    rwa [List.append_assoc] at this

end

/-- A document in its printed form reads as itself. -/
theorem read_pretty {v : Json} (hn : Nested greatestDepth v) (hw : Whole v) : read (v.pretty ++ ['\n']) = .ok v := by
  obtain ⟨p, hp⟩ := comes_value 0 v (awaits_value []) hn hw (t := ['\n']) (.inr rfl) {}
  rw [read, pretty, hp]
  rfl

end LanguageRoster.Json
