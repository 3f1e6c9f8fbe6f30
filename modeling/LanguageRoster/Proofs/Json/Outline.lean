import LanguageRoster.Proofs.Json.RoundTrip

/-!
# What is written reads back but for its numbers

A fraction may read as another one than was written, and the largest as none. All else reads back.

* `Json.outline` : a document with its numbers blotted out; `field?_outline` looks up a field of it
* `IsFigure`, `figures_ofInt`, `figures_write` : the characters of the numbers that are written
* `Reaches s t k v t'` : if `t` can be read from the state `s`, a value with the outline of `v` is read first, and then
  the rest `t'`
* `reaches_value` : a written value, read behind any brackets that leave room for it
* `outline_of_read_pretty` : the printed form of a nested document reads, if at all, as a document with its outline
-/

namespace LanguageRoster.Json

set_option autoImplicit false

/-! ## Outlines -/

mutual

/-- The document with zero for each of its numbers. -/
def outline : Json → Json
  | .integer _ => .integer 0
  | .float _ => .integer 0
  | .list items => .list (outlineItems items)
  | .object fields => .object (outlineFields fields)
  | .null => .null
  | .bool b => .bool b
  | .string t => .string t

def outlineItems : List Json → List Json
  | [] => []
  | v :: items => outline v :: outlineItems items

def outlineFields : List (Text × Json) → List (Text × Json)
  | [] => []
  | (k, v) :: fields => (k, outline v) :: outlineFields fields

end

theorem outlineItems_eq (items : List Json) : outlineItems items = items.map outline := by
  induction items with
  | nil => rfl
  | cons v items ih => rw [outlineItems, ih, List.map_cons]

theorem lookup_outlineFields (key : Text) (fields : List (Text × Json)) :
    (outlineFields fields).lookup key = (fields.lookup key).map outline := by
  induction fields with
  | nil => rfl
  | cons f fields ih =>
    obtain ⟨k, v⟩ := f
    rw [outlineFields, List.lookup_cons, List.lookup_cons]
    split
    · rfl
    · exact ih

theorem field?_outline (key : Text) (v : Json) : v.outline.field? key = (v.field? key).map outline := by
  cases v with
  | object fields => exact lookup_outlineFields key fields
  | _ => rfl

theorem outline_eq_string {v : Json} {t : Text} : v.outline = .string t ↔ v = .string t := by
  cases v <;> simp [outline]

theorem outline_eq_bool {v : Json} {b : Bool} : v.outline = .bool b ↔ v = .bool b := by
  cases v <;> simp [outline]

/-! ## Characters of numbers -/

def IsFigure (c : Char) : Prop := c.isDigit = true ∨ c ∈ ['.', 'e', '+', '-']

theorem IsFigure.not_blank {c : Char} (h : IsFigure c) : isBlank c = false := by
  rcases h with h | h
  · rw [isBlank]
    simp only [Bool.or_eq_false_iff, beq_eq_false_iff_ne]
    refine ⟨⟨⟨?_, ?_⟩, ?_⟩, ?_⟩ <;> rintro rfl <;> exact absurd h (by decide)
  · simp only [List.mem_cons, List.not_mem_nil, or_false] at h
    rcases h with rfl | rfl | rfl | rfl <;> rfl

theorem IsFigure.not_end {c : Char} (h : IsFigure c) : c ≠ ',' ∧ c ≠ ']' ∧ c ≠ '}' := by
  refine ⟨?_, ?_, ?_⟩ <;> rintro rfl <;> exact absurd h (by simp [IsFigure])

def Figures (u : Text) : Prop := ∀ c ∈ u, IsFigure c

theorem Figures.append {u v : Text} (hu : Figures u) (hv : Figures v) : Figures (u ++ v) := fun c hc =>
  (List.mem_append.1 hc).elim (hu c) (hv c)

theorem Figures.cons {c : Char} {u : Text} (hc : IsFigure c) (hu : Figures u) : Figures (c :: u) :=
  Figures.append (u := [c]) (fun _ h => List.mem_singleton.1 h ▸ hc) hu

theorem Figures.of_subset {u v : Text} (hu : Figures u) (h : v ⊆ u) : Figures v := fun c hc => hu c (h hc)

theorem figures_ofNat (n : Nat) : Figures (Text.ofNat n) := fun _ hc =>
  .inl (Nat.isDigit_of_mem_toDigits (by decide) (by decide) hc)

theorem figures_zeros (n : Nat) : Figures (List.replicate n '0') := fun _ hc =>
  .inl (List.eq_of_mem_replicate hc ▸ rfl)

theorem figures_ofInt (n : Int) : Figures (Text.ofInt n) := by
  cases n with
  | ofNat n => exact figures_ofNat n
  | negSucc n => exact .cons (.inr (by simp)) (figures_ofNat (n + 1))

theorem figures_digitsFrom (tie : Tie) (x : Binary64) (point : Int) (fuel n : Nat) :
    Figures (x.digitsFrom tie point fuel n).digits := by
  induction fuel generalizing n with
  | zero => exact figures_zeros 1
  | succ fuel ih =>
    rw [Binary64.digitsFrom]
    split
    · next k _ =>
      refine (figures_ofNat k).of_subset fun c hc => ?_
      rw [Text.dropEnd, List.mem_reverse] at hc
      exact List.mem_reverse.1 ((List.dropWhile_sublist _).subset hc)
    · exact ih (n + 1)

theorem figures_shortest (tie : Tie) (x : Binary64) : Figures (x.shortest tie).digits := by
  rw [Binary64.shortest]
  split
  · exact figures_zeros 1
  · exact figures_digitsFrom tie x _ 17 1

theorem figures_positional {d : Digits} (h : Figures d.digits) : Figures (DecimalStyle.positional true d) := by
  rw [DecimalStyle.positional]
  split
  · exact .append (.append (.cons (.inl rfl) (.cons (.inr (by simp)) nofun)) (figures_zeros _)) h
  split
  · exact .append (.append h (figures_zeros _)) (.cons (.inr (by simp)) (figures_zeros 1))
  · exact .append (h.of_subset (List.take_subset _ _)) (.cons (.inr (by simp)) (h.of_subset (List.drop_subset _ _)))

theorem figures_scientific {d : Digits} (h : Figures d.digits) : Figures (DecimalStyle.scientific d) := by
  rw [DecimalStyle.scientific]
  refine .append (.append (.append (h.of_subset (List.take_subset _ _)) ?_) (.cons (.inr (by simp)) ?_))
    (figures_ofInt _)
  · split
    · exact nofun
    · exact .cons (.inr (by simp)) (h.of_subset (List.drop_subset _ _))
  · split
    · exact nofun
    · exact .cons (.inr (by simp)) nofun

theorem figures_write (x : Binary64) : Figures (fractions.write x) := by
  rw [DecimalStyle.write]
  refine .append ?_ ?_
  · split
    · exact .cons (.inr (by simp)) nofun
    · exact nofun
  · split
    · exact figures_positional (figures_shortest _ x)
    · exact figures_scientific (figures_shortest _ x)

theorem write_ne_nil (x : Binary64) : fractions.write x ≠ [] := by
  rw [DecimalStyle.write]
  refine List.append_ne_nil_of_right_ne_nil _ ?_
  split
  · rw [DecimalStyle.positional]
    split
    · simp
    split <;> simp [fractions]
  · simp [DecimalStyle.scientific]

theorem ofInt_ne_nil (n : Int) : Text.ofInt n ≠ [] := by
  cases n with
  | ofNat n => exact Nat.toDigits_ne_nil
  | negSucc n => exact List.cons_ne_nil _ _

/-! ## Numbers -/

/-- The reader is where a value may start, and the value's brackets open inside `k`; what cannot start a value it
refuses. -/
def Reading.Starts (s : Reading) (k : List Frame) : Prop :=
  ∀ p c, isBlank c = false → c ≠ ']' →
    s.step p c = ((Reading.start k c).map (⟨k, ·⟩)).mapError (⟨·, p.within c 1⟩)

theorem starts_value (k : List Frame) : (⟨k, .value⟩ : Reading).Starts k := fun p c hb _ => by
  simp [Reading.step, hb]

theorem starts_firstItem (k : List Frame) : (⟨k, .firstItem⟩ : Reading).Starts (.list [] :: k) := fun p c hb hc => by
  simp [Reading.step, hb, hc]

theorem starts_nextItem (k : List Frame) : (⟨k, .nextItem⟩ : Reading).Starts k := fun p c hb hc => by
  simp [Reading.step, hb, hc]

theorem Reading.Starts.awaits {s : Reading} {k : List Frame} (h : s.Starts k) : s.Awaits k :=
  fun p c ph hb hc hs => by rw [h p c hb hc, hs]; rfl

section

variable {k : List Frame} {s : Reading} {negative : Bool} {doc : Json}

theorem exists_step {p : Position} {c : Char} {t : Text} (h : Reading.run p s (c :: t) = .ok doc) :
    ∃ r, s.step p c = .ok r ∧ Reading.run (p.past c) r t = .ok doc := by
  rw [Reading.run] at h
  split at h
  · next r hr => exact ⟨r, hr, h⟩
  · exact absurd h (by simp)

/-- What can start a number starts no other value. -/
theorem start_figure {c : Char} (hc : IsFigure c) {ph : Phase} (h : Reading.start k c = .ok ph) :
    ∃ negative n, ph = .number negative n := by
  have hne : ∀ {d}, ¬ IsFigure d → c ≠ d := fun hd h => hd (h ▸ hc)
  unfold Reading.start at h
  split at h
  case h_7 => exact ⟨_, _, (Except.ok.inj h).symm⟩
  case h_8 =>
    split at h
    · exact ⟨_, _, (Except.ok.inj h).symm⟩
    · exact absurd h (by simp)
  all_goals exact absurd rfl (hne (by simp [IsFigure]))

/-- Where a number is read, a character of numbers belongs to it. -/
theorem step_figure {p : Position} {n : Number} {c : Char} {r : Reading} (hc : IsFigure c)
    (h : Reading.step p ⟨k, .number negative n⟩ c = .ok r) : ∃ n', r = ⟨k, .number negative n'⟩ := by
  simp only [Reading.step] at h
  split at h
  · exact absurd h (by simp)
  · exact absurd h (by simp)
  · exact ⟨_, (Except.ok.inj h).symm⟩
  · split at h
    · next v _ =>
      have hafter : ∃ e, Reading.after k v c = .error e := by
        obtain ⟨hcomma, hlist, hobject⟩ := hc.not_end
        cases k with
        | nil => simp [Reading.after, hc.not_blank]
        | cons f k => cases f <;> simp [Reading.after, hc.not_blank, hcomma, hlist, hobject]
      obtain ⟨e, he⟩ := hafter
      exact absurd h (by simp [he])
    · exact absurd h (by simp)

theorem next_end (n : Number) {c : Char} (hc : c = ',' ∨ c = '\n') :
    n.next c = .ok none ∨ ∃ f, n.next c = .error f := by
  rcases hc with rfl | rfl <;> rcases n with _ | _ | _ | _ | ⟨_, _, _ | _⟩ | _ | _ | _ | _ | _ <;>
    simp [Number.next, Number.digit?, Number.nextPoint, Number.nextMark]

theorem outline_float? {n : Nat} {e : Int} {v : Json} (h : Number.float? negative n e = some v) :
    v.outline = .integer 0 := by
  obtain ⟨_, -, _, -, h⟩ := by simpa [Number.float?, Option.bind_eq_some_iff] using h
  rw [← h, outline]

theorem outline_whole? {n : Nat} {v : Json} (h : Number.whole? negative n = some v) : v.outline = .integer 0 := by
  rw [Number.whole?] at h
  split at h
  · rw [← Option.some.inj h, outline]
  split at h
  · rw [← Option.some.inj h, outline]
  · exact outline_float? h

theorem outline_value? {n : Number} {v : Json} (h : n.value? negative = some v) : v.outline = .integer 0 := by
  cases n with
  | sign | mark | markSign => exact absurd h (by simp [Number.value?])
  | zero | whole => exact outline_whole? h
  | long | decimals | longDecimals | exponent => exact outline_float? h
  | vanishing => rw [← Option.some.inj h, outline]

/-- The characters of a number are read, as whatever number they may be. -/
theorem run_figures {u t : Text} (hu : Figures u) {p : Position} {n : Number}
    (h : Reading.run p ⟨k, .number negative n⟩ (u ++ t) = .ok doc) :
    ∃ p' n', Reading.run p' ⟨k, .number negative n'⟩ t = .ok doc := by
  induction u generalizing p n with
  | nil => exact ⟨p, n, h⟩
  | cons c u ih =>
    obtain ⟨r, hr, h⟩ := exists_step h
    obtain ⟨n', rfl⟩ := step_figure (hu c List.mem_cons_self) hr
    exact ih (fun x hx => hu x (List.mem_cons_of_mem c hx)) h

/-- A number ends where a value does. -/
theorem run_number {t : Text} (ht : Follows t) {p : Position} {n : Number}
    (h : Reading.run p ⟨k, .number negative n⟩ t = .ok doc) :
    ∃ v, v.outline = .integer 0 ∧ Reading.run p ⟨k, .done v⟩ t = .ok doc := by
  obtain ⟨c, t, rfl, hc⟩ := ht.exists_cons
  obtain ⟨r, hr, -⟩ := exists_step h
  rcases next_end n hc with hn | ⟨f, hn⟩
  · cases hv : n.value? negative with
    | none => exact absurd hr (by simp [Reading.step, hn, hv])
    | some v =>
      refine ⟨v, outline_value? hv, ?_⟩
      rw [← h, Reading.run, Reading.run]
      simp only [Reading.step, hn, hv]
  · cases f <;> exact absurd hr (by simp [Reading.step, hn])

end

/-! ## Values -/

/-- If the text `t` can be read from the state `s` at all, the reader comes to a value with the outline of `v`, inside
the brackets `k` and before the text `t'`. -/
def Reaches (s : Reading) (t : Text) (k : List Frame) (v : Json) (t' : Text) : Prop :=
  ∀ p doc, Reading.run p s t = .ok doc →
    ∃ p' v', v'.outline = v.outline ∧ Reading.run p' ⟨k, .done v'⟩ t' = .ok doc

section

variable {k : List Frame} {s s' : Reading} {v : Json} {t t' t'' : Text}

theorem Comes.reaches (h : Comes s t s' t') (h' : Reaches s' t' k v t'') : Reaches s t k v t'' := by
  intro p doc hp
  obtain ⟨p', hp'⟩ := h p
  exact h' p' doc (hp' ▸ hp)

theorem Comes.reaches_done (h : Comes s t ⟨k, .done v⟩ t') : Reaches s t k v t' :=
  h.reaches fun p _ hp => ⟨p, v, rfl, hp⟩

theorem reaches_number {u : Text} (hs : s.Starts k) (hu : Figures u) (hne : u ≠ []) (hv : v.outline = .integer 0)
    (ht : Follows t) : Reaches s (u ++ t) k v t := by
  obtain ⟨c, u, rfl⟩ := List.exists_cons_of_ne_nil hne
  have hc : IsFigure c := hu c List.mem_cons_self
  intro p doc hp
  obtain ⟨r, hr, hp⟩ := exists_step hp
  rw [hs p c hc.not_blank hc.not_end.2.1] at hr
  cases hstart : Reading.start k c with
  | error m => exact absurd hr (by simp [hstart, Except.map])
  | ok ph =>
    obtain ⟨negative, n, rfl⟩ := start_figure hc hstart
    rw [hstart] at hr
    obtain rfl := Except.ok.inj hr
    obtain ⟨p', n', hp⟩ := run_figures (fun x hx => hu x (List.mem_cons_of_mem c hx)) hp
    obtain ⟨v', hv', hp⟩ := run_number ht hp
    exact ⟨p', v', hv'.trans hv.symm, hp⟩

end

mutual

/-- A written value, wherever a value may start with room for its brackets. -/
theorem reaches_value (d : Nat) (v : Json) {s : Reading} {k : List Frame} (hs : s.Starts k)
    (hn : Nested (roomAt k.length) v) {t : Text} (ht : Follows t) : Reaches s (prettyAt d v ++ t) k v t := by
  have free : 0 < roomAt k.length → ¬ greatestDepth ≤ k.length := fun h => by rw [roomAt] at h; omega
  have room : roomAt k.length - 1 = roomAt (k.length + 1) := by rw [roomAt, roomAt, Nat.sub_sub]
  match v with
  -- a number need not read back, so all that is used of it is which characters it is made of
  | .integer n => exact reaches_number hs (figures_ofInt n) (ofInt_ne_nil n) rfl ht
  | .float x => exact reaches_number hs (figures_write x) (write_ne_nil x) rfl ht
  -- what holds no number reads back as it is
  | .null => exact (comes_value d .null hs.awaits hn trivial ht).reaches_done
  | .bool b => exact (comes_value d (.bool b) hs.awaits hn trivial ht).reaches_done
  | .string u => exact (comes_value d (.string u) hs.awaits hn trivial ht).reaches_done
  | .list [] => exact (comes_value d (.list []) hs.awaits hn trivial ht).reaches_done
  | .object [] => exact (comes_value d (.object []) hs.awaits hn trivial ht).reaches_done
  | .list (v :: items) =>
    have h := free hn.1
    have hi := hn.2
    rw [room] at hi
    rw [prettyAt]
    simp only [List.cons_append, List.append_assoc, List.nil_append]
    refine Comes.reaches (.char (r := ⟨k, .firstItem⟩) fun p => hs.awaits p '[' _ rfl (by decide) ?_) ?_
    · simp [Reading.start, h]
    refine ((idle_firstItem k).comes (isBlank_newLine _) _).reaches fun p doc hp => ?_
    obtain ⟨p, v', hv, hp⟩ := reaches_value (d + 1) v (starts_firstItem k) hi.1 (follows_prettyItems ..) p doc hp
    obtain ⟨p, items', hitems, hp⟩ := reaches_items (d + 1) d items [] v' hi.2 t p doc hp
    exact ⟨p, _, by simp [outline, outlineItems, hv, hitems], hp⟩
  | .object ((key, v) :: fields) =>
    have h := free hn.1
    obtain ⟨-, hk, hf⟩ := hn
    rw [room] at hf
    rw [prettyAt, quoted]
    simp only [List.cons_append, List.append_assoc, List.nil_append]
    refine Comes.reaches (.char (r := ⟨k, .firstKey⟩) fun p => hs.awaits p '{' _ rfl (by decide) ?_) ?_
    · simp [Reading.start, h]
    refine ((idle_firstKey k).comes (isBlank_newLine _) _).reaches ?_
    refine Comes.reaches (.char (r := ⟨k, .string (some []) [] .outside⟩) fun p => rfl) ?_
    refine (comes_key k [] key _).reaches fun p doc hp => ?_
    obtain ⟨p, v', hv, hp⟩ := reaches_value (d + 1) v (starts_value (.field [] key :: k)) hf.1
      (follows_prettyFields ..) p doc hp
    obtain ⟨p, fields', hfields, hp⟩ := reaches_fields (d + 1) d fields [] key v' hk hf.2 t p doc hp
    exact ⟨p, _, by simp [outline, outlineFields, hv, hfields], hp⟩
termination_by structural v

/-- The items behind one that has been read, up to the end of their list. -/
theorem reaches_items (d e : Nat) (items read : List Json) (v : Json) {k : List Frame}
    (hn : NestedItems (roomAt (k.length + 1)) items) (t : Text) (p : Position) (doc : Json)
    (hp : Reading.run p ⟨.list read :: k, .done v⟩ (prettyItems d items ++ (newLine e ++ ']' :: t)) = .ok doc) :
    ∃ p' items', outlineItems items' = outlineItems items ∧
      Reading.run p' ⟨k, .done (.list (read.reverse ++ v :: items'))⟩ t = .ok doc := by
  match items with
  | [] =>
    obtain ⟨p', hp'⟩ := comes_items d e [] read v hn trivial t p
    exact ⟨p', [], rfl, hp' ▸ hp⟩
  | w :: items =>
    rw [prettyItems] at hp
    simp only [List.cons_append, List.append_assoc] at hp
    have hcomma : ∀ u, Comes ⟨.list read :: k, .done v⟩ (',' :: u) ⟨.list (v :: read) :: k, .nextItem⟩ u := fun u =>
      .char fun p => rfl
    obtain ⟨p, hq⟩ := (hcomma _).trans ((idle_nextItem _).comes (isBlank_newLine d) _) p
    obtain ⟨p, w', hw, hp⟩ := reaches_value d w (starts_nextItem (.list (v :: read) :: k)) hn.1
      (follows_prettyItems ..) p doc (hq ▸ hp)
    obtain ⟨p, items', hitems, hp⟩ := reaches_items d e items (v :: read) w' hn.2 t p doc hp
    rw [List.reverse_cons, List.append_assoc] at hp
    exact ⟨p, w' :: items', by simp [outlineItems, hw, hitems], hp⟩
termination_by structural items

/-- The fields behind one that has been read, up to the end of their object. -/
theorem reaches_fields (d e : Nat) (fields read : List (Text × Json)) (key : Text) (v : Json) {k : List Frame}
    (hk : ((read ++ (key, v) :: fields).map Prod.fst).Nodup) (hn : NestedFields (roomAt (k.length + 1)) fields)
    (t : Text) (p : Position) (doc : Json)
    (hp : Reading.run p ⟨.field read key :: k, .done v⟩ (prettyFields d fields ++ (newLine e ++ '}' :: t)) = .ok doc) :
    ∃ p' fields', outlineFields fields' = outlineFields fields ∧
      Reading.run p' ⟨k, .done (.object (read ++ (key, v) :: fields'))⟩ t = .ok doc := by
  match fields with
  | [] =>
    obtain ⟨p', hp'⟩ := comes_fields d e [] read key v hk hn trivial t p
    exact ⟨p', [], rfl, hp' ▸ hp⟩
  | (l, w) :: fields =>
    have hset : Record.set key v read = read ++ [(key, v)] := set_of_notMem fun h => by
      rw [List.map_append, List.map_cons] at hk
      exact (List.nodup_append.1 hk).2.2 key h key List.mem_cons_self rfl
    rw [prettyFields, quoted] at hp
    simp only [List.cons_append, List.append_assoc, List.nil_append] at hp
    have hcomma : ∀ u, Comes ⟨.field read key :: k, .done v⟩ (',' :: u) ⟨k, .nextKey (read ++ [(key, v)])⟩ u :=
      fun u => .char fun p => by simp [Reading.step, Reading.after, isBlank, hset]
    have hquote : ∀ u, Comes ⟨k, .nextKey (read ++ [(key, v)])⟩ ('"' :: u)
        ⟨k, .string (some (read ++ [(key, v)])) [] .outside⟩ u := fun u => .char fun p => rfl
    obtain ⟨p, hq⟩ := (hcomma _).trans (((idle_nextKey _ _).comes (isBlank_newLine d) _).trans
      ((hquote _).trans (comes_key k _ l _))) p
    obtain ⟨p, w', hw, hp⟩ := reaches_value d w (starts_value (.field (read ++ [(key, v)]) l :: k)) hn.1
      (follows_prettyFields ..) p doc (hq ▸ hp)
    obtain ⟨p, fields', hfields, hp⟩ := reaches_fields d e fields (read ++ [(key, v)]) l w'
      (by simpa using hk) hn.2 t p doc hp
    rw [List.append_assoc] at hp
    exact ⟨p, (l, w') :: fields', by simp [outlineFields, hw, hfields], hp⟩
termination_by structural fields

end

theorem outline_of_read_pretty {v v' : Json} (hn : Nested greatestDepth v) (h : read (v.pretty ++ ['\n']) = .ok v') :
    v'.outline = v.outline := by
  obtain ⟨p, w, hw, hp⟩ := reaches_value 0 v (starts_value []) hn (t := ['\n']) (.inr rfl) {} v' h
  obtain rfl : w = v' := Except.ok.inj hp
  exact hw

end LanguageRoster.Json
