import LanguageRoster.Proofs.Json.Shape

/-!
# Texts that are no documents

An equals sign can stand in a string of a document only, and strings do not go on over the end of a line.

* `Reading.Doomed` : the reader is in an escape that cannot be completed any more
* `run_outside_ne_ok` : a string that is still open at the end of its line
* `read_ne_ok` : no document has an equals sign with neither a quote nor a backslash between it and the end of its line
-/

namespace LanguageRoster.Json

set_option autoImplicit false

/-! ## Escapes that cannot be completed -/

/-- A character was read in an escape that is no digit of it. -/
def Reading.Doomed (s : Reading) : Prop :=
  ∃ key read lead bytes, s.phase = .string key read (.number lead bytes none)

section

variable {p : Position} {s s' : Reading} {c : Char} {t : Text} {v : Json}

theorem doomed_step (hs : s.Doomed) (h : s.step p c = .ok s') : s'.Doomed := by
  obtain ⟨k, phase⟩ := s
  obtain ⟨key, read, lead, bytes, rfl⟩ := hs
  simp only [Reading.step, Reading.inString] at h
  split at h
  · exact Except.ok.inj h ▸ ⟨key, read, lead, _, rfl⟩
  · exact absurd h (by simp)

theorem run_doomed_ne_ok (hs : s.Doomed) : Reading.run p s t ≠ .ok v := by
  induction t generalizing p s with
  | nil =>
    obtain ⟨k, phase⟩ := s
    obtain ⟨key, read, lead, bytes, rfl⟩ := hs
    simp [Reading.run, Reading.finish]
  | cons c t ih =>
    rw [Reading.run]
    split
    · next s' hs' => exact ih (doomed_step hs hs')
    · simp

end

/-! ## Strings -/

/-- A string that is open at the end of its line. -/
theorem run_outside_ne_ok {u : Text} (hu : ∀ c ∈ u, c ≠ '"' ∧ c ≠ '\\') (rest : Text) (p : Position) (k : List Frame)
    (key : Option (List (Text × Json))) (read : Text) (v : Json) :
    Reading.run p ⟨k, .string key read .outside⟩ (u ++ '\n' :: rest) ≠ .ok v := by
  induction u generalizing p read with
  | nil => simp [Reading.run, Reading.step, Reading.inString]
  | cons c u ih =>
    obtain ⟨hq, hb⟩ := hu c List.mem_cons_self
    rw [List.cons_append, Reading.run]
    simp only [Reading.step, Reading.inString, hq, hb, if_false]
    by_cases hc : c.toNat < 0x20
    · simp [hc]
    · simpa only [hc, if_false] using ih (fun d hd => hu d (List.mem_cons_of_mem _ hd)) _ _

/-! ## Equals signs -/

theorem after_equals_ne_ok (k : List Frame) (v : Json) (s : Reading) : Reading.after k v '=' ≠ .ok s := by
  match k with
  | [] | .list _ :: _ | .field .. :: _ => simp [Reading.after, isBlank]

theorem start_equals (k : List Frame) : Reading.start k '=' = .error .noValue := rfl

theorem next_equals (n : Number) : n.next '=' = .error .invalid ∨ n.next '=' = .ok none := by
  cases n with
  | decimals n dropped places => cases places <;> simp [Number.next, Number.digit?, Number.nextMark]
  | _ => simp [Number.next, Number.digit?, Number.nextPoint, Number.nextMark]

/-- Only strings take an equals sign. -/
theorem step_equals {p : Position} {s s' : Reading} (hs : s.Sound) (h : s.step p '=' = .ok s') :
    (∃ k key read, s' = ⟨k, .string key read .outside⟩) ∨ s'.Doomed := by
  obtain ⟨k, phase⟩ := s
  have after : ∀ v, (Reading.after k v '=').mapError (fun m => (⟨m, p.within '=' 1⟩ : Malformed)) ≠ .ok s' :=
    fun v hv => after_equals_ne_ok k v s' (mapError_eq_ok hv)
  cases phase with
  | value | firstItem | nextItem => simp [Reading.step, isBlank, start_equals, Except.map] at h
  | firstKey | nextKey | colon => simp [Reading.step, isBlank] at h
  | word rest v =>
    have hr : '=' ∉ rest := fun he => absurd (hs.phase.1 _ he) (by decide)
    match rest with
    | [] => exact absurd h (after v)
    | [d] => simp [Reading.step, List.ne_of_not_mem_cons hr] at h
    | d :: e :: rest => simp [Reading.step, List.ne_of_not_mem_cons hr] at h
  | number negative n =>
    simp only [Reading.step] at h
    rcases next_equals n with hn | hn <;> rw [hn] at h
    · simp at h
    · simp only at h
      split at h
      · exact absurd h (after _)
      · exact absurd h (by simp)
  | string key read e =>
    cases e with
    | outside => exact .inl ⟨k, key, '=' :: read, (Except.ok.inj h).symm⟩
    | number lead bytes n =>
      have hx : (do return (← n) * 16 + (← hexDigit? '=') : Option Nat) = none := by cases n <;> rfl
      simp only [Reading.step, Reading.inString, hx] at h
      split at h
      · exact .inr (Except.ok.inj h ▸ ⟨key, read, lead, _, rfl⟩)
      · exact absurd h (by simp)
    | slash | pair | pairSlash => exact absurd h (by simp [Reading.step, Reading.inString, escaped?])
  | done v => exact absurd h (after v)

/-- No document has an equals sign with neither a quote nor a backslash between it and the end of its line. -/
theorem read_ne_ok {a u : Text} (hu : ∀ c ∈ u, c ≠ '"' ∧ c ≠ '\\') (rest : Text) (v : Json) :
    read (a ++ '=' :: (u ++ '\n' :: rest)) ≠ .ok v := by
  suffices ∀ (p : Position) (s : Reading), s.Sound → Reading.run p s (a ++ '=' :: (u ++ '\n' :: rest)) ≠ .ok v from
    this {} ⟨[], .value⟩ ⟨trivial, trivial⟩
  induction a with
  | nil =>
    intro p s hs
    rw [List.nil_append, Reading.run]
    split
    · next s' hs' =>
      rcases step_equals hs hs' with ⟨k, key, read, rfl⟩ | hd
      · exact run_outside_ne_ok hu rest _ k key read v
      · exact run_doomed_ne_ok hd
    · simp
  | cons c a ih =>
    intro p s hs
    rw [List.cons_append, Reading.run]
    split
    · next s' hs' => exact ih _ s' (step_sound hs hs')
    · simp

end LanguageRoster.Json
