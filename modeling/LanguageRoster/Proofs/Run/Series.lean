import Mathlib.Data.List.Induction

/-!
# Series of steps

Steps taken one after another, each from where the one before it left.

* `Turn` : a step that was taken, with what was asked for, what came of it, and the states before and behind it
* `turns`, `behind` : the steps of a series, and the state behind all of them
* `reported` : what was asked for in the steps with a certain result
* `series_induction` : what holds at the start and is kept by each step
-/

namespace LanguageRoster

set_option autoImplicit false

structure Turn (ι ρ ω : Type) where
  asked : ι
  result : ρ
  before : ω
  after : ω

section

variable {ι ρ ω : Type} (step : ι → ω → ρ × ω)

def turn (w : ω) (i : ι) : Turn ι ρ ω := ⟨i, (step i w).1, w, (step i w).2⟩

@[simp] theorem turn_asked (w : ω) (i : ι) : (turn step w i).asked = i := rfl

@[simp] theorem turn_result (w : ω) (i : ι) : (turn step w i).result = (step i w).1 := rfl

@[simp] theorem turn_before (w : ω) (i : ι) : (turn step w i).before = w := rfl

@[simp] theorem turn_after (w : ω) (i : ι) : (turn step w i).after = (step i w).2 := rfl

/-- The steps of the series that starts in the state `w`. -/
def turns (w : ω) : List ι → List (Turn ι ρ ω)
  | [] => []
  | i :: is => turn step w i :: turns (step i w).2 is

def behind (w : ω) (is : List ι) : ω := is.foldl (fun w i => (step i w).2) w

theorem behind_append (w : ω) (is js : List ι) : behind step w (is ++ js) = behind step (behind step w is) js :=
  List.foldl_append

theorem turns_append (w : ω) (is js : List ι) :
    turns step w (is ++ js) = turns step w is ++ turns step (behind step w is) js := by
  induction is generalizing w with
  | nil => rfl
  | cons i is ih =>
    rw [List.cons_append, turns, ih, turns, List.cons_append]
    rfl

theorem map_asked_turns (w : ω) (is : List ι) : (turns step w is).map Turn.asked = is := by
  induction is generalizing w with
  | nil => rfl
  | cons i is ih =>
    rw [turns, List.map_cons, ih]
    rfl

/-! ## What was reported -/

section

variable [DecidableEq ρ] {past : List (Turn ι ρ ω)} {t : Turn ι ρ ω} {r : ρ}

/-- What was asked for in the steps with this result, in order. -/
def reported (r : ρ) (past : List (Turn ι ρ ω)) : List ι := (past.filter fun t => t.result = r).map Turn.asked

theorem reported_concat (h : t.result = r) : reported r (past ++ [t]) = reported r past ++ [t.asked] := by
  simp [reported, h]

theorem reported_concat_of_ne (h : t.result ≠ r) : reported r (past ++ [t]) = reported r past := by
  simp [reported, h]

end

/-! ## Induction -/

variable {step}

/-- If `Inv` holds at the start, each step keeps it, and each step is as `Q` says behind the steps before it, then `Inv`
holds at the end and all steps of the series are as `Q` says. -/
theorem series_induction {w : ω} {Inv : List (Turn ι ρ ω) → ω → Prop} {Q : List (Turn ι ρ ω) → Turn ι ρ ω → Prop}
    (start : Inv [] w)
    (keep : ∀ past v i, Inv past v → Inv (past ++ [turn step v i]) (step i v).2 ∧ Q past (turn step v i))
    (is : List ι) :
    Inv (turns step w is) (behind step w is) ∧
      ∀ past t rest, turns step w is = past ++ t :: rest → Q past t := by
  induction is using List.reverseRecOn with
  | nil => exact ⟨start, fun past t rest h => absurd h.symm (by simp [turns])⟩
  | append_singleton is i ih =>
    obtain ⟨hinv, hall⟩ := ih
    obtain ⟨hinv', hlast⟩ := keep (turns step w is) (behind step w is) i hinv
    rw [turns_append, behind_append]
    refine ⟨hinv', fun past t rest h => ?_⟩
    -- the step is the last one, or one of those before it
    rcases List.eq_nil_or_concat rest with rfl | ⟨rest, last, rfl⟩
    · obtain ⟨rfl, ht⟩ := List.append_inj' h rfl
      obtain rfl := List.head_eq_of_cons_eq ht
      exact hlast
    · rw [List.concat_eq_append, ← List.cons_append, ← List.append_assoc] at h
      exact hall past t rest (List.append_inj' h rfl).1

end

end LanguageRoster
