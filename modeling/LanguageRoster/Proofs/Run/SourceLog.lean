import Mathlib.Data.List.Nodup
import LanguageRoster.Proofs.Run.Moments
import LanguageRoster.Proofs.Run.Ready
import LanguageRoster.Proofs.Run.Series

/-!
# The grammar source as a log

The choice of a grammar source lists, behind what it listed before, the languages that were reported as inserted.

* `SourceStep`, `sourceStep` : a step on the grammar source with a language, a rule for those that are listed and a
  bound of its own for the narration
* `inserted` : the names that a series of steps reported as inserted
* `SourceValues` : what the choice of the grammar source lists
* `sourceStep_inserted_or` : a step either reports the insertion, and the choice is longer by it, or changes nothing
* `sourceStep_alreadyListed_iff` : when a step reports that the language is listed
* `Accounted`, `Logged` : what one step makes of the grammar source, and what the steps so far have made of it
* `source_logs_insertions` : the values of the choice behind any series of steps
-/

namespace LanguageRoster

set_option autoImplicit false

open Program (TakenInFull)

structure SourceStep where
  language : Language
  /-- A language that is listed stays listed once. -/
  skipExisting : Bool
  /-- The bytes that the narration takes before it fails; without a bound, it never does. -/
  room : Option Nat

variable {σ : Type} {box : Toolbox σ} {layout : Layout} {o : Options} {a : SourceStep} {w : World σ}
variable {values : List Text}

def SourceStep.program (layout : Layout) (o : Options) (a : SourceStep) : Program SourceEdit :=
  updateSource layout { o with skipExisting := a.skipExisting } a.language

def sourceStep (box : Toolbox σ) (layout : Layout) (o : Options) (a : SourceStep) (w : World σ) :
    Except Failure SourceEdit × World σ := (a.program layout o).run box layout.root (w.afresh a.room)

def inserted (past : List (Turn SourceStep (Except Failure SourceEdit) (World σ))) : List Text :=
  (reported (.ok .inserted) past).map fun a => a.language.name

/-- The grammar source has a choice, and these are its values. -/
def SourceValues (layout : Layout) (o : Options) (tree : Tree) (values : List Text) : Prop :=
  ∃ text b, tree.readText layout.sourceFile.path = .ok text ∧ Choice.locate o.pattern text = .ok b ∧ b.values = values

/-- What a step makes of a grammar source with these values. -/
structure Accounted (box : Toolbox σ) (layout : Layout) (o : Options) (values : List Text)
    (t : Turn SourceStep (Except Failure SourceEdit) (World σ)) : Prop where
  lists : SourceValues layout o t.before.tree values
  /-- It reports a listed language exactly if it is to skip one, and the narration has taken all. -/
  alreadyListed : t.result = .ok .alreadyListed ↔
    t.asked.skipExisting = true ∧ t.asked.language.name ∈ values ∧
      TakenInFull box layout.root (t.asked.program layout o) t.before t.asked.room
  /-- It changes a file only if it reports an insertion. -/
  unchanged : t.result ≠ .ok .inserted → t.after.tree = t.before.tree

/-- The grammar source lists what it did before the steps, and what they inserted. -/
structure Logged (layout : Layout) (o : Options) (values : List Text)
    (past : List (Turn SourceStep (Except Failure SourceEdit) (World σ))) (w : World σ) : Prop where
  lists : SourceValues layout o w.tree (values ++ inserted past)
  nodup : (∀ t ∈ past, t.asked.skipExisting = true) → values.Nodup → (values ++ inserted past).Nodup

section

variable {past : List (Turn SourceStep (Except Failure SourceEdit) (World σ))}

theorem inserted_concat {t : Turn SourceStep (Except Failure SourceEdit) (World σ)} (h : t.result = .ok .inserted) :
    inserted (past ++ [t]) = inserted past ++ [t.asked.language.name] := by
  simp [inserted, reported_concat h]

theorem inserted_concat_of_ne {t : Turn SourceStep (Except Failure SourceEdit) (World σ)}
    (h : t.result ≠ .ok .inserted) : inserted (past ++ [t]) = inserted past := by
  rw [inserted, reported_concat_of_ne h, inserted]

end

/-! ## One step -/

/-- A step has inserted the language, and said so, or has not changed a file. -/
theorem sourceStep_inserted_or (box : Toolbox σ) (a : SourceStep) (hp : o.pattern.SingleLine)
    (h : SourceValues layout o w.tree values) :
    ((sourceStep box layout o a w).1 = .ok .inserted ∧
      (a.skipExisting = true → a.language.name ∉ values) ∧
      SourceValues layout o (sourceStep box layout o a w).2.tree (values ++ [a.language.name])) ∨
    ((sourceStep box layout o a w).1 ≠ .ok .inserted ∧ (sourceStep box layout o a w).2.tree = w.tree) := by
  obtain ⟨text, b, ht, hb, rfl⟩ := h
  obtain ⟨s', d, hl, -, hs⟩ :=
    run_updateSource box layout { o with skipExisting := a.skipExisting } a.language (w.afresh a.room)
  change Sourcing _ _ _ _ w.tree (sourceStep box layout o a w).1 s'.2 d at hs
  have htree : (sourceStep box layout o a w).2.tree = s'.2 := hl.tree
  rw [htree]
  generalize (sourceStep box layout o a w).1 = r, s'.2 = tree' at hs
  cases hs with
  | unread | mismatch | untold | listed | unreplaced => exact .inr ⟨by simp, rfl⟩
  | inserted ht' hb' hl' hr =>
    obtain rfl := Except.ok.inj (ht.symm.trans ht')
    obtain rfl := Except.ok.inj (hb.symm.trans hb')
    refine .inl ⟨rfl, fun hskip => ?_, _, _, Tree.readText_replaced ht hr, Choice.locate_insert hp hb a.language,
      Choice.values_insert _ _⟩
    simpa [Choice.Block.lists, hskip] using hl'

/-- A step reports that the language is listed exactly if it is to be skipped, is listed, and the narration has
taken all. -/
theorem sourceStep_alreadyListed_iff (h : SourceValues layout o w.tree values) :
    (sourceStep box layout o a w).1 = .ok .alreadyListed ↔
      a.skipExisting = true ∧ a.language.name ∈ values ∧
        TakenInFull box layout.root (a.program layout o) w a.room := by
  obtain ⟨text, b, ht, hb, rfl⟩ := h
  by_cases hfull : TakenInFull box layout.root (a.program layout o) w a.room
  · have hresult : (sourceStep box layout o a w).1 = ((a.program layout o).run box layout.root (w.afresh none)).1 :=
      Program.result_of_takenInFull hfull
    rw [hresult]
    obtain ⟨s', d, -, -, hs⟩ :=
      run_updateSource box layout { o with skipExisting := a.skipExisting } a.language (w.afresh none)
    change Sourcing _ _ _ _ w.tree ((a.program layout o).run box layout.root (w.afresh none)).1 s'.2 d at hs
    generalize ((a.program layout o).run box layout.root (w.afresh none)).1 = r, s'.2 = tree' at hs
    cases hs with
    | unread hf => exact absurd (ht.symm.trans hf) (by simp)
    | untold hm => exact absurd rfl hm
    | mismatch ht' hb' =>
      obtain rfl := Except.ok.inj (ht.symm.trans ht')
      exact absurd (hb.symm.trans hb') (by simp)
    | listed ht' hb' hl | unreplaced ht' hb' hl | inserted ht' hb' hl =>
      obtain rfl := Except.ok.inj (ht.symm.trans ht')
      obtain rfl := Except.ok.inj (hb.symm.trans hb')
      simpa [Choice.Block.lists, hfull] using hl
  · have hresult : (sourceStep box layout o a w).1 = .error .narration := Program.result_of_not_takenInFull hfull
    simp [hresult, hfull]

theorem sourceStep_accounted (hp : o.pattern.SingleLine) (h : SourceValues layout o w.tree values) :
    Accounted box layout o values (turn (sourceStep box layout o) w a) where
  lists := h
  alreadyListed := sourceStep_alreadyListed_iff h
  unchanged hr := by
    rcases sourceStep_inserted_or box a hp h with ⟨hr', -⟩ | ⟨-, htree⟩
    · exact absurd hr' hr
    · exact htree

/-! ## Series of steps -/

theorem Logged.concat (box : Toolbox σ) (a : SourceStep)
    {past : List (Turn SourceStep (Except Failure SourceEdit) (World σ))}
    (hp : o.pattern.SingleLine) (h : Logged layout o values past w) :
    Logged layout o values (past ++ [turn (sourceStep box layout o) w a]) (sourceStep box layout o a w).2 := by
  rcases sourceStep_inserted_or box a hp h.lists with ⟨hr, hnew, hlists⟩ | ⟨hr, htree⟩
  · have hlog : inserted (past ++ [turn (sourceStep box layout o) w a]) = _ := inserted_concat hr
    refine ⟨by rwa [hlog, ← List.append_assoc], fun hskip hv => ?_⟩
    have hnew := hnew (hskip (turn (sourceStep box layout o) w a) (by simp))
    rw [hlog, ← List.append_assoc, ← List.concat_eq_append]
    exact (h.nodup (fun t ht => hskip t (by simp [ht])) hv).concat hnew
  · have hlog : inserted (past ++ [turn (sourceStep box layout o) w a]) = _ := inserted_concat_of_ne hr
    refine ⟨by rw [hlog, htree]; exact h.lists, fun hskip hv => ?_⟩
    rw [hlog]
    exact h.nodup (fun t ht => hskip t (by simp [ht])) hv

/-- Behind any series of steps, the choice lists what it did before, and then the languages of the steps that reported
an insertion, none of them twice if each step was to skip what is listed. -/
theorem source_logs_insertions (box : Toolbox σ) (layout : Layout) (o : Options) (w : World σ) (values : List Text)
    (as : List SourceStep) (hp : o.pattern.SingleLine) (h : SourceValues layout o w.tree values) :
    SourceValues layout o (behind (sourceStep box layout o) w as).tree
      (values ++ inserted (turns (sourceStep box layout o) w as)) ∧
    (∀ past t rest, turns (sourceStep box layout o) w as = past ++ t :: rest →
      Accounted box layout o (values ++ inserted past) t) ∧
    ((∀ a ∈ as, a.skipExisting = true) → values.Nodup →
      (values ++ inserted (turns (sourceStep box layout o) w as)).Nodup) := by
  have start : Logged layout o values [] w := ⟨by simpa [inserted, reported] using h, by simp [inserted, reported]⟩
  obtain ⟨hlog, hall⟩ := series_induction start
    (fun past v a hlog => ⟨hlog.concat box a hp, sourceStep_accounted hp hlog.lists⟩) as
  refine ⟨hlog.lists, hall, fun hskip hv => hlog.nodup (fun t ht => hskip _ ?_) hv⟩
  rw [← map_asked_turns (sourceStep box layout o) w as]
  exact List.mem_map_of_mem ht

namespace Sample

/-- Steps of all kinds: a language that is not listed, one that cannot be told of in five bytes, and each again. -/
def steps : List SourceStep := [⟨kotlin, true, none⟩, ⟨js, false, some 5⟩, ⟨kotlin, true, none⟩, ⟨js, false, none⟩]

end Sample

/-- In the small repository, `kotlin` is inserted once, and `js` a second time. -/
theorem source_logs_insertions_kotlin :
    (turns (sourceStep Sample.idle Sample.layout Sample.options) (Sample.world 0o755) Sample.steps).map Turn.result =
      [.ok .inserted, .error .narration, .ok .alreadyListed, .ok .inserted] ∧
    SourceValues Sample.layout Sample.options
      (behind (sourceStep Sample.idle Sample.layout Sample.options) (Sample.world 0o755) Sample.steps).tree
      ["grit".toList, Sample.js.name, Sample.kotlin.name, Sample.js.name] := by
  have hruns : (turns (sourceStep Sample.idle Sample.layout Sample.options) (Sample.world 0o755) Sample.steps).map
      Turn.result = [.ok .inserted, .error .narration, .ok .alreadyListed, .ok .inserted] ∧
      inserted (turns (sourceStep Sample.idle Sample.layout Sample.options) (Sample.world 0o755) Sample.steps) =
        [Sample.kotlin.name, Sample.js.name] := by decide +kernel
  obtain ⟨hresults, hlog⟩ := hruns
  obtain ⟨text, ht, hb⟩ := (Sample.ready (.inl rfl)).source
  have h := (source_logs_insertions Sample.idle Sample.layout Sample.options (Sample.world 0o755)
    Sample.block.values Sample.steps Sample.singleLine ⟨text, _, ht, hb, rfl⟩).1
  rw [hlog] at h
  exact ⟨hresults, h⟩

end LanguageRoster
