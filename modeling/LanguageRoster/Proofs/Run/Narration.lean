import LanguageRoster.Proofs.Run.Course
import LanguageRoster.Proofs.Run.Moments

/-!
# Runs with a narration that fails

* `announcement`, `Announced` : the line in front of the replacement of an artifact
* `updateSource_replaces`, `reconcileArtifacts_replaces`, `addLanguage_replaces` : the files that are replaced, and what
  was told by then
* `narration_cuts_clean` : a narration that fails cuts a run, and each of its two steps on files, at a clean point
-/

namespace LanguageRoster

set_option autoImplicit false

open Program (Quiet CutsClean ReplacedWhen told)

variable {σ : Type} {box : Toolbox σ} {root : Text} {layout : Layout} {o : Options} {l : Language}
variable {w w' : World σ} {path content : Text}

/-! ## Replacements -/

def announcement (l : Language) (a : Artifact) : Text :=
  "Adding ".toList ++ l.name ++ " to the ".toList ++ a.name ++ ['\n']

/-- The path is that of the artifact, and the narration ends with the whole line that announces the entry. -/
structure Announced (l : Language) (a : Artifact) (path : Text) (narration : Bytes) : Prop where
  target : path = a.path
  line : (announcement l a).bytes <:+ narration

/-- A text that was taken stands at the end of the narration. -/
theorem suffix_of_tell {w w₁ : World σ} {t : Text} (h : w.tell t = (w₁, true)) : t.bytes <:+ w₁.narration := by
  rw [World.tell] at h
  split at h
  · obtain ⟨rfl, -⟩ := Prod.mk.inj h
    exact List.suffix_append ..
  · next room _ =>
    obtain ⟨rfl, hfits⟩ := Prod.mk.inj h
    have hsize : t.bytes.length ≤ room := by
      rw [Text.length_bytes]
      exact of_decide_eq_true hfits
    simp only [List.take_of_length_le hsize]
    exact List.suffix_append ..

theorem log_of_tell {w w₁ : World σ} {t : Text} (h : w.tell t = (w₁, true)) : w₁.log = w.log := by
  have hlog := Program.log_tell w t
  rwa [h] at hlog

/-- The step on the grammar source replaces no other file, and nothing is done before. -/
theorem updateSource_replaces (h : (.replace path content, w') ∈ (updateSource layout o l).moments box root w) :
    path = layout.sourceFile.path ∧ w'.log = w.log := by
  rcases Program.mem_moments_read h with h | ⟨text, -, h⟩
  · simp at h
  match hb : Choice.locate o.pattern text with
  | .error m =>
    rw [hb] at h
    exact (Program.quiet_stop _ w path content w' h).elim
  | .ok b =>
    rw [hb] at h
    rcases Program.mem_moments_tell h with h | ⟨w₁, h₁, h⟩
    · simp at h
    rcases Program.mem_moments_tell h with h | ⟨w₂, h₂, h⟩
    · simp at h
    split at h
    · exact (((Program.quiet_tell _).bind fun _ => Program.quiet_done _) w₂ path content w' h).elim
    · rcases Program.mem_moments_replace h with h | ⟨tree, -, h⟩
      · obtain ⟨hm, rfl⟩ := Prod.mk.inj h
        exact ⟨(Move.replace.inj hm).1, (log_of_tell h₂).trans (log_of_tell h₁)⟩
      · exact (Program.quiet_done _ _ path content w' h).elim

theorem quiet_plan (t : Table) (path : Text) : Quiet box root (Edit.plan t path l) := by
  refine (Program.quiet_readText path).bind fun text => ?_
  match t.revise l text with
  | .ok changed => exact Program.quiet_done _
  | .error (.malformed m) => exact Program.quiet_stop _
  | .error (.lacking k) => exact Program.quiet_stop _

theorem target_of_plan {t : Table} {e : Edit} (h : (Edit.plan t path l).run box root w = (.ok e, w')) :
    e.path = path := (planned_of_run h).2.target

/-- An edit is made right behind the line that announces it. -/
theorem announce_replaces {e : Edit} {a : Artifact} (he : e.path = a.path)
    (h : (.replace path content, w') ∈ (e.announce a l).moments box root w) : Announced l a path w'.narration := by
  obtain ⟨target, text⟩ := e
  match text with
  | none => exact (((Program.quiet_tell _).bind fun _ => Program.quiet_done _) w path content w' h).elim
  | some text =>
    rcases Program.mem_moments_tell h with h | ⟨w₁, h₁, h⟩
    · simp at h
    rcases Program.mem_moments_replace h with h | ⟨tree, -, h⟩
    · obtain ⟨hm, rfl⟩ := Prod.mk.inj h
      exact ⟨(Move.replace.inj hm).1.trans he, suffix_of_tell h₁⟩
    · exact (Program.quiet_done _ _ path content w' h).elim

/-- The step on the artifacts replaces no other files, each right behind the line that announces it. -/
theorem reconcileArtifacts_replaces
    (h : (.replace path content, w') ∈ (reconcileArtifacts layout o l).moments box root w) :
    ∃ a ∈ [layout.jsonFile, layout.nodeFile], Announced l a path w'.narration := by
  obtain ⟨e, w₁, he, h⟩ := (quiet_plan _ _).of_bind h
  obtain ⟨n, w₂, hn, h⟩ := (quiet_plan _ _).of_bind h
  rcases Program.mem_moments_bind h with h | ⟨_, w₃, -, h⟩
  · exact ⟨layout.jsonFile, by simp, announce_replaces (target_of_plan he) h⟩
  rcases Program.mem_moments_bind h with h | ⟨_, w₄, -, h⟩
  · exact ⟨layout.nodeFile, by simp, announce_replaces (target_of_plan hn) h⟩
  · exact (Program.quiet_done _ _ path content w' h).elim

theorem quiet_tellOutput (out : Tool.Output) : Quiet box root (tellOutput out) := by
  rw [tellOutput]
  split
  · exact Program.quiet_done ()
  · exact Program.quiet_tell _

/-- A run replaces the grammar source before it does anything else, or an artifact right behind the line that announces
it. -/
theorem addLanguage_replaces (h : (.replace path content, w') ∈ (addLanguage layout o l).moments box root w) :
    (path = layout.sourceFile.path ∧ w'.log = w.log) ∨
      ∃ a ∈ [layout.jsonFile, layout.nodeFile], Announced l a path w'.narration := by
  rw [addLanguage_eq] at h
  rcases Program.mem_moments_bind h with h | ⟨source, w₁, -, h⟩
  · exact .inl (updateSource_replaces h)
  refine .inr ?_
  have hprobe : Quiet box root (probe o.generator) := (Program.quiet_callTool _).bind fun _ => Program.quiet_done _
  obtain ⟨version, w₂, -, h⟩ := hprobe.of_bind h
  match version with
  | .error why =>
    refine absurd h (Quiet.bind (Program.quiet_tell _) (fun _ => ?_) w₂ path content w')
    exact (Program.quiet_tell _).bind fun _ => Program.quiet_done _
  | .ok version =>
    obtain ⟨_, w₃, -, h⟩ := (Program.quiet_tell _).of_bind h
    obtain ⟨out, w₄, -, h⟩ := (Program.quiet_callChecked _).of_bind h
    obtain ⟨_, w₅, -, h⟩ := (quiet_tellOutput out).of_bind h
    rcases Program.mem_moments_bind h with h | ⟨⟨g, n⟩, w₆, -, h⟩
    · exact reconcileArtifacts_replaces h
    · refine absurd h (Quiet.bind (Program.quiet_callChecked _) (fun status => ?_) w₆ path content w')
      exact (quiet_tellOutput status).bind fun _ => Program.quiet_done _

/-! ## Clean cuts -/

/-- A narration that fails cuts a run at a clean point, and each of its two steps on files as well. Where it fails in
the step on the grammar source, nothing has been done; and no artifact is replaced unless the whole line that announces
it was told. -/
theorem narration_cuts_clean (box : Toolbox σ) (layout : Layout) (o : Options) (l : Language) (w : World σ) :
    CutsClean box layout.root (addLanguage layout o l) w ∧
    CutsClean box layout.root (updateSource layout o l) w ∧
    CutsClean box layout.root (reconcileArtifacts layout o l) w ∧
    (∀ k, k < (told box layout.root (updateSource layout o l) w).length →
      ((updateSource layout o l).run box layout.root (w.afresh (some k))).2.tree = w.tree ∧
      ((updateSource layout o l).run box layout.root (w.afresh (some k))).2.log = w.log) ∧
    (∀ room, ReplacedWhen box layout.root (reconcileArtifacts layout o l) (w.afresh room) fun path w' =>
      ∃ a ∈ [layout.jsonFile, layout.nodeFile], Announced l a path w'.narration) ∧
    (∀ room, ReplacedWhen box layout.root (addLanguage layout o l) (w.afresh room) fun path w' =>
      (path = layout.sourceFile.path ∧ w'.log = w.log) ∨
        ∃ a ∈ [layout.jsonFile, layout.nodeFile], Announced l a path w'.narration) := by
  refine ⟨Program.cutsClean _ w, Program.cutsClean _ w, Program.cutsClean _ w, fun k hk => ?_,
    fun room => Program.replacedWhen fun path content w' h => reconcileArtifacts_replaces h,
    fun room => Program.replacedWhen fun path content w' h => addLanguage_replaces (w := w.afresh room) h⟩
  have hcut : CutsClean box layout.root (updateSource layout o l) w := Program.cutsClean _ w
  obtain ⟨hfails, -⟩ := hcut.cut k hk
  obtain ⟨s', d, hl, -, hs⟩ := run_updateSource box layout o l (w.afresh (some k))
  rw [hfails] at hs
  obtain ⟨rfl, htree⟩ := hs.failed
  exact ⟨hl.tree.trans htree, hl.log.trans (List.append_nil _)⟩

end LanguageRoster
