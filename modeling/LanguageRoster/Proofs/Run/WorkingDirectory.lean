import LanguageRoster.Proofs.Run.Ready
import LanguageRoster.Proofs.Tool.Root

/-!
# Runs from another directory

With an absolute root, the directory at hand plays no part in a run. With another root, tools below it are lost.

* `World.seenFrom` : a world with another directory at hand
* `Program.Steady` : a program comes to the same with another directory at hand; one rule for each step
* `addLanguage_steady` : so does a whole run, if its root is absolute
* `addLanguage_refused` : a run whose generator is refused ends there
* `tool_below_root` : a tool below the root and a whole run, with an absolute root and with another
* `not_tool_below_root` : two spellings of one root may come to different ends
-/

namespace LanguageRoster

set_option autoImplicit false

section

variable {σ α β : Type} {box : Toolbox σ} {root : Text} {h : Place}

def World.seenFrom (w : World σ) (h : Place) : World σ := { w with tree := w.tree.seenFrom h }

/-- The tools below the root come to the same, whatever directory is at hand. -/
def SteadyBox (box : Toolbox σ) (root : Text) : Prop :=
  ∀ i s t h, box root i (s, t.seenFrom h) =
    ((box root i (s, t)).1, (box root i (s, t)).2.1, (box root i (s, t)).2.2.seenFrom h)

/-! ## Files -/

theorem Tree.exists_leadsTo {t : Tree} {path text : Text} (h : t.readText path = .ok text) :
    ∃ p, t.LeadsTo path p := by
  obtain ⟨p, mode, hf, -⟩ := readBytes_eq_ok_iff.1 (readText_eq_ok_iff.1 h)
  exact ⟨p, hf.leadsTo⟩

/-! ## Programs -/

namespace Program

/-- With another directory at hand, the program comes to the same. -/
def Steady (box : Toolbox σ) (root : Text) (h : Place) (x : Program α) (w : World σ) : Prop :=
  x.run box root (w.seenFrom h) = ((x.run box root w).1, (x.run box root w).2.seenFrom h)

namespace Steady

variable {x : Program α} {k : α → Program β} {w : World σ}

theorem done (a : α) : (Program.done a).Steady box root h w := rfl

theorem stop (f : Failure) : (Program.stop f : Program α).Steady box root h w := rfl

theorem bind (hx : x.Steady box root h w)
    (hk : ∀ a w', x.run box root w = (.ok a, w') → (k a).Steady box root h w') : (x >>= k).Steady box root h w := by
  unfold Steady at hx ⊢
  rw [run_bind, run_bind, hx]
  match hr : x.run box root w with
  | (.ok a, w') => exact hk a w' hr
  | (.error f, w') => rfl

theorem read {path : Text} {k : Text → Program β} (habs : Path.isAbsolute path = true)
    (hk : ∀ t, w.tree.readText path = .ok t → (k t).Steady box root h w) :
    (readText path >>= k).Steady box root h w := by
  show (Program.read path k).Steady box root h w
  have hread : (w.seenFrom h).tree.readText path = w.tree.readText path := Tree.readText_seenFrom habs w.tree h
  unfold Steady
  rw [run, run, hread]
  cases ht : w.tree.readText path with
  | ok t => exact hk t ht
  | error f => rfl

theorem replace {path content : Text} {k : Unit → Program β} {p : Place} (habs : Path.isAbsolute path = true)
    (hp : w.tree.LeadsTo path p) (hk : ∀ w', (k ()).Steady box root h w') :
    (replaceText path content >>= k).Steady box root h w := by
  show (Program.replace path content (k ())).Steady box root h w
  have hreplace : (w.seenFrom h).tree.replace path content.bytes = _ := hp.replace_seenFrom habs h content.bytes
  unfold Steady
  rw [run, run, hreplace]
  cases w.tree.replace path content.bytes with
  | ok tree => exact hk { w with tree, log := w.log ++ [.replaced path] }
  | error r => rfl

theorem tell {line : Text} {k : Unit → Program β} (hk : ∀ w', w'.tree = w.tree → (k ()).Steady box root h w') :
    (Program.tell line >>= k).Steady box root h w := by
  show (Program.narrate (line ++ ['\n']) (k ())).Steady box root h w
  have htold : ∀ t, (w.seenFrom h).tell t = ((w.tell t).1.seenFrom h, (w.tell t).2) ∧ (w.tell t).1.tree = w.tree := by
    intro t
    unfold World.tell World.seenFrom
    cases w.room <;> exact ⟨rfl, rfl⟩
  obtain ⟨htell, htree⟩ := htold (line ++ ['\n'])
  unfold Steady
  rw [run, run, htell]
  generalize w.tell (line ++ ['\n']) = told at htree
  obtain ⟨w', all⟩ := told
  cases all with
  | true => exact hk w' htree
  | false => rfl

theorem call {i : Tool.Invocation} {k : Except Tool.Refusal Tool.Output → Program β} (hbox : SteadyBox box root)
    (hk : ∀ r w', (k r).Steady box root h w') : (callTool i >>= k).Steady box root h w := by
  show (Program.call i k).Steady box root h w
  have hcall : box root i ((w.seenFrom h).tools, (w.seenFrom h).tree) = _ := hbox i w.tools w.tree h
  unfold Steady
  rw [run, run, hcall]
  exact hk _ { w with
    tree := (box root i (w.tools, w.tree)).2.2
    tools := (box root i (w.tools, w.tree)).2.1
    log := w.log ++ [.called root i] }

theorem callChecked {i : Tool.Invocation} {k : Tool.Output → Program β} (hbox : SteadyBox box root)
    (hk : ∀ o w', (k o).Steady box root h w') : (Program.callChecked i >>= k).Steady box root h w := by
  refine .bind (.call hbox fun r w' => ?_) fun o w' _ => hk o w'
  match r with
  | .ok o =>
    simp only
    split
    · exact .done o
    · exact .stop _
  | .error r => exact .stop _

theorem tellOutput {out : Tool.Output} {k : Unit → Program β} (hk : ∀ w', (k ()).Steady box root h w') :
    (LanguageRoster.tellOutput out >>= k).Steady box root h w := by
  rw [LanguageRoster.tellOutput]
  split
  · exact hk w
  · exact .tell fun w' _ => hk w'

end Steady

end Program

/-! ## Parts of a run -/

open Program (Steady)

variable {w : World σ} {layout : Layout} {o : Options} {l : Language}

theorem isAbsolute_artifact (habs : Path.isAbsolute layout.root = true) (relative : Text) :
    Path.isAbsolute (layout.artifact relative).path = true := Path.isAbsolute_below_of_root habs relative

theorem updateSource_steady (habs : Path.isAbsolute layout.root = true) :
    (updateSource layout o l).Steady box root h w := by
  refine .read (isAbsolute_artifact habs _) fun text ht => ?_
  obtain ⟨p, hp⟩ := Tree.exists_leadsTo ht
  match Choice.locate o.pattern text with
  | .error m => exact .stop _
  | .ok block =>
    refine .tell fun w₁ h₁ => .tell fun w₂ h₂ => ?_
    rw [← h₁, ← h₂] at hp
    split
    · exact .tell fun w' _ => .done _
    · exact .replace (isAbsolute_artifact habs _) hp fun w' => .done _

theorem plan_steady {t : Table} {path : Text} (habs : Path.isAbsolute path = true) :
    (Edit.plan t path l).Steady box root h w := by
  refine .read habs fun text _ => ?_
  match t.revise l text with
  | .ok changed => exact .done _
  | .error (.malformed m) => exact .stop _
  | .error (.lacking lack) => exact .stop _

theorem commit_steady {e : Edit} {p : Place} (habs : Path.isAbsolute e.path = true) (hp : w.tree.LeadsTo e.path p) :
    e.commit.Steady box root h w := by
  obtain ⟨path, text⟩ := e
  cases text with
  | none => exact .done _
  | some text => exact .replace habs hp fun w' => .done _

theorem announce_steady {e : Edit} {a : Artifact} {p : Place} (habs : Path.isAbsolute e.path = true)
    (hp : w.tree.LeadsTo e.path p) : (e.announce a l).Steady box root h w := by
  rw [Edit.announce]
  split <;> exact .tell fun w' hw => commit_steady habs (hw ▸ hp)

theorem Planned.exists_leadsTo {tree : Tree} {t : Table} {path : Text} {e : Edit} (hp : Planned tree t path l e) :
    ∃ p, tree.LeadsTo e.path p := by
  obtain ⟨text, ht, -⟩ := hp.revise
  rw [hp.target]
  exact Tree.exists_leadsTo ht

/-- Wherever a path leads to a file, it leads to one behind an edit too. -/
theorem Committed.exists_leadsTo {tree tree' : Tree} {t : Table} {path path' : Text} {e : Edit} {q : Place}
    (hc : Committed tree e tree') (hp : Planned tree t path l e) (hq : tree.LeadsTo path' q) :
    ∃ q', tree'.LeadsTo path' q' := by
  cases hc with
  | kept => exact ⟨q, hq⟩
  | replaced _ hr =>
    obtain ⟨text, ht, -⟩ := hp.revise
    rw [hp.target] at hr
    exact Tree.exists_leadsTo_replaced (Tree.readText_eq_ok_iff.1 ht) hr hq

theorem reconcileArtifacts_steady (habs : Path.isAbsolute layout.root = true) :
    (reconcileArtifacts layout o l).Steady box root h w := by
  refine .bind (plan_steady (isAbsolute_artifact habs _)) fun e w₁ hrun => ?_
  obtain ⟨htree, he⟩ := planned_of_run hrun
  refine .bind (plan_steady (isAbsolute_artifact habs _)) fun n w₂ hrun => ?_
  obtain ⟨htree', hn⟩ := planned_of_run hrun
  rw [← htree] at he
  rw [← htree'] at he hn
  obtain ⟨p, hp⟩ := he.exists_leadsTo
  obtain ⟨q, hq⟩ := hn.exists_leadsTo
  refine .bind (announce_steady (he.target ▸ isAbsolute_artifact habs _) hp) fun g w₃ hrun => ?_
  -- the path of the second edit leads to a file behind the first one
  obtain ⟨q', hq'⟩ := (committed_of_announce hrun).exists_leadsTo he hq
  exact .bind (announce_steady (hn.target ▸ isAbsolute_artifact habs _) hq') fun _ _ _ => .done _

/-- A run comes to the same with another directory at hand, if its root is absolute. -/
theorem addLanguage_steady (hbox : SteadyBox box root) (habs : Path.isAbsolute layout.root = true) :
    (addLanguage layout o l).Steady box root h w := by
  refine .bind (updateSource_steady habs) fun source w₁ _ => ?_
  refine .bind (.call hbox fun r w' => .done _) fun v w₂ _ => ?_
  match v with
  | .error why => exact .tell fun w' _ => .tell fun w' _ => .done _
  | .ok version =>
    refine .tell fun w₃ _ => .callChecked hbox fun out w₄ => .tellOutput fun w₅ => ?_
    refine .bind (reconcileArtifacts_steady habs) fun r w₆ _ => ?_
    exact .callChecked hbox fun status w₇ => .tellOutput fun w₈ => .done _

/-- A generator that is refused ends the run behind the grammar source. -/
theorem addLanguage_refused {source : SourceEdit} {r : Tool.Refusal} {w₁ : World σ} {s : σ × Tree}
    (hroom : w.room = none)
    (hsource : (updateSource layout o l).run box layout.root w = (.ok source, w₁))
    (hr : box layout.root o.generator.version (w₁.tools, w₁.tree) = (.error r, s)) :
    ((addLanguage layout o l).run box layout.root w).1 =
      .ok (.generatorMissing source (.refused o.generator.version r)) := by
  obtain ⟨hl, -, s', d, -, hc⟩ := addLanguage_goesOn box layout o l w hsource
  have hasked : o.generator.versionOf (asked box layout o (w.tools, w₁.tree)).1 =
      .error (.refused o.generator.version r) := by
    have htools : w₁.tools = w.tools := hl.tools
    rw [asked, ← htools, hr]
    rfl
  generalize ((addLanguage layout o l).run box layout.root w).1 = x at hc
  cases hc with
  | missing hv =>
    obtain rfl := Except.error.inj (hasked.symm.trans hv)
    rfl
  | askedUntold hm => exact absurd (hl.room hroom) hm
  | unmade hv _ => exact absurd (hasked.symm.trans hv) (by simp)
  | madeUntold hg | unreconciled hg | unshown hg | shownUntold hg | completed hg =>
    exact absurd (hasked.symm.trans hg.asked) (by simp)

end

/-! ## Whole runs -/

open Tool.Installed (box boxWith Below enter)

/-- A tool that is called by a path below the root is looked for from the directory at hand, and followed again from
inside the root. With an absolute root, this comes to the same, and neither the tool nor a whole run depends on the
directory at hand; the run may look for other tools in directories that have absolute paths too. With another root, the
tool is lost if its path leads nowhere from inside the root; if it is the generator, the run ends as if there were none,
behind the grammar source. -/
theorem tool_below_root (search : List Text) (start : Shell.Start) (hstart : start.Follows) (layout : Layout)
    (o : Options) (l : Language) (w : World Unit) :
    (∀ (root : Text) (i : Tool.Invocation) (t : Tree), Path.isAbsolute i.program = false → '/' ∈ i.program →
      Below search start root i t) ∧
    ((∀ d ∈ search, Path.isAbsolute d = true) → Path.isAbsolute layout.root = true → ∀ h,
      (addLanguage layout o l).run (boxWith search start) layout.root (w.seenFrom h) =
        (((addLanguage layout o l).run (boxWith search start) layout.root w).1,
          ((addLanguage layout o l).run (boxWith search start) layout.root w).2.seenFrom h)) ∧
    (Path.isAbsolute layout.root = false → Path.isAbsolute o.generator.version.program = false →
      '/' ∈ o.generator.version.program → w.room = none →
      ∀ source w₁, (updateSource layout o l).run (boxWith search start) layout.root w = (.ok source, w₁) →
        (∀ p, enter w₁.tree layout.root = .ok p → ∀ q,
          (w₁.tree.seenFrom p).resolve (Path.join layout.root o.generator.version.program) ≠ .ok q) →
        ∃ r, ((addLanguage layout o l).run (boxWith search start) layout.root w).1 =
          .ok (.generatorMissing source (.refused o.generator.version r))) := by
  refine ⟨fun root i t hrel hslash => Tool.Installed.below search hstart root t hrel hslash,
    fun hsearch habs h => ?_, ?_⟩
  · have hbox : SteadyBox (boxWith search start) layout.root := fun i _ t h =>
      Tool.Installed.boxWith_seenFrom hsearch habs i t h
    exact addLanguage_steady hbox habs
  · intro hroot hrel hslash hroom source w₁ hsource hlost
    obtain ⟨r, hr⟩ := Tool.Installed.boxWith_lost hstart hroot hrel hslash hlost
    exact ⟨r, addLanguage_refused hroom hsource hr⟩

namespace Sample

def ownTool : Tool.Invocation := ⟨"./gen".toList, []⟩

def ownTools : Options where
  generator := { version := ownTool, generate := ownTool }
  status := ownTool

/-- The small repository with a generator of its own. -/
def workshop : World Unit where
  tree := (tree 0o755).put ["repo".toList, "gen".toList] (.file 0o755 (Text.bytes "#!/bin/true\n".toList))
  tools := ()

def absoluteLayout : Layout := { root := "/repo".toList }

def ownReport : Report := ⟨.inserted, [], .added, .added, []⟩

theorem workshop_completed :
    ((addLanguage absoluteLayout ownTools kotlin).run box absoluteLayout.root workshop).1 =
      .ok (.completed ownReport) := by
  decide +kernel

theorem workshop_missing :
    ((addLanguage layout ownTools kotlin).run box layout.root workshop).1 =
      .ok (.generatorMissing .inserted (.refused ownTool (.fault .notFound))) := by
  decide +kernel

end Sample

/-- In the small repository, with the programs of the system, the run completes from inside it as from outside, and the
tool is the one below the root. -/
theorem tool_below_root_workshop :
    ((addLanguage Sample.absoluteLayout Sample.ownTools Sample.kotlin).run box Sample.absoluteLayout.root
      (Sample.workshop.seenFrom ["repo".toList])).1 = .ok (.completed Sample.ownReport) ∧
    Below Shell.searchPath (Shell.start Shell.mostLevels) Sample.absoluteLayout.root Sample.ownTool
      Sample.workshop.tree := by
  obtain ⟨hbelow, hsteady, -⟩ := tool_below_root Shell.searchPath (Shell.start Shell.mostLevels)
    (Shell.start_follows _) Sample.absoluteLayout Sample.ownTools Sample.kotlin Sample.workshop
  have hinside := hsteady (by decide) rfl ["repo".toList]
  rw [← box, Sample.workshop_completed] at hinside
  exact ⟨by rw [hinside], hbelow _ _ _ rfl (by decide)⟩

/-- A tool below the root can be lost by another spelling of the root, and with it the run. -/
theorem not_tool_below_root :
    (¬ ∀ (t : Tree) (a b : Text) (i : Tool.Invocation) (p : Place), Path.isAbsolute a = true → t.resolve a = .ok p →
      t.resolve b = .ok p → Path.isAbsolute i.program = false → '/' ∈ i.program →
      (box b i ((), t)).1 = (box a i ((), t)).1) ∧
    ¬ ∀ (a b : Layout) (o : Options) (l : Language) (w : World Unit) (p : Place), Path.isAbsolute a.root = true →
      w.tree.resolve a.root = .ok p → w.tree.resolve b.root = .ok p → b = { a with root := b.root } →
      ((addLanguage b o l).run box b.root w).1 = ((addLanguage a o l).run box a.root w).1 := by
  constructor
  · intro hall
    exact absurd (hall Sample.workshop.tree Sample.absoluteLayout.root Sample.layout.root Sample.ownTool _ rfl rfl rfl
      rfl (by decide)) (by decide +kernel)
  · intro hall
    have hsame := hall Sample.absoluteLayout Sample.layout Sample.ownTools Sample.kotlin Sample.workshop _ rfl rfl rfl
      rfl
    rw [Sample.workshop_completed, Sample.workshop_missing] at hsame
    exact absurd hsame (by decide)

end LanguageRoster
