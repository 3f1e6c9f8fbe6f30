import LanguageRoster.Proofs.Run.Ready
import LanguageRoster.Proofs.Tree.Outcome

/-!
# Links that are written through

A file that is replaced by way of a link leaves the link where it is, if the path comes to the file. A link by which it
comes to nothing is lost.

* `Tree.LinkAt` : a link stands at the last name of a path
* `Tree.Through` : what has become of the link behind a replacement, and of all other links; `through_of_replace`
* `link_stays_iff` : the same for an edit that was planned before, in whatever state
* `not_link_stays` : a link that leads nowhere does not stay
-/

namespace LanguageRoster

set_option autoImplicit false

namespace Tree

variable {t t' : Tree} {path target : Text} {q : Place} {content : Bytes}

/-- The last name of the path is the name of a link. It stands at the place, be it in the directory to which the names
before lead or in the one to which they come. -/
def LinkAt (t : Tree) (path : Text) (q : Place) (target : Text) : Prop :=
  ∃ init name d, Path.names path = init ++ [name] ∧ q = d ++ [name] ∧ t.get? q = some (.link target) ∧
    (t.walkLinks mostLinks (t.origin path) (init ++ [Path.dot]) = .ok d ∨
      t.canonicalLinks mostLinks (t.origin path) init = some d)

/-- What a replacement by way of the link at `q` has come to. -/
structure Through (t t' : Tree) (path : Text) (q : Place) (target : Text) (content : Bytes) : Prop where
  /-- The link stays exactly if the path comes to a place. -/
  kept : t'.get? q = some (.link target) ↔ ∃ p, t.canonical? path = some p
  /-- What stands there is then a file, and gets the content. -/
  reached : ∀ p, t.canonical? path = some p →
    p ≠ q ∧ ∃ mode old, t.get? p = some (.file mode old) ∧ t'.get? p = some (.file mode content)
  /-- If it comes to nothing, a file takes the place of the link. -/
  lost : t.canonical? path = none → t'.get? q = some (.file ((t.adopted? none path).getD freshMode) content)
  /-- All other links stay, and there are no new ones. -/
  others : ∀ q', q' ≠ q → ∀ target', t'.get? q' = some (.link target') ↔ t.get? q' = some (.link target')

theorem link_put_iff {p q' : Place} {mode : Nat} {target' : Text} (hp : p ≠ [])
    (hnot : t.get? p ≠ some (.link target')) :
    (t.put p (.file mode content)).get? q' = some (.link target') ↔ t.get? q' = some (.link target') := by
  rw [get?_put _ _ _ _ hp]
  split
  · next h => exact ⟨fun h => absurd h (by simp), fun hl => absurd (h ▸ hl) hnot⟩
  · rfl

theorem through_of_replace (hl : t.LinkAt path q target) (h : t.replace path content = .ok t') :
    t.Through t' path q target content := by
  obtain ⟨init, name, d, hnames, rfl, hq, hway⟩ := hl
  have hne : d ++ [name] ≠ [] := by simp
  obtain ⟨p, mode, old, hcome, hp, rfl⟩ | ⟨hno, init', name', d', hlast, rfl⟩ := replace_cases h
  · -- a file stands there, and so not the link
    have hpnil := ne_nil_of_file hp
    have hstays : ∀ q' target', (t.put p (.file mode content)).get? q' = some (.link target') ↔
        t.get? q' = some (.link target') := fun _ _ => link_put_iff hpnil (by rw [hp]; simp)
    refine ⟨⟨fun _ => ⟨p, hcome⟩, fun _ => (hstays _ _).2 hq⟩, fun p' hp' => ?_, fun hno => ?_,
      fun q' _ target' => hstays q' target'⟩
    · obtain rfl := Option.some.inj (hcome.symm.trans hp')
      refine ⟨?_, mode, old, hp, get?_put_self t hpnil _⟩
      rintro rfl
      exact absurd (hp.symm.trans hq) (by simp)
    · exact absurd (hcome.symm.trans hno) (by simp)
  · -- the last name of the path is the link's own
    obtain ⟨rfl, hname⟩ := List.append_inj' (hlast.names.symm.trans hnames) rfl
    obtain rfl : name' = name := by simpa using hname
    obtain rfl : d' = d := by
      rcases hway with hway | hway
      · exact Except.ok.inj (hlast.way.symm.trans hway)
      · obtain ⟨⟨left, hinit⟩, -⟩ := hlast.leads
        have hd : t.canonicalLinks left d' [] = some d := hinit.canonicalLinks_eq_some (by rwa [List.append_nil])
        rw [canonicalLinks_nil] at hd
        exact Option.some.inj hd
    have hnow := get?_put_self t hne (.file ((t.adopted? none path).getD freshMode) content)
    have hcome : ¬ ∃ p, t.canonical? path = some p := by simp [hno]
    refine ⟨⟨fun hlink => absurd (hnow.symm.trans hlink) (by simp), fun hex => absurd hex hcome⟩,
      fun p hp => absurd ⟨p, hp⟩ hcome, fun _ => hnow, fun q' hq' target' => ?_⟩
    rw [get?_put _ _ _ _ hne, if_neg hq']

end Tree

variable {σ : Type} {w : World σ} {path target : Text} {q : Place}

/-- A link at the last name of a path stays behind a replacement exactly if the path comes to a place. So it does behind
an edit that was planned before, when the tree and the link may have been others; an edit without a new text leaves
all as it is. -/
theorem link_stays_iff (box : Toolbox σ) (root : Text) (w : World σ) (path : Text) (q : Place) (target : Text)
    (hl : w.tree.LinkAt path q target) :
    (∀ content tree', w.tree.replace path content = .ok tree' → w.tree.Through tree' path q target content) ∧
    ∀ (w₀ : World σ) (t : Table) (l : Language) (e : Edit) (r : Table.Reconciled),
      ((Edit.plan t path l).run box root w₀).1 = .ok e → (e.commit.run box root w).1 = .ok r →
      (e.text = none ∧ (e.commit.run box root w).2.tree = w.tree) ∨
      ∃ text, e.text = some text ∧
        w.tree.Through (e.commit.run box root w).2.tree path q target text.bytes := by
  refine ⟨fun content tree' h => Tree.through_of_replace hl h, fun w₀ t l e r hplan hcommit => ?_⟩
  obtain ⟨-, hp⟩ := planned_of_run (Prod.ext hplan rfl)
  have hc := committed_of_commit (Prod.ext hcommit rfl)
  generalize (e.commit.run box root w).2.tree = tree at hc ⊢
  cases hc with
  | kept hnone => exact .inl ⟨hnone, rfl⟩
  | replaced hsome hr =>
    rw [hp.target] at hr
    exact .inr ⟨_, hsome, Tree.through_of_replace hl hr⟩

namespace Sample

def linkPath : Text := ['l']

def linkTarget : Text := "node-types.json".toList

def linkedNodes : World Unit where
  tree := {
    here := []
    entries := [
      ([linkPath], .link linkTarget),
      ([linkTarget], .file 0o644 (Table.render (.list nodes)).bytes)] }
  tools := ()

def plannedEdit : Edit := ⟨linkPath, some (Table.render (.list (nodes ++ [Table.nodeTypes.entry kotlin])))⟩

def dangling : World Unit where
  tree := { here := [], entries := [([linkPath], .link linkTarget)] }
  tools := ()

theorem linkedNodes_linkAt : linkedNodes.tree.LinkAt linkPath [linkPath] linkTarget :=
  ⟨[], _, [], rfl, rfl, rfl, .inl rfl⟩

theorem dangling_linkAt : dangling.tree.LinkAt linkPath [linkPath] linkTarget :=
  ⟨[], _, [], rfl, rfl, rfl, .inl rfl⟩

theorem plan_linkedNodes : ((Edit.plan .nodeTypes linkPath kotlin).run idle [] linkedNodes).1 = .ok plannedEdit := by
  decide +kernel

end Sample

/-- The small link stays, be it behind a replacement or behind an edit. -/
theorem link_stays_iff_small :
    (∃ tree, Sample.linkedNodes.tree.replace Sample.linkPath (Text.bytes "new".toList) = .ok tree ∧
      tree.get? [Sample.linkPath] = some (.link Sample.linkTarget)) ∧
    (Sample.plannedEdit.commit.run Sample.idle [] Sample.linkedNodes).2.tree.get? [Sample.linkPath] =
      some (.link Sample.linkTarget) := by
  obtain ⟨hthrough, hedit⟩ := link_stays_iff Sample.idle [] Sample.linkedNodes Sample.linkPath [Sample.linkPath]
    Sample.linkTarget Sample.linkedNodes_linkAt
  have hcome : Sample.linkedNodes.tree.canonical? Sample.linkPath = some [Sample.linkTarget] := by decide
  have hwritten : Sample.linkedNodes.tree.replace Sample.linkPath (Text.bytes "new".toList) =
      .ok (Sample.linkedNodes.tree.put [Sample.linkTarget] (.file 0o644 (Text.bytes "new".toList))) := rfl
  refine ⟨⟨_, hwritten, (hthrough _ _ hwritten).kept.2 ⟨_, hcome⟩⟩, ?_⟩
  obtain ⟨hnone, -⟩ | ⟨text, -, h⟩ := hedit Sample.linkedNodes .nodeTypes Sample.kotlin Sample.plannedEdit .added
    Sample.plan_linkedNodes rfl
  · exact absurd hnone (by simp [Sample.plannedEdit])
  · exact h.kept.2 ⟨_, hcome⟩

/-- A link that leads nowhere is lost, be it to a replacement or to an edit that was planned while it led to a file. -/
theorem not_link_stays :
    (¬ ∀ (t t' : Tree) (path : Text) (q : Place) (target : Text) (content : Bytes), t.LinkAt path q target →
      t.replace path content = .ok t' → t'.get? q = some (.link target)) ∧
    ¬ ∀ (w₀ w : World Unit) (t : Table) (path : Text) (l : Language) (e : Edit) (r : Table.Reconciled) (q : Place)
      (target : Text), ((Edit.plan t path l).run Sample.idle [] w₀).1 = .ok e → w.tree.LinkAt path q target →
      (e.commit.run Sample.idle [] w).1 = .ok r →
      (e.commit.run Sample.idle [] w).2.tree.get? q = some (.link target) := by
  constructor
  · intro hall
    have hwritten : Sample.dangling.tree.replace Sample.linkPath [] =
        .ok (Sample.dangling.tree.put [Sample.linkPath] (.file Tree.freshMode [])) := rfl
    exact absurd (hall _ _ _ _ _ _ Sample.dangling_linkAt hwritten) (by decide)
  · intro hall
    exact absurd (hall _ _ _ _ _ _ .added _ _ Sample.plan_linkedNodes Sample.dangling_linkAt rfl) (by decide +kernel)

end LanguageRoster
