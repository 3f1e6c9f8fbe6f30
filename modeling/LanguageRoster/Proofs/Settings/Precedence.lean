import LanguageRoster.CommandLine
import LanguageRoster.Proofs.Settings.Decoding
import LanguageRoster.Proofs.Settings.Layers

/-!
# Which layer wins

Settings that lie over all layers win over all files, and a later file wins over those before it and over the defaults.

* `Loader.Call` : the calls by which a loader is made
* `layersOf`, `overridesOf` : the files and the single settings that the calls name, in order
* `callAll_eq` : what the calls come to
* `layers_take_precedence` : the configuration behind any calls
-/

namespace LanguageRoster

set_option autoImplicit false

namespace Loader

/-- A call by which a loader gets one layer more, or one setting that lies over all layers. -/
inductive Call where
  | project (root : Text)
  | optional (name : Text)
  | required (name : Text)
  | override (leaf : Leaf) (v : Value)
  deriving DecidableEq, Repr

def call (b : Loader) : Call → Except Problem Loader
  | .project root => .ok (b.withProjectFile root)
  | .optional name => .ok (b.withOptionalFile name)
  | .required name => .ok (b.withFile name)
  | .override leaf v => b.withOverride leaf.key v.setting

def callAll (b : Loader) : List Call → Except Problem Loader
  | [] => .ok b
  | c :: calls =>
    match b.call c with
    | .ok b' => callAll b' calls
    | .error p => .error p

/-- The layers that the calls name, in order. -/
def layersOf : List Call → List Layer
  | [] => []
  | .project root :: calls => ⟨Path.join root projectFile, false⟩ :: layersOf calls
  | .optional name :: calls => ⟨name, false⟩ :: layersOf calls
  | .required name :: calls => ⟨name, true⟩ :: layersOf calls
  | .override _ _ :: calls => layersOf calls

/-- The settings that the calls put over all layers, in order. -/
def overridesOf : List Call → List (Leaf × Value)
  | [] => []
  | .override leaf v :: calls => (leaf, v) :: overridesOf calls
  | _ :: calls => overridesOf calls

/-- The record of settings with more of them put over it. -/
def laidOver (overrides : List (KeyPath × Setting)) (given : List (Leaf × Value)) : List (KeyPath × Setting) :=
  given.foldl (fun r (leaf, v) => Record.set leaf.path v.setting r) overrides

theorem callAll_eq (b : Loader) (calls : List Call) :
    b.callAll calls = .ok ⟨b.layers ++ layersOf calls, laidOver b.overrides (overridesOf calls)⟩ := by
  induction calls generalizing b with
  | nil =>
    rw [callAll, layersOf, List.append_nil]
    rfl
  | cons c calls ih =>
    have hfile : ∀ l : Layer, callAll { b with layers := b.layers ++ [l] } calls =
        .ok ⟨b.layers ++ l :: layersOf calls, laidOver b.overrides (overridesOf calls)⟩ := by
      intro l
      rw [ih, List.append_assoc]
      rfl
    cases c with
    | project root => exact hfile _
    | optional name => exact hfile _
    | required name => exact hfile _
    | override leaf v =>
      rw [callAll, call, withOverride, leaf.read_key]
      exact ih _

theorem lying_laidOver {given : List (Leaf × Value)} {overrides : List (KeyPath × Setting)}
    (h : Lying given overrides) (more : List (Leaf × Value)) : Lying (given ++ more) (laidOver overrides more) := by
  induction more generalizing given overrides with
  | nil =>
    rw [List.append_nil]
    exact h
  | cons x more ih =>
    obtain ⟨leaf, v⟩ := x
    have hmore := ih (h.set leaf v)
    rw [List.append_assoc] at hmore
    exact hmore

end Loader

open Loader

variable {t : Tree} {layers : List Layer} {given : List (Leaf × Value)}

theorem complete_defaults : Config.Complete Config.defaults := by
  intro leaf
  cases leaf <;> exact ⟨_, rfl, rfl⟩

/-- What is given over complete settings leaves them complete. -/
theorem complete_of_at? {s s' : Setting} (h : Config.Complete s) (hkinds : ∀ x ∈ given, x.2.kind = x.1.kind)
    (hat : ∀ leaf, s'.at? leaf = (latest leaf given).or (s.at? leaf)) : Config.Complete s' := by
  intro leaf
  rw [hat]
  -- what is not given is as before
  cases hlatest : latest leaf given with
  | none => exact h leaf
  | some v => exact ⟨v, rfl, hkinds (leaf, v) (mem_of_latest hlatest)⟩

theorem build_laidOver (hfiles : ∀ l ∈ layers, (l.said? t).isSome) (hkinds : ∀ x ∈ given, x.2.kind = x.1.kind) :
    ∃ c, Loader.build ⟨layers, laidOver [] given⟩ t = .ok c ∧ ∀ leaf, some (c.get leaf) =
      (latest leaf given).or ((latest leaf (saidAll t layers)).or (Config.defaults.at? leaf)) := by
  obtain ⟨s, hs, hat⟩ := addLayers_said hfiles Config.defaults
  have hcomplete : Config.Complete s := complete_of_at? complete_defaults kind_of_saidAll hat
  have hlying : Lying given (laidOver [] given) := lying_laidOver .start given
  obtain ⟨c, hc, hget⟩ := Config.exists_decoded (complete_of_at? hcomplete hkinds (hlying.at? s))
  refine ⟨c, ?_, fun leaf => ?_⟩
  · unfold Loader.build Loader.settings
    simp only [hs]
    exact hc
  · rw [← hget, hlying.at?, hat]

/-- Whatever the calls that make a loader, and in whatever order: where the files set documented settings only, and the
settings over all layers have values of their kinds, the loader comes to a configuration. Each documented setting has
the last value that was put over all layers, or else the value in the last file that sets it, or else its default.
Only the order of the files among themselves matters, and that of the settings over them. So the switch for languages
that are listed wins over all files. -/
theorem layers_take_precedence (t : Tree) (calls : List Call) (hfiles : ∀ l ∈ layersOf calls, (l.said? t).isSome)
    (hkinds : ∀ x ∈ overridesOf calls, x.2.kind = x.1.kind) :
    (∃ b c, Loader.callAll {} calls = .ok b ∧ b.build t = .ok c ∧ ∀ leaf, some (c.get leaf) =
      (latest leaf (overridesOf calls)).or
        ((latest leaf (saidAll t (layersOf calls))).or (Config.defaults.at? leaf))) ∧
    (∀ calls', layersOf calls' = layersOf calls → overridesOf calls' = overridesOf calls →
      Loader.callAll {} calls' = Loader.callAll {} calls) ∧
    ∀ root config, (∀ l ∈ layersOf (.project root :: (config.map Call.required).toList), (l.said? t).isSome) →
      ∃ b c, CommandLine.loader root config true = .ok b ∧ b.build t = .ok c ∧ c.options.skipExisting = true := by
  refine ⟨?_, ?_, ?_⟩
  · obtain ⟨c, hc, hget⟩ := build_laidOver hfiles hkinds
    exact ⟨_, c, callAll_eq {} calls, hc, hget⟩
  · intro calls' hlayers hoverrides
    rw [callAll_eq, callAll_eq, hlayers, hoverrides]
  · intro root config hfiles
    have hloader : CommandLine.loader root config true =
        .ok ⟨layersOf (.project root :: (config.map Call.required).toList),
          laidOver [] [(.skipExisting, .truth true)]⟩ := by
      cases config with
      | none => rfl
      | some file => rfl
    have hkind : ∀ x ∈ [(Leaf.skipExisting, Value.truth true)], x.2.kind = x.1.kind := by
      intro x hx
      obtain rfl := List.mem_singleton.1 hx
      rfl
    obtain ⟨c, hc, hget⟩ := build_laidOver hfiles hkind
    have hskip : some (c.get .skipExisting) = some (.truth true) := hget .skipExisting
    exact ⟨_, c, hloader, hc, Value.truth.inj (Option.some.inj hskip)⟩

namespace Sample

/-- A repository with a file of settings of its own, and another file of settings. -/
def layered : Tree where
  here := ["repo".toList]
  entries := [
    (["repo".toList], .directory 0o755),
    (["repo".toList, "langadd.toml".toList], .file 0o644 (Text.bytes
      "[grammar]\nrule=\"a\"\nanchor=\"b\"\n[status]\nargs=[\"c\",\"d\"]\n".toList)),
    (["repo".toList, "ci.toml".toList], .file 0o644 (Text.bytes
      "[status]\nargs=[\"e\"]\n[grammar]\nskip_existing=false\n".toList))]

/-- A setting over all layers, both files with one that is missing between them, and another such setting. -/
def calls : List Call :=
  [.override .rule (.text "f".toList), .project "/repo".toList, .optional "none.toml".toList,
    .required "ci.toml".toList, .override .skipExisting (.truth true)]

end Sample

/-- In the repository with two files, each of the precedences decides on one of the settings. -/
theorem layers_take_precedence_ci : ∃ b c, Loader.callAll {} Sample.calls = .ok b ∧ b.build Sample.layered = .ok c ∧
    c.rule = "f".toList ∧ c.anchor = "b".toList ∧ c.statusArgs = ["e".toList] ∧ c.skipExisting = true ∧
      c.program = "tree-sitter".toList := by
  have hsaid : (layersOf Sample.calls).map (·.said? Sample.layered) = [
      some [(.rule, .text "a".toList), (.anchor, .text "b".toList), (.statusArgs, .texts ["c".toList, "d".toList])],
      some [], some [(.statusArgs, .texts ["e".toList]), (.skipExisting, .truth false)]] := by decide +kernel
  simp only [Sample.calls, layersOf, List.map_cons, List.map_nil, List.cons.injEq, and_true] at hsaid
  obtain ⟨hproject, hmissing, hci⟩ := hsaid
  have hfiles : ∀ l ∈ layersOf Sample.calls, (l.said? Sample.layered).isSome := by
    intro l hl
    simp only [Sample.calls, layersOf, List.mem_cons, List.not_mem_nil, or_false] at hl
    rcases hl with rfl | rfl | rfl
    · rw [hproject, Option.isSome_some]
    · rw [hmissing, Option.isSome_some]
    · rw [hci, Option.isSome_some]
  have hkinds : ∀ x ∈ overridesOf Sample.calls, x.2.kind = x.1.kind := by decide
  obtain ⟨⟨b, c, hb, hc, hget⟩, -, -⟩ := layers_take_precedence Sample.layered Sample.calls hfiles hkinds
  have hall : saidAll Sample.layered (layersOf Sample.calls) = [(.rule, .text "a".toList),
      (.anchor, .text "b".toList), (.statusArgs, .texts ["c".toList, "d".toList]), (.statusArgs, .texts ["e".toList]),
      (.skipExisting, .truth false)] := by
    simp only [saidAll, Sample.calls, layersOf, List.flatMap_cons, List.flatMap_nil, hproject, hmissing, hci,
      Option.getD_some]
    rfl
  simp only [hall] at hget
  exact ⟨b, c, hb, hc, Value.text.inj (Option.some.inj (hget .rule)), Value.text.inj (Option.some.inj (hget .anchor)),
    Value.texts.inj (Option.some.inj (hget .statusArgs)), Value.truth.inj (Option.some.inj (hget .skipExisting)),
    Value.text.inj (Option.some.inj (hget .program))⟩

end LanguageRoster
