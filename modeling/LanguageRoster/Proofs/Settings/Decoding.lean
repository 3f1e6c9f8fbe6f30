import LanguageRoster.Proofs.Settings.Leaf

/-!
# From settings to configurations

* `text_of_plain?`, `truth_of_plain?`, `texts_of_plain?` : values of the right kind are decoded
* `section?_of_at?`, `present_of_at?` : a setting is found in its section
* `Config.Complete`, `Config.exists_decoded` : a tree in which all documented settings stand is a configuration
-/

namespace LanguageRoster

set_option autoImplicit false

namespace Config

variable {s : Setting} {leaf : Leaf}

/-! ## Values -/

theorem of_plain? {v : Value} (h : s.plain? = some v) :
    (∃ o t, s = .scalar o (.text t) ∧ v = .text t) ∨ (∃ o b, s = .scalar o (.bool b) ∧ v = .truth b) ∨
      ∃ o items ts, s = .list o items ∧ Setting.plainTexts? items = some ts ∧ v = .texts ts := by
  unfold Setting.plain? at h
  split at h
  · next o t => exact .inl ⟨o, t, rfl, (Option.some.inj h).symm⟩
  · next o b => exact .inr (.inl ⟨o, b, rfl, (Option.some.inj h).symm⟩)
  · next o items =>
    obtain ⟨ts, hts, hv⟩ := Option.map_eq_some_iff.1 h
    exact .inr (.inr ⟨o, items, ts, rfl, hts, hv.symm⟩)
  · exact absurd h (by simp)

theorem text_of_plain? {x : Text} (key : Text) (h : s.plain? = some (.text x)) : text key s = .ok x := by
  rcases of_plain? h with ⟨o, t, rfl, hv⟩ | ⟨o, b, rfl, hv⟩ | ⟨o, items, ts, rfl, -, hv⟩
  · obtain rfl := Value.text.inj hv
    rfl
  · exact absurd hv (by simp)
  · exact absurd hv (by simp)

theorem truth_of_plain? {x : Bool} (key : Text) (h : s.plain? = some (.truth x)) : truth key s = .ok x := by
  rcases of_plain? h with ⟨o, t, rfl, hv⟩ | ⟨o, b, rfl, hv⟩ | ⟨o, items, ts, rfl, -, hv⟩
  · exact absurd hv (by simp)
  · obtain rfl := Value.truth.inj hv
    rfl
  · exact absurd hv (by simp)

theorem textsFrom_of_plainTexts? {items : List Setting} {ts : List Text} (key : Text) (place : Nat)
    (h : Setting.plainTexts? items = some ts) : textsFrom key place items = .ok ts := by
  induction items generalizing ts place with
  | nil =>
    obtain rfl := Option.some.inj h
    rfl
  | cons x items ih =>
    unfold Setting.plainTexts? at h
    split at h
    · next heq => exact absurd heq (by simp)
    · next o t more heq =>
      obtain ⟨rfl, rfl⟩ := List.cons.inj heq
      rw [Option.map_eq_some_iff] at h
      obtain ⟨us, hus, rfl⟩ := h
      rw [textsFrom, ih (place + 1) hus]
      rfl
    · exact absurd h (by simp)

theorem texts_of_plain? {x : List Text} (key : Text) (h : s.plain? = some (.texts x)) : texts key s = .ok x := by
  rcases of_plain? h with ⟨o, t, rfl, hv⟩ | ⟨o, b, rfl, hv⟩ | ⟨o, items, ts, rfl, hts, hv⟩
  · exact absurd hv (by simp)
  · exact absurd hv (by simp)
  · obtain rfl := Value.texts.inj hv
    exact textsFrom_of_plainTexts? key 0 hts

/-! ## Sections -/

/-- A section stands where one of its settings does. -/
theorem section?_of_at? {v : Value} (h : s.at? leaf = some v) :
    ∃ o fields, s.field? leaf.sec.key = some (.table o fields) ∧ section? leaf.sec s = .ok (.table o fields) := by
  rw [Setting.at?, Option.bind_eq_some_iff] at h
  obtain ⟨x, hx, -⟩ := h
  rw [Option.bind_eq_some_iff] at hx
  obtain ⟨body, hbody, hx⟩ := hx
  cases body with
  | table o fields => exact ⟨o, fields, hbody, by rw [section?, hbody]⟩
  | scalar o v => exact absurd hx (by simp [Setting.field?, Setting.asTable])
  | list o items => exact absurd hx (by simp [Setting.field?, Setting.asTable])

/-- The value of a setting is found at its place in the section. -/
theorem present_of_at? {α : Type} {v : Value} {a : α} {decode : Text → Setting → Except Problem α} {o : Option Text}
    {fields : List (Text × Setting)} (h : s.at? leaf = some v) (hs : s.field? leaf.sec.key = some (.table o fields))
    (hd : ∀ key x, x.plain? = some v → decode key x = .ok a) :
    present leaf.sec (.table o fields) decode leaf.place = .ok (some a) := by
  rw [Setting.at?, hs, Option.bind_some, Option.bind_eq_some_iff] at h
  obtain ⟨x, hx, hv⟩ := h
  have hslot : slot leaf.sec (.table o fields) leaf.place = (leaf.key, some x) := by
    rw [← hx]
    rfl
  rw [present, hslot]
  simp only [hd leaf.key x hv]
  rfl

/-! ## Whole trees -/

/-- All documented settings stand in the tree, with values of their kinds. -/
def Complete (s : Setting) : Prop := ∀ leaf, ∃ v, s.at? leaf = some v ∧ v.kind = leaf.kind

theorem Complete.typed (h : Complete s) (leaf : Leaf) : match leaf.kind with
    | .text => ∃ x, s.at? leaf = some (.text x)
    | .texts => ∃ x, s.at? leaf = some (.texts x)
    | .truth => ∃ x, s.at? leaf = some (.truth x) := by
  obtain ⟨v, hv, hk⟩ := h leaf
  rw [← hk]
  cases v with
  | text x => exact ⟨x, hv⟩
  | texts x => exact ⟨x, hv⟩
  | truth x => exact ⟨x, hv⟩

theorem exists_decodedPaths (h : Complete s) : ∃ a b c, decodePaths s = .ok (a, b, c) ∧
    s.at? .grammarSource = some (.text a) ∧ s.at? .grammarJson = some (.text b) ∧
      s.at? .nodeTypes = some (.text c) := by
  obtain ⟨a, ha⟩ := h.typed .grammarSource
  obtain ⟨b, hb⟩ := h.typed .grammarJson
  obtain ⟨c, hc⟩ := h.typed .nodeTypes
  refine ⟨a, b, c, ?_, ha, hb, hc⟩
  obtain ⟨o, fields, hf, hs⟩ := section?_of_at? ha
  have hs : section? .paths s = .ok (.table o fields) := hs
  have h₀ : present .paths (.table o fields) Config.text 0 = .ok (some a) :=
    present_of_at? ha hf fun key _ => text_of_plain? key
  have h₁ : present .paths (.table o fields) Config.text 1 = .ok (some b) :=
    present_of_at? hb hf fun key _ => text_of_plain? key
  have h₂ : present .paths (.table o fields) Config.text 2 = .ok (some c) :=
    present_of_at? hc hf fun key _ => text_of_plain? key
  simp only [decodePaths, hs, h₀, h₁, h₂, required, bind, Except.bind, pure, Except.pure]

theorem exists_decodedGrammar (h : Complete s) : ∃ a b c d, decodeGrammar s = .ok (a, b, c, d) ∧
    s.at? .marker = some (.text a) ∧ s.at? .rule = some (.text b) ∧ s.at? .anchor = some (.text c) ∧
      s.at? .skipExisting = some (.truth d) := by
  obtain ⟨a, ha⟩ := h.typed .marker
  obtain ⟨b, hb⟩ := h.typed .rule
  obtain ⟨c, hc⟩ := h.typed .anchor
  obtain ⟨d, hd⟩ := h.typed .skipExisting
  refine ⟨a, b, c, d, ?_, ha, hb, hc, hd⟩
  obtain ⟨o, fields, hf, hs⟩ := section?_of_at? ha
  have hs : section? .grammar s = .ok (.table o fields) := hs
  have h₀ : present .grammar (.table o fields) Config.text 0 = .ok (some a) :=
    present_of_at? ha hf fun key _ => text_of_plain? key
  have h₁ : present .grammar (.table o fields) Config.text 1 = .ok (some b) :=
    present_of_at? hb hf fun key _ => text_of_plain? key
  have h₂ : present .grammar (.table o fields) Config.text 2 = .ok (some c) :=
    present_of_at? hc hf fun key _ => text_of_plain? key
  have h₃ : present .grammar (.table o fields) Config.truth 3 = .ok (some d) :=
    present_of_at? hd hf fun key _ => truth_of_plain? key
  simp only [decodeGrammar, hs, h₀, h₁, h₂, h₃, required, bind, Except.bind, pure, Except.pure]

theorem exists_decodedGenerator (h : Complete s) : ∃ a b c d, decodeGenerator s = .ok (a, b, c, d) ∧
    s.at? .program = some (.text a) ∧ s.at? .versionArgs = some (.texts b) ∧ s.at? .generateArgs = some (.texts c) ∧
      s.at? .installHint = some (.text d) := by
  obtain ⟨a, ha⟩ := h.typed .program
  obtain ⟨b, hb⟩ := h.typed .versionArgs
  obtain ⟨c, hc⟩ := h.typed .generateArgs
  obtain ⟨d, hd⟩ := h.typed .installHint
  refine ⟨a, b, c, d, ?_, ha, hb, hc, hd⟩
  obtain ⟨o, fields, hf, hs⟩ := section?_of_at? ha
  have hs : section? .generator s = .ok (.table o fields) := hs
  have h₀ : present .generator (.table o fields) Config.text 0 = .ok (some a) :=
    present_of_at? ha hf fun key _ => text_of_plain? key
  have h₁ : present .generator (.table o fields) Config.texts 1 = .ok (some b) :=
    present_of_at? hb hf fun key _ => texts_of_plain? key
  have h₂ : present .generator (.table o fields) Config.texts 2 = .ok (some c) :=
    present_of_at? hc hf fun key _ => texts_of_plain? key
  have h₃ : present .generator (.table o fields) Config.text 3 = .ok (some d) :=
    present_of_at? hd hf fun key _ => text_of_plain? key
  simp only [decodeGenerator, hs, h₀, h₁, h₂, h₃, required, bind, Except.bind, pure, Except.pure]

theorem exists_decodedStatus (h : Complete s) : ∃ a b, decodeStatus s = .ok (a, b) ∧
    s.at? .statusProgram = some (.text a) ∧ s.at? .statusArgs = some (.texts b) := by
  obtain ⟨a, ha⟩ := h.typed .statusProgram
  obtain ⟨b, hb⟩ := h.typed .statusArgs
  refine ⟨a, b, ?_, ha, hb⟩
  obtain ⟨o, fields, hf, hs⟩ := section?_of_at? ha
  have hs : section? .status s = .ok (.table o fields) := hs
  have h₀ : present .status (.table o fields) Config.text 0 = .ok (some a) :=
    present_of_at? ha hf fun key _ => text_of_plain? key
  have h₁ : present .status (.table o fields) Config.texts 1 = .ok (some b) :=
    present_of_at? hb hf fun key _ => texts_of_plain? key
  simp only [decodeStatus, hs, h₀, h₁, required, bind, Except.bind, pure, Except.pure]

/-- A complete tree of settings is a configuration, with the values that stand in the tree. -/
theorem exists_decoded (h : Complete s) : ∃ c, decode s = .ok c ∧ ∀ leaf, s.at? leaf = some (c.get leaf) := by
  obtain ⟨source, json, types, hpaths, h₁, h₂, h₃⟩ := exists_decodedPaths h
  obtain ⟨marker, rule, anchor, skip, hgrammar, h₄, h₅, h₆, h₇⟩ := exists_decodedGrammar h
  obtain ⟨program, version, generate, hint, hgenerator, h₈, h₉, h₁₀, h₁₁⟩ := exists_decodedGenerator h
  obtain ⟨status, args, hstatus, h₁₂, h₁₃⟩ := exists_decodedStatus h
  refine ⟨⟨source, json, types, marker, rule, anchor, skip, program, version, generate, hint, status, args⟩, ?_, ?_⟩
  · simp only [decode, hpaths, hgrammar, hgenerator, hstatus, bind, Except.bind, pure, Except.pure]
  · intro leaf
    cases leaf with
    | grammarSource => exact h₁
    | grammarJson => exact h₂
    | nodeTypes => exact h₃
    | marker => exact h₄
    | rule => exact h₅
    | anchor => exact h₆
    | skipExisting => exact h₇
    | program => exact h₈
    | versionArgs => exact h₉
    | generateArgs => exact h₁₀
    | installHint => exact h₁₁
    | statusProgram => exact h₁₂
    | statusArgs => exact h₁₃

end Config

end LanguageRoster
