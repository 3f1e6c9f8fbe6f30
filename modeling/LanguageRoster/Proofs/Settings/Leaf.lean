import LanguageRoster.Settings.Loader

/-!
# The documented settings

What a file of settings may say, and where it stands in the tree of settings.

* `Leaf` : a documented setting, with its section, its name, its key and the kind of its values
* `Value` : a value of one of the kinds; `Toml.plain?`, `Setting.plain?` : the value that stands in a file or in a tree
* `documented?` : what a file says that sets documented settings only
* `latest` : the last value given to a setting
* `Setting.at?` : the value of a documented setting in a tree
* `Config.get` : the value of a documented setting in a configuration
-/

namespace LanguageRoster

set_option autoImplicit false

/-! ## Settings and values -/

inductive Kind where
  | text
  | texts
  | truth
  deriving DecidableEq, Repr

inductive Value where
  | text (t : Text)
  | texts (ts : List Text)
  | truth (b : Bool)
  deriving DecidableEq, Repr

namespace Value

def kind : Value → Kind
  | .text _ => .text
  | .texts _ => .texts
  | .truth _ => .truth

def setting : Value → Setting
  | .text t => .scalar none (.text t)
  | .texts ts => .list none (ts.map fun t => .scalar none (.text t))
  | .truth b => .scalar none (.bool b)

end Value

inductive Leaf where
  | grammarSource
  | grammarJson
  | nodeTypes
  | marker
  | rule
  | anchor
  | skipExisting
  | program
  | versionArgs
  | generateArgs
  | installHint
  | statusProgram
  | statusArgs
  deriving DecidableEq, Repr

namespace Leaf

def all : List Leaf :=
  [grammarSource, grammarJson, nodeTypes, marker, rule, anchor, skipExisting, program, versionArgs, generateArgs,
    installHint, statusProgram, statusArgs]

def sec : Leaf → Section
  | grammarSource | grammarJson | nodeTypes => .paths
  | marker | rule | anchor | skipExisting => .grammar
  | program | versionArgs | generateArgs | installHint => .generator
  | statusProgram | statusArgs => .status

def place : Leaf → Nat
  | grammarSource | marker | program | statusProgram => 0
  | grammarJson | rule | versionArgs | statusArgs => 1
  | nodeTypes | anchor | generateArgs => 2
  | skipExisting | installHint => 3

def name (leaf : Leaf) : Text := (leaf.sec.names[leaf.place]?).getD []

def key (leaf : Leaf) : Text := leaf.sec.key ++ '.' :: leaf.name

def path (leaf : Leaf) : KeyPath := ⟨leaf.sec.key, [.name leaf.name]⟩

def kind : Leaf → Kind
  | versionArgs | generateArgs | statusArgs => .texts
  | skipExisting => .truth
  | _ => .text

def named? (sec : Section) (name : Text) : Option Leaf := all.find? fun leaf => leaf.sec = sec ∧ leaf.name = name

end Leaf

def Section.named? (key : Text) : Option Section :=
  [Section.paths, .grammar, .generator, .status].find? fun sec => sec.key = key

/-! ## Files -/

namespace Toml

def plainTexts? : List Toml → Option (List Text)
  | [] => some []
  | .text t :: items => (plainTexts? items).map (t :: ·)
  | _ :: _ => none

def plain? : Toml → Option Value
  | .text t => some (.text t)
  | .bool b => some (.truth b)
  | .list items => (plainTexts? items).map .texts
  | _ => none

end Toml

/-- What the fields of a section say, if they are documented settings with values of their own kinds. -/
def documentedIn? (sec : Section) : List (Text × Toml) → Option (List (Leaf × Value))
  | [] => some []
  | (name, v) :: fields =>
    match Leaf.named? sec name, v.plain?, documentedIn? sec fields with
    | some leaf, some x, some more => if x.kind = leaf.kind then some ((leaf, x) :: more) else none
    | _, _, _ => none

/-- What the fields of a file say, if they are sections of documented settings. -/
def documented? : List (Text × Toml) → Option (List (Leaf × Value))
  | [] => some []
  | (key, .table body) :: fields =>
    match Section.named? key, documented? fields with
    | some sec, some more => (documentedIn? sec body).map (· ++ more)
    | _, _ => none
  | _ :: _ => none

/-- What a layer says: what stands in its file, which sets documented settings only; or nothing, if the layer is not
required, and there is no file of the name, with the ending or without. -/
def Layer.said? (l : Layer) (t : Tree) : Option (List (Leaf × Value)) :=
  if Layer.isFile t (l.fullName t) then
    match t.readText (l.fullName t) with
    | .error _ => none
    | .ok text =>
      match Toml.read? text with
      | some (.table fields) => documented? fields
      | _ => none
  else if l.required || Layer.isFile t (Path.settle (l.fullName t) ++ Layer.ending) then none
  else some []

/-- The last value that is given to the setting. -/
def latest {α : Type} (leaf : Leaf) (given : List (Leaf × α)) : Option α := given.reverse.lookup leaf

/-! ## Trees and configurations -/

namespace Setting

def plainTexts? : List Setting → Option (List Text)
  | [] => some []
  | .scalar _ (.text t) :: items => (plainTexts? items).map (t :: ·)
  | _ :: _ => none

def plain? : Setting → Option Value
  | .scalar _ (.text t) => some (.text t)
  | .scalar _ (.bool b) => some (.truth b)
  | .list _ items => (plainTexts? items).map .texts
  | _ => none

def at? (s : Setting) (leaf : Leaf) : Option Value :=
  ((s.field? leaf.sec.key).bind fun body => body.field? leaf.name).bind plain?

end Setting

def Config.get (c : Config) : Leaf → Value
  | .grammarSource => .text c.grammarSource
  | .grammarJson => .text c.grammarJson
  | .nodeTypes => .text c.nodeTypes
  | .marker => .text c.marker
  | .rule => .text c.rule
  | .anchor => .text c.anchor
  | .skipExisting => .truth c.skipExisting
  | .program => .text c.program
  | .versionArgs => .texts c.versionArgs
  | .generateArgs => .texts c.generateArgs
  | .installHint => .text c.installHint
  | .statusProgram => .text c.statusProgram
  | .statusArgs => .texts c.statusArgs

/-! ## Names and keys -/

theorem Section.named?_key (sec : Section) : Section.named? sec.key = some sec := by cases sec <;> rfl

theorem Section.key_of_named? {key : Text} {sec : Section} (h : Section.named? key = some sec) : sec.key = key := by
  simpa using List.find?_some h

theorem Section.key_injective {sec sec' : Section} (h : sec.key = sec'.key) : sec = sec' := by
  have hnamed := Section.named?_key sec
  rw [h, Section.named?_key] at hnamed
  exact (Option.some.inj hnamed).symm

theorem Section.read_key (sec : Section) : KeyPath.read sec.key = .ok ⟨sec.key, []⟩ := by cases sec <;> rfl

theorem Section.toLower_key (sec : Section) : Text.toLower sec.key = sec.key := by
  apply Text.toLower_of_isPlain
  cases sec <;> decide

namespace Leaf

theorem named?_name (leaf : Leaf) : named? leaf.sec leaf.name = some leaf := by cases leaf <;> rfl

theorem of_named? {sec : Section} {name : Text} {leaf : Leaf} (h : named? sec name = some leaf) :
    leaf.sec = sec ∧ leaf.name = name := by
  simpa using List.find?_some h

theorem name_injective {leaf leaf' : Leaf} (hs : leaf.sec = leaf'.sec) (hn : leaf.name = leaf'.name) :
    leaf = leaf' := by
  have hnamed := named?_name leaf
  rw [hs, hn, named?_name] at hnamed
  exact (Option.some.inj hnamed).symm

theorem path_injective {leaf leaf' : Leaf} (h : leaf.path = leaf'.path) : leaf = leaf' := by
  simp only [path, KeyPath.mk.injEq, List.cons.injEq, KeyPath.Step.name.injEq, and_true] at h
  exact name_injective (Section.key_injective h.1) h.2

theorem read_key (leaf : Leaf) : KeyPath.read leaf.key = .ok leaf.path := by cases leaf <;> rfl

theorem toLower_name (leaf : Leaf) : Text.toLower leaf.name = leaf.name := by
  apply Text.toLower_of_isPlain
  cases leaf <;> decide

end Leaf

/-! ## The last value -/

section

variable {α : Type} {leaf : Leaf}

theorem latest_append (leaf : Leaf) (given more : List (Leaf × α)) :
    latest leaf (given ++ more) = (latest leaf more).or (latest leaf given) := by
  rw [latest, List.reverse_append, List.lookup_append]
  rfl

theorem latest_cons (leaf k : Leaf) (v : α) (given : List (Leaf × α)) :
    latest leaf ((k, v) :: given) = (latest leaf given).or (if leaf = k then some v else none) := by
  have hone : latest leaf [(k, v)] = if leaf = k then some v else none := by
    by_cases h : leaf = k <;> simp [latest, List.lookup_cons, h, beq_false_of_ne]
  rw [← hone, ← latest_append]
  rfl

theorem latest_eq_none {given : List (Leaf × α)} (h : ∀ x ∈ given, x.1 ≠ leaf) : latest leaf given = none := by
  rw [latest, List.lookup_eq_none_iff]
  intro x hx
  exact bne_iff_ne.2 (h x (List.mem_reverse.1 hx)).symm

theorem mem_of_latest {given : List (Leaf × α)} {v : α} (h : latest leaf given = some v) : (leaf, v) ∈ given := by
  obtain ⟨before, after, hsplit, -⟩ := List.lookup_eq_some_iff.1 h
  rw [← List.mem_reverse, hsplit]
  simp

end

/-! ## Values in files and trees -/

theorem Setting.plainTexts?_ofItems (origin : Option Text) {items : List Toml} {ts : List Text}
    (h : Toml.plainTexts? items = some ts) : plainTexts? (ofItems origin items) = some ts := by
  induction items generalizing ts with
  | nil => exact h
  | cons v items ih =>
    cases v with
    | text t =>
      rw [Toml.plainTexts?, Option.map_eq_some_iff] at h
      obtain ⟨more, hm, rfl⟩ := h
      rw [ofItems, ofToml, plainTexts?, ih hm]
      rfl
    | _ => exact absurd h (by simp [Toml.plainTexts?])

theorem Setting.plain?_ofToml (origin : Option Text) {v : Toml} {x : Value} (h : v.plain? = some x) :
    (ofToml origin v).plain? = some x := by
  cases v with
  | text t => exact h
  | bool b => exact h
  | list items =>
    rw [Toml.plain?, Option.map_eq_some_iff] at h
    obtain ⟨ts, ht, rfl⟩ := h
    rw [ofToml, plain?, plainTexts?_ofItems origin ht]
    rfl
  | _ => exact absurd h (by simp [Toml.plain?])

theorem Value.plain?_setting (v : Value) : v.setting.plain? = some v := by
  cases v with
  | text t => rfl
  | truth b => rfl
  | texts ts =>
    rw [Value.setting, Setting.plain?]
    have htexts : Setting.plainTexts? (ts.map fun t => .scalar none (.text t)) = some ts := by
      induction ts with
      | nil => rfl
      | cons t ts ih =>
        rw [List.map_cons, Setting.plainTexts?, ih]
        rfl
    rw [htexts]
    rfl

/-! ## What files say -/

theorem documentedIn?_cons {sec : Section} {name : Text} {v : Toml} {fields : List (Text × Toml)}
    {said : List (Leaf × Value)} (h : documentedIn? sec ((name, v) :: fields) = some said) :
    ∃ leaf x more, leaf.sec = sec ∧ leaf.name = name ∧ v.plain? = some x ∧ x.kind = leaf.kind ∧
      documentedIn? sec fields = some more ∧ said = (leaf, x) :: more := by
  rw [documentedIn?] at h
  split at h
  · next leaf x more hl hx hm =>
    obtain ⟨hs, hn⟩ := Leaf.of_named? hl
    split at h
    · next hk => exact ⟨leaf, x, more, hs, hn, hx, hk, hm, (Option.some.inj h).symm⟩
    · exact absurd h (by simp)
  · exact absurd h (by simp)

theorem documented?_cons {key : Text} {v : Toml} {fields : List (Text × Toml)} {said : List (Leaf × Value)}
    (h : documented? ((key, v) :: fields) = some said) :
    ∃ sec body first more, key = sec.key ∧ v = .table body ∧ documentedIn? sec body = some first ∧
      documented? fields = some more ∧ said = first ++ more := by
  cases v with
  | table body =>
    rw [documented?] at h
    split at h
    · next sec more hs hm =>
      rw [Option.map_eq_some_iff] at h
      obtain ⟨first, hf, rfl⟩ := h
      exact ⟨sec, body, first, more, (Section.key_of_named? hs).symm, rfl, hf, hm, rfl⟩
    · exact absurd h (by simp)
  | _ => exact absurd h (by simp [documented?])

/-- Settings stand in their own section, with values of their own kind. -/
theorem of_documentedIn? {sec : Section} {fields : List (Text × Toml)} {said : List (Leaf × Value)}
    (h : documentedIn? sec fields = some said) : ∀ x ∈ said, x.1.sec = sec ∧ x.2.kind = x.1.kind := by
  induction fields generalizing said with
  | nil =>
    obtain rfl := Option.some.inj h
    exact fun x hx => absurd hx (by simp)
  | cons f fields ih =>
    obtain ⟨leaf, x, more, hs, -, -, hk, hm, rfl⟩ := documentedIn?_cons h
    intro y hy
    rcases List.mem_cons.1 hy with rfl | hy
    · exact ⟨hs, hk⟩
    · exact ih hm y hy

theorem kind_of_documented? {fields : List (Text × Toml)} {said : List (Leaf × Value)}
    (h : documented? fields = some said) : ∀ x ∈ said, x.2.kind = x.1.kind := by
  induction fields generalizing said with
  | nil =>
    obtain rfl := Option.some.inj h
    exact fun x hx => absurd hx (by simp)
  | cons f fields ih =>
    obtain ⟨sec, body, first, more, -, -, hf, hm, rfl⟩ := documented?_cons h
    intro x hx
    rcases List.mem_append.1 hx with hx | hx
    · exact (of_documentedIn? hf x hx).2
    · exact ih hm x hx

end LanguageRoster
