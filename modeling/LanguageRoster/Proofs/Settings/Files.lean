import LanguageRoster.Settings.Loader

/-!
# The file that a layer names

A layer is the file at its path, unless it may be missing and cannot be read, or is missing and one with a further
ending is there.

* `Layer.fileAt`, `Layer.named` : the fields of a file, and of the file that a layer names
* `Layer.spareFile?` : the file that is taken where there is none at the path of a layer
* `Layer.Alone` : nothing but the named file can count; `load_of_alone`, `load_of_not_alone`
* `addLayers_error`, `addLayers_skip`, `build_congr` : what one layer does to the configuration of all
* `layers_are_their_files` : the configuration depends on the named files only, if each layer is alone
* `not_layers_are_their_files` : it need not if one is not
-/

namespace LanguageRoster

set_option autoImplicit false

namespace Layer

/-! ## Files -/

/-- The fields of a file with the text, what the file is called with them. -/
def fieldsIn (t : Tree) (path text : Text) : Except Problem (List (Text × Setting)) :=
  match Toml.read? text with
  | none => .error (.badFile (title t path))
  | some (.table fields) => .ok (Setting.ofFields (some (title t path)) fields)
  | some v => .error (.noTable (Setting.ofToml (some (title t path)) v).found (title t path))

def fileAt (t : Tree) (path : Text) : Except Problem (List (Text × Setting)) :=
  match t.readText path with
  | .error f => .error (.unreadable f)
  | .ok text => fieldsIn t path text

/-- The fields of the file that the layer names; none if it may be missing and is. -/
def named (l : Layer) (t : Tree) : Except Problem (List (Text × Setting)) :=
  if isFile t (l.fullName t) then fileAt t (l.fullName t)
  else if l.required then .error (.fileMissing l.name)
  else .ok []

/-- The file with the ending beyond the layer's name. -/
def spareFile? (l : Layer) (t : Tree) : Option Text :=
  if (Path.fileName? (l.fullName t)).isSome ∧ isFile t (Path.settle (l.fullName t) ++ ending) = true then
    some (Path.settle (l.fullName t) ++ ending)
  else none

/-- Nothing but the file that the layer names can count: it can be read if it may be missing, and if it is missing,
there is none with the ending. -/
structure Alone (l : Layer) (t : Tree) : Prop where
  readable : l.required = false → isFile t (l.fullName t) = true → ∃ text, t.readText (l.fullName t) = .ok text
  noSpare : isFile t (l.fullName t) = false → l.spareFile? t = none

variable {l : Layer} {t t' : Tree} {path : Text}

theorem find?_eq (l : Layer) (t : Tree) :
    l.find? t = if isFile t (l.fullName t) then some (l.fullName t) else l.spareFile? t := by
  simp only [find?, spareFile?]
  cases Path.fileName? (l.fullName t) <;> simp

theorem find?_of_isFile (h : isFile t (l.fullName t) = true) : l.find? t = some (l.fullName t) := by
  rw [find?_eq, if_pos h]

theorem find?_of_not_isFile (h : isFile t (l.fullName t) = false) : l.find? t = l.spareFile? t := by
  rw [find?_eq, if_neg (by simp [h])]

/-- A file that was found is loaded if it has to be there, or can be read. -/
theorem load_of_find? (h : l.find? t = some path) (hread : l.required = false → ∃ text, t.readText path = .ok text) :
    l.load t = fileAt t path := by
  unfold load fileAt
  simp only [h]
  cases ht : t.readText path with
  | ok text => rfl
  | error f =>
    cases hrequired : l.required with
    | true => rfl
    | false =>
      obtain ⟨text, hok⟩ := hread hrequired
      exact absurd (ht.symm.trans hok) (by simp)

theorem load_of_unreadable (h : l.find? t = some path) (hrequired : l.required = false)
    (hno : ∀ text, t.readText path ≠ .ok text) : l.load t = .ok [] := by
  unfold load
  simp only [h]
  cases ht : t.readText path with
  | ok text => exact absurd ht (hno text)
  | error f => simp only [hrequired, Bool.false_eq_true, if_false]

theorem load_of_not_found (h : l.find? t = none) :
    l.load t = if l.required then .error (.fileMissing l.name) else .ok [] := by
  simp only [load, h]

theorem load_of_alone (h : l.Alone t) : l.load t = l.named t := by
  cases hfile : isFile t (l.fullName t) with
  | true => rw [named, if_pos hfile, load_of_find? (find?_of_isFile hfile) fun hr => h.readable hr hfile]
  | false =>
    rw [named, if_neg (by simp [hfile]), load_of_not_found ((find?_of_not_isFile hfile).trans (h.noSpare hfile))]

/-- One that is not has nothing to say though its file is there, or takes the file with the ending for it. -/
theorem load_of_not_alone (h : ¬ l.Alone t) :
    (isFile t (l.fullName t) = true ∧ l.required = false ∧ (∀ text, t.readText (l.fullName t) ≠ .ok text) ∧
      l.load t = .ok []) ∨
    (isFile t (l.fullName t) = false ∧ ∃ path, l.spareFile? t = some path ∧
      ∀ text, t.readText path = .ok text → l.load t = fieldsIn t path text) := by
  cases hfile : isFile t (l.fullName t) with
  | true =>
    have alone : (l.required = false → ∃ text, t.readText (l.fullName t) = .ok text) → l.Alone t := fun hread =>
      ⟨fun hr _ => hread hr, fun hnone => absurd (hfile.symm.trans hnone) (by simp)⟩
    have hno : ∀ text, t.readText (l.fullName t) ≠ .ok text := fun text ht => h (alone fun _ => ⟨text, ht⟩)
    have hrequired : l.required = false := by
      cases hr : l.required with
      | true => exact absurd (alone fun hno => absurd (hr.symm.trans hno) (by simp)) h
      | false => rfl
    exact .inl ⟨rfl, hrequired, hno, load_of_unreadable (find?_of_isFile hfile) hrequired hno⟩
  | false =>
    cases hspare : l.spareFile? t with
    | none => exact absurd ⟨fun _ hyes => absurd (hfile.symm.trans hyes) (by simp), fun _ => hspare⟩ h
    | some path =>
      refine .inr ⟨rfl, path, rfl, fun text ht => ?_⟩
      rw [load_of_find? ((find?_of_not_isFile hfile).trans hspare) fun _ => ⟨text, ht⟩, fileAt, ht]

theorem fileAt_eq_ok {fields : List (Text × Setting)} (h : fileAt t path = .ok fields) :
    ∃ text body, t.readText path = .ok text ∧ Toml.read? text = some (.table body) ∧
      fields = Setting.ofFields (some (title t path)) body := by
  unfold fileAt at h
  split at h
  · exact absurd h (by simp)
  next text ht =>
  unfold fieldsIn at h
  split at h
  · exact absurd h (by simp)
  · next body hread => exact ⟨text, body, ht, hread, (Except.ok.inj h).symm⟩
  · exact absurd h (by simp)

/-! ## Trees with the same files -/

/-- The trees have the same file at the path, or both none. -/
structure SameAt (t t' : Tree) (path : Text) : Prop where
  isFile : isFile t' path = isFile t path
  readText : t'.readText path = t.readText path

theorem fullName_of_here (hhere : t'.here = t.here) (l : Layer) : l.fullName t' = l.fullName t := by
  rw [fullName, fullName, hhere]

theorem fileAt_of_sameAt (hhere : t'.here = t.here) (h : SameAt t t' path) : fileAt t' path = fileAt t path := by
  simp only [fileAt, fieldsIn, h.readText, title, hhere]

theorem named_of_sameAt (hhere : t'.here = t.here) (h : SameAt t t' (l.fullName t)) : l.named t' = l.named t := by
  rw [named, named, fullName_of_here hhere, h.isFile, fileAt_of_sameAt hhere h]

/-- Two paths are looked at for a layer, and no others. -/
theorem load_of_sameAt (hhere : t'.here = t.here) (h : SameAt t t' (l.fullName t))
    (hspare : SameAt t t' (Path.settle (l.fullName t) ++ ending)) : l.load t' = l.load t := by
  have hsparefile : l.spareFile? t' = l.spareFile? t := by
    rw [spareFile?, spareFile?, fullName_of_here hhere, hspare.isFile]
  have hfind : l.find? t' = l.find? t := by
    rw [find?_eq, find?_eq, fullName_of_here hhere, h.isFile, hsparefile]
  rw [load, load, hfind]
  cases hf : l.find? t with
  | none => rfl
  | some path =>
    have hpath : SameAt t t' path := by
      rw [find?_eq] at hf
      split at hf
      · exact Option.some.inj hf ▸ h
      · rw [spareFile?] at hf
        split at hf
        · exact Option.some.inj hf ▸ hspare
        · exact absurd hf (by simp)
    simp only [hpath.readText, title, hhere]

end Layer

/-! ## Layers among others -/

namespace Loader

variable {b : Loader} {t t' : Tree} {l : Layer} {layers : List Layer}

/-- A layer that cannot be loaded lets all fail. -/
theorem addLayers_error (hl : l ∈ layers) {p : Problem} (h : l.load t = .error p) (s : Setting) :
    ∃ p', addLayers t layers s = .error p' := by
  induction layers generalizing s with
  | nil => exact absurd hl List.not_mem_nil
  | cons k layers ih =>
    rw [addLayers]
    cases hk : k.load t with
    | error p' => exact ⟨p', rfl⟩
    | ok fields =>
      rcases List.mem_cons.1 hl with rfl | hl
      · exact absurd (h.symm.trans hk) (by simp)
      · exact ih hl _

/-- A layer without fields may be left out. -/
theorem addLayers_skip {before after : List Layer} (h : l.load t = .ok []) (s : Setting) :
    addLayers t (before ++ l :: after) s = addLayers t (before ++ after) s := by
  induction before generalizing s with
  | nil =>
    rw [List.nil_append, List.nil_append, addLayers, h]
    rfl
  | cons k before ih =>
    rw [List.cons_append, List.cons_append, addLayers, addLayers]
    cases k.load t with
    | error p => rfl
    | ok fields => exact ih _

theorem addLayers_congr (h : ∀ l ∈ layers, l.load t' = l.load t) (s : Setting) :
    addLayers t' layers s = addLayers t layers s := by
  induction layers generalizing s with
  | nil => rfl
  | cons k layers ih =>
    rw [addLayers, addLayers, h k List.mem_cons_self]
    cases k.load t with
    | error p => rfl
    | ok fields => exact ih (fun l hl => h l (List.mem_cons_of_mem k hl)) _

theorem build_error (hl : l ∈ b.layers) {p : Problem} (h : l.load t = .error p) : ∃ p', b.build t = .error p' := by
  obtain ⟨p', hp'⟩ := addLayers_error hl h Config.defaults
  refine ⟨p', ?_⟩
  rw [build, settings, hp']
  rfl

theorem build_congr (h : ∀ l ∈ b.layers, l.load t' = l.load t) : b.build t' = b.build t := by
  rw [build, build, settings, settings, addLayers_congr h]

end Loader

/-- As long as nothing but the named files can count, a required layer that has no file lets all fail, an optional one
that has none says nothing, and one that has a file lets all fail or says what the file says; so the configuration is
that of the named files, whatever other files there are. A layer for which something else counts is passed over though
its file is there, or takes the file with the ending for its own; files at other places never count. -/
theorem layers_are_their_files (b : Loader) (t : Tree) :
    ((∀ l ∈ b.layers, l.Alone t) →
      (∀ l ∈ b.layers, l.required = true → Layer.isFile t (l.fullName t) = false → ∃ p, b.build t = .error p) ∧
      (∀ before l after, b.layers = before ++ l :: after → l.required = false →
        Layer.isFile t (l.fullName t) = false → b.build t = (⟨before ++ after, b.overrides⟩ : Loader).build t) ∧
      (∀ l ∈ b.layers, Layer.isFile t (l.fullName t) = true → (∃ p, b.build t = .error p) ∨
        ∃ text body, t.readText (l.fullName t) = .ok text ∧ Toml.read? text = some (.table body) ∧
          l.load t = .ok (Setting.ofFields (some (Layer.title t (l.fullName t))) body)) ∧
      ∀ t', t'.here = t.here → (∀ l ∈ b.layers, l.Alone t') → (∀ l ∈ b.layers, Layer.SameAt t t' (l.fullName t)) →
        b.build t' = b.build t) ∧
    (∀ l : Layer, ¬ l.Alone t →
      (Layer.isFile t (l.fullName t) = true ∧ l.required = false ∧ (∀ text, t.readText (l.fullName t) ≠ .ok text) ∧
        l.load t = .ok []) ∨
      (Layer.isFile t (l.fullName t) = false ∧ ∃ path, l.spareFile? t = some path ∧
        ∀ text, t.readText path = .ok text → l.load t = Layer.fieldsIn t path text)) ∧
    ∀ t', t'.here = t.here → (∀ l ∈ b.layers, Layer.SameAt t t' (l.fullName t) ∧
      Layer.SameAt t t' (Path.settle (l.fullName t) ++ Layer.ending)) → b.build t' = b.build t := by
  refine ⟨fun h => ⟨fun l hl hrequired hno => ?_, fun before l after hlayers hrequired hno => ?_,
    fun l hl hfile => ?_, fun t' hhere h' hsame => ?_⟩, fun l h => Layer.load_of_not_alone h, fun t' hhere hsame => ?_⟩
  · refine Loader.build_error hl (p := .fileMissing l.name) ?_
    rw [Layer.load_of_alone (h l hl), Layer.named, hno, hrequired]
    rfl
  · have hl : l ∈ b.layers := by simp [hlayers]
    have hempty : l.load t = .ok [] := by
      rw [Layer.load_of_alone (h l hl), Layer.named, hno, hrequired]
      rfl
    rw [Loader.build, Loader.build, Loader.settings, Loader.settings, hlayers, Loader.addLayers_skip hempty]
  · cases hload : l.load t with
    | error p => exact .inl (Loader.build_error hl hload)
    | ok fields =>
      have hnamed := hload
      rw [Layer.load_of_alone (h l hl), Layer.named, if_pos hfile] at hnamed
      obtain ⟨text, body, ht, hread, rfl⟩ := Layer.fileAt_eq_ok hnamed
      exact .inr ⟨text, body, ht, hread, rfl⟩
  · refine Loader.build_congr fun l hl => ?_
    rw [Layer.load_of_alone (h l hl), Layer.load_of_alone (h' l hl), Layer.named_of_sameAt hhere (hsame l hl)]
  · exact Loader.build_congr fun l hl => Layer.load_of_sameAt hhere (hsame l hl).1 (hsame l hl).2

namespace Sample

def ownSettings : Text := "[grammar]\nrule=\"a\"\n".toList

def holding (files : List (Text × Bytes)) : Tree where
  here := []
  entries := (["repo".toList], .directory 0o755) :: files.map fun f => (["repo".toList, f.1], .file 0o644 f.2)

def settingsName : Text := "langadd.toml".toList

def apart : Tree := holding [(settingsName, ownSettings.bytes)]

def beside : Tree := holding [(settingsName, ownSettings.bytes), ("ci.toml".toList, ownSettings.bytes)]

/-- The same settings under a name with a further ending. -/
def astray : Tree := holding [(settingsName ++ Layer.ending, ownSettings.bytes)]

/-- A file of settings that is no text. -/
def garbled : Tree := holding [(settingsName, [255])]

def ownLayer (required : Bool) : Layer := ⟨"repo/langadd.toml".toList, required⟩

def missingLayer : Layer := ⟨"repo/none.toml".toList, false⟩

end Sample

/-- The settings of the small repository are not changed by a file beside them, or by a layer that has no file. -/
theorem layers_are_their_files_small :
    (⟨[Sample.ownLayer true, Sample.missingLayer], []⟩ : Loader).build Sample.beside =
      (⟨[Sample.ownLayer true, Sample.missingLayer], []⟩ : Loader).build Sample.apart ∧
    (⟨[Sample.ownLayer true, Sample.missingLayer], []⟩ : Loader).build Sample.apart =
      (⟨[Sample.ownLayer true], []⟩ : Loader).build Sample.apart := by
  have halone : ∀ t, t = Sample.apart ∨ t = Sample.beside →
      ∀ l ∈ [Sample.ownLayer true, Sample.missingLayer], l.Alone t := by
    intro t ht l hl
    simp only [List.mem_cons, List.not_mem_nil, or_false] at hl
    rcases hl with rfl | rfl
    · refine ⟨fun hno => absurd hno (by decide), fun hno => absurd hno ?_⟩
      rcases ht with rfl | rfl <;> decide
    · refine ⟨fun _ hfile => absurd hfile ?_, fun _ => ?_⟩
      · rcases ht with rfl | rfl <;> decide
      · rcases ht with rfl | rfl <;> decide
  have hsame : ∀ l ∈ [Sample.ownLayer true, Sample.missingLayer],
      Layer.SameAt Sample.apart Sample.beside (l.fullName Sample.apart) := by
    intro l hl
    simp only [List.mem_cons, List.not_mem_nil, or_false] at hl
    rcases hl with rfl | rfl <;> exact ⟨by decide, rfl⟩
  obtain ⟨hfiles, -, -⟩ := layers_are_their_files ⟨[Sample.ownLayer true, Sample.missingLayer], []⟩ Sample.apart
  obtain ⟨-, hskip, -, hcongr⟩ := hfiles (halone _ (.inl rfl))
  exact ⟨hcongr Sample.beside rfl (halone _ (.inr rfl)) hsame,
    hskip [Sample.ownLayer true] Sample.missingLayer [] rfl rfl (by decide)⟩

/-- In general, a layer is not the file that it names: a required one that has no file need not fail, an optional one
that has a file need neither fail nor say what the file says, and files that no layer names can change the
configuration. -/
theorem not_layers_are_their_files :
    (¬ ∀ (b : Loader) (t : Tree), (∃ l ∈ b.layers, l.required = true ∧ Layer.isFile t (l.fullName t) = false) →
      ∃ p, b.build t = .error p) ∧
    (¬ ∀ (b : Loader) (t : Tree), (∃ l ∈ b.layers, Layer.isFile t (l.fullName t) = true ∧
      ∀ text, t.readText (l.fullName t) ≠ .ok text) → ∃ p, b.build t = .error p) ∧
    ¬ ∀ (b : Loader) (t t' : Tree), t'.here = t.here → (∀ l ∈ b.layers, Layer.SameAt t t' (l.fullName t)) →
      b.build t' = b.build t := by
  refine ⟨fun hall => ?_, fun hall => ?_, fun hall => ?_⟩
  · obtain ⟨p, hp⟩ := hall ⟨[Sample.ownLayer true], []⟩ Sample.astray
      ⟨Sample.ownLayer true, List.mem_cons_self, rfl, by decide⟩
    have hok : ((⟨[Sample.ownLayer true], []⟩ : Loader).build Sample.astray).isOk = true := by decide +kernel
    rw [hp] at hok
    exact absurd hok Bool.false_ne_true
  · have hno : Sample.garbled.readText ((Sample.ownLayer false).fullName Sample.garbled) = .error .notText := rfl
    obtain ⟨p, hp⟩ := hall ⟨[Sample.ownLayer false], []⟩ Sample.garbled
      ⟨Sample.ownLayer false, List.mem_cons_self, by decide, fun text ht => absurd (hno.symm.trans ht) (by simp)⟩
    have hok : ((⟨[Sample.ownLayer false], []⟩ : Loader).build Sample.garbled).isOk = true := by decide +kernel
    rw [hp] at hok
    exact absurd hok Bool.false_ne_true
  · have hsame := hall ⟨[Sample.ownLayer false], []⟩ (Sample.holding []) Sample.astray rfl ?_
    · have hrule := congrArg (fun r => r.toOption.map Config.rule) hsame
      exact absurd hrule (by decide +kernel)
    · intro l hl
      obtain rfl := List.mem_singleton.1 hl
      exact ⟨by decide, rfl⟩

end LanguageRoster
