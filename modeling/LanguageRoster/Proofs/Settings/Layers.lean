import LanguageRoster.Proofs.Settings.Leaf

/-!
# Layers over layers

What a layer, or a setting that lies over all layers, does to the values in the tree of settings.

* `field?_merge_plain`, `field?_merge_table` : a setting put under a name
* `at?_addFields` : a file sets what it says, and leaves all else
* `at?_set` : so does a single setting
* `addLayers_said`, `at?_foldl_set` : any number of files, and any number of single settings
-/

namespace LanguageRoster

set_option autoImplicit false

variable {s body target : Setting} {key : Text} {leaf : Leaf} {sec : Section} {o : Option Text}

namespace Setting

/-! ## One name -/

@[simp] theorem field?_table (o : Option Text) (fields : List (Text × Setting)) (key : Text) :
    (Setting.table o fields).field? key = fields.lookup key := rfl

theorem field?_set (fields : List (Text × Setting)) (k : Text) (v : Setting) :
    (Setting.table o (Record.set key v fields)).field? k = if k = key then some v else fields.lookup k := by
  rw [field?_table, Record.lookup_set]

theorem field?_merge_plain {v : Setting} {x : Value} (hv : v.plain? = some x) (key k : Text) (target : Setting) :
    (merge key v target).field? k = if k = key.toLower then some v else target.field? k := by
  cases v with
  | scalar o v =>
    rw [merge, field?_set]
    rfl
  | list o items =>
    rw [merge, field?_set]
    rfl
  | table o fields => exact absurd hv (by simp [plain?])

theorem field?_merge_table (o : Option Text) (incoming : List (Text × Setting)) (key k : Text) (target : Setting) :
    (merge key (.table o incoming) target).field? k =
      if k = key.toLower then some (mergeAll incoming ((target.field? key.toLower).getD (.table none [])))
      else target.field? k := by
  rw [merge, field?_set]
  rfl

/-! ## Sections -/

/-- The fields of a section set what they say, and leave all else. -/
theorem field?_mergeAll {fields : List (Text × Toml)} {said : List (Leaf × Value)}
    (h : documentedIn? sec fields = some said) (hs : leaf.sec = sec) (body : Setting) :
    ((mergeAll (ofFields o fields) body).field? leaf.name).bind plain? =
      (latest leaf said).or ((body.field? leaf.name).bind plain?) := by
  induction fields generalizing said body with
  | nil =>
    obtain rfl := Option.some.inj h
    rfl
  | cons f fields ih =>
    obtain ⟨k, x, more, hks, hkn, hx, -, hm, rfl⟩ := documentedIn?_cons h
    have hplain := plain?_ofToml o hx
    rw [ofFields, mergeAll, ih hm, latest_cons, Option.or_assoc, field?_merge_plain hplain, ← hkn, k.toLower_name]
    -- behind those that follow, the first field counts, or else what was there
    congr 1
    by_cases hk : leaf = k
    · subst hk
      rw [if_pos rfl, if_pos rfl, Option.bind_some, hplain]
      rfl
    · have hname : leaf.name ≠ k.name := fun hn => hk (Leaf.name_injective (hs.trans hks.symm) hn)
      rw [if_neg hname, if_neg hk]
      rfl

/-! ## Files -/

theorem addField_section (sec : Section) (v s : Setting) : Loader.addField s (sec.key, v) = merge sec.key v s := by
  unfold Loader.addField
  rw [sec.read_key]
  rfl

theorem at?_addField {fields : List (Text × Toml)} {said : List (Leaf × Value)}
    (h : documentedIn? sec fields = some said) (s : Setting) (leaf : Leaf) :
    (Loader.addField s (sec.key, .table o (ofFields o fields))).at? leaf = (latest leaf said).or (s.at? leaf) := by
  rw [addField_section, at?, field?_merge_table, sec.toLower_key]
  -- only settings of the section are changed, and only those are in what it says
  by_cases hs : leaf.sec = sec
  · rw [hs, if_pos rfl, Option.bind_some, field?_mergeAll h hs, at?, hs]
    cases s.field? sec.key with
    | none => rfl
    | some body => rfl
  · have hnone : latest leaf said = none := by
      apply latest_eq_none
      rintro x hx rfl
      exact hs (of_documentedIn? h x hx).1
    rw [if_neg fun hk => hs (Section.key_injective hk), hnone]
    rfl

/-- A file sets what it says, and leaves all else. -/
theorem at?_addFields {fields : List (Text × Toml)} {said : List (Leaf × Value)} (h : documented? fields = some said)
    (s : Setting) (leaf : Leaf) :
    ((ofFields o fields).foldl Loader.addField s).at? leaf = (latest leaf said).or (s.at? leaf) := by
  induction fields generalizing said s with
  | nil =>
    obtain rfl := Option.some.inj h
    rfl
  | cons f fields ih =>
    obtain ⟨key, v⟩ := f
    obtain ⟨sec, body, first, more, rfl, rfl, hf, hm, rfl⟩ := documented?_cons h
    rw [ofFields, ofToml, List.foldl_cons, ih hm, at?_addField hf, latest_append, Option.or_assoc]

/-! ## Single settings -/

/-- A single setting sets its value, and leaves all else. -/
theorem at?_set {v : Setting} {x : Value} (hv : v.plain? = some x) (k : Leaf) (s : Setting) (leaf : Leaf) :
    (k.path.set v s).at? leaf = if leaf = k then some x else s.at? leaf := by
  show (Setting.table s.asTable.1 (Record.set k.sec.key.toLower
    (merge k.name v ((s.asTable.2.lookup k.sec.key.toLower).getD nothing)) s.asTable.2)).at? leaf = _
  rw [k.sec.toLower_key, at?, field?_set]
  by_cases hs : leaf.sec = k.sec
  · rw [hs, if_pos rfl, Option.bind_some, field?_merge_plain hv, k.toLower_name]
    by_cases hk : leaf = k
    · rw [if_pos (congrArg Leaf.name hk), if_pos hk, Option.bind_some, hv]
    · rw [if_neg fun hn => hk (Leaf.name_injective hs hn), if_neg hk, at?, hs]
      unfold field?
      cases s.asTable.2.lookup k.sec.key with
      | none => rfl
      | some body => rfl
  · have hk : leaf ≠ k := fun hk => hs (congrArg Leaf.sec hk)
    rw [if_neg fun hkey => hs (Section.key_injective hkey), if_neg hk]
    rfl

end Setting

/-! ## All files -/

section

variable {t : Tree} {l : Layer} {layers : List Layer} {said : List (Leaf × Value)}

/-- Where a layer says something, it can be loaded, and this is what it sets. -/
theorem Layer.load_said (h : l.said? t = some said) :
    ∃ fields, l.load t = .ok fields ∧
      ∀ s leaf, (fields.foldl Loader.addField s).at? leaf = (latest leaf said).or (s.at? leaf) := by
  unfold Layer.said? at h
  split at h
  · next hfile =>
    have hfind : l.find? t = some (l.fullName t) := if_pos hfile
    split at h
    · exact absurd h (by simp)
    · next text ht =>
      split at h
      · next fields hread =>
        refine ⟨Setting.ofFields (some (Layer.title t (l.fullName t))) fields, ?_, fun s leaf => ?_⟩
        · unfold Layer.load
          simp only [hfind, ht, hread]
        · exact Setting.at?_addFields h s leaf
      · exact absurd h (by simp)
  · next hfile =>
    split at h
    · exact absurd h (by simp)
    · next hnone =>
      rw [Bool.or_eq_true, not_or, Bool.not_eq_true, Bool.not_eq_true] at hnone
      obtain ⟨hrequired, hending⟩ := hnone
      obtain rfl := Option.some.inj h
      have hfind : l.find? t = none := by
        unfold Layer.find?
        simp [hfile, hending]
      refine ⟨[], ?_, fun s leaf => rfl⟩
      unfold Layer.load
      simp only [hfind, hrequired]
      rfl

theorem Layer.kind_of_said (h : l.said? t = some said) : ∀ x ∈ said, x.2.kind = x.1.kind := by
  unfold Layer.said? at h
  split at h
  · split at h
    · exact absurd h (by simp)
    · split at h
      · exact kind_of_documented? h
      · exact absurd h (by simp)
  · split at h
    · exact absurd h (by simp)
    · obtain rfl := Option.some.inj h
      exact fun x hx => absurd hx (by simp)

/-- What all layers say, one after another. -/
def saidAll (t : Tree) (layers : List Layer) : List (Leaf × Value) := layers.flatMap fun l => (l.said? t).getD []

theorem kind_of_saidAll : ∀ x ∈ saidAll t layers, x.2.kind = x.1.kind := by
  intro x hx
  obtain ⟨l, -, hx⟩ := List.mem_flatMap.1 hx
  cases hs : l.said? t with
  | none =>
    rw [hs] at hx
    exact absurd hx (by simp)
  | some said =>
    rw [hs] at hx
    exact Layer.kind_of_said hs x hx

theorem addLayers_said (h : ∀ l ∈ layers, (l.said? t).isSome) (s : Setting) :
    ∃ s', Loader.addLayers t layers s = .ok s' ∧
      ∀ leaf, s'.at? leaf = (latest leaf (saidAll t layers)).or (s.at? leaf) := by
  induction layers generalizing s with
  | nil => exact ⟨s, rfl, fun leaf => rfl⟩
  | cons l layers ih =>
    obtain ⟨said, hsaid⟩ := Option.isSome_iff_exists.1 (h l List.mem_cons_self)
    obtain ⟨fields, hload, hfields⟩ := Layer.load_said hsaid
    obtain ⟨s', hlayers, hs'⟩ := ih (fun k hk => h k (List.mem_cons_of_mem l hk)) (fields.foldl Loader.addField s)
    refine ⟨s', ?_, fun leaf => ?_⟩
    · rw [Loader.addLayers, hload]
      exact hlayers
    · have hall : saidAll t (l :: layers) = said ++ saidAll t layers := by
        unfold saidAll
        rw [List.flatMap_cons, hsaid, Option.getD_some]
      rw [hs', hfields, hall, latest_append, Option.or_assoc]

end

/-! ## All single settings -/

section

variable {given : List (Leaf × Value)} {overrides : List (KeyPath × Setting)}

theorem at?_foldl_set (hn : (overrides.map Prod.fst).Nodup)
    (hd : ∀ x ∈ overrides, ∃ leaf v, x = (Leaf.path leaf, Value.setting v)) (s : Setting) (leaf : Leaf) :
    (overrides.foldl (fun s (p, v) => p.set v s) s).at? leaf =
      ((overrides.lookup leaf.path).bind Setting.plain?).or (s.at? leaf) := by
  -- no path comes twice, so that none that follow change the first setting again
  induction overrides generalizing s with
  | nil => rfl
  | cons x overrides ih =>
    obtain ⟨k, v, rfl⟩ := hd x List.mem_cons_self
    rw [List.map_cons, List.nodup_cons] at hn
    rw [List.foldl_cons, ih hn.2 fun y hy => hd y (List.mem_cons_of_mem _ hy), Setting.at?_set v.plain?_setting]
    by_cases hk : leaf = k
    · subst hk
      have hnone : overrides.lookup leaf.path = none := by
        rw [List.lookup_eq_none_iff]
        intro y hy
        apply bne_iff_ne.2
        rintro heq
        exact hn.1 (List.mem_map.2 ⟨y, hy, heq.symm⟩)
      rw [hnone, if_pos rfl, List.lookup_cons_self, Option.bind_some, v.plain?_setting]
      rfl
    · have hpath : (leaf.path == k.path) = false := beq_false_of_ne fun hp => hk (Leaf.path_injective hp)
      rw [if_neg hk, List.lookup_cons, hpath]

/-- The settings that lie over all layers: each documented setting that was given, with the last value. -/
structure Lying (given : List (Leaf × Value)) (overrides : List (KeyPath × Setting)) : Prop where
  once : (overrides.map Prod.fst).Nodup
  documented : ∀ x ∈ overrides, ∃ leaf v, x = (Leaf.path leaf, Value.setting v)
  last : ∀ leaf, overrides.lookup (Leaf.path leaf) = (latest leaf given).map Value.setting

theorem Lying.start : Lying [] [] := ⟨List.nodup_nil, by simp, fun _ => rfl⟩

theorem Lying.set (h : Lying given overrides) (leaf : Leaf) (v : Value) :
    Lying (given ++ [(leaf, v)]) (Record.set leaf.path v.setting overrides) where
  once := Record.nodup_keys_set h.once
  documented := by
    intro x hx
    rcases Record.mem_set hx with rfl | hx
    · exact ⟨leaf, v, rfl⟩
    · exact h.documented x hx
  last := by
    intro k
    rw [Record.lookup_set, latest_append, h.last k, latest_cons]
    by_cases hk : k = leaf
    · subst hk
      rw [if_pos rfl, if_pos rfl]
      rfl
    · rw [if_neg fun hp => hk (Leaf.path_injective hp), if_neg hk]
      rfl

theorem Lying.at? (h : Lying given overrides) (s : Setting) (leaf : Leaf) :
    (overrides.foldl (fun s (p, v) => p.set v s) s).at? leaf = (latest leaf given).or (s.at? leaf) := by
  rw [at?_foldl_set h.once h.documented, h.last]
  cases latest leaf given with
  | none => rfl
  | some v => rw [Option.map_some, Option.bind_some, v.plain?_setting]

end

end LanguageRoster
