import CategoryLint.Project.Load
import CategoryLint.Proofs.Making
import CategoryLint.Proofs.Merging
import CategoryLint.Proofs.Variable

/-!
# Layers

The configuration of a project without variables, path by path: what is there is decided by the
last of its layers that touches the path, the defaults first and then the overlays in the order
of their names (`load_layered`). It is what that layer shows: its value if that is no mapping, a
mapping if it has one there, and nothing if it has a leaf on the way. Loading fails only where
two layers show mappings at a path as long as merging goes. Of the reader of documents only
`Libraries.Lawful` is used.

`layered_append` is the step, one more layer on top, and `addOverlays_layered` the run over all
overlays.
-/

namespace CategoryLint.Project

/-! ## The law -/

/-- The last layer that touches a path decides what a configuration shows there. -/
structure Layered (layers : List Config) (c : Config) : Prop where
  /-- Where no layer touches the path, nothing is there. -/
  untouched : ∀ path, (∀ l ∈ layers, ¬l.Touches path) → c.shown path = .nothing
  /-- Otherwise what the last one shows is there. -/
  decided : ∀ path before l after, layers = before ++ l :: after → l.Touches path →
    (∀ l' ∈ after, ¬l'.Touches path) → c.shown path = l.shown path
  /-- The links of the layers lead where they led. -/
  within : ∀ l ∈ layers, l.objects.Within c.objects

/-- Two layers show mappings at a path that is as long as mappings may be deep. -/
def TooDeep [Limits] (layers : List Config) : Prop :=
  ∃ l l' path, [l, l'].Sublist layers ∧ path.length = Limits.merge ∧
    l.shown path = .mapping ∧ l'.shown path = .mapping

/-- The objects of a configuration are as documents make them, and its values as merging does. -/
structure Orderly (c : Config) : Prop where
  /-- The objects. -/
  objects : c.objects.WellFormed
  /-- The values. -/
  entries : c.objects.Sound (.mapping c.entries)

variable {layers : List Config} {c : Config} {T : Objects} {es merged : Entries}

/-- Either no layer touches the path, or there is a last one that does. -/
theorem exists_last (layers : List Config) (path : List Scalar) :
    (∀ l ∈ layers, ¬l.Touches path) ∨ ∃ before l after, layers = before ++ l :: after ∧
      l.Touches path ∧ ∀ l' ∈ after, ¬l'.Touches path := by
  induction layers with
  | nil => exact .inl fun l h => absurd h List.not_mem_nil
  | cons m layers ih =>
    rcases ih with hnone | ⟨before, l, after, rfl, hl, hafter⟩
    · by_cases hm : m.Touches path
      · exact .inr ⟨[], m, layers, rfl, hm, hnone⟩
      · exact .inl (List.forall_mem_cons.2 ⟨hm, hnone⟩)
    · exact .inr ⟨m :: before, l, after, rfl, hl, hafter⟩

theorem Layered.exists_of_shown_eq_mapping {path : List Scalar} (h : Layered layers c)
    (hc : c.shown path = .mapping) : ∃ l ∈ layers, l.shown path = .mapping := by
  rcases exists_last layers path with hnone | ⟨before, l, after, hlayers, hl, hafter⟩
  · rw [h.untouched path hnone] at hc
    cases hc
  · refine ⟨l, ?_, (h.decided path before l after hlayers hl hafter).symm.trans hc⟩
    rw [hlayers]
    exact List.mem_append_right _ List.mem_cons_self

theorem layered_singleton : Layered [c] c where
  untouched path h := Objects.shown_eq_nothing_of_not_touches (h c List.mem_cons_self)
  decided path before l after h hl hafter := by
    cases before with
    | nil =>
      cases h
      rfl
    | cons m before =>
      rw [List.cons_append, List.cons.injEq, eq_comm (a := []), List.append_eq_nil_iff] at h
      exact absurd h.2.2 (List.cons_ne_nil l after)
  within l h := by
    rw [List.mem_singleton] at h
    rw [h]
    exact .refl

theorem Orderly.sound_of_get? {k : Scalar} {v : Value} (hc : Orderly c)
    (h : c.entries.get? k = some v) : c.objects.Sound v := by
  obtain ⟨e, he, rfl⟩ := Entries.exists_of_get?_eq_some h
  exact hc.entries.entry hc.objects rfl e he

/-- The defaults are orderly. -/
theorem orderly_defaults : Orderly Packaged.defaults where
  objects n es h := by
    rw [Array.getElem?_empty] at h
    cases h
  entries := by
    refine .mapping fun e he => ?_
    rw [Packaged.defaults, List.mem_singleton] at he
    rw [he]
    refine .mapping fun e he => ?_
    rw [List.mem_singleton] at he
    rw [he]
    exact .atomic trivial

/-! ## Names in order -/

/-- Sorting by names puts them in order. -/
theorem pairwise_mergeSort_by {α : Type} (name : α → String) (l : List α) :
    (l.mergeSort fun a b => name a ≤ name b).Pairwise fun a b => name a ≤ name b := by
  refine (List.pairwise_mergeSort ?_ ?_ l).imp of_decide_eq_true
  · intro a b c hab hbc
    exact decide_eq_true (String.le_trans (of_decide_eq_true hab) (of_decide_eq_true hbc))
  · intro a b
    rw [Bool.or_eq_true, decide_eq_true_iff, decide_eq_true_iff]
    exact String.le_total _ _

/-- A list of names in order is the one that sorting gives. -/
theorem mergeSort_eq_of_perm {names chosen : List String} (hperm : names.Perm chosen)
    (hsorted : names.Pairwise (· ≤ ·)) : chosen.mergeSort (fun a b => a ≤ b) = names :=
  List.Perm.eq_of_pairwise (fun _ _ _ _ => String.le_antisymm) (pairwise_mergeSort_by id chosen)
    hsorted ((List.mergeSort_perm chosen _).trans hperm.symm)

/-! ## One more layer -/

/-- What a configuration shows does not change when the table grows. -/
theorem Orderly.shown_of_within {path : List Scalar} (hc : Orderly c)
    (h : c.objects.Within T) : T.shown path (some (.mapping c.entries)) = c.shown path :=
  Objects.shown_of_within hc.objects h hc.entries

section

variable [Limits]

/-- With one more layer on top, the last layer still decides. -/
theorem layered_append (hc : Orderly c) (hlayers : Layered layers c) (hT : T.WellFormed)
    (hwithin : c.objects.Within T) (hes : T.Tidy es) (h : T.merge c.entries es = some merged) :
    Layered (layers ++ [⟨es, T⟩]) ⟨merged, T⟩ where
  untouched path hnone := by
    rw [List.forall_mem_append, List.forall_mem_singleton] at hnone
    refine ((Objects.shown_merge hT hes h).2 hnone.2).trans ?_
    rw [hc.shown_of_within hwithin]
    exact hlayers.untouched path hnone.1
  decided path before l after heq hl hafter := by
    rcases List.eq_nil_or_concat after with rfl | ⟨after, m, rfl⟩
    · -- The new layer is the last one that touches the path.
      obtain ⟨rfl, hlast⟩ := List.append_inj' heq rfl
      cases hlast
      exact (Objects.shown_merge hT hes h).1 hl
    · -- The new layer does not touch the path, and an earlier one decides.
      rw [List.concat_eq_append, List.forall_mem_append, List.forall_mem_singleton] at hafter
      rw [List.concat_eq_append, ← List.cons_append, ← List.append_assoc] at heq
      obtain ⟨hbefore, hlast⟩ := List.append_inj' heq rfl
      cases hlast
      refine ((Objects.shown_merge hT hes h).2 hafter.2).trans ?_
      rw [hc.shown_of_within hwithin]
      exact hlayers.decided path before l after hbefore hl hafter.1
  within l hl := by
    rw [List.mem_append, List.mem_singleton] at hl
    rcases hl with hl | rfl
    · exact (hlayers.within l hl).trans hwithin
    · exact .refl

/-- Merging tidy entries into an orderly configuration leaves it orderly. -/
theorem orderly_merge (hc : Orderly c) (hT : T.WellFormed) (hwithin : c.objects.Within T)
    (hes : T.Tidy es) (h : T.merge c.entries es = some merged) : Orderly ⟨merged, T⟩ :=
  ⟨hT, Objects.sound_merge hT (hc.entries.of_within hwithin) hes h⟩

/-- A layer that is too deep to be merged shares a long path with an earlier one. -/
theorem tooDeep_append (hc : Orderly c) (hlayers : Layered layers c) (hT : T.WellFormed)
    (hwithin : c.objects.Within T) (hes : T.Tidy es) (h : T.merge c.entries es = none) :
    TooDeep (layers ++ [⟨es, T⟩]) := by
  obtain ⟨path, hlength, hbase, hnew⟩ := Objects.exists_deep_of_merge_eq_none hT hes h
  -- What the configuration shows comes from one of its layers.
  rw [hc.shown_of_within hwithin] at hbase
  obtain ⟨l, hl, hshown⟩ := hlayers.exists_of_shown_eq_mapping hbase
  refine ⟨l, ⟨es, T⟩, path, ?_, hlength, hshown, hnew⟩
  exact (List.singleton_sublist.2 hl).append (.refl [_])

theorem TooDeep.append (h : TooDeep layers) (more : List Config) : TooDeep (layers ++ more) := by
  obtain ⟨l, l', path, hsub, hlength, hl, hl'⟩ := h
  exact ⟨l, l', path, hsub.trans (List.sublist_append_left _ _), hlength, hl, hl'⟩

/-! ## All overlays -/

variable [Libraries]

/-- The configurations that files hold, each with its objects after those of the files before. -/
def readLayers (w : Workspace) (objects : Objects) : List Path → Except Failure (List Config)
  | [] => .ok []
  | p :: ps => do
    let (entries, objects) ← readMapping w objects p
    let layers ← readLayers w objects ps
    return { entries, objects } :: layers

variable {w : Workspace} {p : Path} {ps : List Path}

omit [Limits] in
/-- Reading a file adds objects and changes none, and its entries are tidy among them. -/
theorem readMapping_wellFormed [Libraries.Lawful] {T' : Objects} (hT : T.WellFormed)
    (h : readMapping w T p = .ok (es, T')) : T.Within T' ∧ T'.WellFormed ∧ T'.Tidy es := by
  have hnil : ∀ T : Objects, T.Tidy [] := fun T =>
    ⟨List.nodup_nil, fun _ h => absurd h List.not_mem_nil⟩
  rw [readMapping] at h
  split at h
  · cases h
    exact ⟨.refl, hT, hnil T⟩
  · cases h
    exact ⟨.refl, hT, hnil T⟩
  · cases h
  · cases h
  · rw [readBytes] at h
    split at h
    · cases h
    · next hread =>
      cases h
      obtain ⟨hwithin, hT', -⟩ := Libraries.Lawful.readDocument_wellFormed hT hread
      exact ⟨hwithin, hT', hnil T'⟩
    · next v T'' _ hread =>
      split at h
      · next fs hfs =>
        cases h
        obtain ⟨hwithin, hT', hv⟩ := Libraries.Lawful.readDocument_wellFormed hT hread
        exact ⟨hwithin, hT', hv.tidy hT' hfs⟩
      · cases h

theorem addOverlays_of_merge_eq_none (hread : readMapping w c.objects p = .ok (es, T))
    (h : T.merge c.entries es = none) :
    (addOverlays w c (p :: ps)).2 = .error (.tooDeep .merge) := by
  rw [addOverlays, hread]
  simp only [h]

theorem addOverlays_of_merge_eq_some (hread : readMapping w c.objects p = .ok (es, T))
    (h : T.merge c.entries es = some merged) :
    (addOverlays w c (p :: ps)).2 = (addOverlays w ⟨merged, T⟩ ps).2 := by
  rw [addOverlays, hread]
  simp only [h]

theorem addOverlays_of_readMapping_eq_error {e : Failure}
    (hread : readMapping w c.objects p = .error e) :
    (addOverlays w c (p :: ps)).2 = .error e := by
  rw [addOverlays, hread]

/-- An overlay that could be put on top was read, and so were those after it. -/
theorem exists_of_addOverlays_cons_eq_ok {c' : Config}
    (h : (addOverlays w c (p :: ps)).2 = .ok c') :
    ∃ es T merged, readMapping w c.objects p = .ok (es, T) ∧
      T.merge c.entries es = some merged ∧ (addOverlays w ⟨merged, T⟩ ps).2 = .ok c' := by
  cases hread : readMapping w c.objects p with
  | error e =>
    rw [addOverlays_of_readMapping_eq_error hread] at h
    cases h
  | ok r =>
    obtain ⟨es, T⟩ := r
    cases hmerge : T.merge c.entries es with
    | none =>
      rw [addOverlays_of_merge_eq_none hread hmerge] at h
      cases h
    | some merged =>
      rw [addOverlays_of_merge_eq_some hread hmerge] at h
      exact ⟨es, T, merged, rfl, hmerge, h⟩

/-- A run that ends with a configuration has read all its overlays. -/
theorem exists_layers_of_addOverlays {c' : Config} (h : (addOverlays w c ps).2 = .ok c') :
    ∃ layers, readLayers w c.objects ps = .ok layers := by
  induction ps generalizing c with
  | nil => exact ⟨[], rfl⟩
  | cons p ps ih =>
    obtain ⟨es, T, merged, hread, -, h⟩ := exists_of_addOverlays_cons_eq_ok h
    obtain ⟨rest, hrest⟩ := ih h
    refine ⟨⟨es, T⟩ :: rest, ?_⟩
    rw [readLayers, hread]
    exact bind_eq_ok_iff.2 ⟨_, rfl, bind_eq_ok_iff.2 ⟨rest, hrest, rfl⟩⟩

/-- What every layer keeps holds with all of them on top. -/
theorem addOverlays_preserves {P : Config → Prop} {c' : Config}
    (hlayers : readLayers w c.objects ps = .ok layers)
    (hP : ∀ c p es T merged, P c → readMapping w c.objects p = .ok (es, T) → ⟨es, T⟩ ∈ layers →
      T.merge c.entries es = some merged → P ⟨merged, T⟩)
    (hc : P c) (h : (addOverlays w c ps).2 = .ok c') : P c' := by
  induction ps generalizing c layers with
  | nil =>
    cases h
    exact hc
  | cons p ps ih =>
    obtain ⟨es, T, merged, hread, hmerge, h⟩ := exists_of_addOverlays_cons_eq_ok h
    rw [readLayers, hread] at hlayers
    obtain ⟨r, hr, hlayers⟩ := bind_eq_ok_iff.1 hlayers
    cases hr
    obtain ⟨rest, hrest, heq⟩ := bind_eq_ok_iff.1 hlayers
    cases heq
    refine ih hrest (fun c p es T merged hc hread hl => ?_)
      (hP c p es T merged hc hread List.mem_cons_self hmerge) h
    exact hP c p es T merged hc hread (List.mem_cons_of_mem _ hl)

/-- Overlays on top of a configuration are layers on top of its layers. -/
theorem addOverlays_layered [Libraries.Lawful] {done : List Config} (hc : Orderly c)
    (hdone : Layered done c) (h : readLayers w c.objects ps = .ok layers) :
    (∃ c', (addOverlays w c ps).2 = .ok c' ∧ Layered (done ++ layers) c') ∨
      (addOverlays w c ps).2 = .error (.tooDeep .merge) ∧ TooDeep (done ++ layers) := by
  induction ps generalizing c done layers with
  | nil =>
    cases h
    rw [List.append_nil]
    exact .inl ⟨c, rfl, hdone⟩
  | cons p ps ih =>
    rw [readLayers] at h
    obtain ⟨⟨es, T⟩, hread, h⟩ := bind_eq_ok_iff.1 h
    obtain ⟨rest, hrest, h⟩ := bind_eq_ok_iff.1 h
    cases h
    obtain ⟨hwithin, hT, hes⟩ := readMapping_wellFormed hc.objects hread
    rw [List.append_cons]
    -- The overlay is too deep, or the others go on top of it as on top of any configuration.
    cases hmerge : T.merge c.entries es with
    | none =>
      exact .inr ⟨addOverlays_of_merge_eq_none hread hmerge,
        (tooDeep_append hc hdone hT hwithin hes hmerge).append rest⟩
    | some merged =>
      rw [addOverlays_of_merge_eq_some hread hmerge]
      exact ih (orderly_merge hc hT hwithin hes hmerge)
        (layered_append hc hdone hT hwithin hes hmerge) hrest

/-! ## Projects -/

/-- The configuration that the files of a project give: the defaults and the overlays. -/
def fromFiles (w : Workspace) (root : Path) : Except Failure Config :=
  match w.lookup (overlayDirectory root) with
  | .tooLong => .error .pathTooLong
  | .nothing => .ok Packaged.defaults
  | .found t =>
    (addOverlays w Packaged.defaults (filesEnding t (overlayDirectory root) ".yml")).2

/-- The names of the files that are overlays, in the order of their directory. -/
def overlayNames (w : Workspace) (root : Path) : List String :=
  match w.lookup (overlayDirectory root) with
  | .found t => (t.entries.map (·.1)).filter fun n => ".yml".toList.isSuffixOf n.toList
  | _ => []

/-- The overlays of a project whose settings can be looked at: their names in order, and the
    configurations that they hold. -/
structure Overlays (w : Workspace) (root : Path) (names : List String) (layers : List Config) :
    Prop where
  /-- The path to the overlays is not too long. -/
  within : w.lookup (overlayDirectory root) ≠ .tooLong
  /-- The names are those of the overlays. -/
  perm : names.Perm (overlayNames w root)
  /-- The names are in order. -/
  sorted : names.Pairwise (· ≤ ·)
  /-- Every overlay holds a mapping. -/
  read : readLayers w #[] (names.map (overlayDirectory root).child) = .ok layers

variable {root : Path} {names : List String} {strict : Bool}

/-- The environment goes on top of what the files give. -/
theorem result_load : (load w root strict).result =
    (fromFiles w root).bind fun c => (addEnvironment w strict c).result := by
  cases hlookup : w.lookup (overlayDirectory root) with
  | tooLong =>
    simp only [load, fromFiles, hlookup]
    rfl
  | nothing =>
    simp only [load, fromFiles, hlookup]
    rfl
  | found t =>
    simp only [load, fromFiles, hlookup]
    cases addOverlays w Packaged.defaults (filesEnding t (overlayDirectory root) ".yml") with
    | mk tried result => cases result <;> rfl

theorem Overlays.fromFiles_eq (h : Overlays w root names layers) :
    fromFiles w root =
      (addOverlays w Packaged.defaults (names.map (overlayDirectory root).child)).2 := by
  have hperm := h.perm
  rw [overlayNames] at hperm
  rw [fromFiles]
  split
  · next hlong => exact absurd hlong h.within
  · next hnothing =>
    rw [hnothing, List.perm_nil] at hperm
    rw [hperm]
    rfl
  · next t ht =>
    rw [ht] at hperm
    simp only at hperm
    rw [filesEnding, mergeSort_eq_of_perm hperm h.sorted]

/-- What the defaults have and every layer keeps holds of what the files give. -/
theorem Overlays.fromFiles_preserves {P : Config → Prop} (h : Overlays w root names layers)
    (hP : ∀ c p es T merged, P c → readMapping w c.objects p = .ok (es, T) → ⟨es, T⟩ ∈ layers →
      T.merge c.entries es = some merged → P ⟨merged, T⟩)
    (hdefaults : P Packaged.defaults) (hc : fromFiles w root = .ok c) : P c := by
  rw [h.fromFiles_eq] at hc
  exact addOverlays_preserves h.read hP hdefaults hc

/-- What the defaults have and each merge preserves, the configuration from the files has. -/
theorem fromFiles_preserves {P : Config → Prop}
    (hP : ∀ c p es T merged, P c → readMapping w c.objects p = .ok (es, T) →
      T.merge c.entries es = some merged → P ⟨merged, T⟩)
    (hdefaults : P Packaged.defaults) (h : fromFiles w root = .ok c) : P c := by
  rw [fromFiles] at h
  split at h
  · cases h
  · cases h
    exact hdefaults
  · obtain ⟨layers, hlayers⟩ := exists_layers_of_addOverlays h
    exact addOverlays_preserves hlayers
      (fun c p es T merged hc hread _ => hP c p es T merged hc hread) hdefaults h

theorem orderly_of_fromFiles [Libraries.Lawful] (h : fromFiles w root = .ok c) : Orderly c := by
  refine fromFiles_preserves (fun c p es T merged hc hread hmerge => ?_) orderly_defaults h
  obtain ⟨hwithin, hT, hes⟩ := readMapping_wellFormed hc.objects hread
  exact orderly_merge hc hT hwithin hes hmerge

/-- The files give a configuration layered from the defaults and the overlays, unless the layers are
    too deep to be merged. -/
theorem Overlays.fromFiles_layered [Libraries.Lawful] (h : Overlays w root names layers) :
    (∃ c, fromFiles w root = .ok c ∧ Layered (Packaged.defaults :: layers) c) ∨
      fromFiles w root = .error (.tooDeep .merge) ∧ TooDeep (Packaged.defaults :: layers) := by
  rw [h.fromFiles_eq]
  exact addOverlays_layered orderly_defaults layered_singleton h.read

/-- Without variables, the last layer that touches a path decides what is there, unless two
    layers go on together for longer than merging does. -/
theorem load_layered [Libraries.Lawful] (hw : ∀ e ∈ w.environment, ¬Override.IsOverriding e)
    (h : Overlays w root names layers) :
    (∃ c, (load w root false).result = .ok c ∧ Layered (Packaged.defaults :: layers) c) ∨
      (load w root false).result = .error (.tooDeep .merge) ∧
        TooDeep (Packaged.defaults :: layers) := by
  have hadd : ∀ c, (addEnvironment w false c).result = .ok c := by
    intro c
    rw [addEnvironment, Override.ofEnvironment_eq_nil hw]
    rfl
  rw [result_load]
  rcases h.fromFiles_layered with ⟨c, hc, hlayered⟩ | ⟨herror, hdeep⟩
  · rw [hc]
    exact .inl ⟨c, hadd c, hlayered⟩
  · rw [herror]
    exact .inr ⟨rfl, hdeep⟩

omit [Limits] in
/-- Overlays that can all be read, in the order of their names, have layers. -/
theorem exists_overlays (hnonempty : overlayNames w root ≠ [])
    (hperm : names.Perm (overlayNames w root)) (hsorted : names.Pairwise (· ≤ ·))
    (hread : (readLayers w #[] (names.map (overlayDirectory root).child)).toBool = true) :
    ∃ layers, Overlays w root names layers := by
  cases hlayers : readLayers w #[] (names.map (overlayDirectory root).child) with
  | error e =>
    rw [hlayers] at hread
    cases hread
  | ok layers =>
    refine ⟨layers, fun hlong => hnonempty ?_, hperm, hsorted, hlayers⟩
    rw [overlayNames, hlong]

end

/-- A project with two overlays, made in the other order, and a file that is none. -/
def twoOverlays : Workspace where
  files :=
    .directory [(".patternlint", .directory [("config", .directory
      [("b.yml", .file "patterns: {a: x}".toUTF8.toList),
       ("a.yml", .file "patterns: y".toUTF8.toList),
       ("c.yaml", .file [])])])]
  current := []

/-- Two overlays above the defaults. -/
theorem load_layered_twoOverlays :
    (∀ e ∈ twoOverlays.environment, ¬Override.IsOverriding e) ∧
    ∃ layers, Overlays twoOverlays ⟨1, []⟩ ["a.yml", "b.yml"] layers ∧
      ((∃ c, (load twoOverlays ⟨1, []⟩ false).result = .ok c ∧
          Layered (Packaged.defaults :: layers) c) ∨
        (load twoOverlays ⟨1, []⟩ false).result = .error (.tooDeep .merge) ∧
          TooDeep (Packaged.defaults :: layers)) := by
  have hw : ∀ e ∈ twoOverlays.environment, ¬Override.IsOverriding e :=
    fun e he => absurd he List.not_mem_nil
  have hnames : overlayNames twoOverlays ⟨1, []⟩ = ["b.yml", "a.yml"] := by decide +kernel
  obtain ⟨layers, h⟩ : ∃ layers, Overlays twoOverlays ⟨1, []⟩ ["a.yml", "b.yml"] layers :=
    exists_overlays (hnames ▸ List.cons_ne_nil _ _) (hnames ▸ .swap _ _ []) (by decide)
      (by decide +kernel)
  exact ⟨hw, layers, h, load_layered hw h⟩

end CategoryLint.Project
