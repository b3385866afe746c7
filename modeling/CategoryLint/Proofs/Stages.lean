import CategoryLint.Proofs.Strictness

/-!
# The stages of a load

A load goes through stages: every overlay is put on top of what is there, every variable is
written, and the result is checked. It is a fold of them over the defaults (`result_eq_foldlM`),
so it fails as the first stage that fails does, and what all stages keep holds of what it returns.

The overlays come before all variables. So an overlay is put on a configuration that only files
have made, which is orderly (`orderly_of_comesTo`).
-/

namespace CategoryLint.Project

/-- A stage of a load. -/
inductive Stage where
  /-- An overlay is put on top. -/
  | overlay (p : Path)
  /-- A variable is written, by the rest of its name and its value. -/
  | override (tail raw : String)
  /-- The configuration is checked. -/
  | check

/-- A configuration with a layer on top, whose objects come after its own. -/
def addLayer [Limits] (c layer : Config) : Except Failure Config :=
  match layer.objects.merge c.entries layer.entries with
  | none => .error (.tooDeep .merge)
  | some entries => .ok { layer with entries }

/-- What a stage makes of a configuration. -/
def Stage.run [Limits] [Libraries] (w : Workspace) (strict : Bool) (c : Config) :
    Stage → Except Failure Config
  | overlay p => do
    let (entries, objects) ← readMapping w c.objects p
    addLayer c { entries, objects }
  | override tail raw => finish false (Override.applyWith Sharing.set strict c [(tail, raw)])
  | check => finish strict ⟨c, [], none⟩

/-- The overlays of a project in the order of their names. -/
def overlayPaths (w : Workspace) (root : Path) : List Path :=
  match w.lookup (overlayDirectory root) with
  | .found t => filesEnding t (overlayDirectory root) ".yml"
  | _ => []

/-- The stages that write variables. -/
def overrides (vars : List (String × String)) : List Stage :=
  vars.map fun v => .override v.1 v.2

/-- The stages of a load. -/
def stages (w : Workspace) (root : Path) : List Stage :=
  (overlayPaths w root).map .overlay ++
    (overrides (Override.ofEnvironment w.environment) ++ [.check])

variable {w : Workspace} {root : Path} {strict : Bool} {c c' : Config} {p : Path}
  {before after : List Stage} {s : Stage}

/-- Only overlays come before an overlay. -/
theorem exists_overlays_before (h : stages w root = before ++ .overlay p :: after) :
    p ∈ overlayPaths w root ∧ ∃ ps : List Path, before = ps.map .overlay := by
  have hnot : .overlay p ∉ overrides (Override.ofEnvironment w.environment) ++ [.check] := by
    simp [overrides]
  rw [stages, List.append_eq_append_iff] at h
  rcases h with ⟨rest, -, h⟩ | ⟨rest, hoverlays, h⟩
  · exact absurd (h ▸ List.mem_append_right rest List.mem_cons_self) hnot
  · cases rest with
    | nil => exact absurd (h ▸ List.mem_cons_self) hnot
    | cons s rest =>
      cases h
      obtain ⟨ps, ps', hps, rfl, hrest⟩ := List.map_eq_append_iff.1 hoverlays
      obtain ⟨_, _, rfl, hp, -⟩ := List.map_eq_cons_iff.1 hrest
      cases hp
      rw [hps]
      exact ⟨List.mem_append_right ps List.mem_cons_self, ps, rfl⟩

/-! ## One stage -/

/-- A layer is added if its mapping can be merged. -/
theorem addLayer_eq_ok_iff [Limits] {layer : Config} : addLayer c layer = .ok c' ↔
    ∃ merged, layer.objects.merge c.entries layer.entries = some merged ∧
      c' = ⟨merged, layer.objects⟩ := by
  rw [addLayer]
  split
  · next hmerge => simp [hmerge]
  · next merged hmerge => simp [hmerge, eq_comm]

/-- What a load returns is what the variables have made, and none of them failed. -/
theorem finish_eq_ok [Libraries] {applied : Override.Applied Config}
    (h : finish strict applied = .ok c) :
    applied.failure = none ∧ applied.config = c := by
  cases strict with
  | false => exact finish_lenient_eq_ok_iff.1 h
  | true => exact finish_lenient_eq_ok_iff.1 (finish_lenient_of_strict h)

/-- One variable with a well-formed name is one write. -/
theorem applyWith_singleton [Limits] {tail raw seg : String} {path : List String}
    (h : Override.readTail strict tail = .ok (seg :: path)) :
    Override.applyWith Sharing.set strict c [(tail, raw)] =
      ⟨(Sharing.set c (seg :: path) raw).1, [seg :: path],
        (Sharing.set c (seg :: path) raw).2⟩ := by
  rcases hset : Sharing.set c (seg :: path) raw with ⟨c', _ | failure⟩
  · rw [Override.applyWith_cons_of_success h hset]
    rfl
  · rw [Override.applyWith_cons_of_failure h hset]

variable [Limits] [Libraries]

/-- An overlay is added if its file holds a mapping that can be merged. -/
theorem run_overlay_eq_ok_iff : Stage.run w strict c (.overlay p) = .ok c' ↔
    ∃ es T merged, readMapping w c.objects p = .ok (es, T) ∧ T.merge c.entries es = some merged ∧
      c' = ⟨merged, T⟩ := by
  rw [Stage.run, bind_eq_ok_iff]
  constructor
  · rintro ⟨⟨es, T⟩, hread, h⟩
    obtain ⟨merged, hmerge, hc'⟩ := addLayer_eq_ok_iff.1 h
    exact ⟨es, T, merged, hread, hmerge, hc'⟩
  · rintro ⟨es, T, merged, hread, hmerge, hc'⟩
    exact ⟨(es, T), hread, addLayer_eq_ok_iff.2 ⟨merged, hmerge, hc'⟩⟩

/-- The first overlay is a stage, and the others go on from it. -/
theorem addOverlays_cons (strict : Bool) {ps : List Path} :
    (addOverlays w c (p :: ps)).2 =
      (Stage.run w strict c (.overlay p)).bind fun c => (addOverlays w c ps).2 := by
  rw [Stage.run]
  cases hread : readMapping w c.objects p with
  | error e =>
    rw [addOverlays_of_readMapping_eq_error hread]
    rfl
  | ok r =>
    obtain ⟨es, T⟩ := r
    cases hmerge : T.merge c.entries es with
    | none =>
      rw [addOverlays_of_merge_eq_none hread hmerge]
      change _ = (addLayer c ⟨es, T⟩).bind _
      rw [addLayer, hmerge]
      rfl
    | some merged =>
      rw [addOverlays_of_merge_eq_some hread hmerge]
      change _ = (addLayer c ⟨es, T⟩).bind _
      rw [addLayer, hmerge]
      rfl

/-- A stage that writes a variable passes it over or writes it. -/
theorem run_override_eq_ok {tail raw : String}
    (h : Stage.run w strict c (.override tail raw) = .ok c') :
    Override.readTail strict tail = .ok [] ∧ c' = c ∨
      ∃ seg path, Override.readTail strict tail = .ok (seg :: path) ∧
        Sharing.set c (seg :: path) raw = (c', none) := by
  obtain ⟨hfailure, hconfig⟩ := finish_eq_ok h
  cases hread : Override.readTail strict tail with
  | error e =>
    rw [Override.applyWith, hread] at hfailure
    cases hfailure
  | ok path =>
    cases path with
    | nil =>
      rw [Override.applyWith, hread] at hconfig
      exact .inl ⟨rfl, hconfig.symm⟩
    | cons seg path =>
      rw [applyWith_singleton hread] at hfailure hconfig
      exact .inr ⟨seg, path, rfl, Prod.ext hconfig hfailure⟩

theorem run_check_eq_ok (h : Stage.run w strict c .check = .ok c') : c' = c := by
  rw [Stage.run] at h
  exact (finish_eq_ok h).2.symm

/-- The first variable is a stage, and the others go on from it. -/
theorem finish_applyWith_cons {v : String × String} {vars : List (String × String)} :
    finish strict (Override.applyWith Sharing.set strict c (v :: vars)) =
      (Stage.run w strict c (.override v.1 v.2)).bind fun c =>
        finish strict (Override.applyWith Sharing.set strict c vars) := by
  obtain ⟨tail, raw⟩ := v
  rw [Stage.run]
  cases hread : Override.readTail strict tail with
  | error e => simp only [Override.applyWith, hread, finish, Except.bind]
  | ok path =>
    cases path with
    | nil => simp only [Override.applyWith, hread, finish, Except.bind]; rfl
    | cons seg path =>
      rcases hset : Sharing.set c (seg :: path) raw with ⟨c', _ | failure⟩
      · rw [Override.applyWith_cons_of_success hread hset,
          Override.applyWith_cons_of_success hread hset]
        rfl
      · rw [Override.applyWith_cons_of_failure hread hset,
          Override.applyWith_cons_of_failure hread hset]
        rfl

/-! ## All stages -/

theorem addOverlays_eq_foldlM {ps : List Path} (c : Config) :
    (addOverlays w c ps).2 = (ps.map Stage.overlay).foldlM (Stage.run w strict) c := by
  induction ps generalizing c with
  | nil => rfl
  | cons p ps ih =>
    rw [addOverlays_cons strict, List.map_cons, List.foldlM_cons]
    exact congrArg _ (funext ih)

/-- What the files give is a fold of their stages. -/
theorem fromFiles_eq_foldlM (strict : Bool)
    (h : w.lookup (overlayDirectory root) ≠ .tooLong) :
    fromFiles w root =
      ((overlayPaths w root).map Stage.overlay).foldlM (Stage.run w strict) Packaged.defaults := by
  rw [fromFiles, overlayPaths]
  cases hlookup : w.lookup (overlayDirectory root) with
  | tooLong => exact absurd hlookup h
  | nothing => rfl
  | found t => exact addOverlays_eq_foldlM _

theorem finish_applyWith_eq_foldlM {vars : List (String × String)} (c : Config) :
    finish strict (Override.applyWith Sharing.set strict c vars) =
      (overrides vars ++ [Stage.check]).foldlM (Stage.run w strict) c := by
  induction vars generalizing c with
  | nil =>
    rw [overrides, List.map_nil, List.nil_append, List.foldlM_cons]
    exact (bind_pure _).symm
  | cons v vars ih =>
    rw [finish_applyWith_cons (w := w), overrides, List.map_cons, List.cons_append,
      List.foldlM_cons]
    exact congrArg _ (funext ih)

/-- A load is a fold of its stages over the defaults. -/
theorem result_eq_foldlM (h : w.lookup (overlayDirectory root) ≠ .tooLong) :
    (load w root strict).result =
      (stages w root).foldlM (Stage.run w strict) Packaged.defaults := by
  rw [result_load, fromFiles_eq_foldlM strict h, stages, List.foldlM_append]
  exact congrArg _ (funext fun c => finish_applyWith_eq_foldlM c)

/-- A load that returns has looked at the overlays. -/
theorem lookup_ne_of_result (h : (load w root strict).result = .ok c) :
    w.lookup (overlayDirectory root) ≠ .tooLong := by
  intro hlong
  rw [load, hlong] at h
  cases h

/-- What the defaults have and every stage keeps holds of what a load returns. -/
theorem load_preserves {P : Config → Prop}
    (hP : ∀ s c c', P c → Stage.run w strict c s = .ok c' → P c') (hdefaults : P Packaged.defaults)
    (h : (load w root strict).result = .ok c) : P c := by
  rw [result_eq_foldlM (lookup_ne_of_result h)] at h
  exact foldlM_preserves (fun c s c' => hP s c c') hdefaults h

/-- A load comes to a stage, with what it has made of the defaults. -/
abbrev ComesTo (w : Workspace) (root : Path) (strict : Bool) :
    (before : List Stage) → Stage → (after : List Stage) → Config → Prop :=
  Comes (Stage.run w strict) Packaged.defaults (stages w root)

/-- An overlay keeps a configuration orderly. -/
theorem orderly_run_overlay [Libraries.Lawful] (hc : Orderly c)
    (h : Stage.run w strict c (.overlay p) = .ok c') : Orderly c' := by
  obtain ⟨es, T, merged, hread, hmerge, rfl⟩ := run_overlay_eq_ok_iff.1 h
  obtain ⟨hwithin, hT, hes⟩ := readMapping_wellFormed hc.objects hread
  exact orderly_merge hc hT hwithin hes hmerge

/-- An overlay is put on what only files have made. -/
theorem orderly_of_comesTo [Libraries.Lawful]
    (h : ComesTo w root strict before (.overlay p) after c) : Orderly c := by
  -- Variables come after all overlays, so nothing but overlays has been put on before this one.
  obtain ⟨-, ps, rfl⟩ := exists_overlays_before h.steps
  have hrun := h.run
  rw [List.foldlM_map] at hrun
  exact foldlM_preserves (fun c p c' => orderly_run_overlay) orderly_defaults hrun

end CategoryLint.Project
