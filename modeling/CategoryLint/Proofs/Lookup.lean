import CategoryLint.Proofs.Retention

/-!
# Where the base category is lost

The defaults have a base category, but a project may have none after loading. Keys stay where
mappings are merged and written to, so the base category stays through every stage but two kinds
(`hasBase_run`): an overlay that has a value other than a mapping in place of the section, and a
variable that is named like the whole section and is no mapping with that key (`Drops`).

A project without a base category has gone through such a stage, and no stage after that has put
one back (`baseCategory_found`).
-/

namespace CategoryLint

open Override (resolve newValue)

/-! ## Keys behind links -/

namespace Objects

/-- A value is a mapping with a key, in place or behind a link. -/
inductive HasKey (T : Objects) (k : Scalar) : Value → Prop where
  /-- In place. -/
  | mapping {es : Entries} : (es.get? k).isSome → HasKey T k (.mapping es)
  /-- Behind a link. -/
  | link {n : Nat} {es : Entries} : T[n]? = some (.mapping es) → (es.get? k).isSome →
      HasKey T k (.link .mapping n)

variable {T T' : Objects} {k : Scalar} {v : Value}

theorem HasKey.exists_entries? (h : T.HasKey k v) :
    ∃ es : Entries, T.entries? v = some es ∧ (es.get? k).isSome := by
  cases h with
  | mapping hk => exact ⟨_, rfl, hk⟩
  | link hn hk => exact ⟨_, entries?_link_eq_some_iff.2 hn, hk⟩

theorem HasKey.of_within (hwithin : T.Within T') (h : T.HasKey k v) : T'.HasKey k v := by
  cases h with
  | mapping hk => exact .mapping hk
  | link hn hk => exact .link (hwithin _ _ hn) hk

/-- Merging keeps the keys of the base first, in their order. -/
theorem keys_prefix_mergeBy {f : Option Value → Value → Option Value} {base es merged : Entries}
    (h : mergeBy f base es = some merged) : base.keys <+: merged.keys := by
  induction es generalizing base with
  | nil =>
    cases h
    exact List.prefix_refl _
  | cons e es ih =>
    obtain ⟨l, v⟩ := e
    obtain ⟨u, -, h⟩ := mergeBy_cons_eq_some h
    exact (Entries.keys_prefix_put base l u).trans (ih h)

/-- A value with a key keeps it under a mapping. -/
theorem HasKey.onTop {depth : Nat} {u : Value} {es : Entries} (h : T.HasKey k v)
    (hes : T.entries? u = some es) {r : Value} (hr : T.onTop depth (some v) u = some r) :
    T.HasKey k r := by
  obtain ⟨base, hbase, hk⟩ := h.exists_entries?
  rcases onTop_eq_some hr with ⟨d, base', es', merged, hbase', -, hmerge, rfl, -⟩ | ⟨hnone, -⟩
  · cases hbase.symm.trans hbase'
    exact .mapping (Entries.isSome_get?_of_prefix (keys_prefix_mergeBy hmerge) hk)
  · rcases hnone with hnone | hnone
    · cases hbase.symm.trans hnone
    · cases hes.symm.trans hnone

end Objects

/-! ## Writes -/

namespace Sharing

variable [Limits] {T : Objects} {raw : String}

/-- Writing behind links keeps the keys of every mapping. -/
theorem exists_setIn {m : Nat} {es : Entries} (n : Nat) (path : List String)
    (h : T[m]? = some (.mapping es)) :
    ∃ fs : Entries, (setIn T n path raw).1[m]? = some (.mapping fs) ∧ es.keys <+: fs.keys := by
  fun_induction setIn T n path raw with
  | case1 n path es' n' rest hlink ih => exact ih
  | case2 n path es' hnone fs failure hset =>
    by_cases hn : n = m
    · subst hn
      obtain ⟨hlt, -⟩ := Array.getElem?_eq_some_iff.1 h
      refine ⟨fs, Array.getElem?_setIfInBounds_self_of_lt hlt, ?_⟩
      have hes : es' = es := by
        change (T.getD n .null).entries = es
        rw [Array.getD_eq_getD_getElem?, h]
        rfl
      have hprefix := Override.keys_prefix_set es' path raw
      rwa [hset, hes] at hprefix
    · exact ⟨es, (Array.getElem?_setIfInBounds_ne hn).trans h, List.prefix_refl _⟩

/-- Writing a variable takes no key from any mapping. -/
theorem hasKey_setIn {k : Scalar} {v : Value} (n : Nat) (path : List String)
    (h : T.HasKey k v) : (setIn T n path raw).1.HasKey k v := by
  cases h with
  | mapping hk => exact .mapping hk
  | link hn hk =>
    obtain ⟨fs, hfs, hprefix⟩ := exists_setIn n path hn
    exact .link hfs (Entries.isSome_get?_of_prefix hprefix hk)

end Sharing

namespace Override

variable {es : Entries} {seg s raw : String} {path : List String} {k : Scalar}

/-- A segment stands for a key that it is, letter case aside. -/
theorem lower_of_resolve (h : resolve es seg = .str s) : Text.lower s = Text.lower seg := by
  rw [resolve] at h
  cases hfind : findKey? es seg with
  | none =>
    rw [hfind] at h
    cases h
    rfl
  | some k =>
    rw [hfind] at h
    obtain ⟨e, he, hk⟩ := Option.map_eq_some_iff.1 hfind
    have hmatch := List.find?_some he
    rw [hk.trans h] at hmatch
    exact beq_iff_eq.1 hmatch

/-- A write leaves what is under other keys. -/
theorem get?_set_of_ne [Limits] (h : (resolve es seg).key ≠ k.key) :
    (set es (seg :: path) raw).1.get? k = es.get? k := by
  cases path with
  | nil =>
    rw [set]
    split
    · exact Entries.get?_put_of_ne es _ h
    · rfl
  | cons next path =>
    rw [set_cons_cons]
    exact Entries.get?_put_of_ne es _ h

theorem get?_set_cons [Limits] {next : String} (h : (resolve es seg).key = k.key) :
    (set es (seg :: next :: path) raw).1.get? k =
      some (.mapping (set (container (es.get? k)) (next :: path) raw).1) := by
  rw [set_cons_cons, Entries.get?_put_self es _ h, Entries.get?_congr h]

end Override

/-! ## The base category, stage by stage -/

namespace Project

variable {w : Workspace} {root : Path} {c c' : Config} {before after : List Stage} {s : Stage}

/-- The section on patterns is a mapping with the key of the base category. -/
def HasBase (c : Config) : Prop :=
  ∃ v, c.entries.get? (.str "patterns") = some v ∧ c.objects.HasKey baseKey v

theorem hasBase_defaults : HasBase Packaged.defaults := ⟨_, rfl, .mapping rfl⟩

theorem HasBase.exists_get? {es : Entries} (h : HasBase c)
    (hes : c.get? (.str "patterns") = some (.mapping es)) : ∃ v, es.get? baseKey = some v := by
  obtain ⟨pv, hpv, hkey⟩ := h
  obtain ⟨fs, hfs, hk⟩ := hkey.exists_entries?
  rw [Config.get?, hpv] at hes
  rw [Objects.entries?, Option.some.inj hes] at hfs
  cases hfs
  exact Option.isSome_iff_exists.1 hk

/-- A write to the entries keeps the key, unless it replaces the section. -/
theorem hasBase_set_entries [Limits] {seg raw : String} {path : List String} (hbase : HasBase c)
    (hlink : Sharing.firstLink? c.entries (seg :: path) = none)
    (hsection : path = [] → Text.lower seg = Text.lower "patterns" →
      ∃ es : Entries, Coercion.coerce raw = .ok (.mapping es) ∧ (es.get? baseKey).isSome) :
    HasBase { c with entries := (Override.set c.entries (seg :: path) raw).1 } := by
  obtain ⟨pv, hpv, hkey⟩ := hbase
  by_cases hseg : resolve c.entries seg = .str "patterns"
  · have hk : (resolve c.entries seg).key = (Scalar.str "patterns").key := congrArg _ hseg
    cases path with
    | nil =>
      -- The section is no text, so its new value is what the variable stands for.
      obtain ⟨es, hes, hbase⟩ := hsection rfl (Override.lower_of_resolve hseg).symm
      have hnew : newValue (c.entries.get? (resolve c.entries seg)) raw = .ok (.mapping es) := by
        rw [hseg, hpv, newValue, if_neg, hes]
        cases hkey <;> exact Bool.false_ne_true
      refine ⟨.mapping es, ?_, .mapping hbase⟩
      rw [Override.set, hnew]
      exact Entries.get?_put_self c.entries _ hk
    | cons next path =>
      refine ⟨_, Override.get?_set_cons hk, ?_⟩
      cases hkey with
      | mapping hbase =>
        rw [hpv]
        exact .mapping (Entries.isSome_get?_of_prefix (Override.keys_prefix_set _ _ raw) hbase)
      | link hn hbase =>
        rw [Sharing.firstLink?, hseg, hpv] at hlink
        cases hlink
  · exact ⟨pv, (Override.get?_set_of_ne (Override.key_resolve_ne hseg)).trans hpv, hkey⟩

section

variable [Limits] [Libraries]

/-- A stage that puts something without a base category in place of the section. -/
inductive Drops (w : Workspace) (c : Config) : Stage → Prop where
  /-- An overlay with a value other than a mapping. -/
  | overlay {p : Path} {es : Entries} {T : Objects} {v : Value} :
      readMapping w c.objects p = .ok (es, T) →
      T.shown [.str "patterns"] (some (.mapping es)) = .leaf v → Drops w c (.overlay p)
  /-- A variable that is named like the section, letter case aside, and is no mapping with the
      key. -/
  | override {tail seg raw : String} : Override.readTail true tail = .ok [seg] →
      Text.lower seg = Text.lower "patterns" →
      (∀ es : Entries, Coercion.coerce raw = .ok (.mapping es) → es.get? baseKey = none) →
      Drops w c (.override tail raw)

/-- An overlay keeps the base category unless it drops the section: a mapping is merged into the
    section's, which keeps its keys. -/
theorem hasBase_run_overlay [Libraries.Lawful] {p : Path} (hc : Orderly c) (hbase : HasBase c)
    (hnot : ¬Drops w c (.overlay p)) (h : Stage.run w true c (.overlay p) = .ok c') :
    HasBase c' := by
  obtain ⟨es, T, merged, hread, hmerge, rfl⟩ := run_overlay_eq_ok_iff.1 h
  obtain ⟨hwithin, -, hes⟩ := readMapping_wellFormed hc.objects hread
  obtain ⟨pv, hpv, hkey⟩ := hbase
  have hkey := hkey.of_within hwithin
  cases hv : es.get? (.str "patterns") with
  | none => exact ⟨pv, (Objects.get?_mergeBy_of_none hmerge hv).trans hpv, hkey⟩
  | some v =>
    obtain ⟨u, hu, hget⟩ := Objects.get?_mergeBy_of_some hes.nodup hmerge hv
    rw [hpv] at hu
    refine ⟨u, hget, ?_⟩
    cases hfs : T.entries? v with
    | some fs => exact hkey.onTop hfs hu
    | none =>
      have hleaf : T.shown [.str "patterns"] (some (.mapping es)) = .leaf v := by
        rw [Objects.shown_cons_of_entries? rfl, hv, Objects.shown_nil_of_leaf hfs]
      exact absurd (.overlay hread hleaf) hnot

/-- A variable keeps the base category unless it drops the section: a path below the section only
    writes into its mapping. -/
theorem hasBase_run_override {tail raw : String} (hbase : HasBase c)
    (hnot : ¬Drops w c (.override tail raw))
    (h : Stage.run w true c (.override tail raw) = .ok c') : HasBase c' := by
  rcases run_override_eq_ok h with ⟨-, rfl⟩ | ⟨seg, path, hread, hset⟩
  · exact hbase
  rw [Sharing.set] at hset
  split at hset
  · next n rest hlink =>
    -- The write goes behind a link, and the mapping there keeps its keys.
    rw [← (Prod.mk.inj hset).1]
    obtain ⟨pv, hpv, hkey⟩ := hbase
    exact ⟨pv, hpv, Sharing.hasKey_setIn n rest hkey⟩
  · next hlink =>
    rw [← (Prod.mk.inj hset).1]
    refine hasBase_set_entries hbase hlink fun hpath hlower => ?_
    subst hpath
    refine Classical.byContradiction fun hnone => hnot (.override hread hlower fun es hes => ?_)
    rw [← Option.not_isSome_iff_eq_none]
    exact fun hsome => hnone ⟨es, hes, hsome⟩

/-- The base category stays through every stage that does not drop it. -/
theorem hasBase_run [Libraries.Lawful] (hcomes : ComesTo w root true before s after c)
    (hbase : HasBase c) (hnot : ¬Drops w c s) (h : Stage.run w true c s = .ok c') : HasBase c' := by
  cases s with
  | overlay p => exact hasBase_run_overlay (orderly_of_comesTo hcomes) hbase hnot h
  | override tail raw => exact hasBase_run_override hbase hnot h
  | check => exact run_check_eq_ok h ▸ hbase

/-! ## Projects that load -/

/-- The base category is lost at a stage. -/
structure LostAt (w : Workspace) (root : Path) (before : List Stage) (s : Stage)
    (after : List Stage) (c : Config) : Prop where
  /-- The load comes to the stage. -/
  comes : ComesTo w root true before s after c
  /-- The stage drops it. -/
  drops : Drops w c s
  /-- It is not there after the stage, nor after any later one. -/
  gone : ∀ mid rest c', after = mid ++ rest →
    (before ++ s :: mid).foldlM (Stage.run w true) Packaged.defaults = .ok c' → ¬HasBase c'

/-- In a project whose strict load returns, the section is a mapping, and a base category in it is
    a text or no value. There is one, unless it is lost at some stage. -/
theorem baseCategory_found [Libraries.Lawful] (h : (load w root true).result = .ok c) :
    ∃ es : Entries, c.get? (.str "patterns") = some (.mapping es) ∧
      Schema.Allows (es.get? baseKey) ∧
      ((∀ before s after c, ¬LostAt w root before s after c) → ∃ v, es.get? baseKey = some v) := by
  obtain ⟨es, hes, hallows⟩ := exists_patterns_of_load h
  refine ⟨es, hes, hallows, fun hkept => ?_⟩
  rw [result_eq_foldlM (lookup_ne_of_result h)] at h
  rcases foldlM_retains (fun _ _ _ _ _ => hasBase_run) hasBase_defaults h with
    hbase | ⟨before, s, after, c₁, hcomes, hdrops, hgone⟩
  · exact hbase.exists_get? hes
  · exact absurd ⟨hcomes, hdrops, hgone⟩ (hkept before s after c₁)

end

/-- A project with a variable that replaces the section. -/
def replacedSection (raw : String) : Workspace where
  files := .directory []
  current := []
  environment := [("PATTERNLINT_PATTERNS", raw)]

theorem stages_replacedSection (raw : String) :
    stages (replacedSection raw) ⟨1, []⟩ = [.override "PATTERNS" raw, .check] := by
  have hpaths : overlayPaths (replacedSection raw) ⟨1, []⟩ = [] := rfl
  have hname : variableStem.toList <+: "PATTERNLINT_PATTERNS".toList := by decide +kernel
  have htail : Override.tail? "PATTERNLINT_PATTERNS" = some "PATTERNS" := by decide +kernel
  have hvars : Override.ofEnvironment (replacedSection raw).environment = [("PATTERNS", raw)] :=
    Override.ofEnvironment_eq_singleton (List.filter_cons_of_pos (decide_eq_true hname)) htail
  rw [stages, hpaths, hvars]
  rfl

/-- A variable that is a mapping with a base category loses none. -/
theorem baseCategory_found_replacedSection :
    ∃ c, (load (replacedSection "\x7b\"baseCategory\": \"hero\"\x7d") ⟨1, []⟩ true).result = .ok c ∧
      ∃ es : Entries, c.get? (.str "patterns") = some (.mapping es) ∧
        Schema.Allows (es.get? baseKey) ∧ ∃ v, es.get? baseKey = some v := by
  generalize hraw : "\x7b\"baseCategory\": \"hero\"\x7d" = raw
  obtain ⟨c, h, -⟩ := exists_eq_ok_of_any
    (x := (load (replacedSection raw) ⟨1, []⟩ true).result) (p := fun _ => true)
    (by rw [← hraw]; decide +kernel)
  obtain ⟨v, hv, hbase⟩ := exists_eq_ok_of_any (x := Coercion.coerce raw)
    (p := fun v => (v.entries.get? baseKey).isSome) (by rw [← hraw]; decide +kernel)
  obtain ⟨es, hes, hallows, hfound⟩ := baseCategory_found h
  refine ⟨c, h, es, hes, hallows, hfound ?_⟩
  -- The only stage that could lose it is the variable, which has one.
  rintro before s after c₁ ⟨hcomes, hdrops, -⟩
  have hmem : s ∈ stages (replacedSection raw) ⟨1, []⟩ := by
    rw [hcomes.steps]
    exact List.mem_append_right before List.mem_cons_self
  rw [stages_replacedSection] at hmem
  cases hdrops with
  | overlay => simp at hmem
  | override hread hlower hnone =>
    obtain ⟨-, rfl⟩ : _ ∧ _ := by simpa using hmem
    cases v with
    | mapping es =>
      rw [Value.entries, hnone es hv] at hbase
      cases hbase
    | _ => cases hbase

/-- A variable that is an empty mapping loses the base category, and so does an overlay without a
    value for the section. -/
theorem baseCategory_lost :
    (∃ c, (load (replacedSection "\x7b\x7d") ⟨1, []⟩ true).result = .ok c ∧
      c.patterns.get? baseKey = none) ∧
    ∃ c, (load nullSection ⟨1, []⟩ true).result = .ok c ∧ c.patterns.get? baseKey = none := by
  have hlost : ∀ w : Workspace, ((load w ⟨1, []⟩ true).result.toOption.any fun c =>
      (c.patterns.get? baseKey).isNone) = true → ∃ c, (load w ⟨1, []⟩ true).result = .ok c ∧
        c.patterns.get? baseKey = none := fun w h =>
    (exists_eq_ok_of_any h).imp fun c hc => ⟨hc.1, Option.isNone_iff_eq_none.1 hc.2⟩
  exact ⟨hlost _ (by decide +kernel), hlost _ (by decide +kernel)⟩

end Project

end CategoryLint
