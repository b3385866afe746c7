import CategoryLint.Proofs.Table

/-!
# Merging, path by path

Where a mapping is put on top of another, the result shows at every path what the upper one
shows, if the upper one touches the path, and what the lower one shows otherwise (`shown_merge`).
Merging has no result only where both show mappings at a path as long as mappings may be deep
(`exists_deep_of_merge_eq_none`).

Both follow the recursion of merging. `get?_mergeBy_of_some` says what one level of it does with
a key, and `onTop_eq_some` what one value on top of another can be.
-/

namespace CategoryLint

namespace Entries

variable {es : Entries} {k l : Scalar}

/-- Keys that are compared alike have the same value under them. -/
theorem get?_congr (h : k.key = l.key) : es.get? k = es.get? l := by
  induction es with
  | nil => rfl
  | cons e es ih =>
    obtain ⟨m, v⟩ := e
    rw [get?, get?, h, ih]

theorem get?_eq_none_of_not_mem (h : k.key ∉ es.map (·.1.key)) : es.get? k = none := by
  induction es with
  | nil => rfl
  | cons e es ih =>
    obtain ⟨m, v⟩ := e
    rw [List.map_cons, List.mem_cons, not_or] at h
    rw [get?, if_neg fun hm => h.1 hm.symm]
    exact ih h.2

end Entries

namespace Objects

/-! ## One level -/

section Level

variable {f : Option Value → Value → Option Value} {base es merged : Entries} {k : Scalar}
  {v : Value}

/-- A merge puts in its first entry, and goes on with the others. -/
theorem mergeBy_cons_eq_some {l : Scalar} (h : mergeBy f base ((l, v) :: es) = some merged) :
    ∃ u, f (base.get? l) v = some u ∧ mergeBy f (base.put l u) es = some merged := by
  rw [mergeBy] at h
  split at h
  · next u hu => exact ⟨u, hu, h⟩
  · cases h

/-- A key that is not on top keeps the value that was there. -/
theorem get?_mergeBy_of_none (h : mergeBy f base es = some merged) (hk : es.get? k = none) :
    merged.get? k = base.get? k := by
  induction es generalizing base with
  | nil =>
    cases h
    rfl
  | cons e es ih =>
    obtain ⟨l, v⟩ := e
    obtain ⟨u, -, h⟩ := mergeBy_cons_eq_some h
    rw [Entries.get?] at hk
    split at hk
    · cases hk
    · next hl => rw [ih h hk, Entries.get?_put_of_ne base u hl]

/-- Of a value on top, the result has what the value makes of the one below. -/
theorem get?_mergeBy_of_some (hes : (es.map (·.1.key)).Nodup)
    (h : mergeBy f base es = some merged) (hk : es.get? k = some v) :
    ∃ u, f (base.get? k) v = some u ∧ merged.get? k = some u := by
  induction es generalizing base with
  | nil => cases hk
  | cons e es ih =>
    obtain ⟨l, w⟩ := e
    rw [List.map_cons, List.nodup_cons] at hes
    obtain ⟨u, hu, hrest⟩ := mergeBy_cons_eq_some h
    rw [Entries.get?] at hk
    split at hk
    · next hl =>
      -- The first entry has the key, and no later one touches it.
      cases hk
      have hnone : Entries.get? es k = none := by
        refine Entries.get?_eq_none_of_not_mem ?_
        rw [← hl]
        exact hes.1
      refine ⟨u, Entries.get?_congr hl ▸ hu, ?_⟩
      rw [get?_mergeBy_of_none hrest hnone, Entries.get?_put_self base u hl]
    · next hl =>
      rw [← Entries.get?_put_of_ne base u hl]
      exact ih hes.2 hrest hk

/-- A merge that fails does so at one of its entries. -/
theorem exists_of_mergeBy_eq_none (hes : (es.map (·.1.key)).Nodup)
    (h : mergeBy f base es = none) : ∃ k v, es.get? k = some v ∧ f (base.get? k) v = none := by
  induction es generalizing base with
  | nil => cases h
  | cons e es ih =>
    obtain ⟨l, w⟩ := e
    rw [List.map_cons, List.nodup_cons] at hes
    rw [mergeBy] at h
    split at h
    · next u _ =>
      -- A later entry fails, and it has another key than the first.
      obtain ⟨k, v, hk, hv⟩ := ih hes.2 h
      have hl : l.key ≠ k.key := by
        intro hl
        rw [Entries.get?_eq_none_of_not_mem (hl ▸ hes.1)] at hk
        cases hk
      refine ⟨k, v, ?_, ?_⟩
      · rw [Entries.get?, if_neg hl, hk]
      · rw [← Entries.get?_put_of_ne base u hl, hv]
    · next hu => exact ⟨l, w, by rw [Entries.get?, if_pos rfl], hu⟩

/-- The key that was first stays the first. -/
theorem head?_keys_mergeBy {l : Scalar} (hbase : base.keys.head? = some l)
    (h : mergeBy f base es = some merged) : merged.keys.head? = some l := by
  induction es generalizing base with
  | nil =>
    cases h
    exact hbase
  | cons e es ih =>
    obtain ⟨m, v⟩ := e
    obtain ⟨u, -, h⟩ := mergeBy_cons_eq_some h
    exact ih (Entries.head?_keys_put hbase) h

/-- What holds of all values below and on top, and of those put on top of others, holds of all
    values of a merge. -/
theorem forall_mergeBy {P : Value → Prop} (hbase : ∀ e ∈ base, P e.2) (hes : ∀ e ∈ es, P e.2)
    (hf : ∀ old v u, (∀ o, old = some o → P o) → P v → f old v = some u → P u)
    (h : mergeBy f base es = some merged) : ∀ e ∈ merged, P e.2 := by
  induction es generalizing base with
  | nil =>
    cases h
    exact hbase
  | cons e es ih =>
    obtain ⟨l, v⟩ := e
    rw [List.forall_mem_cons] at hes
    obtain ⟨u, hu, h⟩ := mergeBy_cons_eq_some h
    refine ih (Entries.forall_put hbase (hf _ v u ?_ hes.1 hu)) hes.2 h
    intro o ho
    obtain ⟨e, he, rfl⟩ := Entries.exists_of_get?_eq_some ho
    exact hbase e he

end Level

/-! ## One value on top of another -/

variable {T : Objects} {depth : Nat} {old : Option Value} {v r : Value} {path : List Scalar}

/-- The mapping that a value leads to, if there is one, is as a document makes it. -/
def OfDocument (objects : Objects) (v : Value) : Prop :=
  ∀ es, objects.entries? v = some es → objects.Tidy es

/-- A value in tidy entries is one that a document can have. -/
theorem Tidy.ofDocument_entry {es : Entries} {k : Scalar} (hT : T.WellFormed) (hes : T.Tidy es)
    (hk : es.get? k = some v) : T.OfDocument v := by
  obtain ⟨e, he, rfl⟩ := Entries.exists_of_get?_eq_some hk
  exact fun fs hfs => (hes.atomic e he).tidy hT hfs

/-- A value on top of another gives a mapping of both, or stays as it is. -/
theorem onTop_eq_some (h : T.onTop depth old v = some r) :
    (∃ d base es merged, old.bind T.entries? = some base ∧ T.entries? v = some es ∧
      mergeBy (T.onTop d) base es = some merged ∧ r = .mapping merged ∧ depth = d + 1) ∨
    (old.bind T.entries? = none ∨ T.entries? v = none) ∧ r = v := by
  cases depth with
  | zero => cases h
  | succ d =>
    rw [onTop] at h
    split at h
    · next base es hbase hes =>
      obtain ⟨merged, hmerged, rfl⟩ := Option.map_eq_some_iff.1 h
      exact .inl ⟨d, base, es, merged, hbase, hes, hmerged, rfl, rfl⟩
    · next hnot =>
      cases h
      refine .inr ⟨?_, rfl⟩
      cases hbase : old.bind T.entries? with
      | none => exact .inl rfl
      | some base =>
        cases hes : T.entries? v with
        | none => exact .inr rfl
        | some es => exact absurd hes (hnot base es hbase)

/-- What is too deep to be put on top is a mapping on a mapping, with entries that are too deep. -/
theorem onTop_eq_none (h : T.onTop (depth + 1) old v = none) :
    ∃ o base es, old = some o ∧ T.entries? o = some base ∧ T.entries? v = some es ∧
      mergeBy (T.onTop depth) base es = none := by
  rw [onTop] at h
  split at h
  · next base es hbase hes =>
    obtain ⟨o, ho, hbase⟩ := Option.bind_eq_some_iff.1 hbase
    exact ⟨o, base, es, ho, hbase, hes, Option.map_eq_none_iff.1 h⟩
  · cases h

/-- No path leads into what is no mapping, or not there. -/
theorem shown_cons_of_bind_eq_none {k : Scalar} (h : old.bind T.entries? = none) :
    T.shown (k :: path) old = .nothing := by
  cases old with
  | none => exact shown_none
  | some o => exact shown_cons_of_leaf h

/-- A value shows nothing at a path that it does not touch. -/
theorem shown_eq_nothing_of_not_touches {o : Option Value} (h : ¬T.Touches path o) :
    T.shown path o = .nothing :=
  Classical.not_not.1 fun hne => h (.inl hne)

/-- A value on top of another decides at the paths that it touches, and at no others. -/
theorem shown_onTop (hT : T.WellFormed) (hv : T.OfDocument v)
    (h : T.onTop depth old v = some r) :
    (T.Touches path (some v) → T.shown path (some r) = T.shown path (some v)) ∧
    (¬T.Touches path (some v) → T.shown path (some r) = T.shown path old) := by
  induction path generalizing depth old v r with
  | nil =>
    refine ⟨fun _ => ?_, fun hnot => absurd touches_nil hnot⟩
    rcases onTop_eq_some h with ⟨d, base, es, merged, -, hes, -, rfl, -⟩ | ⟨-, rfl⟩
    · rw [shown_nil_of_entries? hes, shown_nil_of_entries? rfl]
    · rfl
  | cons k path ih =>
    rcases onTop_eq_some h with ⟨d, base, es, merged, hbase, hes, hmerged, rfl, -⟩ | ⟨hnone, rfl⟩
    · -- Two mappings: the first key leads to what they have under it, one level down.
      obtain ⟨o, rfl, ho⟩ := Option.bind_eq_some_iff.1 hbase
      rw [touches_cons_of_entries? hes, shown_cons_of_entries? hes, shown_cons_of_entries? ho,
        shown_cons_of_entries? rfl]
      cases hk : es.get? k with
      | none =>
        rw [get?_mergeBy_of_none hmerged hk]
        exact ⟨fun ht => absurd ht not_touches_none, fun _ => rfl⟩
      | some u =>
        obtain ⟨w, hw, hget⟩ := get?_mergeBy_of_some (hv es hes).nodup hmerged hk
        rw [hget]
        exact ih ((hv es hes).ofDocument_entry hT hk) hw
    · -- The value stays as it is. It touches every path if it is a leaf, so here it is a mapping
      -- in place of none, and what was there has nothing at a path with a key.
      refine ⟨fun _ => rfl, fun hnot => ?_⟩
      rw [shown_eq_nothing_of_not_touches hnot]
      rcases hnone with hold | hleaf
      · exact (shown_cons_of_bind_eq_none hold).symm
      · exact absurd (touches_of_leaf hleaf) hnot

/-- If a value is too deep to be put on top, there is a path as long as the depth at which both are
    mappings. -/
theorem exists_deep_of_onTop_eq_none (hT : T.WellFormed) (hv : T.OfDocument v)
    (h : T.onTop (depth + 1) old v = none) :
    ∃ q, q.length = depth ∧ T.shown q old = .mapping ∧ T.shown q (some v) = .mapping := by
  induction depth generalizing old v with
  | zero =>
    obtain ⟨o, base, es, rfl, ho, hes, -⟩ := onTop_eq_none h
    exact ⟨[], rfl, shown_nil_of_entries? ho, shown_nil_of_entries? hes⟩
  | succ depth ih =>
    -- The mappings meet, and what they have under some key is too deep for one level less.
    obtain ⟨o, base, es, rfl, ho, hes, hmerged⟩ := onTop_eq_none h
    obtain ⟨k, u, hk, hu⟩ := exists_of_mergeBy_eq_none (hv es hes).nodup hmerged
    obtain ⟨q, hq, hold, hnew⟩ := ih ((hv es hes).ofDocument_entry hT hk) hu
    refine ⟨k :: q, by rw [List.length_cons, hq], ?_, ?_⟩
    · rw [shown_cons_of_entries? ho, hold]
    · rw [shown_cons_of_entries? hes, hk, hnew]

/-- A sound value on top of a sound one is sound. -/
theorem sound_onTop (hT : T.WellFormed) (hold : ∀ o, old = some o → T.Sound o) (hv : T.Sound v)
    (h : T.onTop depth old v = some r) : T.Sound r := by
  induction depth generalizing old v r with
  | zero => cases h
  | succ depth ih =>
    rcases onTop_eq_some h with ⟨d, base, es, merged, hbase, hes, hmerged, rfl, hd⟩ | ⟨-, rfl⟩
    · cases hd
      obtain ⟨o, ho, hbase⟩ := Option.bind_eq_some_iff.1 hbase
      exact .mapping (forall_mergeBy ((hold o ho).entry hT hbase) (hv.entry hT hes)
        (fun _ _ _ hold hv h => ih hold hv h) hmerged)
    · exact hv

/-! ## Whole mappings -/

variable {base es merged : Entries}

theorem Tidy.ofDocument (hes : T.Tidy es) : T.OfDocument (.mapping es) := fun fs hfs => by
  cases hfs
  exact hes

variable [Limits]

/-- A mapping on top of a mapping is their merge. -/
theorem onTop_mapping :
    T.onTop (Limits.merge + 1) (some (.mapping base)) (.mapping es) =
      (T.merge base es).map .mapping :=
  rfl

/-- A mapping on top of another decides at the paths that it touches, and at no others. -/
theorem shown_merge (hT : T.WellFormed) (hes : T.Tidy es) (h : T.merge base es = some merged) :
    (T.Touches path (some (.mapping es)) →
      T.shown path (some (.mapping merged)) = T.shown path (some (.mapping es))) ∧
    (¬T.Touches path (some (.mapping es)) →
      T.shown path (some (.mapping merged)) = T.shown path (some (.mapping base))) :=
  shown_onTop hT hes.ofDocument (onTop_mapping.trans (congrArg (Option.map Value.mapping) h))

/-- Mappings that are too deep to be merged show mappings at a long path. -/
theorem exists_deep_of_merge_eq_none (hT : T.WellFormed) (hes : T.Tidy es)
    (h : T.merge base es = none) :
    ∃ q, q.length = Limits.merge ∧ T.shown q (some (.mapping base)) = .mapping ∧
      T.shown q (some (.mapping es)) = .mapping :=
  exists_deep_of_onTop_eq_none hT hes.ofDocument
    (onTop_mapping.trans (congrArg (Option.map Value.mapping) h))

/-- The merge of sound entries is sound. -/
theorem sound_merge (hT : T.WellFormed) (hbase : T.Sound (.mapping base)) (hes : T.Tidy es)
    (h : T.merge base es = some merged) : T.Sound (.mapping merged) := by
  have honTop := onTop_mapping.trans (congrArg (Option.map Value.mapping) h)
  refine sound_onTop hT ?_ (.mapping fun e he => .atomic (hes.atomic e he)) honTop
  intro o ho
  cases ho
  exact hbase

end Objects

end CategoryLint
