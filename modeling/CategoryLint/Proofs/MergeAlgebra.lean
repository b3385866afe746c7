import CategoryLint.Proofs.DistinctKeys
import CategoryLint.Proofs.TreeUpdate

/-!
# The algebra of merging

A mapping is told by its keys, in their order, and by what is under each of them
(`Entries.ext_of_get?`). Merging puts the keys that are new after those that are there
(`keys_merge`), and under a key it puts the upper value on top of the lower one (`get?_merge`). So
what is to be shown about merging is shown key by key, and about keys under which two mappings
meet by induction.

An empty mapping changes nothing on either side, and a mapping on top of itself changes nothing.
Three mappings can be merged from either end, unless the one in the middle has a value other than a
mapping where the outer two have mappings (`Interrupts`): from one end it parts them, from the
other the outer two meet. A mapping that is on top already is never parted from itself, so it can
be put on top again (`merge_laws`).
-/

namespace CategoryLint

open Override (at?)

namespace Value

variable {old : Option Value}

theorem over_mapping (base es : Entries) :
    Value.over (some (.mapping base)) (.mapping es) = .mapping (base.merge es) := by
  rw [Value.over]

/-- Where no mapping is, a value stays as it is. -/
theorem over_of_ne_mapping (h : ∀ es : Entries, old ≠ some (.mapping es)) (v : Value) :
    Value.over old v = v := by
  cases v with
  | mapping es =>
    rw [Value.over]
    exact h
  | _ => exact over_of_not_mapping old (by simp)

theorem over_none (v : Value) : Value.over none v = v := over_of_ne_mapping (by simp) v

end Value

namespace Entries

variable {base es fs : Entries} {k : Scalar}

/-! ## Mappings key by key -/

/-- Mappings with the same keys and the same values under them are the same. -/
theorem ext_of_get? (hkeys : es.keys = fs.keys) (hes : (es.map (·.1.key)).Nodup)
    (hget : ∀ k, es.get? k = fs.get? k) : es = fs := by
  induction es generalizing fs with
  | nil => exact (List.map_eq_nil_iff.1 hkeys.symm).symm
  | cons e es ih =>
    obtain ⟨k, v⟩ := e
    rw [keys_cons] at hkeys
    obtain ⟨⟨l, u⟩, fs, rfl, rfl, hrest⟩ := List.map_eq_cons_iff.1 hkeys.symm
    have hrest : keys fs = keys es := hrest
    rw [List.map_cons, List.nodup_cons] at hes
    have hfs : l.key ∉ fs.map (·.1.key) := by
      rw [map_key, hrest, ← map_key]
      exact hes.1
    have hvalue := hget l
    rw [get?, if_pos rfl, get?, if_pos rfl, Option.some_inj] at hvalue
    rw [hvalue, ih hrest.symm hes.2 fun m => ?_]
    -- Under the first key, neither rest has anything.
    by_cases hm : l.key = m.key
    · rw [get?_eq_none_of_not_mem (hm ▸ hes.1), get?_eq_none_of_not_mem (hm ▸ hfs)]
    · have hrest := hget m
      rwa [get?, if_neg hm, get?, if_neg hm] at hrest

/-- The keys that are not among others. -/
def newKeys (base ks : List Scalar) : List Scalar :=
  ks.filter fun k => k.key ∉ base.map Scalar.key

theorem newKeys_nil (ks : List Scalar) : newKeys [] ks = ks :=
  List.filter_eq_self.2 fun _ _ => decide_eq_true List.not_mem_nil

theorem newKeys_self (ks : List Scalar) : newKeys ks ks = [] :=
  List.filter_eq_nil_iff.2 fun _ hk => by simpa using ⟨_, hk, rfl⟩

/-- What the new keys are, by what keys are compared by. -/
theorem map_key_newKeys (base ks : List Scalar) :
    (newKeys base ks).map Scalar.key =
      (ks.map Scalar.key).filter fun k => k ∉ base.map Scalar.key := by
  rw [List.filter_map]
  rfl

/-- What is new after some new keys is new after each of the two that they come from. -/
theorem newKeys_append_newKeys (as bs cs : List Scalar) :
    newKeys (as ++ newKeys as bs) cs = newKeys as (newKeys bs cs) := by
  have hfilter : newKeys as (newKeys bs cs) = cs.filter fun k =>
      decide (k.key ∉ as.map Scalar.key) && decide (k.key ∉ bs.map Scalar.key) :=
    List.filter_filter
  rw [hfilter]
  refine List.filter_congr fun k _ => ?_
  rw [List.map_append, map_key_newKeys, ← Bool.decide_and, decide_eq_decide, List.mem_append,
    List.mem_filter, not_or, decide_eq_true_iff, not_and, not_not]
  exact ⟨fun ⟨ha, hb⟩ => ⟨ha, fun hk => ha (hb hk)⟩, fun ⟨ha, hb⟩ => ⟨ha, fun hk => absurd hk hb⟩⟩

/-! ## Merged mappings key by key -/

/-- The keys that are new come after those that are there. -/
theorem keys_merge (base : Entries) (hes : (es.map (·.1.key)).Nodup) :
    (base.merge es).keys = base.keys ++ newKeys base.keys es.keys := by
  induction es generalizing base with
  | nil => exact (List.append_nil base.keys).symm
  | cons e es ih =>
    obtain ⟨k, v⟩ := e
    rw [List.map_cons, List.nodup_cons] at hes
    rw [merge_cons, ih _ hes.2, keys_put, keys_cons, newKeys, newKeys, List.filter_cons]
    have hany : (base.keys.any (·.key = k.key)) = true ↔ k.key ∈ base.keys.map Scalar.key := by
      rw [List.any_eq_true, List.mem_map]
      simp only [decide_eq_true_iff]
    by_cases hk : k.key ∈ base.keys.map Scalar.key
    · rw [if_pos (hany.2 hk), if_neg (by simpa using hk)]
    · rw [if_neg (mt hany.1 hk), if_pos (by simpa using hk), List.append_assoc,
        List.singleton_append]
      -- The key does not come again, so it does not matter whether it is there already.
      refine congrArg (fun ks => base.keys ++ k :: ks) (List.filter_congr fun l hl => ?_)
      have hne : l.key ≠ k.key := fun h => hes.1 (map_key es ▸ List.mem_map.2 ⟨l, hl, h⟩)
      rw [decide_eq_decide, List.map_append, List.mem_append, List.map_singleton,
        List.mem_singleton, or_iff_left hne]

/-- Under a key is the upper value on top of the lower one, or what was there. -/
theorem get?_merge (base : Entries) (hes : (es.map (·.1.key)).Nodup) (k : Scalar) :
    (base.merge es).get? k = ((es.get? k).map (Value.over (base.get? k))).or (base.get? k) := by
  have hmerge := Value.mergeBy_over base es
  cases hk : es.get? k with
  | none => rw [Objects.get?_mergeBy_of_none hmerge hk, Option.map_none, Option.none_or]
  | some v =>
    obtain ⟨u, hu, hget⟩ := Objects.get?_mergeBy_of_some hes hmerge hk
    rw [hget, Option.map_some, Option.some_or, hu]

theorem nodup_merge (hbase : (base.map (·.1.key)).Nodup) (es : Entries) :
    ((base.merge es).map (·.1.key)).Nodup := by
  induction es generalizing base with
  | nil => rwa [merge_nil]
  | cons e es ih =>
    obtain ⟨k, v⟩ := e
    rw [merge_cons]
    exact ih (nodup_put hbase)

/-- A mapping on top of an empty one is itself. -/
theorem merge_nil_left (hes : (es.map (·.1.key)).Nodup) : Entries.merge [] es = es := by
  have hnil : (([] : Entries).map (·.1.key)).Nodup := List.nodup_nil
  refine ext_of_get? ?_ (nodup_merge hnil es) fun k => ?_
  · rw [keys_merge [] hes]
    exact newKeys_nil _
  · rw [get?_merge [] hes, get?, Option.or_none]
    cases es.get? k with
    | none => rfl
    | some v => exact congrArg some (Value.over_none v)

/-- Merging is associative if it is so under every key that the last two mappings share. -/
theorem merge_assoc_of_get? {as bs cs : Entries} (has : (as.map (·.1.key)).Nodup)
    (hbs : (bs.map (·.1.key)).Nodup) (hcs : (cs.map (·.1.key)).Nodup)
    (h : ∀ k v w, bs.get? k = some v → cs.get? k = some w →
      Value.over (some (Value.over (as.get? k) v)) w =
        Value.over (as.get? k) (Value.over (some v) w)) :
    (as.merge bs).merge cs = as.merge (bs.merge cs) := by
  have hmerged := nodup_merge hbs cs
  refine ext_of_get? ?_ (nodup_merge (nodup_merge has bs) cs) fun k => ?_
  · rw [keys_merge _ hcs, keys_merge as hbs, keys_merge as hmerged, keys_merge bs hcs,
      List.append_assoc, newKeys_append_newKeys]
    exact congrArg _ (List.filter_append _ _).symm
  · rw [get?_merge _ hcs, get?_merge as hbs, get?_merge as hmerged, get?_merge bs hcs]
    cases hc : cs.get? k with
    | none => rfl
    | some w =>
      cases hb : bs.get? k with
      | none => exact congrArg (fun u => some (Value.over (as.get? k) u)) (Value.over_none w).symm
      | some v => exact congrArg some (h k v w hb hc)

end Entries

namespace Value

variable {o : Option Value} {v w : Value} {as bs cs : Entries}

/-! ## A value on top of itself -/

theorem over_self (hv : v.Distinct) : Value.over (some v) v = v := by
  induction hv with
  | @mapping es hkeys hvalues ih =>
    have hnodup := (Entries.distinct_iff_nodup.1 hkeys).2
    rw [over_mapping]
    refine congrArg mapping (Entries.ext_of_get? ?_ (Entries.nodup_merge hnodup es) fun k => ?_)
    · rw [Entries.keys_merge es hnodup, Entries.newKeys_self, List.append_nil]
    · rw [Entries.get?_merge es hnodup]
      cases hk : es.get? k with
      | none => rfl
      | some u =>
        obtain ⟨e, he, rfl⟩ := Entries.exists_of_get?_eq_some hk
        exact congrArg some (ih e he)
  | _ => exact over_of_not_mapping _ nofun

/-! ## Three values on top of each other -/

/-- At some path the outer two of three places are mappings, and the one between them has a value
    that is none. -/
def Interrupts (o u w : Option Value) : Prop :=
  ∃ path, (∃ es : Entries, at? o path = some (.mapping es)) ∧
    (∃ v, at? u path = some v ∧ ∀ es : Entries, v ≠ .mapping es) ∧
    ∃ es : Entries, at? w path = some (.mapping es)

/-- What does not interrupt mappings does not interrupt what they have under a key. -/
theorem not_interrupts_get? (h : ¬Interrupts (some (.mapping as)) (some (.mapping bs))
    (some (.mapping cs))) (k : Scalar) : ¬Interrupts (as.get? k) (bs.get? k) (cs.get? k) :=
  fun ⟨path, ha, hb, hc⟩ => h ⟨k :: path, ha, hb, hc⟩

/-- A place never comes between another place and itself. -/
theorem not_interrupts_self (o w : Option Value) : ¬Interrupts o w w := by
  rintro ⟨path, -, ⟨v, hv, hne⟩, es, hes⟩
  exact hne es (Option.some.inj (hv.symm.trans hes))

/-- Two values are put on top of a place one after the other as both together. -/
theorem over_over (ho : ∀ u, o = some u → u.Distinct) (hv : v.Distinct) (hw : w.Distinct)
    (h : ¬Interrupts o (some v) (some w)) :
    Value.over (some (Value.over o v)) w = Value.over o (Value.over (some v) w) := by
  -- By induction on the value on top: only a mapping can meet what is below.
  induction hw generalizing o v with
  | @mapping cs hkeys hvalues ih =>
    by_cases hbs : ∃ bs, v = .mapping bs
    · obtain ⟨bs, rfl⟩ := hbs
      by_cases has : ∃ as, o = some (.mapping as)
      · obtain ⟨as, rfl⟩ := has
        have has := ho _ rfl
        rw [over_mapping, over_mapping, over_mapping, over_mapping]
        refine congrArg mapping (Entries.merge_assoc_of_get?
          (Entries.distinct_iff_nodup.1 has.keys).2 (Entries.distinct_iff_nodup.1 hv.keys).2
          (Entries.distinct_iff_nodup.1 hkeys).2 fun k v w hk hl => ?_)
        have hget := not_interrupts_get? h k
        obtain ⟨e, he, rfl⟩ := Entries.exists_of_get?_eq_some hl
        rw [hk, hl] at hget
        exact ih e he has.get? (hv.get? v hk) hget
      · rw [not_exists] at has
        rw [over_of_ne_mapping has, over_of_ne_mapping has]
    · -- The value in the middle takes every place, and only mappings below would be seen again.
      rw [not_exists] at hbs
      have has : ∀ as : Entries, o ≠ some (.mapping as) := by
        rintro as rfl
        exact h ⟨[], ⟨as, rfl⟩, ⟨v, rfl, hbs⟩, cs, rfl⟩
      rw [over_of_ne_mapping has, over_of_ne_mapping has]
  | _ => simp [over_of_not_mapping]

end Value

namespace Entries

variable {a b c : Entries}

/-- Merging is associative unless the middle one interrupts. -/
theorem merge_assoc (ha : Value.Distinct (.mapping a)) (hb : Value.Distinct (.mapping b))
    (hc : Value.Distinct (.mapping c))
    (h : ¬Value.Interrupts (some (.mapping a)) (some (.mapping b)) (some (.mapping c))) :
    (a.merge b).merge c = a.merge (b.merge c) := by
  have hover := Value.over_over (fun u hu => Option.some.inj hu ▸ ha) hb hc h
  rw [Value.over_mapping, Value.over_mapping, Value.over_mapping, Value.over_mapping] at hover
  exact Value.mapping.inj hover

theorem merge_self (ha : Value.Distinct (.mapping a)) : a.merge a = a := by
  have hover := Value.over_self ha
  rw [Value.over_mapping] at hover
  exact Value.mapping.inj hover

/-- An empty mapping changes nothing on either side, a mapping on top of itself or on top again
    changes nothing, and three mappings are merged from either end, unless the middle one has a
    value other than a mapping where the outer ones have mappings. -/
theorem merge_laws (ha : Value.Distinct (.mapping a)) (hb : Value.Distinct (.mapping b))
    (hc : Value.Distinct (.mapping c)) :
    a.merge [] = a ∧ Entries.merge [] a = a ∧ a.merge a = a ∧ (a.merge b).merge b = a.merge b ∧
      (¬Value.Interrupts (some (.mapping a)) (some (.mapping b)) (some (.mapping c)) →
        (a.merge b).merge c = a.merge (b.merge c)) := by
  refine ⟨merge_nil a, merge_nil_left (distinct_iff_nodup.1 ha.keys).2, merge_self ha, ?_,
    merge_assoc ha hb hc⟩
  rw [merge_assoc ha hb hb (Value.not_interrupts_self _ _), merge_self hb]

/-- A mapping under a number. -/
def numbered : Entries := [(.int 1, .mapping [(.str "x", .int 1)])]

/-- A mapping under the same number, written as a truth value, and a number under a name. -/
def truthful : Entries := [(.bool true, .mapping [(.str "y", .mapping [])]), (.str "z", .int 3)]

/-- Mappings under that number, written as a floating-point number, and under that name. -/
def floating : Entries :=
  [(.float (.finite false (2 ^ 52) (-52)), .mapping [(.str "x", .mapping [(.int 2, .null)])]),
    (.str "z", .mapping [])]

/-- Three mappings with one key, spelled as an integer, a truth value and a float. -/
theorem merge_laws_numbered :
    Value.Distinct (.mapping numbered) ∧ Value.Distinct (.mapping truthful) ∧
      Value.Distinct (.mapping floating) ∧
      (numbered.merge truthful).merge truthful = numbered.merge truthful ∧
      (numbered.merge truthful).merge floating = numbered.merge (truthful.merge floating) := by
  have hname : ∀ s : String, (Scalar.str s).IsNormal := TextValue.ofPoints_points_plain
  have hint : ∀ n : Int, (Scalar.int n).IsNormal := fun _ => trivial
  have hbool : (Scalar.bool true).IsNormal := trivial
  have hfloat : (Scalar.float (.finite false (2 ^ 52) (-52))).IsNormal :=
    ⟨by decide, by decide, by decide, by decide⟩
  have ha : Value.Distinct (.mapping numbered) :=
    .put .nil (hint 1) (.put .nil (hname "x") (.scalar (.int 1)))
  have hb : Value.Distinct (.mapping truthful) :=
    .put (.put .nil hbool (.put .nil (hname "y") .nil)) (hname "z") (.scalar (.int 3))
  have hc : Value.Distinct (.mapping floating) :=
    .put (.put .nil hfloat (.put .nil (hname "x") (.put .nil (hint 2) (.scalar .null))))
      (hname "z") .nil
  have h : ¬Value.Interrupts (some (.mapping numbered)) (some (.mapping truthful))
      (some (.mapping floating)) := by
    rintro ⟨path, ⟨as, has⟩, ⟨v, hv, hne⟩, -⟩
    -- The first mapping has one mapping in it, and there the second one has a mapping too.
    match path with
    | [] => exact hne _ (Option.some.inj hv).symm
    | [k] =>
      by_cases hk : (Scalar.int 1).key = k.key
      · have hmapping : truthful.get? k = some (.mapping [(.str "y", .mapping [])]) :=
          (get?_congr hk).symm
        exact hne _ (Option.some.inj (hv.symm.trans hmapping))
      · simp [at?, numbered, Entries.get?, hk] at has
    | k :: l :: path =>
      rw [at?, numbered, Entries.get?] at has
      split at has
      · rw [at?, Entries.get?] at has
        split at has
        · cases path <;> simp [at?] at has
        · cases path <;> simp [at?, Entries.get?] at has
      · simp [at?, Entries.get?] at has
  obtain ⟨-, -, -, hagain, hassoc⟩ := merge_laws ha hb hc
  exact ⟨ha, hb, hc, hagain, hassoc h⟩

/-- From one end the number parts the outer mappings, and from the other they meet. -/
example :
    (Entries.merge [(.int 1, .mapping [(.str "x", .null)])] [(.int 1, .int 2)]).merge
        [(.bool true, .mapping [(.str "y", .null)])] =
      [(.int 1, .mapping [(.str "y", .null)])] ∧
    Entries.merge [(.int 1, .mapping [(.str "x", .null)])]
        (Entries.merge [(.int 1, .int 2)] [(.bool true, .mapping [(.str "y", .null)])]) =
      [(.int 1, .mapping [(.str "x", .null), (.str "y", .null)])] :=
  ⟨rfl, rfl⟩

end Entries

end CategoryLint
