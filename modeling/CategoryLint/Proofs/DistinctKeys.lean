import CategoryLint.Proofs.Everywhere
import CategoryLint.Proofs.KeyEquality
import CategoryLint.Proofs.Lookup

/-!
# Distinct keys

No mapping has two keys that are equal, at any depth (`Value.Distinct`). Everything that makes or
changes a value keeps that: to store under a key (`Value.Distinct.put`), to merge in place
(`Value.Distinct.over`) and through links (`Value.Distinct.onTop`), to read JSON, where a name can
come twice (`Json.distinct_readValue`), and to write at a path (`Override.distinct_set`,
`Sharing.distinct_setIn`).
-/

namespace CategoryLint

/-! ## One mapping -/

namespace Entries

variable {es : Entries} {k : Scalar} {v : Value}

/-- No two keys of a mapping are equal. -/
structure Distinct (es : Entries) : Prop where
  /-- The keys are written in their one way. -/
  normal : ∀ k ∈ es.keys, k.IsNormal
  /-- No key is equal to one before it. -/
  pairwise : es.keys.Pairwise fun k l => ¬k.Equal l

/-- Keys are distinct if no two are compared alike, and each is written as texts are. -/
theorem distinct_iff_nodup :
    es.Distinct ↔ (∀ k ∈ es.keys, k.IsNormal) ∧ (es.map (·.1.key)).Nodup := by
  rw [map_key, List.Nodup, List.pairwise_map]
  constructor
  · rintro ⟨hnormal, hdistinct⟩
    refine ⟨hnormal, hdistinct.imp_of_mem fun hk hl hne => ?_⟩
    rwa [Ne, Scalar.key_eq_iff (hnormal _ hk) (hnormal _ hl)]
  · rintro ⟨hnormal, hnodup⟩
    refine ⟨hnormal, hnodup.imp_of_mem fun hk hl hne => ?_⟩
    rwa [← Scalar.key_eq_iff (hnormal _ hk) (hnormal _ hl)]

/-- Putting in a value adds at most its key. -/
theorem forall_keys_put {P : Scalar → Prop} (h : ∀ l ∈ es.keys, P l) (hk : P k) :
    ∀ l ∈ (es.put k v).keys, P l := by
  rcases keys_put_cases es k v with hkeys | hkeys
  · rwa [hkeys]
  · rw [hkeys, List.forall_mem_append]
    exact ⟨h, List.forall_mem_singleton.2 hk⟩

theorem Distinct.nil : Distinct [] where
  normal _ h := absurd h List.not_mem_nil
  pairwise := .nil

theorem Distinct.put (h : es.Distinct) (hk : k.IsNormal) : (es.put k v).Distinct := by
  rw [distinct_iff_nodup] at h ⊢
  exact ⟨forall_keys_put h.1 hk, nodup_put h.2⟩

end Entries

/-! ## All mappings in a value -/

namespace Value

/-- No mapping in a value has two keys that are equal. Where there is a link, the mapping that it
    leads to is elsewhere. -/
inductive Distinct : Value → Prop where
  /-- A value without parts. -/
  | scalar (s : Scalar) : Distinct (.scalar s)
  /-- A list of such values. -/
  | list {items : List Value} : (∀ v ∈ items, Distinct v) → Distinct (.list items)
  /-- A list of pairs of such values. -/
  | pairs {items : List (Value × Value)} : (∀ p ∈ items, Distinct p.1) →
      (∀ p ∈ items, Distinct p.2) → Distinct (.pairs items)
  /-- A set, which has scalars in it only. -/
  | set (members : List Scalar) : Distinct (.set members)
  /-- A mapping with distinct keys and such values. -/
  | mapping {es : Entries} : es.Distinct → (∀ e ∈ es, Distinct e.2) → Distinct (.mapping es)
  /-- A link. -/
  | link (shape : Shape) (number : Nat) : Distinct (.link shape number)

variable {base es merged : Entries} {k : Scalar} {v : Value}

/-- All mappings in such a value have distinct keys. -/
theorem distinct_iff_everywhere : v.Distinct ↔ v.Everywhere Entries.Distinct := by
  -- Both sides have one constructor for each kind of value, with the same premises.
  constructor
  · intro h
    induction h <;> constructor <;> assumption
  · intro h
    induction h <;> constructor <;> assumption

theorem Distinct.nil : Distinct (.mapping []) := distinct_iff_everywhere.2 (.nil .nil)

theorem Distinct.keys (h : Distinct (.mapping es)) : es.Distinct := by
  cases h with
  | mapping hkeys _ => exact hkeys

theorem Distinct.values (h : Distinct (.mapping es)) : ∀ e ∈ es, Distinct e.2 := by
  cases h with
  | mapping _ hvalues => exact hvalues

theorem Distinct.get? (h : Distinct (.mapping es)) : ∀ v, es.get? k = some v → Distinct v :=
  fun v hv => distinct_iff_everywhere.2 ((distinct_iff_everywhere.1 h).get? v hv)

theorem Distinct.put (h : Distinct (.mapping es)) (hk : k.IsNormal) (hv : Distinct v) :
    Distinct (.mapping (es.put k v)) :=
  .mapping (h.keys.put hk) (Entries.forall_put h.values hv)

theorem Distinct.entries (h : Distinct v) : Distinct (.mapping v.entries) :=
  distinct_iff_everywhere.2 ((distinct_iff_everywhere.1 h).entries .nil)

/-! ## Merging -/

/-- Merging keeps what one value on top of another keeps. -/
theorem Distinct.mergeBy {f : Option Value → Value → Option Value}
    (hbase : Distinct (.mapping base)) (hnormal : ∀ k ∈ es.keys, k.IsNormal)
    (hf : ∀ e ∈ es, ∀ old u, (∀ o, old = some o → Distinct o) → f old e.2 = some u → Distinct u)
    (h : Objects.mergeBy f base es = some merged) : Distinct (.mapping merged) := by
  induction es generalizing base with
  | nil =>
    cases h
    exact hbase
  | cons e es ih =>
    obtain ⟨k, v⟩ := e
    rw [Entries.keys_cons, List.forall_mem_cons] at hnormal
    rw [List.forall_mem_cons] at hf
    obtain ⟨u, hu, h⟩ := Objects.mergeBy_cons_eq_some h
    have hdistinct : Distinct u := hf.1 _ _ (fun o ho => hbase.get? o ho) hu
    exact ih (hbase.put hnormal.1 hdistinct) hnormal.2 hf.2 h

/-- To merge in place is to put every value on top of the one below. -/
theorem mergeBy_over (base es : Entries) :
    Objects.mergeBy (fun old v => some (Value.over old v)) base es = some (base.merge es) := by
  induction es generalizing base with
  | nil => rw [Objects.mergeBy, Entries.merge_nil]
  | cons e es ih =>
    obtain ⟨k, v⟩ := e
    rw [Entries.merge_cons, ← ih]
    rfl

/-- One value on top of another has distinct keys if both have. -/
theorem Distinct.over (hv : Distinct v) {old : Option Value}
    (hold : ∀ o, old = some o → Distinct o) : Distinct (Value.over old v) := by
  -- By induction on the value on top: only a mapping in it meets one below.
  induction hv generalizing old with
  | @mapping es hkeys hvalues ih =>
    by_cases hbase : ∃ base, old = some (.mapping base)
    · obtain ⟨base, rfl⟩ := hbase
      rw [Value.over]
      refine .mergeBy (hold _ rfl) hkeys.normal ?_ (mergeBy_over base es)
      intro e he old u hold hu
      cases hu
      exact ih e he hold
    · rw [Value.over]
      · exact .mapping hkeys hvalues
      · exact fun base heq => hbase ⟨base, heq⟩
  | _ =>
    rw [over_of_not_mapping old (by simp)]
    constructor <;> assumption

/-- A merge has distinct keys at every depth if both mappings have. -/
theorem Distinct.merge (hbase : Distinct (.mapping base)) (hes : Distinct (.mapping es)) :
    Distinct (.mapping (base.merge es)) := by
  refine hbase.mergeBy hes.keys.normal ?_ (mergeBy_over base es)
  intro e he old u hold hu
  cases hu
  exact (hes.values e he).over hold

end Value

namespace Objects

variable {T : Objects} {depth : Nat} {old : Option Value} {v r : Value}

/-- No mapping in a table has two keys that are equal. -/
def Distinct (T : Objects) : Prop := ∀ v ∈ T, v.Distinct

theorem distinct_iff_everywhere : T.Distinct ↔ T.Everywhere Entries.Distinct :=
  forall₂_congr fun _ _ => Value.distinct_iff_everywhere

/-- Two tables of objects make one. -/
theorem Distinct.append {T' : Objects} (hT : T.Distinct) (hT' : T'.Distinct) :
    Distinct (T ++ T') := by
  intro v hv
  exact (Array.mem_append.1 hv).elim (hT v) (hT' v)

theorem Distinct.push (hT : T.Distinct) (hv : v.Distinct) : Distinct (T.push v) := by
  intro u hu
  rcases Array.mem_push.1 hu with hu | rfl
  · exact hT u hu
  · exact hv

theorem Distinct.getD (hT : T.Distinct) (n : Nat) : (T.getD n .null).Distinct :=
  Value.distinct_iff_everywhere.2 ((distinct_iff_everywhere.1 hT).getD n)

/-- A value has distinct keys also where a link leads. -/
theorem Distinct.follow (hT : T.Distinct) (hv : v.Distinct) : (T.follow v).Distinct := by
  cases v with
  | link shape n => exact hT.getD n
  | _ => exact hv

theorem Distinct.entries? (hT : T.Distinct) (hv : v.Distinct) {es : Entries}
    (h : T.entries? v = some es) : Value.Distinct (.mapping es) := by
  have hfollow := hT.follow hv
  rw [Objects.entries?] at h
  split at h
  · next heq =>
    cases h
    rwa [heq] at hfollow
  · cases h

/-- With shared objects, too, a value on top of another has distinct keys. -/
theorem Distinct.onTop (hT : T.Distinct) (hold : ∀ o, old = some o → o.Distinct)
    (hv : v.Distinct) (h : T.onTop depth old v = some r) : r.Distinct := by
  -- Links can lead around in circles, so the induction is on the depth and not on the value.
  induction depth generalizing old v r with
  | zero => cases h
  | succ depth ih =>
    rcases onTop_eq_some h with ⟨d, base, es, merged, hbase, hes, hmerge, rfl, heq⟩ | ⟨-, rfl⟩
    · cases heq
      obtain ⟨o, ho, hbase⟩ := Option.bind_eq_some_iff.1 hbase
      have hes := hT.entries? hv hes
      refine (hT.entries? (hold o ho) hbase).mergeBy hes.keys.normal ?_ hmerge
      exact fun e he old u hold hu => ih hold (hes.values e he) hu
    · exact hv

theorem Distinct.merge [Limits] (hT : T.Distinct) {base es merged : Entries}
    (hbase : Value.Distinct (.mapping base)) (hes : Value.Distinct (.mapping es))
    (h : T.merge base es = some merged) : Value.Distinct (.mapping merged) :=
  hbase.mergeBy hes.keys.normal
    (fun e he _ _ hold hu => hT.onTop hold (hes.values e he) hu) h

end Objects

/-! ## Values from variables -/

theorem TextValue.ofPoints_points_ofPoints (ps : List CodePoint) :
    ofPoints (ofPoints ps).points = ofPoints ps := by
  cases h : ps.mapM CodePoint.char? with
  | none =>
    have hbroken : ofPoints ps = .broken ps := by rw [ofPoints, h]
    rw [hbroken, points, hbroken]
  | some cs =>
    have hplain : ofPoints ps = .plain (String.ofList cs) := by rw [ofPoints, h]
    rw [hplain, ofPoints_points_plain]

namespace Json

variable {fuel depth : Nat} {cs rest : List Char} {v : Value}

theorem exists_of_readWord? (h : readWord? cs = some (v, rest)) : ∃ s, v = .scalar s := by
  obtain ⟨⟨word, u⟩, hmem, hword⟩ := List.exists_of_findSome?_eq_some h
  obtain ⟨_, -, heq⟩ := Option.map_eq_some_iff.1 hword
  cases heq
  have hwords : ∀ w ∈ words, ∃ s, w.2 = .scalar s := by simp [words]
  exact hwords _ hmem

/-- A number is read as a scalar. -/
theorem exists_of_readNumber {negative : Bool} (h : readNumber negative cs = .ok (v, rest)) :
    ∃ s, v = .scalar s := by
  simp only [readNumber] at h
  split at h
  · cases h
  · split at h
    · cases h
      exact ⟨_, rfl⟩
    · split at h
      · cases h
      · cases h
        exact ⟨_, rfl⟩

/-- There are no keys in a scalar. -/
theorem distinct_readScalar (h : readScalar cs = .ok (v, rest)) : v.Distinct := by
  have hscalar : ∃ s, v = .scalar s := by
    rw [readScalar.eq_def] at h
    split at h
    · next hword =>
      cases h
      exact exists_of_readWord? hword
    · split at h
      · obtain ⟨⟨s, r⟩, -, heq⟩ := map_eq_ok_iff.1 h
        cases heq
        exact ⟨_, rfl⟩
      · exact exists_of_readNumber h
      · exact exists_of_readNumber h
  obtain ⟨s, rfl⟩ := hscalar
  exact .scalar s

/-- The names that are read are written as texts are. -/
theorem isNormal_of_readString {name : TextValue} (h : readString cs = .ok (name, rest)) :
    (Scalar.str name).IsNormal := by
  rw [readString] at h
  split at h
  · cases h
    exact TextValue.ofPoints_points_ofPoints _
  · cases h

/-- Values, items and fields that are read with some fuel are distinct. -/
structure ReadsDistinct (fuel : Nat) : Prop where
  /-- A value. -/
  value : ∀ {depth : Nat} {cs : List Char} {v : Value} {rest : List Char},
    readValue fuel depth cs = .ok (v, rest) → v.Distinct
  /-- The items of a list. -/
  items : ∀ {depth : Nat} {cs : List Char} {vs : List Value} {rest : List Char},
    readItems fuel depth cs = .ok (vs, rest) → ∀ v ∈ vs, v.Distinct
  /-- The fields of an object, after others. -/
  fields : ∀ {depth : Nat} {es : Entries} {cs : List Char} {es' : Entries} {rest : List Char},
    Value.Distinct (.mapping es) → readFields fuel depth es cs = .ok (es', rest) →
      Value.Distinct (.mapping es')

/-- A value that is read has distinct keys, if its parts have. -/
theorem distinct_readValue (h : ∀ f, fuel = f + 1 → ReadsDistinct f)
    (hv : readValue fuel depth cs = .ok (v, rest)) : v.Distinct := by
  rw [readValue.eq_def] at hv
  split at hv
  · cases hv
  · cases hv
  · split at hv
    · cases hv
      exact .list fun _ hmem => absurd hmem List.not_mem_nil
    · obtain ⟨⟨vs, r⟩, hvs, heq⟩ := map_eq_ok_iff.1 hv
      cases heq
      exact .list ((h _ rfl).items hvs)
  · cases hv
  · split at hv
    · cases hv
      exact .nil
    · obtain ⟨⟨es, r⟩, hes, heq⟩ := map_eq_ok_iff.1 hv
      cases heq
      exact (h _ rfl).fields .nil hes
  · exact distinct_readScalar hv

/-- So has every item of a list. -/
theorem distinct_readItems (h : ∀ f, fuel = f + 1 → ReadsDistinct f) {vs : List Value}
    (hvs : readItems fuel depth cs = .ok (vs, rest)) : ∀ v ∈ vs, v.Distinct := by
  rw [readItems.eq_def] at hvs
  split at hvs
  · cases hvs
  · split at hvs
    · cases hvs
    · next u r hu =>
      have hdistinct : u.Distinct := (h _ rfl).value hu
      split at hvs
      · cases hvs
        exact List.forall_mem_singleton.2 hdistinct
      · obtain ⟨⟨us, r'⟩, hus, heq⟩ := map_eq_ok_iff.1 hvs
        cases heq
        exact List.forall_mem_cons.2 ⟨hdistinct, (h _ rfl).items hus⟩
      · cases hvs

/-- A name that comes again gives a new value to the key that is there. -/
theorem distinct_readFields (h : ∀ f, fuel = f + 1 → ReadsDistinct f) {es es' : Entries}
    (hes : Value.Distinct (.mapping es))
    (hread : readFields fuel depth es cs = .ok (es', rest)) : Value.Distinct (.mapping es') := by
  rw [readFields.eq_def] at hread
  split at hread
  · cases hread
  · split at hread
    · cases hread
    · next name r hname =>
      split at hread
      · split at hread
        · cases hread
        · next u r' hu =>
          have hput := hes.put (isNormal_of_readString hname) ((h _ rfl).value hu)
          dsimp only at hread
          split at hread
          · cases hread
            exact hput
          · exact (h _ rfl).fields hput hread
          · cases hread
      · cases hread
  · cases hread

theorem ReadsDistinct.of_pred (h : ∀ f, fuel = f + 1 → ReadsDistinct f) : ReadsDistinct fuel :=
  ⟨distinct_readValue h, distinct_readItems h, distinct_readFields h⟩

/-- All that the readers of JSON read has distinct keys: the induction is on the fuel, with one case
    for each reader. -/
theorem readsDistinct (fuel : Nat) : ReadsDistinct fuel := by
  induction fuel with
  | zero => exact .of_pred nofun
  | succ fuel ih => exact .of_pred fun _ heq => Nat.succ.inj heq ▸ ih

/-- A JSON text gives a value with distinct keys. -/
theorem distinct_read [Limits] (h : read cs = .ok v) : v.Distinct := by
  rw [read] at h
  split at h
  · cases h
  · cases h
  · next hread =>
    split at h
    · cases h
      exact (readsDistinct _).value hread
    · cases h

end Json

namespace Coercion

variable {raw : String} {v : Value}

theorem distinct_asJson [Limits] (h : asJson raw = .ok (some v)) : v.Distinct := by
  rw [asJson] at h
  split at h
  · split at h
    · next hread =>
      cases h
      exact Json.distinct_read hread
    · cases h
    · cases h
    · cases h
  · cases h

/-- Whatever a setting is coerced to has distinct keys. -/
theorem distinct_coerce [Limits] (h : coerce raw = .ok v) : v.Distinct := by
  rw [coerce] at h
  split at h
  · cases h
    exact .scalar _
  · split at h
    · cases h
    · cases h
      exact .scalar _
    · split at h
      · cases h
        exact .scalar _
      · split at h
        · cases h
        · next hjson =>
          cases h
          exact distinct_asJson hjson
        · cases h
          exact .scalar _

end Coercion

/-! ## Writes -/

namespace Override

variable {es : Entries}

/-- A segment is resolved to a key of the mapping, or to its own text. -/
theorem isNormal_resolve (es : Entries) (seg : String) : (resolve es seg).IsNormal := by
  obtain ⟨s, hs⟩ := exists_resolve_eq es seg
  rw [hs]
  exact TextValue.ofPoints_points_plain s

/-- The value that a variable writes has distinct keys. -/
theorem distinct_newValue [Limits] {old : Option Value} {raw : String} {v : Value}
    (h : newValue old raw = .ok v) : v.Distinct := by
  rw [newValue] at h
  split at h
  · cases h
    exact .scalar _
  · exact Coercion.distinct_coerce h

/-- Distinct keys last through the writes of variables. -/
theorem lasts_distinct : Lasts Entries.Distinct where
  nil := .nil
  put seg _ hes := hes.put (isNormal_resolve _ seg)

/-- A write keeps keys distinct, also one that fails. -/
theorem distinct_set [Limits] (path : List String) (raw : String)
    (hes : Value.Distinct (.mapping es)) :
    Value.Distinct (.mapping (set es path raw).1) := by
  rw [Value.distinct_iff_everywhere] at hes ⊢
  exact everywhere_set lasts_distinct hes fun _ hv =>
    Value.distinct_iff_everywhere.1 (distinct_newValue hv)

end Override

namespace Sharing

variable {T : Objects}

/-- Writing behind links keeps keys distinct. -/
theorem distinct_setIn [Limits] (n : Nat) (path : List String) (raw : String) (hT : T.Distinct) :
    Objects.Distinct (setIn T n path raw).1 := by
  rw [Objects.distinct_iff_everywhere] at hT ⊢
  exact everywhere_setIn Override.lasts_distinct hT fun _ hv =>
    Value.distinct_iff_everywhere.1 (Override.distinct_newValue hv)

/-- Writing a setting keeps all keys distinct, in the configuration and in its objects. -/
theorem distinct_set [Limits] {c : Config} (path : List String) (raw : String)
    (hentries : Value.Distinct (.mapping c.entries)) (hT : c.objects.Distinct) :
    Value.Distinct (.mapping (set c path raw).1.entries) ∧ (set c path raw).1.objects.Distinct := by
  rw [Value.distinct_iff_everywhere, Objects.distinct_iff_everywhere] at *
  exact everywhere_set Override.lasts_distinct hentries hT fun _ hv =>
    Value.distinct_iff_everywhere.1 (Override.distinct_newValue hv)

end Sharing

end CategoryLint
