import CategoryLint.Value.Objects

/-!
# Configurations by their paths

A configuration shows something at every path of keys: nothing, a mapping, or a value that is no
mapping, a leaf (`Shown`). It touches a path if it shows something there, or if it has a leaf on
the way, which the path cannot go on from (`Touches`).

The objects that links lead to are in a table. A document adds mappings to it whose keys are
distinct and whose values are scalars and links (`Objects.Tidy`); merging adds mappings inside
mappings (`Objects.Sound`). A table that grows keeps what it has, so what a configuration shows
does not change (`shown_of_within`).
-/

namespace CategoryLint

/-- What is at a path. -/
inductive Shown where
  /-- Nothing. -/
  | nothing
  /-- A mapping. -/
  | mapping
  /-- A value that is no mapping. -/
  | leaf (v : Value)

/-! ## Entries -/

namespace Entries

variable {es : Entries} {k : Scalar} {v : Value}

/-- What is under a key is the value of an entry. -/
theorem exists_of_get?_eq_some (h : es.get? k = some v) : ∃ e ∈ es, e.2 = v := by
  induction es with
  | nil => cases h
  | cons e es ih =>
    obtain ⟨l, u⟩ := e
    rw [get?] at h
    split at h
    · exact ⟨(l, u), List.mem_cons_self, Option.some.inj h⟩
    · obtain ⟨e, he, hv⟩ := ih h
      exact ⟨e, List.mem_cons_of_mem _ he, hv⟩

/-- Storing under a key adds it at the end, or no key. -/
theorem keys_put_cases (es : Entries) (k : Scalar) (v : Value) :
    (es.put k v).keys = es.keys ∨ (es.put k v).keys = es.keys ++ [k] := by
  rw [keys_put]
  split
  · exact .inl rfl
  · exact .inr rfl

theorem map_key (es : Entries) : es.map (·.1.key) = es.keys.map Scalar.key := by
  rw [keys, List.map_map]
  rfl

/-- No key is there twice after a value is put in. -/
theorem nodup_put (h : (es.map (·.1.key)).Nodup) : ((es.put k v).map (·.1.key)).Nodup := by
  rw [map_key] at h ⊢
  rw [keys_put]
  split
  · exact h
  · next hk =>
    rw [List.map_append, List.map_singleton, List.nodup_append]
    refine ⟨h, List.nodup_cons.2 ⟨List.not_mem_nil, List.nodup_nil⟩, ?_⟩
    intro _ hl r hr heq
    obtain ⟨l, hmem, rfl⟩ := List.mem_map.1 hl
    rw [List.mem_singleton] at hr
    exact hk (List.any_eq_true.2 ⟨l, hmem, decide_eq_true (heq.trans hr)⟩)

/-- Whatever is put in, the first key stays the first. -/
theorem head?_keys_put {l : Scalar} (h : es.keys.head? = some l) :
    (es.put k v).keys.head? = some l := by
  rcases keys_put_cases es k v with hkeys | hkeys
  · rwa [hkeys]
  · rw [hkeys, List.head?_append, h, Option.some_or]

/-- A table with a first key has an entry for it before all others. -/
theorem exists_of_head?_keys {l : Scalar} (h : es.keys.head? = some l) :
    ∃ v fs, es = (l, v) :: fs := by
  cases es with
  | nil => cases h
  | cons e fs =>
    cases h
    exact ⟨e.2, fs, rfl⟩

/-- What holds of all values and of the one that is put in still holds of all. -/
theorem forall_put {P : Value → Prop} (h : ∀ e ∈ es, P e.2) (hv : P v) :
    ∀ e ∈ es.put k v, P e.2 := by
  induction es with
  | nil =>
    intro e he
    rw [put, List.mem_singleton] at he
    rwa [he]
  | cons e es ih =>
    obtain ⟨l, u⟩ := e
    rw [List.forall_mem_cons] at h
    rw [put]
    split
    · exact List.forall_mem_cons.2 ⟨hv, h.2⟩
    · exact List.forall_mem_cons.2 ⟨h.1, ih h.2⟩

end Entries

namespace Objects

/-! ## Paths -/

/-- What is at a path from a value on. -/
def shown (objects : Objects) : (path : List Scalar) → Option Value → Shown
  | _, none => .nothing
  | [], some v => if (objects.entries? v).isSome then .mapping else .leaf v
  | k :: path, some v => shown objects path ((objects.entries? v).bind (·.get? k))

/-- Something is at a path, or a leaf is on the way. -/
def Touches (objects : Objects) (path : List Scalar) (v : Option Value) : Prop :=
  objects.shown path v ≠ .nothing ∨
    ∃ q u, q <+: path ∧ q ≠ path ∧ objects.shown q v = .leaf u

variable {T T' : Objects} {path : List Scalar} {k : Scalar} {v : Value}

theorem shown_none : T.shown path none = .nothing := by
  cases path <;> rfl

/-- The value itself is shown as a mapping, if it is one or a link to one. -/
theorem shown_nil_of_entries? {es : Entries} (h : T.entries? v = some es) :
    T.shown [] (some v) = .mapping := by
  rw [shown, h, Option.isSome_some, if_pos rfl]

/-- The value itself is shown as it is, if it is no mapping. -/
theorem shown_nil_of_leaf (h : T.entries? v = none) : T.shown [] (some v) = .leaf v := by
  rw [shown, h, Option.isSome_none, if_neg Bool.false_ne_true]

/-- A path into a mapping goes on from what is under its first key. -/
theorem shown_cons_of_entries? {es : Entries} (h : T.entries? v = some es) :
    T.shown (k :: path) (some v) = T.shown path (es.get? k) := by
  rw [shown, h, Option.bind_some]

theorem shown_cons_of_leaf (h : T.entries? v = none) :
    T.shown (k :: path) (some v) = .nothing := by
  rw [shown, h, Option.bind_none, shown_none]

theorem not_touches_none : ¬T.Touches path none := by
  rintro (h | ⟨q, u, -, -, h⟩)
  · exact h shown_none
  · rw [shown_none] at h
    cases h

/-- What is no mapping touches every path that comes through it. -/
theorem touches_of_leaf (h : T.entries? v = none) : T.Touches path (some v) := by
  cases path with
  | nil => exact .inl (by rw [shown_nil_of_leaf h]; simp)
  | cons k path =>
    exact .inr ⟨[], v, List.nil_prefix, by simp, shown_nil_of_leaf h⟩

theorem touches_nil : T.Touches [] (some v) := by
  left
  rw [shown]
  split <;> simp

/-- A mapping touches a path if what is under its first key touches the rest. -/
theorem touches_cons_of_entries? {es : Entries} (h : T.entries? v = some es) :
    T.Touches (k :: path) (some v) ↔ T.Touches path (es.get? k) := by
  rw [Touches, Touches, shown_cons_of_entries? h]
  refine or_congr_right ⟨?_, ?_⟩
  · rintro ⟨q, u, hq, hne, hu⟩
    cases q with
    | nil =>
      rw [shown_nil_of_entries? h] at hu
      cases hu
    | cons l q =>
      rw [List.cons_prefix_cons] at hq
      obtain ⟨rfl, hq⟩ := hq
      exact ⟨q, u, hq, fun e => hne (e ▸ rfl), by rwa [shown_cons_of_entries? h] at hu⟩
  · rintro ⟨q, u, hq, hne, hu⟩
    exact ⟨k :: q, u, List.cons_prefix_cons.2 ⟨rfl, hq⟩, by simpa using hne,
      by rwa [shown_cons_of_entries? h]⟩

/-! ## Values in a table -/

/-- A value as a document makes it: a scalar, or a link to an object of the table. Only a link
    to a mapping leads to one. -/
def Atomic (objects : Objects) : Value → Prop
  | .scalar _ => True
  | .link shape n =>
    n < objects.size ∧ ∀ es : Entries, objects[n]? = some (.mapping es) → shape = .mapping
  | _ => False

/-- The entries of a mapping as a document makes it. -/
structure Tidy (objects : Objects) (es : Entries) : Prop where
  /-- No key is there twice. -/
  nodup : (es.map (·.1.key)).Nodup
  /-- The values have no parts of their own. -/
  atomic : ∀ e ∈ es, objects.Atomic e.2

/-- The mappings in a table are as documents make them. -/
def WellFormed (objects : Objects) : Prop :=
  ∀ (n : Nat) (es : Entries), objects[n]? = some (.mapping es) → objects.Tidy es

/-- A value as merging makes it: mappings may be inside mappings. -/
inductive Sound (objects : Objects) : Value → Prop where
  /-- A value as a document makes it. -/
  | atomic {v : Value} : objects.Atomic v → Sound objects v
  /-- A mapping of such values. -/
  | mapping {es : Entries} : (∀ e ∈ es, Sound objects e.2) → Sound objects (.mapping es)

/-- What is in the first table is in the second, under the same number. -/
def Within (T T' : Objects) : Prop :=
  ∀ (n : Nat) (v : Value), T[n]? = some v → T'[n]? = some v

theorem Within.refl : T.Within T := fun _ _ h => h

theorem Within.trans {T'' : Objects} (h : T.Within T') (h' : T'.Within T'') : T.Within T'' :=
  fun n v hv => h' n v (h n v hv)

theorem Within.getElem?_eq (h : T.Within T') {n : Nat} (hn : n < T.size) : T'[n]? = T[n]? := by
  rw [Array.getElem?_eq_getElem hn]
  exact h n _ (Array.getElem?_eq_getElem hn)

theorem Within.size_le (h : T.Within T') : T.size ≤ T'.size := by
  refine Nat.not_lt.1 fun hlt => ?_
  have hnone := h.getElem?_eq hlt
  rw [Array.getElem?_eq_none (Nat.le_refl _), Array.getElem?_eq_getElem hlt] at hnone
  cases hnone

/-- A value that has its objects has them when more are added. -/
theorem Atomic.of_within (h : T.Within T') (hv : T.Atomic v) : T'.Atomic v := by
  cases v with
  | link shape n =>
    obtain ⟨hn, hshape⟩ := hv
    exact ⟨Nat.lt_of_lt_of_le hn h.size_le, fun es hes => hshape es (h.getElem?_eq hn ▸ hes)⟩
  | _ => exact hv

theorem Tidy.of_within {es : Entries} (h : T.Within T') (hes : T.Tidy es) : T'.Tidy es :=
  ⟨hes.nodup, fun e he => (hes.atomic e he).of_within h⟩

/-- A sound value stays sound when objects are added. -/
theorem Sound.of_within (h : T.Within T') (hv : T.Sound v) : T'.Sound v := by
  induction hv with
  | atomic hv => exact .atomic (hv.of_within h)
  | mapping _ ih => exact .mapping ih

/-! ## The entries that a value leads to -/

/-- A link leads to the mapping that its object is. -/
theorem entries?_link_eq_some_iff {shape : Shape} {n : Nat} {es : Entries} :
    T.entries? (.link shape n) = some es ↔ T[n]? = some (.mapping es) := by
  rw [entries?, follow, Array.getD_eq_getD_getElem?]
  cases hn : T[n]? with
  | none => simp
  | some v => cases v <;> simp

theorem entries_follow : (T.follow v).entries = (T.entries? v).getD [] := by
  rw [entries?]
  cases T.follow v <;> rfl

/-- A sound link leads to an object that is there. -/
theorem Sound.number_lt {shape : Shape} {n : Nat} (hv : T.Sound (.link shape n)) :
    n < T.size := by
  cases hv with
  | atomic hv => exact hv.1

/-- A sound link to a mapping says that it is one. -/
theorem Sound.shape_eq {shape : Shape} {n : Nat} {es : Entries} (hv : T.Sound (.link shape n))
    (hes : T.entries? (.link shape n) = some es) : shape = .mapping := by
  cases hv with
  | atomic hv => exact hv.2 es (entries?_link_eq_some_iff.1 hes)

/-- The entries that an atomic value has or leads to have their objects. -/
theorem Atomic.tidy {es : Entries} (hT : T.WellFormed) (hv : T.Atomic v)
    (hes : T.entries? v = some es) : T.Tidy es := by
  cases v with
  | link shape n => exact hT n es (entries?_link_eq_some_iff.1 hes)
  | scalar s => cases hes
  | _ => cases hv

/-- The values in a sound mapping are sound. -/
theorem Sound.entry {es : Entries} (hT : T.WellFormed) (hv : T.Sound v)
    (hes : T.entries? v = some es) : ∀ e ∈ es, T.Sound e.2 := by
  cases hv with
  | atomic hv => exact fun e he => .atomic ((hv.tidy hT hes).atomic e he)
  | mapping h =>
    cases hes
    exact h

/-- What an atomic value leads to does not change when objects are added. -/
theorem Atomic.entries?_eq (h : T.Within T') (hv : T.Atomic v) : T'.entries? v = T.entries? v := by
  cases v with
  | link shape n =>
    rw [entries?, entries?, follow, follow, Array.getD_eq_getD_getElem?,
      Array.getD_eq_getD_getElem?, h.getElem?_eq hv.1]
  | _ => rfl

/-- What a sound value leads to does not change when objects are added. -/
theorem Sound.entries?_eq (h : T.Within T') (hv : T.Sound v) : T'.entries? v = T.entries? v := by
  cases hv with
  | atomic hv => exact hv.entries?_eq h
  | mapping => rfl

/-- What a value shows does not change when the table grows. -/
theorem shown_of_within (hT : T.WellFormed) (h : T.Within T') (hv : T.Sound v) :
    T'.shown path (some v) = T.shown path (some v) := by
  induction path generalizing v with
  | nil => rw [shown, shown, hv.entries?_eq h]
  | cons k path ih =>
    rw [shown, shown, hv.entries?_eq h]
    cases hes : T.entries? v with
    | none => rw [Option.bind_none, shown_none, shown_none]
    | some es =>
      rw [Option.bind_some]
      cases hk : es.get? k with
      | none => rw [shown_none, shown_none]
      | some u =>
        obtain ⟨e, he, rfl⟩ := Entries.exists_of_get?_eq_some hk
        exact ih (hv.entry hT hes e he)

end Objects

/-! ## Configurations -/

namespace Config

/-- What a configuration shows at a path. -/
def shown (c : Config) (path : List Scalar) : Shown :=
  c.objects.shown path (some (.mapping c.entries))

/-- A configuration shows something at a path, or has a leaf on the way. -/
def Touches (c : Config) (path : List Scalar) : Prop :=
  c.objects.Touches path (some (.mapping c.entries))

end Config

end CategoryLint
