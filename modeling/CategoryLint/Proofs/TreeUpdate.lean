import CategoryLint.Proofs.Lookup

/-!
# Writing at a path

Writing the value of a variable at a path updates a tree, letter case aside. Every segment finds a
key of the mapping it is in (`Finds`), so the path is a path of keys (`Resolves`). A write that
succeeds follows these keys down to the last mapping, puts the value there, and puts each changed
mapping back on the way up (`Writes`, `exists_writes_iff`).

By induction on these steps, the write puts the value at the path of keys, leaves all that is off
that path, keeps the keys of the mappings on it in their places, and changes nothing when it is
done again (`set_updates`).
-/

namespace CategoryLint

/-! ## Storing what is there -/

/-- Storing what is found under a key changes nothing. -/
theorem Entries.put_of_get? {es : Entries} {k : Scalar} {v : Value} (h : es.get? k = some v) :
    es.put k v = es := by
  induction es with
  | nil => cases h
  | cons e es ih =>
    obtain ⟨l, u⟩ := e
    rw [get?] at h
    rw [put]
    split at h
    · next hl =>
      cases h
      rw [if_pos hl]
    · next hl => rw [if_neg hl, ih h]

namespace Override

variable {es es' : Entries} {place : Option Value} {seg raw : String} {path : List String}
  {k : Scalar} {K K' : List Scalar} {v : Value}

/-! ## Places -/

/-- What is at a path of keys from a place on. -/
def at? : (place : Option Value) → List Scalar → Option Value
  | place, [] => place
  | some (.mapping es), k :: q => at? (Entries.get? es k) q
  | _, _ :: _ => none

/-- Whether a key is a segment, letter case aside. -/
def fits (seg : String) : Scalar → Bool
  | .str (.plain s) => Text.lower s == Text.lower seg
  | _ => false

/-- The key that a segment finds: the first that it is, letter case aside, or else itself. -/
inductive Finds (es : Entries) (seg : String) : Scalar → Prop where
  /-- The first key that the segment is. -/
  | first {before after : List Scalar} {k : Scalar} : es.keys = before ++ k :: after →
      fits seg k → (∀ l ∈ before, ¬fits seg l) → Finds es seg k
  /-- The segment itself, which is no key yet. -/
  | fresh : (∀ l ∈ es.keys, ¬fits seg l) → Finds es seg (.str seg)

/-- The path of keys that a path is from a place on. -/
inductive Resolves : Option Value → List String → List Scalar → Prop where
  /-- At the end of the path. -/
  | nil {place : Option Value} : Resolves place [] []
  /-- In a mapping, from the key of the first segment on. -/
  | mapping {es : Entries} {seg : String} {path : List String} {k : Scalar} {K : List Scalar} :
      Finds es seg k → Resolves (es.get? k) path K →
      Resolves (some (.mapping es)) (seg :: path) (k :: K)
  /-- In a place that is missing or no mapping, a segment stands for itself. -/
  | other {place : Option Value} {seg : String} {path : List String} {K : List Scalar} :
      (∀ es : Entries, place ≠ some (.mapping es)) → Resolves none path K →
      Resolves place (seg :: path) (.str seg :: K)

/-! ## Segments and keys -/

/-- The key that is found is the first one that fits. -/
theorem findKey?_eq (es : Entries) (seg : String) :
    findKey? es seg = es.keys.find? (fits seg) := by
  rw [Entries.keys, List.find?_map]
  rfl

theorem finds_iff : Finds es seg k ↔ k = resolve es seg := by
  rw [resolve, findKey?_eq]
  constructor
  · rintro (⟨hkeys, hk, hbefore⟩ | hnone)
    · have hfind := List.find?_eq_some_iff_append.2
        ⟨hk, _, _, hkeys, fun l hl => by simpa using hbefore l hl⟩
      rw [hfind, Option.getD_some]
    · rw [List.find?_eq_none.2 hnone, Option.getD_none]
  · rintro rfl
    cases hfind : es.keys.find? (fits seg) with
    | none => exact .fresh (List.find?_eq_none.1 hfind)
    | some k =>
      obtain ⟨hk, before, after, hkeys, hbefore⟩ := List.find?_eq_some_iff_append.1 hfind
      exact .first hkeys hk fun l hl => by simpa using hbefore l hl

theorem Finds.eq {l : Scalar} (h : Finds es seg k) (h' : Finds es seg l) : k = l :=
  (finds_iff.1 h).trans (finds_iff.1 h').symm

/-- A segment that has found a key finds it again when something is stored there. -/
theorem Finds.put (h : Finds es seg k) (v : Value) : Finds (es.put k v) seg k := by
  have hkeys := Entries.keys_put es k v
  split at hkeys
  · -- The keys are the same, so the search is.
    cases h with
    | first hsplit hk hbefore => exact .first (hkeys.trans hsplit) hk hbefore
    | fresh hnone => exact .fresh (hkeys ▸ hnone)
  · -- The key is new, so it is the segment, and now the last key.
    next habsent =>
    cases h with
    | first hsplit =>
      refine absurd ?_ habsent
      rw [List.any_eq_true]
      exact ⟨k, by simp [hsplit], by simp⟩
    | fresh hnone => exact .first hkeys (beq_self_eq_true _) hnone

theorem Finds.key_ne {l : Scalar} (h : Finds es seg k) (hl : k ≠ l) : k.key ≠ l.key := by
  cases finds_iff.1 h
  exact key_resolve_ne hl

/-- What is found is a text, the same as the segment, letter case aside. -/
theorem Finds.exists_text (h : Finds es seg k) :
    ∃ r, k = .str (.plain r) ∧ Text.lower r = Text.lower seg := by
  cases finds_iff.1 h
  obtain ⟨r, hr⟩ := exists_resolve_eq es seg
  exact ⟨r, hr, lower_of_resolve hr⟩

/-- A path resolves to one list of keys at most. -/
theorem resolves_unique (h : Resolves place path K) (h' : Resolves place path K') :
    K' = K := by
  induction h generalizing K' with
  | nil =>
    cases h'
    rfl
  | mapping hk _ ih =>
    cases h' with
    | mapping hk' hK' =>
      cases hk.eq hk'
      rw [ih hK']
    | other hplace _ => exact absurd rfl (hplace _)
  | other hplace _ ih =>
    cases h' with
    | mapping _ _ => exact absurd rfl (hplace _)
    | other _ hK' => rw [ih hK']

theorem resolves_iff (h : Resolves place path K) : Resolves place path K' ↔ K' = K :=
  ⟨resolves_unique h, fun hK' => hK' ▸ h⟩

/-- Below a value that is no mapping a new one is begun. -/
theorem container_of_ne (h : ∀ es : Entries, place ≠ some (.mapping es)) :
    container place = [] := by
  rw [container]
  exact h

/-- A path goes on from the mapping that is made in a place as from the place itself. -/
theorem Resolves.of_container (h : Resolves (some (.mapping (container place))) path K)
    (hpath : path ≠ []) : Resolves place path K := by
  by_cases hplace : ∃ es : Entries, place = some (.mapping es)
  · obtain ⟨es, rfl⟩ := hplace
    exact h
  · rw [not_exists] at hplace
    rw [container_of_ne hplace] at h
    cases h with
    | nil => exact absurd rfl hpath
    | mapping hk hK =>
      cases finds_iff.1 hk
      exact .other hplace hK
    | other hne _ => exact absurd rfl (hne _)

theorem ne_nil_of_apart {q : List Scalar} (h : ¬q <+: K) : q ≠ [] := by
  rintro rfl
  exact h List.nil_prefix

theorem at?_container (hK : K ≠ []) : at? (some (.mapping (container place))) K = at? place K := by
  by_cases hplace : ∃ es : Entries, place = some (.mapping es)
  · obtain ⟨es, rfl⟩ := hplace
    rfl
  · obtain ⟨k, K, rfl⟩ := List.exists_cons_of_ne_nil hK
    rw [not_exists] at hplace
    rw [container_of_ne hplace, at?, Entries.get?, at?]
    · cases K <;> rfl
    · exact hplace

/-- A mapping at a path is there also from the mapping that the path goes on in. -/
theorem at?_container_of_mapping {fs : Entries} (h : at? place K = some (.mapping fs)) :
    at? (some (.mapping (container place))) K = some (.mapping fs) := by
  cases K with
  | nil =>
    cases h
    rfl
  | cons k K => rwa [at?_container (List.cons_ne_nil k K)]

/-! ## The new value -/

section

variable [Limits]

theorem newValue_of_text {s : TextValue} : newValue (some (.scalar (.str s))) raw =
    .ok (.str (Text.strip raw)) :=
  if_pos rfl

theorem newValue_of_not_text {old : Option Value}
    (h : ∀ s : TextValue, old ≠ some (.scalar (.str s))) :
    newValue old raw = Coercion.coerce raw := by
  rw [newValue, if_neg]
  intro hstr
  obtain ⟨v, rfl, hv⟩ := (Option.any_eq_true _ _).1 hstr
  rw [Value.isStr.eq_def] at hv
  split at hv
  · next s => exact h s rfl
  · cases hv

/-- A variable gives the same value to what it has made. -/
theorem newValue_again {old : Option Value} (h : newValue old raw = .ok v) :
    newValue (some v) raw = .ok v := by
  by_cases hold : old.any (·.isStr)
  · rw [newValue, if_pos hold] at h
    cases h
    exact newValue_of_text
  · -- What the text stands for is the text itself, which stays, or is read again.
    rw [newValue, if_neg hold] at h
    rcases Coercion.coerce_eq_ok h with rfl | ⟨hv, -⟩
    · exact newValue_of_text
    · rw [newValue, Option.any_some, hv, if_neg Bool.false_ne_true, h]

/-! ## Writes that succeed -/

/-- The write of a value at a path, along its keys. -/
inductive Writes (raw : String) : Entries → List String → List Scalar → Entries → Prop where
  /-- The value is put under the last key. -/
  | last {es : Entries} {seg : String} {k : Scalar} {v : Value} : Finds es seg k →
      newValue (es.get? k) raw = .ok v → Writes raw es [seg] [k] (es.put k v)
  /-- The mapping that the path goes on in is put back. -/
  | within {es child : Entries} {seg : String} {path : List String} {k : Scalar}
      {K : List Scalar} : Finds es seg k → Writes raw (container (es.get? k)) path K child →
      Writes raw es (seg :: path) (k :: K) (es.put k (.mapping child))

theorem Writes.path_ne_nil (h : Writes raw es path K es') : path ≠ [] := by
  cases h <;> exact List.cons_ne_nil _ _

theorem Writes.keys_ne_nil (h : Writes raw es path K es') : K ≠ [] := by
  cases h <;> exact List.cons_ne_nil _ _

/-- A path that goes on does so in the mapping under its first segment. -/
theorem Writes.exists_within (h : Writes raw es (seg :: path) K es') (hpath : path ≠ []) :
    ∃ k K' child, Finds es seg k ∧ Writes raw (container (es.get? k)) path K' child ∧
      es' = es.put k (.mapping child) := by
  cases h with
  | last => exact absurd rfl hpath
  | within hk hchild => exact ⟨_, _, _, hk, hchild, rfl⟩

/-- A write succeeds exactly as the relation says. -/
theorem exists_writes_iff : set es path raw = (es', none) ↔ ∃ K, Writes raw es path K es' := by
  induction path generalizing es es' with
  | nil =>
    refine iff_of_false (by simp [set]) ?_
    rintro ⟨K, hK⟩
    cases hK
  | cons seg path ih =>
    constructor
    · intro h
      have hk : Finds es seg (resolve es seg) := finds_iff.2 rfl
      cases path with
      | nil =>
        rw [set] at h
        split at h
        · next hv =>
          cases h
          exact ⟨_, .last hk hv⟩
        · cases h
      | cons next path =>
        rw [set_cons_cons, Prod.mk.injEq] at h
        obtain ⟨rfl, hnone⟩ := h
        obtain ⟨K, hK⟩ := ih.1 (Prod.ext rfl hnone)
        exact ⟨_, .within hk hK⟩
    · rintro ⟨K, hK⟩
      cases hK with
      | last hk hv =>
        cases finds_iff.1 hk
        rw [set]
        simp only [hv]
      | within hk hchild =>
        cases finds_iff.1 hk
        obtain ⟨next, path, rfl⟩ := List.exists_cons_of_ne_nil hchild.path_ne_nil
        rw [set_cons_cons, ih.2 ⟨_, hchild⟩]

namespace Writes

theorem resolves (h : Writes raw es path K es') : Resolves (some (.mapping es)) path K := by
  induction h with
  | last hk _ => exact .mapping hk .nil
  | within hk hchild ih => exact .mapping hk (ih.of_container hchild.path_ne_nil)

/-- The path is the same path of keys after the write. -/
theorem resolves_after (h : Writes raw es path K es') : Resolves (some (.mapping es')) path K := by
  induction h with
  | last hk _ => exact .mapping (hk.put _) .nil
  | @within es child seg path k K hk _ ih =>
    refine .mapping (hk.put _) ?_
    rwa [Entries.get?_put_self es _ rfl]

/-- The new value stands at the keys that are written. -/
theorem exists_value (h : Writes raw es path K es') :
    ∃ v, newValue (at? (some (.mapping es)) K) raw = .ok v ∧
      at? (some (.mapping es')) K = some v := by
  induction h with
  | @last es seg k v _ hv => exact ⟨v, hv, Entries.get?_put_self es v rfl⟩
  | @within es child seg path k K _ hchild ih =>
    obtain ⟨v, hv, hafter⟩ := ih
    rw [at?_container hchild.keys_ne_nil] at hv
    refine ⟨v, hv, ?_⟩
    rwa [at?, Entries.get?_put_self es _ rfl]

/-- Off the path, nothing changes. -/
theorem at?_eq (h : Writes raw es path K es') {q : List Scalar} (hq : ¬q <+: K) (hK : ¬K <+: q) :
    at? (some (.mapping es')) q = at? (some (.mapping es)) q := by
  induction h generalizing q with
  | @last es seg k v hk _ =>
    obtain ⟨l, q, rfl⟩ := List.exists_cons_of_ne_nil (ne_nil_of_apart hq)
    have hl : k ≠ l := fun h => hK (by simp [h])
    rw [at?, at?, Entries.get?_put_of_ne es v (hk.key_ne hl)]
  | @within es child seg path k K hk _ ih =>
    obtain ⟨l, q, rfl⟩ := List.exists_cons_of_ne_nil (ne_nil_of_apart hq)
    rw [at?, at?]
    -- Only the value under `k` is another one, and there the path goes on.
    by_cases hl : k = l
    · subst hl
      rw [List.cons_prefix_cons, not_and] at hq hK
      rw [Entries.get?_put_self es _ rfl, ih (hq rfl) (hK rfl),
        at?_container (ne_nil_of_apart (hq rfl))]
    · rw [Entries.get?_put_of_ne es _ (hk.key_ne hl)]

/-- The mappings on the path keep their keys in their places, and get one at most, at the end. -/
theorem exists_keys (h : Writes raw es path K es') {q : List Scalar} {l : Scalar} {fs : Entries}
    (hq : q ++ [l] <+: K) (hfs : at? (some (.mapping es)) q = some (.mapping fs)) :
    ∃ fs' : Entries, at? (some (.mapping es')) q = some (.mapping fs') ∧
      (fs'.keys = fs.keys ∨ fs'.keys = fs.keys ++ [l]) := by
  induction h generalizing q with
  | @last es seg k v _ _ =>
    cases q with
    | nil =>
      cases hfs
      obtain ⟨rfl, -⟩ := List.cons_prefix_cons.1 hq
      exact ⟨_, rfl, Entries.keys_put_cases _ _ _⟩
    | cons m q =>
      have hlength := hq.length_le
      simp at hlength
  | @within es child seg path k K _ hchild ih =>
    cases q with
    | nil =>
      cases hfs
      obtain ⟨rfl, -⟩ := List.cons_prefix_cons.1 hq
      exact ⟨_, rfl, Entries.keys_put_cases _ _ _⟩
    | cons m q =>
      rw [List.cons_append, List.cons_prefix_cons] at hq
      obtain ⟨rfl, hq⟩ := hq
      rw [at?, Entries.get?_put_self es _ rfl]
      exact ih hq (at?_container_of_mapping hfs)

/-- Done again, the write changes nothing. -/
theorem again (h : Writes raw es path K es') : Writes raw es' path K es' := by
  -- What was put under `k` is found there, so the same is put there again.
  induction h with
  | @last es seg k v hk hv =>
    have hget : (es.put k v).get? k = some v := Entries.get?_put_self es v rfl
    have hlast := Writes.last (hk.put v) (hget ▸ newValue_again hv)
    rwa [Entries.put_of_get? hget] at hlast
  | @within es child seg path k K hk _ ih =>
    have hget : (es.put k (.mapping child)).get? k = some (.mapping child) :=
      Entries.get?_put_self es _ rfl
    have hwithin : Writes raw (es.put k (.mapping child)) (seg :: path) (k :: K)
        ((es.put k (.mapping child)).put k (.mapping child)) :=
      .within (hk.put _) (by rwa [hget, container])
    rwa [Entries.put_of_get? hget] at hwithin

end Writes

/-! ## The laws of a write -/

/-- A write at a path updates the value at a path of keys, and only it. -/
structure Updates (raw : String) (path : List String) (K : List Scalar) (es es' : Entries) :
    Prop where
  /-- A text becomes the text of the variable without the blanks around it. -/
  text : ∀ s : TextValue, at? (some (.mapping es)) K = some (.scalar (.str s)) →
    at? (some (.mapping es')) K = some (.str (Text.strip raw))
  /-- Any other value becomes what the text of the variable stands for. -/
  value : (∀ s : TextValue, at? (some (.mapping es)) K ≠ some (.scalar (.str s))) →
    ∃ v, Coercion.coerce raw = .ok v ∧ at? (some (.mapping es')) K = some v
  /-- The path is the same path of keys after the write. -/
  resolves : ∀ K', Resolves (some (.mapping es')) path K' ↔ K' = K
  /-- Off the path of keys, nothing changes. -/
  frame : ∀ q : List Scalar, ¬q <+: K → ¬K <+: q →
    at? (some (.mapping es')) q = at? (some (.mapping es)) q
  /-- A mapping on the path keeps its keys in their places, and gets at most the next key of the
      path, at the end. -/
  keys : ∀ (q : List Scalar) (k : Scalar) (fs : Entries), q ++ [k] <+: K →
    at? (some (.mapping es)) q = some (.mapping fs) →
    ∃ fs' : Entries, at? (some (.mapping es')) q = some (.mapping fs') ∧
      (fs'.keys = fs.keys ∨ fs'.keys = fs.keys ++ [k])
  /-- Done again, the write succeeds and changes nothing. -/
  again : set es' path raw = (es', none)

/-- A write is an update: what it reads back, what it leaves alone, and in which order. -/
theorem Writes.updates (h : Writes raw es path K es') : Updates raw path K es es' where
  text s hs := by
    obtain ⟨v, hv, hafter⟩ := h.exists_value
    rw [hs, newValue_of_text] at hv
    cases hv
    exact hafter
  value hs := by
    obtain ⟨v, hv, hafter⟩ := h.exists_value
    exact ⟨v, newValue_of_not_text hs ▸ hv, hafter⟩
  resolves _ := resolves_iff h.resolves_after
  frame _ hq hK := h.at?_eq hq hK
  keys _ _ _ hq hfs := h.exists_keys hq hfs
  again := exists_writes_iff.2 ⟨K, h.again⟩

/-- A write that succeeds updates the value at the path of keys that the path is, and only it. -/
theorem set_updates (h : set es path raw = (es', none)) :
    ∃ K, (∀ K', Resolves (some (.mapping es)) path K' ↔ K' = K) ∧
      Updates raw path K es es' := by
  obtain ⟨K, hK⟩ := exists_writes_iff.1 h
  exact ⟨K, fun _ => resolves_iff hK.resolves, hK.updates⟩

end

/-- A section with two keys that differ in their case only, and a number. -/
def twoCases : Entries :=
  [(.int 1, .null), (.str "Rules", .mapping [(.str "a", .str "x"), (.str "A", .int 3),
    (.str "b", .int 4)])]

/-- The number is replaced by a new mapping, and the value is put in it. -/
theorem set_updates_twoCases :
    ∃ es', set twoCases ["RULES", "B", "C"] " 7 " = (es', none) ∧
      ∃ K, (∀ K', Resolves (some (.mapping twoCases)) ["RULES", "B", "C"] K' ↔ K' = K) ∧
        Updates " 7 " ["RULES", "B", "C"] K twoCases es' := by
  have h : set twoCases ["RULES", "B", "C"] " 7 " =
      ([(.int 1, .null), (.str "Rules", .mapping [(.str "a", .str "x"), (.str "A", .int 3),
        (.str "b", .mapping [(.str "C", .int 7)])])], none) := by
    rfl
  exact ⟨_, h, set_updates h⟩

end Override

end CategoryLint
