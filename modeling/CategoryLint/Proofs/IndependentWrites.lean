import CategoryLint.Proofs.TreeUpdate

/-!
# Writes that commute

Two paths part where they have segments that differ, letter case aside. What comes before that is
the same for both, so both go through the same mappings; then they go on under different keys of
one mapping (`Finds.put_of_ne`). A write looks at nothing but what is under its own key
(`Writes.exists_put`), so neither of two such writes sees the other, not even in whether it fails.

Done in either order they fail both or end alike: with the same values under the same keys, which
may be in another order, for each write puts a new key at the end (`write_comm`).
-/

namespace CategoryLint

/-! ## Storing under two keys -/

namespace Entries

variable {es : Entries} {k l : Scalar} {v u : Value}

/-- Of two values that are stored under a key, the second stays. -/
theorem put_put (es : Entries) (k : Scalar) (v u : Value) : (es.put k v).put k u = es.put k u := by
  induction es with
  | nil => exact if_pos rfl
  | cons e es ih =>
    obtain ⟨m, w⟩ := e
    rw [put, put]
    split
    · next hm => rw [put, if_pos hm]
    · next hm => rw [put, if_neg hm, ih]

theorem any_keys_put (es : Entries) (v : Value) (h : k.key ≠ l.key) :
    (es.put k v).keys.any (·.key = l.key) = es.keys.any (·.key = l.key) := by
  rw [keys_put]
  split
  · rfl
  · simp [h]

/-- In whatever order two keys are stored, the same keys are there. -/
theorem keys_put_put_perm (es : Entries) (v u : Value) (h : k.key ≠ l.key) :
    ((es.put k v).put l u).keys.Perm ((es.put l u).put k v).keys := by
  rw [keys_put, keys_put (es.put l u), any_keys_put es v h, any_keys_put es u h.symm, keys_put,
    keys_put]
  split <;> split <;> try exact .refl _
  rw [List.append_assoc, List.append_assoc]
  exact (List.Perm.swap l k []).append_left es.keys

end Entries

/-! ## Values up to the order of keys -/

namespace Value

/-- Values are alike if they are the same up to the order of the keys of mappings. -/
inductive Alike : Value → Value → Prop where
  /-- A value and itself. -/
  | refl (v : Value) : Alike v v
  /-- Mappings with the same keys in some order, under which there are values that are alike. -/
  | mapping {es fs : Entries} : es.keys.Perm fs.keys →
      (∀ k v u, es.get? k = some v → fs.get? k = some u → Alike v u) →
      Alike (.mapping es) (.mapping fs)

variable {es : Entries} {k l : Scalar} {v u : Value}

theorem Alike.put (h : Alike v u) (es : Entries) (k : Scalar) :
    Alike (.mapping (es.put k v)) (.mapping (es.put k u)) := by
  refine .mapping ?_ fun l w w' hw hw' => ?_
  · rw [Entries.keys_put, Entries.keys_put]
  · by_cases hl : k.key = l.key
    · rw [Entries.get?_put_self es _ hl] at hw hw'
      cases hw
      cases hw'
      exact h
    · rw [Entries.get?_put_of_ne es _ hl] at hw hw'
      cases hw.symm.trans hw'
      exact .refl w

/-- Under different keys, values are stored in either order. -/
theorem alike_put_put (es : Entries) (v u : Value) (h : k.key ≠ l.key) :
    Alike (.mapping ((es.put k v).put l u)) (.mapping ((es.put l u).put k v)) := by
  refine .mapping (Entries.keys_put_put_perm es v u h) fun m w w' hw hw' => ?_
  have hget : ((es.put k v).put l u).get? m = ((es.put l u).put k v).get? m := by
    by_cases hl : l.key = m.key
    · have hk : k.key ≠ m.key := hl ▸ h
      rw [Entries.get?_put_self _ _ hl, Entries.get?_put_of_ne _ _ hk,
        Entries.get?_put_self _ _ hl]
    · rw [Entries.get?_put_of_ne _ _ hl]
      by_cases hk : k.key = m.key
      · rw [Entries.get?_put_self _ _ hk, Entries.get?_put_self _ _ hk]
      · rw [Entries.get?_put_of_ne _ _ hk, Entries.get?_put_of_ne _ _ hk,
          Entries.get?_put_of_ne _ _ hl]
  cases hw.symm.trans (hget.trans hw')
  exact .refl w

end Value

namespace Override

variable {es es₁ es₂ : Entries} {s t v w : String} {p q : List String} {k l : Scalar}
  {K L : List Scalar}

/-! ## Paths that part -/

/-- Segments that differ, letter case aside, find different keys. -/
theorem Finds.key_ne_of_lower (hs : Finds es s k) (ht : Finds es t l)
    (h : Text.lower s ≠ Text.lower t) : k.key ≠ l.key := by
  refine hs.key_ne ?_
  rintro rfl
  obtain ⟨r, rfl, hrs⟩ := hs.exists_text
  obtain ⟨r', hr', hrt⟩ := ht.exists_text
  cases hr'
  exact h (hrs.symm.trans hrt)

/-- A segment still finds its key when something is stored under that of another. -/
theorem Finds.put_of_ne (hs : Finds es s k) (ht : Finds es t l)
    (h : Text.lower s ≠ Text.lower t) (x : Value) : Finds (es.put l x) s k := by
  -- If there is a new key, then after all others, and it is not the segment.
  have hl : ¬fits s l := by
    obtain ⟨r, rfl, hrt⟩ := ht.exists_text
    rw [fits, beq_iff_eq, hrt]
    exact Ne.symm h
  rcases Entries.keys_put_cases es l x with hkeys | hkeys
  · cases hs with
    | first hsplit hk hbefore => exact .first (hkeys.trans hsplit) hk hbefore
    | fresh hnone => exact .fresh (hkeys ▸ hnone)
  · cases hs with
    | first hsplit hk hbefore =>
      rw [hsplit, List.append_assoc, List.cons_append] at hkeys
      exact .first hkeys hk hbefore
    | fresh hnone =>
      refine .fresh ?_
      rw [hkeys, List.forall_mem_append, List.forall_mem_singleton]
      exact ⟨hnone, hl⟩

/-! ## What a write looks at -/

section

variable [Limits]

/-- A write stores something under the key of its first segment, and looks at nothing but what is
    there. -/
theorem Writes.exists_put (h : Writes v es (s :: p) K es₁) :
    ∃ k K' x, Finds es s k ∧ es₁ = es.put k x ∧ ∀ fs : Entries, Finds fs s k →
      fs.get? k = es.get? k → Writes v fs (s :: p) (k :: K') (fs.put k x) := by
  cases h with
  | @last _ _ k x hk hx =>
    refine ⟨k, [], x, hk, rfl, fun fs hfs hget => .last hfs ?_⟩
    rwa [hget]
  | @within _ child _ _ k K hk hchild =>
    refine ⟨k, K, _, hk, rfl, fun fs hfs hget => .within hfs ?_⟩
    rwa [hget]

/-! ## Two writes at paths that part -/

variable {c : List String}

/-- A write that succeeds after another one succeeds also before it. -/
theorem Writes.exists_before (h : Text.lower s ≠ Text.lower t)
    (hw : Writes w es (c ++ t :: q) L es₁) (hv : Writes v es₁ (c ++ s :: p) K es₂) :
    ∃ K' fs, Writes v es (c ++ s :: p) K' fs := by
  induction c generalizing es es₁ es₂ K L with
  | nil =>
    obtain ⟨l, -, y, hl, rfl, -⟩ := hw.exists_put
    obtain ⟨k, K', x, hk, -, hwrites⟩ := hv.exists_put
    have hresolve : Finds es s (resolve es s) := finds_iff.2 rfl
    cases hk.eq (hresolve.put_of_ne hl h y)
    refine ⟨_, _, hwrites es hresolve ?_⟩
    rw [Entries.get?_put_of_ne es y (hl.key_ne_of_lower hresolve h.symm)]
  | cons r c ih =>
    obtain ⟨k, _, child, hk, hchild, rfl⟩ := hw.exists_within (by simp)
    obtain ⟨k', _, child', hk', hchild', -⟩ := hv.exists_within (by simp)
    cases hk'.eq (hk.put _)
    rw [Entries.get?_put_self es _ rfl] at hchild'
    obtain ⟨K', fs, hfs⟩ := ih hchild hchild'
    exact ⟨_, _, .within hk hfs⟩

/-- Two writes that succeed both succeed one after the other, in either order alike. -/
theorem Writes.exists_comm (h : Text.lower s ≠ Text.lower t)
    (hv : Writes v es (c ++ s :: p) K es₁) (hw : Writes w es (c ++ t :: q) L es₂) :
    ∃ K' L' fs₁ fs₂, Writes w es₁ (c ++ t :: q) L' fs₁ ∧ Writes v es₂ (c ++ s :: p) K' fs₂ ∧
      Value.Alike (.mapping fs₁) (.mapping fs₂) := by
  induction c generalizing es es₁ es₂ K L with
  | nil =>
    obtain ⟨k, K', x, hk, rfl, hwrites⟩ := hv.exists_put
    obtain ⟨l, L', y, hl, rfl, hwrites'⟩ := hw.exists_put
    have hkl := hk.key_ne_of_lower hl h
    refine ⟨_, _, _, _, hwrites' _ (hl.put_of_ne hk h.symm x) ?_,
      hwrites _ (hk.put_of_ne hl h y) ?_, Value.alike_put_put es x y hkl⟩
    · rw [Entries.get?_put_of_ne es x hkl]
    · rw [Entries.get?_put_of_ne es y hkl.symm]
  | cons r c ih =>
    -- Both go on in one mapping, and the second replaces what the first has put there.
    obtain ⟨k, _, child₁, hk, hchild₁, rfl⟩ := hv.exists_within (by simp)
    obtain ⟨l, _, child₂, hl, hchild₂, rfl⟩ := hw.exists_within (by simp)
    cases hk.eq hl
    obtain ⟨K', L', fs₁, fs₂, hfs₁, hfs₂, halike⟩ := ih hchild₁ hchild₂
    have hget : ∀ child : Entries,
        container ((es.put k (.mapping child)).get? k) = child := fun child => by
      rw [Entries.get?_put_self es _ rfl, container]
    rw [← hget child₁] at hfs₁
    rw [← hget child₂] at hfs₂
    refine ⟨_, _, _, _, .within (hk.put _) hfs₁, .within (hk.put _) hfs₂, ?_⟩
    rw [Entries.put_put, Entries.put_put]
    exact halike.put es k

/-! ## Either order -/

/-- The entries after a write that succeeds, or its failure. -/
def write (es : Entries) (path : List String) (raw : String) : Except Failure Entries :=
  match set es path raw with
  | (es, none) => .ok es
  | (_, some failure) => .error failure

theorem write_eq_ok_iff : write es p v = .ok es₁ ↔ ∃ K, Writes v es p K es₁ := by
  rw [← exists_writes_iff, write]
  split
  · next heq => simp [heq]
  · next heq => simp [heq]

/-- Two runs end alike: both fail, or what they make is the same up to the order of keys. -/
inductive EndAlike : Except Failure Entries → Except Failure Entries → Prop where
  /-- Both fail. -/
  | failed (e e' : Failure) : EndAlike (.error e) (.error e')
  /-- Both succeed. -/
  | succeeded {es fs : Entries} : Value.Alike (.mapping es) (.mapping fs) →
      EndAlike (.ok es) (.ok fs)

/-- Two writes below different keys succeed in the other order too, and leave entries alike. -/
theorem exists_of_write_write (h : Text.lower s ≠ Text.lower t)
    (hok : (write es (c ++ s :: p) v >>= fun fs => write fs (c ++ t :: q) w) = .ok es₁) :
    ∃ es₂, (write es (c ++ t :: q) w >>= fun fs => write fs (c ++ s :: p) v) = .ok es₂ ∧
      Value.Alike (.mapping es₁) (.mapping es₂) := by
  obtain ⟨gs₁, hfirst, hsecond⟩ := bind_eq_ok_iff.1 hok
  obtain ⟨K, hv⟩ := write_eq_ok_iff.1 hfirst
  obtain ⟨L, hw⟩ := write_eq_ok_iff.1 hsecond
  -- The second write succeeds also as the first.
  obtain ⟨L', gs₂, hw⟩ := hv.exists_before h.symm hw
  obtain ⟨K', L'', fs₁, fs₂, hfs₁, hfs₂, halike⟩ := hv.exists_comm h hw
  cases hsecond.symm.trans (write_eq_ok_iff.2 ⟨_, hfs₁⟩)
  exact ⟨fs₂, bind_eq_ok_iff.2 ⟨gs₂, write_eq_ok_iff.2 ⟨_, hw⟩, write_eq_ok_iff.2 ⟨_, hfs₂⟩⟩,
    halike⟩

/-- Two writes at paths that part end alike in either order. -/
theorem write_comm (h : Text.lower s ≠ Text.lower t) :
    EndAlike (write es (c ++ s :: p) v >>= fun fs => write fs (c ++ t :: q) w)
      (write es (c ++ t :: q) w >>= fun fs => write fs (c ++ s :: p) v) := by
  cases hthere : write es (c ++ s :: p) v >>= fun fs => write fs (c ++ t :: q) w with
  | ok fs₁ =>
    obtain ⟨fs₂, hback, halike⟩ := exists_of_write_write h hthere
    rw [hback]
    exact .succeeded halike
  | error e =>
    cases hback : write es (c ++ t :: q) w >>= fun fs => write fs (c ++ s :: p) v with
    | ok fs₂ =>
      obtain ⟨fs₁, hok, -⟩ := exists_of_write_write h.symm hback
      cases hthere.symm.trans hok
    | error e' => exact .failed e e'

end

/-- A section under a name in capitals, with a text in it. -/
def capitals : Entries := [(.str "RULES", .mapping [(.str "title", .str "x")]), (.int 1, .null)]

set_option maxRecDepth 4000 in
/-- Both writes find the section and add a key to it, and the key that is written first comes
    first. -/
theorem write_comm_capitals :
    let levelFirst :=
      write capitals ["rules", "level"] " 7 " >>= fun fs => write fs ["rules", "Depth", "a"] "3"
    let depthFirst :=
      write capitals ["rules", "Depth", "a"] "3" >>= fun fs => write fs ["rules", "level"] " 7 "
    let depth : Value := .mapping [(.str "a", .int 3)]
    Text.lower "level" ≠ Text.lower "Depth" ∧ EndAlike levelFirst depthFirst ∧
      levelFirst = .ok [(.str "RULES", .mapping
        [(.str "title", .str "x"), (.str "level", .int 7), (.str "Depth", depth)]),
        (.int 1, .null)] ∧
      depthFirst = .ok [(.str "RULES", .mapping
        [(.str "title", .str "x"), (.str "Depth", depth), (.str "level", .int 7)]),
        (.int 1, .null)] := by
  intro levelFirst depthFirst depth
  have h : Text.lower "level" ≠ Text.lower "Depth" := by decide +kernel
  refine ⟨h, write_comm (c := ["rules"]) (p := []) (q := ["a"]) h, ?_, ?_⟩
  all_goals with_unfolding_all rfl

end Override

end CategoryLint
