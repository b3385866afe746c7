import CategoryLint.Proofs.Stages

/-!
# Keys that stay

Overrides put values under keys and take no key away: the keys of a mapping are its first keys
after any number of writes (`Override.keys_prefix_set`, `Sharing.keys_prefix_set`). The section on
patterns is the first key of the defaults, so every project that loads has it. A strict load has
seen that it is a mapping with a text or nothing for the base category, so the loader and the rule
find the same (`readers_agree`).
-/

namespace CategoryLint

namespace Entries

variable {es fs : Entries} {k : Scalar}

theorem keys_prefix_put (es : Entries) (k : Scalar) (v : Value) :
    es.keys <+: (es.put k v).keys := by
  rcases keys_put_cases es k v with hkeys | hkeys
  · exact hkeys ▸ List.prefix_refl _
  · exact hkeys ▸ List.prefix_append _ _

theorem isSome_get?_iff : (es.get? k).isSome ↔ k.key ∈ es.keys.map Scalar.key := by
  induction es with
  | nil => exact iff_of_false (by simp [get?]) List.not_mem_nil
  | cons e es ih =>
    obtain ⟨l, v⟩ := e
    rw [get?, keys_cons, List.map_cons, List.mem_cons]
    split
    · next hl => exact iff_of_true rfl (.inl hl.symm)
    · next hl => rw [ih, or_iff_right (Ne.symm hl)]

/-- A key that stays has a value. -/
theorem isSome_get?_of_prefix (h : es.keys <+: fs.keys) (hk : (es.get? k).isSome) :
    (fs.get? k).isSome := by
  rw [isSome_get?_iff] at hk ⊢
  exact (h.map Scalar.key).subset hk

/-- The first key stays the first. -/
theorem head?_keys_of_prefix (h : es.keys <+: fs.keys) (hk : es.keys.head? = some k) :
    fs.keys.head? = some k := by
  obtain ⟨ks, hks⟩ := h
  rw [← hks, List.head?_append, hk, Option.some_or]

end Entries

/-! ## Writes -/

/-- A path goes on in the mapping under its first segment. -/
theorem Override.set_cons_cons [Limits] (es : Entries) (seg next : String) (path : List String)
    (raw : String) :
    set es (seg :: next :: path) raw =
      (es.put (resolve es seg)
        (.mapping (set (container (es.get? (resolve es seg))) (next :: path) raw).1),
        (set (container (es.get? (resolve es seg))) (next :: path) raw).2) :=
  rfl

theorem Override.keys_prefix_set [Limits] (es : Entries) (path : List String) (raw : String) :
    es.keys <+: (set es path raw).1.keys := by
  match path with
  | [] => exact List.prefix_refl _
  | [seg] =>
    rw [set]
    split
    · exact Entries.keys_prefix_put es _ _
    · exact List.prefix_refl _
  | seg :: next :: path =>
    rw [set_cons_cons]
    exact Entries.keys_prefix_put es _ _

theorem Sharing.keys_prefix_set [Limits] (c : Config) (path : List String) (raw : String) :
    c.entries.keys <+: (set c path raw).1.entries.keys := by
  rw [set]
  split
  · exact List.prefix_refl _
  · exact Override.keys_prefix_set c.entries path raw

/-! ## Projects that load -/

namespace Project

variable {w : Workspace} {root : Path} {c c' : Config} {strict : Bool}
  {applied : Override.Applied Config}

theorem conforms_of_finish [Libraries] (h : finish true applied = .ok c) : Schema.Conforms c := by
  obtain ⟨hfailure, rfl⟩ := finish_lenient_eq_ok_iff.1 (finish_lenient_of_strict h)
  cases hfault : Schema.fault? applied.config with
  | none => exact Schema.fault?_eq_none_iff.1 hfault
  | some fault =>
    rw [finish_strict_of_fault hfailure hfault] at h
    cases h

/-- The base category of a section: a text, or nothing, which counts as the empty text. -/
inductive Names (es : Entries) : TextValue → Prop where
  /-- Nothing is under the key. -/
  | absent : es.get? baseKey = none → Names es (.plain "")
  /-- No value is under the key. -/
  | null : es.get? baseKey = some .null → Names es (.plain "")
  /-- A text is under the key. -/
  | text {s : TextValue} : es.get? baseKey = some (.scalar (.str s)) → Names es s

/-- What the schema allows for the base category names the requirement. -/
theorem names_required {es : Entries} (h : Schema.Allows (es.get? baseKey)) :
    Names es (required (es.get? baseKey)) := by
  cases hv : es.get? baseKey with
  | none => exact .absent hv
  | some v =>
    rw [hv] at h
    cases h with
    | null => exact .null hv
    | text s => exact (required_text s).symm ▸ .text hv

section

variable [Limits] [Libraries]

/-- A strict load ends with a configuration that conforms. -/
theorem conforms_of_load (h : (load w root true).result = .ok c) : Schema.Conforms c := by
  rw [result_load] at h
  obtain ⟨c₀, -, h⟩ := bind_eq_ok_iff.1 h
  exact conforms_of_finish h

/-- The first key stays the first through every stage. -/
theorem head?_keys_run {s : Stage} {k : Scalar} (hc : c.entries.keys.head? = some k)
    (h : Stage.run w strict c s = .ok c') : c'.entries.keys.head? = some k := by
  cases s with
  | overlay p =>
    obtain ⟨es, T, merged, -, hmerge, rfl⟩ := run_overlay_eq_ok_iff.1 h
    exact Objects.head?_keys_mergeBy hc hmerge
  | override tail raw =>
    rcases run_override_eq_ok h with ⟨-, rfl⟩ | ⟨seg, path, -, hset⟩
    · exact hc
    · have hprefix := Sharing.keys_prefix_set c (seg :: path) raw
      rw [hset] at hprefix
      exact Entries.head?_keys_of_prefix hprefix hc
  | check => exact run_check_eq_ok h ▸ hc

/-- The section of the defaults is there after every load. -/
theorem head?_keys_of_load (h : (load w root strict).result = .ok c) :
    c.entries.keys.head? = some (.str "patterns") :=
  load_preserves (P := fun c => c.entries.keys.head? = some (.str "patterns"))
    (fun _ _ _ => head?_keys_run) rfl h

/-- After a strict load, the section is a mapping with a text or nothing for the base category. -/
theorem exists_patterns_of_load (h : (load w root true).result = .ok c) :
    ∃ es : Entries, c.get? (.str "patterns") = some (.mapping es) ∧
      Schema.Allows (es.get? baseKey) := by
  obtain ⟨pv, rest, hentries⟩ := Entries.exists_of_head?_keys (head?_keys_of_load h)
  have hget : c.get? (.str "patterns") = some (c.objects.follow pv) := by
    rw [Config.get?, hentries, Entries.get?, if_pos rfl, Option.map_some]
  obtain ⟨es, heq, hallows⟩ := conforms_of_load h _ hget
  exact ⟨es, hget.trans (congrArg some heq), hallows⟩

/-- In a project whose strict load returns, the section is a mapping that names a text or nothing,
    and the loader and the rule take the same from it. -/
theorem readers_agree (h : (load w root true).result = .ok c) :
    ∃ (es : Entries) (s : TextValue), c.get? (.str "patterns") = some (.mapping es) ∧
      Names es s ∧ baseCategory w root = .ok s ∧ (Rule.ofConfig c).base = s := by
  obtain ⟨es, hes, hallows⟩ := exists_patterns_of_load h
  obtain ⟨hloader, c', hc', hrule⟩ := requires_of_result h hes hallows
  cases h.symm.trans hc'
  exact ⟨es, _, hes, names_required hallows, hloader, hrule⟩

end

/-- Where the overlay has no value for the section, the variable makes a new one, with a key of its
    own and no base category. -/
theorem readers_agree_nullSection :
    ∃ c, (load nullSection ⟨1, []⟩ true).result = .ok c ∧
      ∃ (es : Entries) (s : TextValue), c.get? (.str "patterns") = some (.mapping es) ∧
        Names es s ∧ baseCategory nullSection ⟨1, []⟩ = .ok s ∧ (Rule.ofConfig c).base = s := by
  obtain ⟨c, h, -⟩ := exists_eq_ok_of_any (x := (load nullSection ⟨1, []⟩ true).result)
    (p := fun _ => true) (by decide +kernel)
  exact ⟨c, h, readers_agree h⟩

end Project

end CategoryLint
