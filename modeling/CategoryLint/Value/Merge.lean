import CategoryLint.Value.Basic

/-!
# Merging

A configuration is put on top of another: mappings under one key are merged entry by
entry, and every other value takes the place of what was there. Keys keep the position
they have below; new keys come after them.
-/

namespace CategoryLint

mutual

/-- The entries of `base` with those of another mapping on top. -/
def Entries.merge (base : Entries) : List (Scalar × Value) → Entries
  | [] => base
  | (k, v) :: es => Entries.merge (base.put k (Value.over (base.get? k) v)) es

/-- A value on top of what was there: of two mappings, one with the entries of both. -/
def Value.over (old : Option Value) : Value → Value
  | .mapping es =>
    match old with
    | some (.mapping base) => .mapping (Entries.merge base es)
    | _ => .mapping es
  | v => v

end

/-- Nothing on top changes nothing. -/
theorem Entries.merge_nil (base : Entries) : base.merge [] = base := by
  rw [Entries.merge]

/-- The entries on top are put in one after the other. -/
theorem Entries.merge_cons (base : Entries) (k : Scalar) (v : Value) (es : Entries) :
    base.merge ((k, v) :: es) = (base.put k (Value.over (base.get? k) v)).merge es := by
  rw [Entries.merge]

/-- A value that is no mapping takes the place of what was there. -/
theorem Value.over_of_not_mapping {v : Value} (old : Option Value)
    (h : ∀ es, v ≠ .mapping es) : Value.over old v = v := by
  cases v with
  | mapping es => exact absurd rfl (h es)
  | _ => rw [Value.over]; simp

end CategoryLint
