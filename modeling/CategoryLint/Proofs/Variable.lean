import CategoryLint.Proofs.Splitting
import CategoryLint.Proofs.Step
import CategoryLint.Setting.Sharing

/-!
# Variables

What an overriding variable is to a setting. Its text stands for itself without the blanks
around it, or for a value that is neither a text nor missing (`coerce_eq_ok`): JSON counts only
in brackets, so it is a list or a mapping. When a variable is the only one of an environment, to
apply the environment is to write it (`ofEnvironment_eq_singleton`).
-/

namespace CategoryLint

/-! ## JSON in brackets -/

namespace Json

variable {cs rest : List Char} {v : Value}

/-- After a bracket, the value is a list or a mapping. -/
theorem exists_of_readValue_bracket {fuel depth : Nat} {c : Char} (hc : c = '\x7b' ∨ c = '[')
    (h : readValue fuel depth (c :: cs) = .ok (v, rest)) :
    (∃ items, v = .list items) ∨ ∃ es, v = .mapping es := by
  cases fuel with
  | zero =>
    rw [readValue] at h
    cases h
  | succ fuel =>
    rcases hc with rfl | rfl
    · cases depth with
      | zero =>
        rw [readValue] at h
        cases h
      | succ depth =>
        rw [readValue] at h
        split at h
        · cases h
          exact .inr ⟨[], rfl⟩
        · obtain ⟨⟨es, r⟩, -, heq⟩ := map_eq_ok_iff.1 h
          cases heq
          exact .inr ⟨es, rfl⟩
    · cases depth with
      | zero =>
        rw [readValue] at h
        cases h
      | succ depth =>
        rw [readValue] at h
        split at h
        · cases h
          exact .inl ⟨[], rfl⟩
        · obtain ⟨⟨vs, r⟩, -, heq⟩ := map_eq_ok_iff.1 h
          cases heq
          exact .inl ⟨vs, rfl⟩

theorem exists_of_read_bracket [Limits] {c : Char} (hc : c = '\x7b' ∨ c = '[')
    (h : read (c :: cs) = .ok v) : (∃ items, v = .list items) ∨ ∃ es, v = .mapping es := by
  have hskip : skipSpace (c :: cs) = c :: cs := by
    rcases hc with rfl | rfl <;> rfl
  rw [read, hskip] at h
  split at h
  · cases h
  · cases h
  · next u rest hread =>
    split at h
    · cases h
      exact exists_of_readValue_bracket hc hread
    · cases h

end Json

/-! ## Coercion -/

namespace Coercion

variable {raw : String} {v : Value}

theorem exists_of_isBracketed {cs : List Char} (h : isBracketed cs) :
    ∃ c cs', cs = c :: cs' ∧ (c = '\x7b' ∨ c = '[') := by
  cases cs with
  | nil => cases h
  | cons c cs =>
    refine ⟨c, cs, rfl, ?_⟩
    rw [isBracketed, Bool.or_eq_true, Bool.and_eq_true, Bool.and_eq_true] at h
    exact h.imp (fun h => Option.some.inj (beq_iff_eq.1 h.1))
      fun h => Option.some.inj (beq_iff_eq.1 h.1)

/-- What is coerced as JSON is a list or a mapping. -/
theorem exists_of_asJson [Limits] (h : asJson raw = .ok (some v)) :
    (∃ items, v = .list items) ∨ ∃ es, v = .mapping es := by
  rw [asJson] at h
  split at h
  · next hbracketed =>
    obtain ⟨c, cs, hcs, hc⟩ := exists_of_isBracketed hbracketed
    rw [hcs] at h
    split at h
    · next hread =>
      cases h
      exact Json.exists_of_read_bracket hc hread
    · cases h
    · cases h
    · cases h
  · cases h

/-- A text stands for itself, or for a value that is neither a text nor missing. -/
theorem coerce_eq_ok [Limits] (h : coerce raw = .ok v) :
    v = .str (Text.strip raw) ∨ v.isStr = false ∧ v ≠ .null := by
  rw [coerce] at h
  split at h
  · cases h
    exact .inr ⟨rfl, nofun⟩
  · split at h
    · cases h
    · cases h
      exact .inr ⟨rfl, nofun⟩
    · split at h
      · cases h
        exact .inr ⟨rfl, nofun⟩
      · split at h
        · cases h
        · next hjson =>
          cases h
          rcases exists_of_asJson hjson with ⟨items, rfl⟩ | ⟨es, rfl⟩
          · exact .inr ⟨rfl, nofun⟩
          · exact .inr ⟨rfl, nofun⟩
        · cases h
          exact .inl rfl

end Coercion

/-! ## Environments -/

namespace Override

/-- The name of a variable starts as those of overriding variables do. -/
def IsOverriding (e : String × String) : Prop := variableStem.toList <+: e.1.toList

instance : DecidablePred IsOverriding := fun e =>
  inferInstanceAs (Decidable (variableStem.toList <+: e.1.toList))

theorem tail?_eq_none_iff {e : String × String} : tail? e.1 = none ↔ ¬IsOverriding e := by
  rw [tail?, Option.map_eq_none_iff, Option.eq_none_iff_forall_ne_some]
  constructor
  · rintro h ⟨rest, hrest⟩
    exact h rest (Text.dropLiteral?_eq_some_iff.2 hrest.symm)
  · intro h rest hrest
    exact h ⟨rest, (Text.dropLiteral?_eq_some_iff.1 hrest).symm⟩

/-- The rest of a name is what comes after the stem. -/
theorem tail?_eq_some_iff {name tail : String} :
    tail? name = some tail ↔ name = variableStem ++ tail := by
  rw [tail?, Option.map_eq_some_iff]
  constructor
  · rintro ⟨cs, hcs, rfl⟩
    rw [Text.dropLiteral?_eq_some_iff] at hcs
    apply String.toList_injective
    rw [hcs, String.toList_append, String.toList_ofList]
  · rintro rfl
    exact ⟨tail.toList, Text.dropLiteral?_eq_some_iff.2 (String.toList_append ..),
      String.ofList_toList⟩

variable {environment : List (String × String)}

/-- Variables whose names start otherwise do not matter. -/
theorem filterMap_filter_isOverriding (l : List (String × String)) :
    (l.filter IsOverriding).filterMap (fun e => (tail? e.1).map fun tail => (tail, e.2)) =
      l.filterMap fun e => (tail? e.1).map fun tail => (tail, e.2) := by
  induction l with
  | nil => rfl
  | cons e l ih =>
    by_cases he : IsOverriding e
    · simp only [List.filter_cons, he, decide_true, if_true, List.filterMap_cons, ih]
    · simp only [List.filter_cons, he, decide_false, Bool.false_eq_true, if_false,
        List.filterMap_cons, tail?_eq_none_iff.2 he, Option.map_none, ih]

/-- The variables that override are those whose names start as they must, in some order. -/
theorem ofEnvironment_perm (environment : List (String × String)) :
    (ofEnvironment environment).Perm ((environment.filter IsOverriding).filterMap fun e =>
      (tail? e.1).map fun tail => (tail, e.2)) := by
  rw [filterMap_filter_isOverriding]
  exact (List.mergeSort_perm environment _).filterMap _

/-- Without overriding variables there is nothing to write. -/
theorem ofEnvironment_eq_nil (h : ∀ e ∈ environment, ¬IsOverriding e) :
    ofEnvironment environment = [] := by
  have hperm := ofEnvironment_perm environment
  rw [List.filter_eq_nil_iff.2 fun e he => by simpa using h e he] at hperm
  exact hperm.eq_nil

/-- With one variable that overrides, it is the only one to apply. -/
theorem ofEnvironment_eq_singleton {name tail raw : String}
    (h : environment.filter IsOverriding = [(name, raw)]) (htail : tail? name = some tail) :
    ofEnvironment environment = [(tail, raw)] := by
  have hperm := ofEnvironment_perm environment
  rw [h, List.filterMap_cons, htail] at hperm
  exact List.perm_singleton.1 hperm

end Override

end CategoryLint
