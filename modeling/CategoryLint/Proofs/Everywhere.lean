import CategoryLint.Proofs.Escape

/-!
# Mappings at every depth

A property of mappings holds everywhere in a value if all mappings inside it have it, at any depth
(`Value.Everywhere`). A write at a path stores one value, and the mappings on the way to it with
their keys and perhaps a new one. So it leaves what holds everywhere, if storing under the key that
a segment finds does (`Override.Lasts`) and the new value is no exception
(`Override.everywhere_set`, and through links `Sharing.everywhere_set`). It does not matter whether
the write succeeds.
-/

namespace CategoryLint

variable {P : Entries → Prop} {es : Entries} {v : Value} {raw : String} {path : List String}

namespace Value

/-- All mappings in a value have a property. Where there is a link, the mapping that it leads to is
    elsewhere. -/
inductive Everywhere (P : Entries → Prop) : Value → Prop where
  /-- A value without parts. -/
  | scalar (s : Scalar) : Everywhere P (.scalar s)
  /-- A list of such values. -/
  | list {items : List Value} : (∀ v ∈ items, Everywhere P v) → Everywhere P (.list items)
  /-- A list of pairs of such values. -/
  | pairs {items : List (Value × Value)} : (∀ p ∈ items, Everywhere P p.1) →
      (∀ p ∈ items, Everywhere P p.2) → Everywhere P (.pairs items)
  /-- A set, which has scalars in it only. -/
  | set (members : List Scalar) : Everywhere P (.set members)
  /-- A mapping that has the property, of such values. -/
  | mapping {es : Entries} : P es → (∀ e ∈ es, Everywhere P e.2) → Everywhere P (.mapping es)
  /-- A link. -/
  | link (shape : Shape) (number : Nat) : Everywhere P (.link shape number)

namespace Everywhere

theorem nil (hP : P []) : Everywhere P (.mapping []) :=
  .mapping hP fun _ h => absurd h List.not_mem_nil

theorem property (h : Everywhere P (.mapping es)) : P es := by
  cases h with
  | mapping hP _ => exact hP

theorem values (h : Everywhere P (.mapping es)) : ∀ e ∈ es, Everywhere P e.2 := by
  cases h with
  | mapping _ hvalues => exact hvalues

theorem get? {k : Scalar} (h : Everywhere P (.mapping es)) :
    ∀ v, es.get? k = some v → Everywhere P v := by
  intro v hv
  obtain ⟨e, he, rfl⟩ := Entries.exists_of_get?_eq_some hv
  exact h.values e he

/-- It holds everywhere after a value is put in, if it holds of the entries with the value and
    everywhere in the value. -/
theorem put {k : Scalar} (h : Everywhere P (.mapping es)) (hP : P (es.put k v))
    (hv : Everywhere P v) : Everywhere P (.mapping (es.put k v)) :=
  .mapping hP (Entries.forall_put h.values hv)

theorem entries (hP : P []) (h : Everywhere P v) : Everywhere P (.mapping v.entries) := by
  cases h with
  | mapping hes hvalues => exact .mapping hes hvalues
  | _ => exact nil hP

end Everywhere

end Value

open Value (Everywhere)

namespace Objects

variable {T : Objects}

/-- All mappings in a table have a property. -/
def Everywhere (P : Entries → Prop) (T : Objects) : Prop := ∀ v ∈ T, v.Everywhere P

/-- It holds everywhere in each object. -/
theorem Everywhere.getD (hT : T.Everywhere P) (n : Nat) : (T.getD n .null).Everywhere P := by
  rw [Array.getD_eq_getD_getElem?]
  cases h : T[n]? with
  | none => exact .scalar .null
  | some v => exact hT v (Array.mem_of_getElem? h)

/-- It holds everywhere in all objects after one is replaced. -/
theorem Everywhere.setIfInBounds (hT : T.Everywhere P) (n : Nat) (hv : v.Everywhere P) :
    Everywhere P (T.setIfInBounds n v) := by
  intro u hu
  rcases Array.mem_or_eq_of_mem_setIfInBounds hu with hu | rfl
  · exact hT u hu
  · exact hv

end Objects

/-! ## Writes -/

namespace Override

/-- A property of mappings lasts when something is stored under the key that a segment finds. -/
structure Lasts (P : Entries → Prop) : Prop where
  /-- A new mapping has it. -/
  nil : P []
  /-- A mapping keeps it. -/
  put : ∀ {es : Entries} (seg : String) (v : Value), P es → P (es.put (resolve es seg) v)

/-- It holds everywhere in the mapping that a write goes on in. -/
theorem everywhere_container {place : Option Value} (hP : P [])
    (h : ∀ v, place = some v → v.Everywhere P) : Everywhere P (.mapping (container place)) := by
  rw [container.eq_def]
  split
  · exact h _ rfl
  · exact .nil hP

/-- A write leaves what holds everywhere, also one that fails. -/
theorem everywhere_set [Limits] (hP : Lasts P) (hes : Everywhere P (.mapping es))
    (hv : ∀ v, newValue (setting? es path) raw = .ok v → v.Everywhere P) :
    Everywhere P (.mapping (set es path raw).1) := by
  induction path generalizing es with
  | nil => exact hes
  | cons seg path ih =>
    cases path with
    | nil =>
      rw [set]
      split
      · next hvalue => exact hes.put (hP.put seg _ hes.property) (hv _ hvalue)
      · exact hes
    | cons next path =>
      rw [set_cons_cons]
      refine hes.put (hP.put seg _ hes.property) (ih ?_ hv)
      exact everywhere_container hP.nil fun v => hes.get? v

end Override

namespace Sharing

variable {T : Objects} {c : Config}

/-- A write behind links leaves what holds everywhere. -/
theorem everywhere_setIn [Limits] {n : Nat} (hP : Override.Lasts P) (hT : T.Everywhere P)
    (hv : ∀ v, Override.newValue (setting? T (T.getD n .null).entries path) raw = .ok v →
      v.Everywhere P) : Objects.Everywhere P (setIn T n path raw).1 := by
  -- The write goes from link to link, and changes the last object only.
  fun_induction setIn T n path raw with
  | case1 n path es m rest hlink ih =>
    rw [setting?_of_link hlink] at hv
    exact ih hv
  | case2 n path es hnone fs failure hset =>
    rw [setting?_of_no_link hnone] at hv
    have hfs := Override.everywhere_set hP ((hT.getD n).entries hP.nil) hv
    rw [hset] at hfs
    exact hT.setIfInBounds n hfs

/-- With shared objects, too, a write keeps what lasts, in the configuration and in its
    objects. -/
theorem everywhere_set [Limits] (hP : Override.Lasts P)
    (hentries : Everywhere P (.mapping c.entries)) (hT : c.objects.Everywhere P)
    (hv : ∀ v, Override.newValue (setting? c.objects c.entries path) raw = .ok v →
      v.Everywhere P) :
    Everywhere P (.mapping (set c path raw).1.entries) ∧
      (set c path raw).1.objects.Everywhere P := by
  rw [set]
  split
  · next hlink =>
    rw [setting?_of_link hlink] at hv
    exact ⟨hentries, everywhere_setIn hP hT hv⟩
  · next hnone =>
    rw [setting?_of_no_link hnone] at hv
    exact ⟨Override.everywhere_set hP hentries hv, hT⟩

end Sharing

end CategoryLint
