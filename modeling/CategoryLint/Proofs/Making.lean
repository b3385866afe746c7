import CategoryLint.Project.Standard
import CategoryLint.Proofs.Step
import CategoryLint.Proofs.Table

/-!
# The table that a document leaves

Reading a document adds to the table of objects, and leaves it well-formed: the keys of every
mapping are distinct, and its values are scalars and links, where only a link to a mapping leads
to one (`read_wellFormed`). That is all that the laws about configurations ask of a reader
(`Libraries.Lawful`).

The proof follows the steps that make values. A node keeps the shape of its object while merge
keys are taken out (`sameShapes_of_flatten`), so that a link made early agrees with the object
that is filled in late. `Made` is what a value is before its object is filled, and `Sane` is what
holds of the making between any two steps.
-/

namespace CategoryLint.Yaml

/-! ## Steps that return -/

/-- A step that makes nothing itself returns what it is lifted from, and changes nothing. -/
theorem run_lift_eq_ok_iff {α : Type} {x : Except Fault α} {m : Making} {r : α × Making} :
    (liftM x : Make α).run m = .ok r ↔ ∃ a, x = .ok a ∧ (a, m) = r := by
  cases x with
  | error e => exact ⟨fun h => (nomatch h), fun ⟨_, h, _⟩ => (nomatch h)⟩
  | ok a => exact ⟨fun h => ⟨a, rfl, Except.ok.inj h⟩, fun ⟨_, rfl, h⟩ => congrArg Except.ok h⟩

/-- Two steps succeed if the first does, and the second on what the first leaves. -/
theorem run_bind_eq_ok_iff {α β : Type} {x : Make α} {f : α → Make β} {m : Making}
    {r : β × Making} :
    (x >>= f).run m = .ok r ↔ ∃ a m', x.run m = .ok (a, m') ∧ (f a).run m' = .ok r := by
  rw [StateT.run_bind, bind_eq_ok_iff]
  exact ⟨fun ⟨⟨a, m'⟩, h, hf⟩ => ⟨a, m', h, hf⟩, fun ⟨a, m', h, hf⟩ => ⟨⟨a, m'⟩, h, hf⟩⟩

/-! ## The shapes of nodes -/

namespace Nodes

/-- The shape of the object of a node, if it has one. -/
def shape? (nodes : Nodes) (number : Nat) : Option Shape :=
  nodes[number]?.bind (·.tag.shape?)

/-- The objects of the nodes have the same shapes. -/
def SameShapes (nodes nodes' : Nodes) : Prop := nodes'.shape? = nodes.shape?

variable {nodes nodes' : Nodes} {number : Nat}

/-- Nodes keep their shapes when one is changed without changing its own. -/
theorem sameShapes_modify {f : Node → Node}
    (hf : ∀ node, nodes[number]? = some node → (f node).tag.shape? = node.tag.shape?) :
    nodes.SameShapes (nodes.modify number f) := by
  funext i
  rw [shape?, shape?, Array.getElem?_modify]
  split
  · next h =>
    subst h
    cases hnode : nodes[number]? with
    | none => rfl
    | some node => exact hf node hnode
  · rfl

theorem sameShapes_setPairs {pairs : List Pair} :
    nodes.SameShapes (nodes.setPairs number pairs) :=
  sameShapes_modify fun _ _ => rfl

/-- Making the key of a default value a text changes no shape. -/
theorem sameShapes_asText : nodes.SameShapes (nodes.asText number) := by
  rw [asText]
  split
  · next h =>
    -- Neither the key of a default value nor a text has an object.
    refine sameShapes_modify fun node hnode => ?_
    rw [hasTag, hnode, Option.any_some, decide_eq_true_iff] at h
    rw [h]
    rfl
  · rfl

/-- Nor does putting merged pairs in front. -/
theorem sameShapes_addMerged {merged : List Pair} :
    nodes.SameShapes (nodes.addMerged number merged) := by
  have hfold : ∀ (pairs : List Pair) (nodes : Nodes),
      nodes.SameShapes (pairs.foldl (fun nodes p => nodes.asText p.1) nodes) := by
    intro pairs
    induction pairs with
    | nil => exact fun _ => rfl
    | cons p pairs ih => exact fun nodes => (ih (nodes.asText p.1)).trans sameShapes_asText
  exact sameShapes_setPairs.trans (hfold _ nodes)

/-- Nor does taking a merge key away. -/
theorem sameShapes_of_takeMerge? {source : Nat}
    (h : nodes.takeMerge? number = some (source, nodes')) : nodes.SameShapes nodes' := by
  rw [takeMerge?, Option.map_eq_some_iff] at h
  obtain ⟨p, -, h⟩ := h
  cases h
  exact sameShapes_setPairs

/-- Taking out merge keys leaves the shapes. -/
theorem sameShapes_of_flattenFrom {fuel : Nat} {merged : List Pair}
    (h : flattenFrom fuel merged number nodes = .ok nodes') : nodes.SameShapes nodes' := by
  induction fuel generalizing merged number nodes nodes' with
  | zero =>
    cases h
    exact sameShapes_addMerged
  | succ fuel ih =>
    rw [flattenFrom] at h
    split at h
    · cases h
      exact sameShapes_addMerged
    · next source taken htaken =>
      obtain ⟨sources, -, h⟩ := bind_eq_ok_iff.1 h
      obtain ⟨⟨found, filled⟩, hfold, h⟩ := bind_eq_ok_iff.1 h
      -- The sources are flattened one after the other, each by the induction hypothesis.
      have hfilled : taken.SameShapes filled := by
        refine foldlM_preserves (P := fun s => taken.SameShapes s.2) ?_ ?_ hfold
        · intro start source next hstart hnext
          obtain ⟨flat, hflat, hnext⟩ := bind_eq_ok_iff.1 hnext
          cases hnext
          exact (ih hflat).trans hstart
        · rfl
      exact (ih h).trans (hfilled.trans (sameShapes_of_takeMerge? htaken))

theorem sameShapes_of_flatten (h : nodes.flatten number = .ok nodes') :
    nodes.SameShapes nodes' :=
  sameShapes_of_flattenFrom h

end Nodes

/-! ## Values and objects on the way -/

/-- What the value of a node is while values are made: a scalar, or a link to the object of a
    node, by the shape of that node. The objects of nodes come after `base` others. -/
def Made (nodes : Nodes) (base : Nat) (v : Value) : Prop :=
  (∃ s, v = .scalar s) ∨ ∃ number shape, nodes.shape? number = some shape ∧
    v = .link shape (base + number)

/-- Entries whose keys are distinct and whose values are made. -/
structure MadeEntries (nodes : Nodes) (base : Nat) (es : Entries) : Prop where
  /-- No key is there twice. -/
  nodup : (es.map (·.1.key)).Nodup
  /-- The values are made. -/
  made : ∀ e ∈ es, Made nodes base e.2

/-- What holds between any two steps that make the values of `nodes`, where `T` is the table
    before them. -/
structure Sane (T : Objects) (nodes : Nodes) (m : Making) : Prop where
  /-- The objects of the nodes come after those of the table. -/
  base : m.base = T.size
  /-- The nodes keep their shapes. -/
  shapes : nodes.SameShapes m.nodes
  /-- Every node has an object. -/
  size : m.objects.size = T.size + nodes.size
  /-- The objects of the table stay. -/
  within : T.Within m.objects
  /-- The values that nodes have are made. -/
  made : ∀ (number : Nat) (v : Value), m.values.getD number none = some v →
    Made nodes T.size v
  /-- A mapping is the object of a node of that shape. -/
  filled : ∀ (number : Nat) (es : Entries), m.objects[T.size + number]? = some (.mapping es) →
    nodes.shape? number = some .mapping ∧ MadeEntries nodes T.size es

variable {T : Objects} {nodes : Nodes} {m m' : Making} {number : Nat}

theorem MadeEntries.nil {base : Nat} : MadeEntries nodes base [] :=
  ⟨List.nodup_nil, fun _ h => absurd h List.not_mem_nil⟩

/-- Made entries stay made when a made value is put in. -/
theorem MadeEntries.put {base : Nat} {es : Entries} {k : Scalar} {v : Value}
    (hes : MadeEntries nodes base es) (hv : Made nodes base v) :
    MadeEntries nodes base (es.put k v) :=
  ⟨Entries.nodup_put hes.nodup, Entries.forall_put hes.made hv⟩

namespace Make

/-- A made value can be noted for a node. -/
theorem sane_setValue {v : Value} {met : Array Nat} (hm : Sane T nodes m)
    (hv : Made nodes T.size v) :
    Sane T nodes { m with values := m.values.setIfInBounds number (some v), met } :=
  { hm with
    made := by
      intro i u hu
      rw [Array.getD_eq_getD_getElem?, Array.getElem?_setIfInBounds] at hu
      split at hu
      · split at hu
        · cases hu
          exact hv
        · cases hu
      · exact hm.made i u (by rwa [Array.getD_eq_getD_getElem?]) }

/-- The object of a node can be filled with made entries, if it is a mapping. -/
theorem sane_setObject {v : Value} (hm : Sane T nodes m)
    (hv : ∀ es : Entries, v = .mapping es →
      nodes.shape? number = some .mapping ∧ MadeEntries nodes T.size es) :
    Sane T nodes { m with objects := m.objects.setIfInBounds (m.base + number) v } :=
  { hm with
    size := by rw [Array.size_setIfInBounds, hm.size]
    within := by
      intro n u hu
      -- The object of a node is none of the table's.
      have hn : n < T.size := (Array.getElem?_eq_some_iff.1 hu).1
      rw [hm.base, Array.getElem?_setIfInBounds_ne (by omega)]
      exact hm.within n u hu
    filled := by
      intro i es hes
      rw [hm.base, Array.getElem?_setIfInBounds] at hes
      split at hes
      · next hi =>
        rw [Nat.add_left_cancel hi] at hv
        split at hes
        · exact hv es (Option.some.inj hes)
        · cases hes
      · exact hm.filled i es hes }

variable [Limits]

/-- The value of a scalar is made, for it leads nowhere. -/
theorem made_scalarValue {tag : Tag} {v : Value} {base : Nat}
    (h : scalarValue m tag number = .ok v) : Made nodes base v := by
  rw [scalarValue] at h
  obtain ⟨text, -, h⟩ := bind_eq_ok_iff.1 h
  split at h
  · cases h
  · rw [map_eq_ok_iff] at h
    obtain ⟨s, -, rfl⟩ := h
    exact .inl ⟨s, rfl⟩

/-- The value of a node is made: a scalar, or a link to the object that the node has. -/
theorem sane_value {v : Value} (h : (value number).run m = .ok (v, m')) (hm : Sane T nodes m) :
    Sane T nodes m' ∧ Made nodes T.size v := by
  rw [value, run_bind_eq_ok_iff] at h
  obtain ⟨m₀, m₁, hget, h⟩ := h
  cases hget
  split at h
  · -- The node was met before.
    next u hu =>
    cases h
    exact ⟨hm, hm.made number v hu⟩
  · cases h
  · next node hnone hnode =>
    split at h
    · -- The node has an object, which will be filled later.
      next shape hshape =>
      cases h
      have hv : Made nodes T.size (.link shape (m.base + number)) := by
        refine .inr ⟨number, shape, ?_, by rw [hm.base]⟩
        rw [← hm.shapes, Nodes.shape?, hnode]
        exact hshape
      exact ⟨sane_setValue hm hv, hv⟩
    · next hshape =>
      obtain ⟨u, m₂, hscalar, h⟩ := run_bind_eq_ok_iff.1 h
      obtain ⟨u', hu, heq⟩ := run_lift_eq_ok_iff.1 hscalar
      cases heq
      cases h
      exact ⟨sane_setValue hm (made_scalarValue hu), made_scalarValue hu⟩

/-- So are those of several nodes. -/
theorem sane_mapM_value {items : List Nat} {vs : List Value}
    (h : (items.mapM value).run m = .ok (vs, m')) (hm : Sane T nodes m) : Sane T nodes m' := by
  induction items generalizing m vs with
  | nil =>
    cases h
    exact hm
  | cons item items ih =>
    rw [List.mapM_cons] at h
    obtain ⟨v, m₁, hv, h⟩ := run_bind_eq_ok_iff.1 h
    obtain ⟨us, m₂, hus, h⟩ := run_bind_eq_ok_iff.1 h
    cases h
    exact ih hus (sane_value hv hm).1

theorem sane_pairValues {items : List Nat} {ps : List (Value × Value)}
    (h : (pairValues items).run m = .ok (ps, m')) (hm : Sane T nodes m) : Sane T nodes m' := by
  induction items generalizing m ps with
  | nil =>
    cases h
    exact hm
  | cons item items ih =>
    rw [pairValues] at h
    obtain ⟨m₀, m₁, hget, h⟩ := run_bind_eq_ok_iff.1 h
    cases hget
    split at h
    · obtain ⟨a, m₂, ha, h⟩ := run_bind_eq_ok_iff.1 h
      obtain ⟨b, m₃, hb, h⟩ := run_bind_eq_ok_iff.1 h
      obtain ⟨qs, m₄, hqs, h⟩ := run_bind_eq_ok_iff.1 h
      cases h
      exact ih hqs (sane_value hb (sane_value ha hm).1).1
    · cases h

/-- The entries of pairs are made after those that were there. -/
theorem sane_entries {pairs : List Pair} {es es' : Entries}
    (h : (entries es pairs).run m = .ok (es', m')) (hm : Sane T nodes m)
    (hes : MadeEntries nodes T.size es) : Sane T nodes m' ∧ MadeEntries nodes T.size es' := by
  induction pairs generalizing m es with
  | nil =>
    cases h
    exact ⟨hm, hes⟩
  | cons p pairs ih =>
    obtain ⟨key, node⟩ := p
    rw [entries] at h
    obtain ⟨k, m₁, hk, h⟩ := run_bind_eq_ok_iff.1 h
    split at h
    · obtain ⟨v, m₂, hv, h⟩ := run_bind_eq_ok_iff.1 h
      obtain ⟨hm₂, hmade⟩ := sane_value hv (sane_value hk hm).1
      exact ih h hm₂ (hes.put hmade)
    · cases h

/-- A node that is a mapping has made entries. -/
theorem sane_mapping {es : Entries} (h : (mapping number).run m = .ok (es, m'))
    (hm : Sane T nodes m) : Sane T nodes m' ∧ MadeEntries nodes T.size es := by
  rw [mapping] at h
  obtain ⟨m₀, m₁, hget, h⟩ := run_bind_eq_ok_iff.1 h
  cases hget
  split at h
  · obtain ⟨flat, m₂, hflat, h⟩ := run_bind_eq_ok_iff.1 h
    obtain ⟨flat', hflat', heq⟩ := run_lift_eq_ok_iff.1 hflat
    cases heq
    obtain ⟨_, m₃, hset, h⟩ := run_bind_eq_ok_iff.1 h
    cases hset
    -- Merge keys are taken out in place, so the nodes change and their shapes do not.
    have hshapes : nodes.SameShapes flat := (Nodes.sameShapes_of_flatten hflat').trans hm.shapes
    exact sane_entries h { hm with shapes := hshapes } .nil
  · cases h

/-- An object that is a mapping is that of a node with the tag of mappings. -/
theorem sane_object {node : Node} {v : Value} (h : (object node number).run m = .ok (v, m'))
    (hm : Sane T nodes m) :
    Sane T nodes m' ∧ ∀ es : Entries, v = .mapping es →
      node.tag.shape? = some .mapping ∧ MadeEntries nodes T.size es := by
  rw [object] at h
  split at h
  · obtain ⟨vs, m₁, hvs, h⟩ := run_bind_eq_ok_iff.1 h
    cases h
    exact ⟨sane_mapM_value hvs hm, fun es he => (nomatch he)⟩
  · obtain ⟨ps, m₁, hps, h⟩ := run_bind_eq_ok_iff.1 h
    cases h
    exact ⟨sane_pairValues hps hm, fun es he => (nomatch he)⟩
  · obtain ⟨ps, m₁, hps, h⟩ := run_bind_eq_ok_iff.1 h
    cases h
    exact ⟨sane_pairValues hps hm, fun es he => (nomatch he)⟩
  · obtain ⟨es', m₁, hes, h⟩ := run_bind_eq_ok_iff.1 h
    cases h
    exact ⟨(sane_mapping hes hm).1, fun es he => (nomatch he)⟩
  · next htag =>
    obtain ⟨es', m₁, hes, h⟩ := run_bind_eq_ok_iff.1 h
    cases h
    obtain ⟨hm', hmade⟩ := sane_mapping hes hm
    refine ⟨hm', fun es he => ?_⟩
    cases he
    exact ⟨by rw [htag]; rfl, hmade⟩
  · cases h

/-- Filling the object of a node keeps the making sane. -/
theorem sane_fill {u : Unit} (h : (fill number).run m = .ok (u, m')) (hm : Sane T nodes m) :
    Sane T nodes m' := by
  rw [fill] at h
  obtain ⟨m₀, m₁, hget, h⟩ := run_bind_eq_ok_iff.1 h
  cases hget
  split at h
  · cases h
  · next node hnode =>
    obtain ⟨v, m₂, hv, h⟩ := run_bind_eq_ok_iff.1 h
    cases h
    obtain ⟨hm₂, hmapping⟩ := sane_object hv hm
    refine sane_setObject hm₂ fun es he => ?_
    obtain ⟨hshape, hes⟩ := hmapping es he
    refine ⟨?_, hes⟩
    rw [← hm.shapes, Nodes.shape?, hnode]
    exact hshape

/-- Filling the objects keeps the making sane. -/
theorem sane_fillFrom {fuel place : Nat} {u : Unit}
    (h : (fillFrom fuel place).run m = .ok (u, m')) (hm : Sane T nodes m) :
    Sane T nodes m' := by
  induction fuel generalizing m place with
  | zero =>
    cases h
    exact hm
  | succ fuel ih =>
    rw [fillFrom] at h
    obtain ⟨m₀, m₁, hget, h⟩ := run_bind_eq_ok_iff.1 h
    cases hget
    split at h
    · cases h
      exact hm
    · obtain ⟨_, m₂, hfill, h⟩ := run_bind_eq_ok_iff.1 h
      exact ih h (sane_fill hfill hm)

end Make

/-! ## Documents -/

/-- What was made is atomic in the table. -/
theorem Sane.atomic {v : Value} (hm : Sane T nodes m) (hv : Made nodes T.size v) :
    m.objects.Atomic v := by
  rcases hv with ⟨s, rfl⟩ | ⟨number, shape, hshape, rfl⟩
  · exact trivial
  · refine ⟨?_, fun es hes => ?_⟩
    · have hnumber : number < nodes.size := by
        refine Nat.lt_of_not_le fun hle => ?_
        rw [Nodes.shape?, Array.getElem?_eq_none hle] at hshape
        cases hshape
      rw [hm.size]
      exact Nat.add_lt_add_left hnumber _
    · rw [(hm.filled number es hes).1] at hshape
      exact (Option.some.inj hshape).symm

/-- A sane making has well-formed objects: those of the table, and those of its nodes. -/
theorem Sane.wellFormed (hT : T.WellFormed) (hm : Sane T nodes m) : m.objects.WellFormed := by
  intro n es hes
  -- An object is one of the table's, or that of a node.
  by_cases hn : n < T.size
  · rw [hm.within.getElem?_eq hn] at hes
    exact (hT n es hes).of_within hm.within
  · obtain ⟨i, rfl⟩ := Nat.exists_eq_add_of_le (Nat.le_of_not_lt hn)
    obtain ⟨-, hmade⟩ := hm.filled i es hes
    exact ⟨hmade.nodup, fun e he => hm.atomic (hmade.made e he)⟩

/-- Before the first step, no node has a value and every object is empty. -/
theorem sane_start (T : Objects) (nodes : Nodes) :
    Sane T nodes
      { nodes
        base := T.size
        objects := T ++ Array.replicate nodes.size Value.null
        values := Array.replicate nodes.size none } where
  base := rfl
  shapes := rfl
  size := by rw [Array.size_append, Array.size_replicate]
  within := fun n v hv => by
    rw [Array.getElem?_append_left (Array.getElem?_eq_some_iff.1 hv).1]
    exact hv
  made := fun i v hv => by
    rw [Array.getD_eq_getD_getElem?, Array.getElem?_replicate] at hv
    split at hv <;> cases hv
  filled := fun i es hes => by
    rw [Array.getElem?_append_right (Nat.le_add_right _ _), Array.getElem?_replicate] at hes
    split at hes
    · cases hes
    · cases hes

/-- Reading a document keeps the table and leaves it well-formed. -/
theorem read_wellFormed [Limits] {T' : Objects} {source : Source} {v : Value} (hT : T.WellFormed)
    (h : read T source = .ok (v, T')) : T.Within T' ∧ T'.WellFormed ∧ T'.Atomic v := by
  rw [read] at h
  obtain ⟨g?, -, h⟩ := bind_eq_ok_iff.1 h
  cases g? with
  | none =>
    cases h
    exact ⟨.refl, hT, trivial⟩
  | some g =>
    change g.value T = .ok (v, T') at h
    rw [Graph.value] at h
    obtain ⟨⟨u, m₁⟩, hvalue, h⟩ := bind_eq_ok_iff.1 h
    obtain ⟨⟨_, m₂⟩, hfill, h⟩ := bind_eq_ok_iff.1 h
    cases h
    obtain ⟨hm₁, hmade⟩ := Make.sane_value hvalue (sane_start T g.nodes)
    have hm₂ := Make.sane_fillFrom hfill hm₁
    exact ⟨hm₂.within, hm₂.wellFormed hT, hm₂.atomic hmade⟩

end CategoryLint.Yaml

namespace CategoryLint

/-- Reading a document keeps the table of objects and leaves it well-formed. -/
class Libraries.Lawful [Libraries] : Prop where
  /-- The objects stay where they are, those of the document come after them, and its value is a
      scalar or a link. -/
  readDocument_wellFormed {T T' : Objects} {bytes : List UInt8} {v : Value} :
    T.WellFormed → readDocument T bytes = .ok (v, T') →
      T.Within T' ∧ T'.WellFormed ∧ T'.Atomic v

instance Libraries.lawful_standard [Limits] : Libraries.standard.Lawful :=
  ⟨Yaml.read_wellFormed⟩

end CategoryLint
