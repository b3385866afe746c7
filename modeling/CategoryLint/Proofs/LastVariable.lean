import CategoryLint.Proofs.IndependentWrites

/-!
# Settings that are texts

A setting that is a text stays one: whatever variables are written, it is what the last of them
said that names it, in any spelling, without the blanks around it (`apply_hasText`). The last one
is the one with the greatest name, for variables are applied in the order of their names.

The path to the setting must be made of keys that their own texts find (`HasText`), and no variable
may be named like a mapping around the setting, or like something inside it (`IsClear`). Then a
write is at the path and replaces the text (`HasText.of_lowered_eq`), or it parts from the path and
leaves the path and the text (`HasText.of_apart`). By induction, a run of writes in the order of
their names ends with what the last one at the path said (`Run.exists_hasText`).
-/

namespace CategoryLint.Override

/-! ## Texts at paths -/

/-- A key is the first of the texts among the keys that it is, letter case aside. -/
def IsFirst (es : Entries) (k : TextValue) : Prop :=
  ∃ before after, es.keys = before ++ .str k :: after ∧
    ∀ t : TextValue, .str t ∈ before → t.lower ≠ k.lower

/-- A path of keys, each the first that it is, letter case aside, leads to a text. -/
inductive HasText : Entries → List TextValue → TextValue → Prop where
  /-- The text is under a key. -/
  | last {es : Entries} {k s : TextValue} : IsFirst es k →
      es.get? (.str k) = some (.scalar (.str s)) → HasText es [k] s
  /-- The path goes on in the mapping under a key. -/
  | within {es fs : Entries} {k s : TextValue} {p : List TextValue} : IsFirst es k →
      es.get? (.str k) = some (.mapping fs) → HasText fs p s → HasText es (k :: p) s

/-- The lower-case form of a path of keys. -/
def lowered (p : List TextValue) : List TextValue := p.map TextValue.lower

/-- The keys that segments are. -/
def ofSegments (path : List String) : List TextValue := path.map .plain

@[simp] theorem lowered_cons (k : TextValue) (p : List TextValue) :
    lowered (k :: p) = k.lower :: lowered p := rfl

@[simp] theorem lowered_ofSegments_cons (seg : String) (path : List String) :
    lowered (ofSegments (seg :: path)) =
      (TextValue.plain seg).lower :: lowered (ofSegments path) := rfl

variable {es es' : Entries} {seg raw : String} {path : List String} {k s : TextValue} {l : Scalar}
  {p : List TextValue} {K : List Scalar} {v : Value}

theorem fits_str_iff : fits seg (.str k) ↔ k.lower = (TextValue.plain seg).lower := by
  cases k with
  | plain t => simp [fits, TextValue.lower]
  | broken ps => simp [fits, TextValue.lower]

/-- A first key is found by all segments that are the same, letter case aside. -/
theorem IsFirst.finds (h : IsFirst es k) (hseg : (TextValue.plain seg).lower = k.lower) :
    Finds es seg (.str k) := by
  obtain ⟨before, after, hkeys, hbefore⟩ := h
  refine .first hkeys (fits_str_iff.2 hseg.symm) fun l hl hfits => ?_
  cases l with
  | str t => exact hbefore t hl ((fits_str_iff.1 hfits).trans hseg)
  | _ => cases hfits

/-- A first key stays the first whatever is stored. -/
theorem IsFirst.put (h : IsFirst es k) (l : Scalar) (v : Value) : IsFirst (es.put l v) k := by
  obtain ⟨before, after, hsplit, hbefore⟩ := h
  rcases Entries.keys_put_cases es l v with hkeys | hkeys
  · exact ⟨before, after, hkeys.trans hsplit, hbefore⟩
  · rw [hsplit, List.append_assoc, List.cons_append] at hkeys
    exact ⟨before, after ++ [l], hkeys, hbefore⟩

/-- A write for one segment leaves the texts of other segments alone. -/
theorem get?_put_of_lower_ne (hl : Finds es seg l) (hne : (TextValue.plain seg).lower ≠ k.lower)
    (v : Value) : (es.put l v).get? (.str k) = es.get? (.str k) := by
  refine Entries.get?_put_of_ne es v (hl.key_ne ?_)
  rintro rfl
  obtain ⟨r, hr, hlower⟩ := hl.exists_text
  cases hr
  exact hne (congrArg TextValue.plain hlower.symm)

theorem HasText.ne_nil (h : HasText es p s) : p ≠ [] := by
  cases h <;> exact List.cons_ne_nil _ _

/-! ## One write -/

section

variable [Limits]

/-- A path that starts with another segment than the key changes nothing under the key. -/
theorem HasText.of_head_ne (h : HasText es (k :: p) s) (hw : Writes raw es (seg :: path) K es')
    (hne : (TextValue.plain seg).lower ≠ k.lower) : HasText es' (k :: p) s := by
  obtain ⟨l, -, v, hl, rfl, -⟩ := hw.exists_put
  have hget : (es.put l v).get? (.str k) = es.get? (.str k) := get?_put_of_lower_ne hl hne v
  cases h with
  | last hk htext => exact .last (hk.put l v) (hget.trans htext)
  | within hk hfs hp => exact .within (hk.put l v) (hget.trans hfs) hp

/-- A write goes on in the mapping under a first key that its path starts with. -/
theorem IsFirst.exists_writes {fs : Entries} (hk : IsFirst es k)
    (hget : es.get? (.str k) = some (.mapping fs)) (hw : Writes raw es (seg :: path) K es')
    (hseg : (TextValue.plain seg).lower = k.lower) (hpath : path ≠ []) :
    ∃ K' child, Writes raw fs path K' child ∧ IsFirst es' k ∧
      es'.get? (.str k) = some (.mapping child) := by
  obtain ⟨l, K', child, hl, hchild, rfl⟩ := hw.exists_within hpath
  cases hl.eq (hk.finds hseg)
  rw [hget] at hchild
  exact ⟨K', child, hchild, hk.put _ _, Entries.get?_put_self es _ rfl⟩

/-- A write at the path, in any case of its letters, replaces the text. -/
theorem HasText.of_lowered_eq (h : HasText es p s) (hw : Writes raw es path K es')
    (hpath : lowered (ofSegments path) = lowered p) : HasText es' p (Text.strip raw) := by
  induction h generalizing path K es' with
  | @last es k s hk hget =>
    obtain ⟨seg, rest, rfl⟩ := List.exists_cons_of_ne_nil hw.path_ne_nil
    obtain ⟨hseg, hrest⟩ := List.cons.inj hpath
    cases List.map_eq_nil_iff.1 (List.map_eq_nil_iff.1 hrest)
    cases hw with
    | last hl hv =>
      cases hl.eq (hk.finds hseg)
      rw [hget, newValue_of_text] at hv
      cases hv
      exact .last (hk.put _ _) (Entries.get?_put_self es _ rfl)
    | within _ hchild => exact absurd rfl hchild.path_ne_nil
  | within hk hget htext ih =>
    obtain ⟨seg, rest, rfl⟩ := List.exists_cons_of_ne_nil hw.path_ne_nil
    obtain ⟨hseg, hrest⟩ := List.cons.inj hpath
    have hne : rest ≠ [] := by
      rintro rfl
      exact htext.ne_nil (List.map_eq_nil_iff.1 hrest.symm)
    obtain ⟨K', child, hchild, hk', hget'⟩ := hk.exists_writes hget hw hseg hne
    exact .within hk' hget' (ih hchild hrest)

/-- A write at a path that parts from the path to the text leaves it. -/
theorem HasText.of_apart (h : HasText es p s) (hw : Writes raw es path K es')
    (hpath : ¬lowered (ofSegments path) <+: lowered p)
    (hp : ¬lowered p <+: lowered (ofSegments path)) : HasText es' p s := by
  induction h generalizing path K es' with
  | last hk hget =>
    obtain ⟨seg, rest, rfl⟩ := List.exists_cons_of_ne_nil hw.path_ne_nil
    refine (HasText.last hk hget).of_head_ne hw fun hseg => hp ?_
    rw [lowered_cons, lowered_ofSegments_cons, hseg, List.prefix_cons_inj]
    exact List.nil_prefix
  | @within es fs k s p hk hget htext ih =>
    obtain ⟨seg, rest, rfl⟩ := List.exists_cons_of_ne_nil hw.path_ne_nil
    by_cases hseg : (TextValue.plain seg).lower = k.lower
    · -- Both paths go on in the same mapping, and part there.
      rw [lowered_cons, lowered_ofSegments_cons, hseg, List.prefix_cons_inj] at hpath hp
      have hne : rest ≠ [] := by
        rintro rfl
        exact hpath List.nil_prefix
      obtain ⟨K', child, hchild, hk', hget'⟩ := hk.exists_writes hget hw hseg hne
      exact .within hk' hget' (ih hchild hpath hp)
    · exact (HasText.within hk hget htext).of_head_ne hw hseg

end

/-! ## Runs that succeed -/

/-- The path that the name of a variable is, if it is one. -/
def path? (name : String) : Option (List String) :=
  (tail? name).bind fun tail => (readTail true tail).toOption

/-- The overriding variables of a list in its order: the rest of the name, and the value. -/
def overriding (E : List (String × String)) : List (String × String) :=
  E.filterMap fun (name, raw) => (tail? name).map fun tail => (tail, raw)

variable {e : String × String} {E environment : List (String × String)} {strict : Bool}
  {name tail : String}

theorem overriding_cons_of_none (h : tail? name = none) :
    overriding ((name, raw) :: E) = overriding E := by
  simp only [overriding, List.filterMap_cons, h, Option.map_none]

theorem overriding_cons_of_some (h : tail? name = some tail) :
    overriding ((name, raw) :: E) = (tail, raw) :: overriding E := by
  simp only [overriding, List.filterMap_cons, h, Option.map_some]

theorem path?_of_tail?_eq_none (h : tail? name = none) : path? name = none := by
  rw [path?, h, Option.bind_none]

/-- A malformed name has no path. -/
theorem path?_of_isMalformed (htail : tail? name = some tail) (h : IsMalformed tail) :
    path? name = none := by
  rw [path?, htail, Option.bind_some, (readTail_of_isMalformed h).1]
  rfl

theorem path?_of_readTail (htail : tail? name = some tail) (h : readTail true tail = .ok path) :
    path? name = some path := by
  rw [path?, htail, Option.bind_some, h]
  rfl

/-- The writes of variables, one after the other. -/
inductive Run [Limits] : Entries → List (String × String) → Entries → Prop where
  /-- No variable is left. -/
  | done {es : Entries} : Run es [] es
  /-- A variable whose name is no path is passed over. -/
  | skip {es es' : Entries} {e : String × String} {E : List (String × String)} :
      path? e.1 = none → Run es E es' → Run es (e :: E) es'
  /-- A variable is written. -/
  | write {es fs es' : Entries} {e : String × String} {E : List (String × String)}
      {path : List String} {K : List Scalar} :
      path? e.1 = some path → Writes e.2 es path K fs → Run fs E es' → Run es (e :: E) es'

/-- Applying variables without a failure is a run of writes. -/
theorem run_of_success [Limits] (h : (applyWith set strict es (overriding E)).failure = none) :
    Run es E (applyWith set strict es (overriding E)).config := by
  induction E generalizing es with
  | nil => exact .done
  | cons e E ih =>
    obtain ⟨name, raw⟩ := e
    cases htail : tail? name with
    | none =>
      rw [overriding_cons_of_none htail] at h ⊢
      exact .skip (path?_of_tail?_eq_none htail) (ih h)
    | some tail =>
      rw [overriding_cons_of_some htail] at h ⊢
      by_cases hmalformed : IsMalformed tail
      · -- A strict run would fail here, so this one is lenient.
        obtain ⟨hstrict, hlenient⟩ := readTail_of_isMalformed hmalformed
        cases strict with
        | true =>
          rw [applyWith, hstrict] at h
          cases h
        | false =>
          rw [applyWith, hlenient] at h ⊢
          exact .skip (path?_of_isMalformed htail hmalformed) (ih h)
      · obtain ⟨seg, path, hpath⟩ := readTail_of_not_isMalformed hmalformed
        rcases hset : set es (seg :: path) raw with ⟨fs, _ | failure⟩
        · rw [applyWith_cons_of_success (hpath strict) hset] at h ⊢
          obtain ⟨K, hK⟩ := exists_writes_iff.1 hset
          exact .write (path?_of_readTail htail (hpath true)) hK (ih h)
        · rw [applyWith_cons_of_failure (hpath strict) hset] at h
          cases h

/-! ## The last write -/

/-- A variable is named like a path of keys, letter case aside. -/
def Names (p : List TextValue) (e : String × String) : Prop :=
  ∃ path ∈ path? e.1, lowered (ofSegments path) = lowered p

/-- A variable is not named like a mapping on the way to a setting or like something inside the
    setting. -/
def IsClear (p : List TextValue) (e : String × String) : Prop :=
  ∀ path ∈ path? e.1, lowered (ofSegments path) <+: lowered p ∨
    lowered p <+: lowered (ofSegments path) → lowered (ofSegments path) = lowered p

instance (p : List TextValue) : DecidablePred (IsClear p) := fun _ =>
  inferInstanceAs (Decidable (∀ path ∈ _, _))

/-- What the last variable with the name of a setting says, or what was there before. -/
inductive Latest (p : List TextValue) (E : List (String × String)) (s : TextValue) :
    TextValue → Prop where
  /-- No variable has the name. -/
  | kept : (∀ e ∈ E, ¬Names p e) → Latest p E s s
  /-- The one with the greatest name, without the blanks around its text. -/
  | written (e : String × String) : e ∈ E → Names p e →
      (∀ e' ∈ E, Names p e' → e'.1 ≤ e.1) → Latest p E s (Text.strip e.2)

variable {s' : TextValue}

/-- A variable that names another path does not decide what comes last. -/
theorem Latest.cons_of_not_names (h : Latest p E s s') (he : ¬Names p e) :
    Latest p (e :: E) s s' := by
  cases h with
  | kept hnone => exact .kept (List.forall_mem_cons.2 ⟨he, hnone⟩)
  | written l hl hnames hmax =>
    exact .written l (List.mem_cons_of_mem _ hl) hnames
      (List.forall_mem_cons.2 ⟨fun h => absurd h he, hmax⟩)

/-- A variable that is named like the setting is the last, if none after it is. -/
theorem Latest.cons_of_names (h : Latest p E (Text.strip e.2) s') (he : Names p e)
    (hle : ∀ e' ∈ E, e.1 ≤ e'.1) : Latest p (e :: E) s s' := by
  cases h with
  | kept hnone =>
    exact .written e List.mem_cons_self he
      (List.forall_mem_cons.2 ⟨fun _ => String.le_refl _, fun l hl h => absurd h (hnone l hl)⟩)
  | written l hl hnames hmax =>
    exact .written l (List.mem_cons_of_mem _ hl) hnames
      (List.forall_mem_cons.2 ⟨fun _ => hle l hl, hmax⟩)

/-- The order in which variables are listed does not decide. -/
theorem Latest.of_perm {E' : List (String × String)} (h : Latest p E s s') (hperm : E.Perm E') :
    Latest p E' s s' := by
  cases h with
  | kept hnone => exact .kept fun e he => hnone e (hperm.mem_iff.2 he)
  | written e he hnames hmax =>
    exact .written e (hperm.mem_iff.1 he) hnames fun l hl => hmax l (hperm.mem_iff.2 hl)

/-- Through a run in the order of names, a text stays a text: what the last variable says. -/
theorem Run.exists_hasText [Limits] (hrun : Run es E es') (h : HasText es p s)
    (hclear : ∀ e ∈ E, IsClear p e) (hsorted : E.Pairwise fun a b => a.1 ≤ b.1) :
    ∃ s', HasText es' p s' ∧ Latest p E s s' := by
  induction hrun generalizing s with
  | done => exact ⟨s, h, .kept fun e he => absurd he List.not_mem_nil⟩
  | @skip es es' e E hnone _ ih =>
    obtain ⟨-, hsorted⟩ := List.pairwise_cons.1 hsorted
    obtain ⟨-, hclear⟩ := List.forall_mem_cons.1 hclear
    obtain ⟨s', hs', hlatest⟩ := ih h hclear hsorted
    refine ⟨s', hs', hlatest.cons_of_not_names ?_⟩
    rintro ⟨path, hpath, -⟩
    cases hnone.symm.trans hpath
  | @write es fs es' e E path K hpath hw _ ih =>
    obtain ⟨hle, hsorted⟩ := List.pairwise_cons.1 hsorted
    obtain ⟨he, hclear⟩ := List.forall_mem_cons.1 hclear
    -- A write with the name replaces the text, and any other that is clear of it leaves it alone.
    by_cases hnames : lowered (ofSegments path) = lowered p
    · obtain ⟨s', hs', hlatest⟩ := ih (h.of_lowered_eq hw hnames) hclear hsorted
      exact ⟨s', hs', hlatest.cons_of_names ⟨path, hpath, hnames⟩ hle⟩
    · have hapart := h.of_apart hw (fun h => hnames (he path hpath (.inl h)))
        fun h => hnames (he path hpath (.inr h))
      obtain ⟨s', hs', hlatest⟩ := ih hapart hclear hsorted
      refine ⟨s', hs', hlatest.cons_of_not_names ?_⟩
      rintro ⟨path', hpath', hnames'⟩
      cases hpath.symm.trans hpath'
      exact hnames hnames'

/-- A setting that is a text stays one, and is what the last variable says that is named like it,
    if no variable is named like a mapping around it or like something inside it. -/
theorem apply_hasText [Limits] (h : HasText es p s)
    (hok : (apply strict es environment).failure = none)
    (hclear : ∀ e ∈ environment, IsClear p e) :
    ∃ s', HasText (apply strict es environment).config p s' ∧ Latest p environment s s' := by
  have hperm := List.mergeSort_perm environment fun a b => decide (a.1 ≤ b.1)
  obtain ⟨s', hs', hlatest⟩ := (run_of_success hok).exists_hasText h
    (fun e he => hclear e (hperm.mem_iff.1 he)) (Project.pairwise_mergeSort_by _ _)
  exact ⟨s', hs', hlatest.of_perm hperm⟩

/-- A level, named in two spellings, and another setting beside it. -/
def spellings : List (String × String) :=
  [("HOME", "/"), ("PATTERNLINT_RULES_DEPTH", "3"), ("PATTERNLINT_RULES_LEVEL", "high"),
    ("PATTERNLINT_rules__Level", " 2024 ")]

/-- A section with a text among its keys. -/
def levelled : Entries := [(.str "Rules", .mapping [(.int 1, .null), (.str "level", .str "low")])]

/-- The text is what the second spelling says, which is the greater name, and no number. -/
theorem apply_hasText_spellings :
    HasText levelled ["Rules", "level"] "low" ∧ (apply true levelled spellings).failure = none ∧
      (∀ e ∈ spellings, IsClear ["Rules", "level"] e) ∧
      ∃ s', HasText (apply true levelled spellings).config ["Rules", "level"] s' ∧
        Latest ["Rules", "level"] spellings "low" s' := by
  have hfirst : IsFirst levelled "Rules" := ⟨[], [], rfl, fun t ht => absurd ht List.not_mem_nil⟩
  have h : HasText levelled ["Rules", "level"] "low" :=
    .within hfirst rfl (.last ⟨[.int 1], [], rfl, fun t ht => by simp at ht⟩ rfl)
  have hok : (apply true levelled spellings).failure = none := by
    have hsorted : spellings.Pairwise fun a b => decide (a.1 ≤ b.1) := by decide +kernel
    rw [apply, ofEnvironment, List.mergeSort_of_pairwise hsorted]
    decide +kernel
  have hclear : ∀ e ∈ spellings, IsClear ["Rules", "level"] e := by decide +kernel
  exact ⟨h, hok, hclear, apply_hasText h hok hclear⟩

end CategoryLint.Override
