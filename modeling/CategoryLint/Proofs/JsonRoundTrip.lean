import CategoryLint.Proofs.JsonScalar

/-!
# JSON text is read back

A value that JSON has a form for (`Plain`) is read back from its text (`read_write`). The reader
is followed part by part: a value is read back wherever it stands, if what comes after it cannot
belong to it (`RoundTrips`), and then so are the items of a list and the fields of a mapping
(`readItems_write`, `readFields_write`). Every part takes at least as many characters as the reader
takes steps for it.
-/

namespace CategoryLint.Json

variable {fuel depth : Nat} {v : Value} {cs rest : List Char}

/-- A key is the name of a field. -/
def IsName (k : Scalar) : Prop := ∃ name : String, k = .str name

/-- A value that JSON has a form for, with at most `depth` lists and mappings inside each other:
    its integers are not too long to be read, and the names of its fields are different
    strings. -/
inductive Plain : (depth : Nat) → Value → Prop
  | null {depth : Nat} : Plain depth .null
  | bool {depth : Nat} (b : Bool) : Plain depth (.bool b)
  | int {depth : Nat} {n : Int} (h : n.natAbs < 10 ^ Integer.maxDigits) : Plain depth (.int n)
  | str {depth : Nat} (s : String) : Plain depth (.str s)
  | list {depth : Nat} {items : List Value} (h : ∀ v ∈ items, Plain depth v) :
      Plain (depth + 1) (.list items)
  | mapping {depth : Nat} {es : Entries} (hnames : ∀ e ∈ es, IsName e.1)
      (hnodup : es.keys.Nodup) (h : ∀ e ∈ es, Plain depth e.2) : Plain (depth + 1) (.mapping es)

/-! ## Space -/

/-- A text starts with a character that is no space. -/
def StartsPart (cs : List Char) : Prop := ∃ c ∈ cs.head?, ¬isSpace c

theorem StartsPart.cons {c : Char} (h : ¬isSpace c) : StartsPart (c :: cs) := ⟨c, rfl, h⟩

theorem skipSpace_of_startsPart (h : StartsPart cs) : skipSpace cs = cs := by
  obtain ⟨c, hc, hspace⟩ := h
  obtain ⟨cs, rfl⟩ := List.head?_eq_some_iff.1 hc
  rw [skipSpace, List.dropWhile_cons, if_neg hspace]

/-- A new line and its indentation are skipped. -/
theorem skipSpace_newline (k : Nat) (h : StartsPart cs) : skipSpace (newline k ++ cs) = cs := by
  have hspace : ∀ c ∈ newline k, isSpace c := by
    intro c hc
    rcases List.mem_cons.1 hc with rfl | hc
    · rfl
    · rw [List.eq_of_mem_replicate hc]
      rfl
  rw [skipSpace, List.dropWhile_append_of_pos hspace]
  exact skipSpace_of_startsPart h

/-! ## The start of a value -/

/-- A text starts like a value: with no space, and not with the end of a list. -/
def StartsValue (cs : List Char) : Prop := ∃ c ∈ cs.head?, ¬isSpace c ∧ c ≠ ']'

theorem StartsValue.startsPart (h : StartsValue cs) : StartsPart cs := by
  obtain ⟨c, hc, hspace, -⟩ := h
  exact ⟨c, hc, hspace⟩

theorem StartsValue.append (h : StartsValue cs) (rest : List Char) : StartsValue (cs ++ rest) := by
  obtain ⟨c, hc, hstart⟩ := h
  exact ⟨c, by simp [Option.mem_def.1 hc], hstart⟩

theorem startsValue_toString (n : Int) : StartsValue (toString n).toList := by
  obtain ⟨c, cs, hcs, hc⟩ := exists_toString_eq_cons n
  rw [hcs]
  rcases hc with rfl | hc
  · exact ⟨'-', rfl, by decide, by decide⟩
  · have hne : ∀ d ∈ [' ', '\t', '\n', '\r', ']'], c ≠ d := ne_of_isDigit hc (by decide)
    simp only [List.forall_mem_cons] at hne
    exact ⟨c, rfl, by simp [isSpace, hne], by simp [hne]⟩

/-- Every written value starts like one. -/
theorem startsValue_writeValue (h : Plain depth v) (k : Nat) : StartsValue (writeValue k v) := by
  cases h with
  | null => exact ⟨'n', rfl, by decide, by decide⟩
  | bool b => cases b <;> exact ⟨_, rfl, by decide, by decide⟩
  | @int _ n h => exact startsValue_toString n
  | str s => exact ⟨'"', rfl, by decide, by decide⟩
  | @list _ items h => cases items <;> exact ⟨'[', rfl, by decide, by decide⟩
  | @mapping _ es hnames hnodup h => cases es <;> exact ⟨'\x7b', rfl, by decide, by decide⟩

/-- A value is read back from its text, at any depth of the text and with enough steps, if nothing
    after it can belong to it. -/
def RoundTrips (depth : Nat) (v : Value) : Prop :=
  ∀ k fuel rest, (writeValue k v).length ≤ fuel → FollowsValue rest →
    readValue (fuel + 1) depth (writeValue k v ++ rest) = .ok (v, rest)

theorem followsValue_newline (k : Nat) : FollowsValue (newline k ++ rest) := by
  simp [FollowsValue, newline]

theorem followsValue_comma : FollowsValue (',' :: rest) := by
  simp [FollowsValue]

theorem length_newline (k : Nat) : (newline k).length = 2 * k + 1 := by
  simp [newline]

/-! ## Scalars -/

/-- What does not start with a bracket or a brace is read as a scalar. -/
theorem readValue_scalar (h : ∀ c ∈ cs.head?, c ≠ '[' ∧ c ≠ '\x7b') :
    readValue (fuel + 1) depth cs = readScalar cs := by
  have hlist : ∀ tail, cs ≠ '[' :: tail := fun tail e => (h '[' (by simp [e])).1 rfl
  have hmapping : ∀ tail, cs ≠ '\x7b' :: tail := fun tail e => (h '\x7b' (by simp [e])).2 rfl
  rw [readValue] <;> simp [hlist, hmapping]

theorem roundTrips_null : RoundTrips depth .null := by
  intro k fuel rest _ _
  exact (readValue_scalar (by simp [writeValue, writeScalar])).trans (readScalar_null rest)

theorem roundTrips_bool (b : Bool) : RoundTrips depth (.bool b) := by
  intro k fuel rest _ _
  refine (readValue_scalar ?_).trans (readScalar_bool b rest)
  cases b <;> simp [writeValue, writeScalar]

/-- A written text is read back. -/
theorem roundTrips_str (s : String) : RoundTrips depth (.str s) := by
  intro k fuel rest _ _
  refine (readValue_scalar ?_).trans (readScalar_string s rest)
  simp [writeValue, writeScalar, writeText, writeString]

/-- A written integer is read back, if it has no more digits than are read. -/
theorem roundTrips_int {n : Int} (hn : n.natAbs < 10 ^ Integer.maxDigits) :
    RoundTrips depth (.int n) := by
  intro k fuel rest _ hrest
  refine (readValue_scalar ?_).trans (readScalar_int hn hrest)
  obtain ⟨c, cs, hcs, hc⟩ := exists_toString_eq_cons n
  have hne : c ≠ '[' ∧ c ≠ '\x7b' := by
    rcases hc with rfl | hc
    · decide
    · have hall : ∀ d ∈ ['[', '\x7b'], c ≠ d := ne_of_isDigit hc (by decide)
      simpa using hall
  change ∀ c ∈ ((toString n).toList ++ rest).head?, _
  rw [hcs]
  simpa using hne

/-! ## Lists -/

/-- The written items of a list are read back, up to the bracket after them. -/
theorem readItems_write {k j : Nat} {items : List Value} (hv : RoundTrips depth v)
    (hitems : ∀ w ∈ items, StartsValue (writeValue k w) ∧ RoundTrips depth w)
    (hfuel : (writeValue k v).length + (writeItems k items).length ≤ fuel) :
    readItems (fuel + 2) depth
        (writeValue k v ++ (writeItems k items ++ (newline j ++ ']' :: rest))) =
      .ok (v :: items, rest) := by
  induction items generalizing v fuel with
  | nil =>
    rw [writeItems, List.nil_append, readItems, hv k fuel _ (by omega) (followsValue_newline j)]
    simp only [skipSpace_newline j (.cons (by decide) : StartsPart (']' :: rest))]
  | cons w items ih =>
    -- The comma and the line feed after it make up for the steps that the tail takes.
    have hlen : (writeItems k (w :: items)).length =
        2 * k + 2 + (writeValue k w).length + (writeItems k items).length := by
      simp only [writeItems, List.length_append, List.length_cons, length_newline]
    obtain ⟨hstart, hw⟩ := hitems w List.mem_cons_self
    obtain ⟨fuel, rfl⟩ := Nat.exists_eq_add_one.2 (by omega : 0 < fuel)
    have htail : readItems (fuel + 2) depth
        (writeValue k w ++ (writeItems k items ++ (newline j ++ ']' :: rest))) =
        .ok (w :: items, rest) :=
      ih hw (fun u hu => hitems u (List.mem_cons_of_mem _ hu)) (by omega)
    rw [writeItems]
    simp only [List.cons_append, List.append_assoc]
    rw [readItems, hv k _ _ (by omega) followsValue_comma]
    simp only [skipSpace_of_startsPart (.cons (by decide) : StartsPart (',' :: _)),
      skipSpace_newline k (hstart.append _).startsPart, htail]
    rfl

/-- After its bracket a list is read item by item, one level deeper. -/
theorem readValue_list (hs : StartsValue cs) (k : Nat) :
    readValue (fuel + 1) (depth + 1) ('[' :: (newline k ++ cs)) =
      (readItems fuel depth cs).map fun (vs, rest) => (.list vs, rest) := by
  rw [readValue, skipSpace_newline k hs.startsPart]
  obtain ⟨c, hc, -, hclose⟩ := hs
  split
  · exact absurd (Option.some.inj hc).symm hclose
  · rfl

/-- A list is read back if its items are. -/
theorem roundTrips_list {items : List Value} (h : ∀ v ∈ items, Plain depth v)
    (ih : ∀ v ∈ items, RoundTrips depth v) : RoundTrips (depth + 1) (.list items) := by
  intro k fuel rest hfuel hrest
  cases items with
  | nil =>
    rw [writeValue, List.cons_append, List.cons_append, List.nil_append, readValue,
      skipSpace_of_startsPart (.cons (by decide))]
    rfl
  | cons v items =>
    rw [List.forall_mem_cons] at h ih
    simp only [writeValue, List.length_append, List.length_cons, length_newline] at hfuel
    obtain ⟨fuel, rfl⟩ := Nat.exists_eq_add_of_le' (by omega : 2 ≤ fuel)
    have hitems : readItems (fuel + 2) depth (writeValue (k + 1) v ++
        (writeItems (k + 1) items ++ (newline k ++ ']' :: rest))) = .ok (v :: items, rest) :=
      readItems_write ih.1 (fun w hw => ⟨startsValue_writeValue (h.2 w hw) _, ih.2 w hw⟩) (by omega)
    rw [writeValue]
    simp only [List.cons_append, List.append_assoc, List.nil_append]
    rw [readValue_list ((startsValue_writeValue h.1 _).append _), hitems]
    rfl

/-! ## Mappings -/

/-- A new name goes to the end. -/
theorem put_of_nodup {es : Entries} {name : String} {more : List Scalar}
    (hnames : ∀ e ∈ es, IsName e.1) (h : (es.keys ++ .str name :: more).Nodup) :
    es.put (.str name) v = es ++ [(.str name, v)] := by
  induction es with
  | nil => rfl
  | cons e es ih =>
    rw [List.forall_mem_cons] at hnames
    obtain ⟨⟨other, hother⟩, hnames⟩ := hnames
    rw [Entries.keys_cons, List.cons_append, List.nodup_cons, hother] at h
    have hkey : e.1.key ≠ (Scalar.str name).key := by
      rw [hother]
      exact fun hk => h.1 (by simp [Key.text.inj hk])
    rw [Entries.put, if_neg hkey, ih hnames h.2, List.cons_append]

/-- What is read after a field: the end of the mapping, or a comma and the next field. -/
def readMore (fuel depth : Nat) (es : Entries) (cs : List Char) :
    Except ReadError (Entries × List Char) :=
  match skipSpace cs with
  | '\x7d' :: rest => .ok (es, rest)
  | ',' :: rest => readFields fuel depth es (skipSpace rest)
  | _ => .error .malformed

/-- The first field of a mapping is read back, and then what follows it. -/
theorem readFields_writeString {k : Nat} {name : String} {before : Entries} {tail : List Char}
    (hstart : StartsValue (writeValue k v)) (hv : RoundTrips depth v)
    (hfuel : (writeValue k v).length ≤ fuel) (htail : FollowsValue tail) :
    readFields (fuel + 2) depth before
        (writeString name ++ ':' :: ' ' :: (writeValue k v ++ tail)) =
      readMore (fuel + 1) depth (before.put (.str name) v) tail := by
  have hspace : skipSpace (' ' :: (writeValue k v ++ tail)) = writeValue k v ++ tail := by
    rw [skipSpace, List.dropWhile_cons, if_pos (by decide)]
    exact skipSpace_of_startsPart (hstart.append tail).startsPart
  rw [writeString, List.append_assoc, List.cons_append, List.singleton_append, readFields,
    readString_flatMap]
  simp only [skipSpace_of_startsPart (.cons (by decide) : StartsPart (':' :: _)), hspace,
    hv k fuel tail hfuel htail]
  rfl

/-- The written fields of a mapping are read back after those before them, up to the brace at the
    end. -/
theorem readFields_write {k j : Nat} {name : String} {es before : Entries}
    (hstart : StartsValue (writeValue k v)) (hv : RoundTrips depth v)
    (hes : ∀ e ∈ es, IsName e.1 ∧ StartsValue (writeValue k e.2) ∧ RoundTrips depth e.2)
    (hbefore : ∀ e ∈ before, IsName e.1) (hnodup : (before.keys ++ .str name :: es.keys).Nodup)
    (hfuel : (writeValue k v).length + (writeFields k es).length ≤ fuel) :
    readFields (fuel + 2) depth before
        (writeString name ++ ':' :: ' ' :: (writeValue k v ++
          (writeFields k es ++ (newline j ++ '\x7d' :: rest)))) =
      .ok (before ++ (.str name, v) :: es, rest) := by
  induction es generalizing v name before fuel with
  | nil =>
    rw [writeFields, List.nil_append,
      readFields_writeString hstart hv (by omega) (followsValue_newline j), readMore,
      skipSpace_newline j (.cons (by decide)), put_of_nodup hbefore hnodup]
    rfl
  | cons e es ih =>
    obtain ⟨e, w⟩ := e
    obtain ⟨⟨⟨next, rfl⟩, hwstart, hw⟩, htail⟩ := List.forall_mem_cons.1 hes
    have hlen : (writeFields k ((.str next, w) :: es)).length =
        2 * k + 2 + (writeString next).length + 2 + (writeValue k w).length +
          (writeFields k es).length := by
      simp only [writeFields, writeName, writeText, List.length_append, List.length_cons,
        List.length_nil, length_newline]
    obtain ⟨fuel, rfl⟩ := Nat.exists_eq_add_one.2 (by omega : 0 < fuel)
    -- The rest is read with the field behind those before it.
    have hbefore' : ∀ f ∈ before ++ [(.str name, v)], IsName f.1 := by
      intro f hf
      rcases List.mem_append.1 hf with hf | hf
      · exact hbefore f hf
      · exact ⟨name, by rw [List.mem_singleton.1 hf]⟩
    have hread : readFields (fuel + 2) depth (before ++ [(.str name, v)])
        (writeString next ++ ':' :: ' ' :: (writeValue k w ++
          (writeFields k es ++ (newline j ++ '\x7d' :: rest)))) =
        .ok (before ++ [(.str name, v)] ++ (.str next, w) :: es, rest) :=
      ih hwstart hw htail hbefore' (by simpa [Entries.keys] using hnodup) (by omega)
    rw [writeFields]
    simp only [List.cons_append, List.append_assoc, List.nil_append]
    rw [readFields_writeString hstart hv (by omega) followsValue_comma, readMore,
      skipSpace_of_startsPart (.cons (by decide)), put_of_nodup hbefore hnodup]
    simp only [writeName, writeText]
    rw [skipSpace_newline k ⟨'"', rfl, by decide⟩, hread, List.append_assoc]
    rfl

/-- After its brace a mapping is read field by field, one level deeper. -/
theorem readValue_mapping {name : String} (k : Nat) :
    readValue (fuel + 1) (depth + 1) ('\x7b' :: (newline k ++ (writeString name ++ cs))) =
      (readFields fuel depth [] (writeString name ++ cs)).map
        fun (es, rest) => (.mapping es, rest) := by
  rw [readValue, skipSpace_newline k ⟨'"', rfl, by decide⟩]
  rfl

/-- A mapping with different names is read back if its values are. -/
theorem roundTrips_mapping {es : Entries} (hnames : ∀ e ∈ es, IsName e.1)
    (hnodup : es.keys.Nodup) (h : ∀ e ∈ es, Plain depth e.2)
    (ih : ∀ e ∈ es, RoundTrips depth e.2) : RoundTrips (depth + 1) (.mapping es) := by
  intro k fuel rest hfuel hrest
  cases es with
  | nil =>
    rw [writeValue, List.cons_append, List.cons_append, List.nil_append, readValue,
      skipSpace_of_startsPart (.cons (by decide))]
    rfl
  | cons e es =>
    obtain ⟨key, v⟩ := e
    rw [List.forall_mem_cons] at hnames h ih
    obtain ⟨⟨name, rfl⟩, hnames⟩ := hnames
    simp only [writeValue, List.length_append, List.length_cons, length_newline] at hfuel
    obtain ⟨fuel, rfl⟩ := Nat.exists_eq_add_of_le' (by omega : 2 ≤ fuel)
    have hes : ∀ e ∈ es, IsName e.1 ∧ StartsValue (writeValue (k + 1) e.2) ∧ RoundTrips depth e.2 :=
      fun e he => ⟨hnames e he, startsValue_writeValue (h.2 e he) _, ih.2 e he⟩
    have hfields : readFields (fuel + 2) depth []
        (writeString name ++ ':' :: ' ' :: (writeValue (k + 1) v ++
          (writeFields (k + 1) es ++ (newline k ++ '\x7d' :: rest)))) =
        .ok ((.str name, v) :: es, rest) :=
      readFields_write (startsValue_writeValue h.1 _) ih.1 hes (by simp) hnodup (by omega)
    rw [writeValue]
    simp only [List.cons_append, List.append_assoc, List.nil_append]
    rw [writeName, writeText, readValue_mapping, hfields]
    rfl

/-! ## Values -/

/-- Every plain value is read back, by induction on how it is plain. -/
theorem roundTrips_of_plain (h : Plain depth v) : RoundTrips depth v := by
  induction h with
  | null => exact roundTrips_null
  | bool b => exact roundTrips_bool b
  | int h => exact roundTrips_int h
  | str s => exact roundTrips_str s
  | list h ih => exact roundTrips_list h ih
  | mapping hnames hnodup h ih => exact roundTrips_mapping hnames hnodup h ih

/-- A value that JSON has a form for is read back from its text. -/
theorem read_write [Limits] (h : Plain Limits.json v) : read (write v) = .ok v := by
  have hstart : StartsPart (write v) := (startsValue_writeValue h 0).startsPart
  have hread : readValue ((write v).length + 1) Limits.json (write v ++ []) = .ok (v, []) :=
    roundTrips_of_plain h 0 _ [] (Nat.le_refl _) (by simp [FollowsValue])
  rw [List.append_nil] at hread
  rw [read, skipSpace_of_startsPart hstart, hread]
  rfl

end CategoryLint.Json
