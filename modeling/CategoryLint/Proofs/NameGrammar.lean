import CategoryLint.Proofs.Splitting
import CategoryLint.Setting.Override

/-!
# Names as paths

The rest of a variable's name after the prefix writes a path (`Spells`). Its segments stand
between double underscores, or between single ones if there is no double one. None is empty. In a
run of underscores the first two are taken for the separator, so a segment can start with one, and
only the last segment can end with one.

A name writes one path at most, for a text is cut at doubled separators in one way only
(`splitOnDouble_eq_iff`). A name that writes a path is read as that path, and every other name is
refused, or passed over where names are not strict (`parsePath_spells`).
-/

namespace CategoryLint

/-! ## Doubled separators -/

namespace Text

variable {sep : Char} {cs part rest : List Char} {parts : List (List Char)}

theorem hasDouble_iff : hasDouble sep cs ↔ [sep, sep] <:+: cs := by
  fun_induction hasDouble sep cs with
  | case1 => simp
  | case2 c => simp [List.infix_cons_iff]
  | case3 c d cs ih =>
    have hcons : [sep, sep] <:+: c :: d :: cs ↔
        [sep, sep] <+: c :: d :: cs ∨ [sep, sep] <:+: d :: cs := List.infix_cons_iff
    rw [Bool.or_eq_true, decide_eq_true_iff, ih, hcons]
    simp [List.cons_prefix_cons, eq_comm]

/-- A text with a separator after it has a doubled one if it has one itself or ends with a
    separator. -/
theorem infix_append_singleton_iff :
    [sep, sep] <:+: part ++ [sep] ↔ [sep, sep] <:+: part ∨ [sep] <:+ part := by
  rw [List.infix_concat_iff, List.suffix_concat_iff, or_comm]
  refine or_congr_right ⟨?_, fun h => .inr ⟨[sep], rfl, h⟩⟩
  rintro (h | ⟨t, ht, hsuffix⟩)
  · cases h
  · obtain ⟨rfl, -⟩ := List.append_inj' (show [sep] ++ [sep] = t ++ [sep] from ht) rfl
    exact hsuffix

/-- Parts that are the pieces of a text between doubled separators, taken from the left. -/
structure IsCut (sep : Char) (parts : List (List Char)) : Prop where
  /-- There is a part. -/
  ne_nil : parts ≠ []
  /-- No part has a doubled separator in it. -/
  not_double : ∀ p ∈ parts, ¬[sep, sep] <:+: p
  /-- No part but the last ends with a separator. -/
  not_end : ∀ p ∈ parts.dropLast, ¬[sep] <:+ p

theorem isCut_singleton : IsCut sep [part] ↔ ¬[sep, sep] <:+: part := by
  refine ⟨fun h => h.not_double part List.mem_cons_self, fun h => ?_⟩
  exact ⟨List.cons_ne_nil _ _, List.forall_mem_singleton.2 h, fun p hp => absurd hp (by simp)⟩

/-- In a cut the double separator after a part is the first one from its start. -/
theorem isCut_cons (hparts : parts ≠ []) :
    IsCut sep (part :: parts) ↔ ¬[sep, sep] <:+: part ++ [sep] ∧ IsCut sep parts := by
  have hlast : (part :: parts).dropLast = part :: parts.dropLast :=
    List.dropLast_cons_of_ne_nil hparts
  rw [infix_append_singleton_iff, not_or]
  constructor
  · rintro ⟨-, hdouble, hend⟩
    rw [List.forall_mem_cons] at hdouble
    rw [hlast, List.forall_mem_cons] at hend
    exact ⟨⟨hdouble.1, hend.1⟩, hparts, hdouble.2, hend.2⟩
  · rintro ⟨⟨hdouble, hend⟩, h⟩
    refine ⟨List.cons_ne_nil _ _, List.forall_mem_cons.2 ⟨hdouble, h.not_double⟩, ?_⟩
    rw [hlast]
    exact List.forall_mem_cons.2 ⟨hend, h.not_end⟩

/-- A text with a doubled separator has a first one: no other starts before it, not even at the
    place right before. -/
theorem exists_first_double (h : [sep, sep] <:+: cs) :
    ∃ part rest, cs = part ++ sep :: sep :: rest ∧ ¬[sep, sep] <:+: part ++ [sep] := by
  induction cs with
  | nil => simp at h
  | cons c cs ih =>
    by_cases hfirst : [sep, sep] <+: c :: cs
    · obtain ⟨rest, hrest⟩ := hfirst
      refine ⟨[], rest, hrest.symm, fun hdouble => ?_⟩
      simpa using hdouble.length_le
    · obtain ⟨part, rest, rfl, hpart⟩ := ih ((List.infix_cons_iff.1 h).resolve_left hfirst)
      refine ⟨c :: part, rest, rfl, fun hdouble => ?_⟩
      rcases List.infix_cons_iff.1 hdouble with hstart | hinfix
      · -- It would be the first two characters of the whole text.
        refine hfirst (hstart.trans ⟨sep :: rest, ?_⟩)
        simp
      · exact hpart hinfix

theorem splitOnDouble_of_not_infix (h : ¬[sep, sep] <:+: cs) : splitOnDouble sep cs = [cs] := by
  fun_induction splitOnDouble sep cs with
  | case1 => rfl
  | case2 c => rfl
  | case3 c d cs hsep =>
    obtain ⟨rfl, rfl⟩ := hsep
    exact absurd ⟨[], cs, rfl⟩ h
  | case4 c d cs hsep ih =>
    rw [ih fun hinfix => h (List.infix_cons_iff.2 (.inr hinfix))]
    rfl

/-- Up to the first doubled separator is the first part. -/
theorem splitOnDouble_append (h : ¬[sep, sep] <:+: part ++ [sep]) (rest : List Char) :
    splitOnDouble sep (part ++ sep :: sep :: rest) = part :: splitOnDouble sep rest := by
  induction part with
  | nil => rw [List.nil_append, splitOnDouble, if_pos ⟨rfl, rfl⟩]
  | cons c part ih =>
    have ih := ih fun hinfix => h (List.infix_cons_iff.2 (.inr hinfix))
    -- The next character is a separator only if `c` is none.
    obtain ⟨d, tail, htail, hd⟩ :
        ∃ d tail, part ++ sep :: sep :: rest = d :: tail ∧ ¬(c = sep ∧ d = sep) := by
      cases part with
      | nil => exact ⟨sep, sep :: rest, rfl, fun hc => h ⟨[], [], by simp [hc.1]⟩⟩
      | cons d part =>
        refine ⟨d, part ++ sep :: sep :: rest, rfl, ?_⟩
        rintro ⟨rfl, rfl⟩
        exact h ⟨[], part ++ [d], rfl⟩
    rw [htail] at ih
    rw [List.cons_append, htail, splitOnDouble, if_neg hd, ih, consFirst]

/-- Splitting what a cut joins gives the cut. -/
theorem splitOnDouble_intercalate (h : IsCut sep parts) :
    splitOnDouble sep ([sep, sep].intercalate parts) = parts := by
  induction parts with
  | nil => exact absurd rfl h.ne_nil
  | cons part parts ih =>
    cases parts with
    | nil =>
      rw [List.intercalate_singleton]
      exact splitOnDouble_of_not_infix (isCut_singleton.1 h)
    | cons next parts =>
      obtain ⟨hpart, hparts⟩ := (isCut_cons (List.cons_ne_nil _ _)).1 h
      rw [List.intercalate_cons_cons, List.append_assoc]
      exact (splitOnDouble_append hpart _).trans (congrArg _ (ih hparts))

/-- Every text is joined from a cut. -/
theorem exists_isCut (sep : Char) (cs : List Char) :
    ∃ parts, IsCut sep parts ∧ [sep, sep].intercalate parts = cs := by
  -- The induction is on the length: what follows the first doubled separator is shorter.
  induction hn : cs.length using Nat.strongRecOn generalizing cs with
  | ind n ih =>
    by_cases h : [sep, sep] <:+: cs
    · obtain ⟨part, rest, rfl, hpart⟩ := exists_first_double h
      have hlt : rest.length < n := by
        rw [← hn, List.length_append, List.length_cons, List.length_cons]
        omega
      obtain ⟨parts, hparts, rfl⟩ := ih _ hlt rest rfl
      refine ⟨part :: parts, (isCut_cons hparts.ne_nil).2 ⟨hpart, hparts⟩, ?_⟩
      obtain ⟨next, parts, rfl⟩ := List.exists_cons_of_ne_nil hparts.ne_nil
      rw [List.intercalate_cons_cons, List.append_assoc]
      rfl
    · exact ⟨[cs], isCut_singleton.2 h, List.intercalate_singleton ..⟩

/-- Splitting at doubled separators is the only way to cut a text at them from the left. -/
theorem splitOnDouble_eq_iff :
    splitOnDouble sep cs = parts ↔ [sep, sep].intercalate parts = cs ∧ IsCut sep parts := by
  constructor
  · rintro rfl
    obtain ⟨parts, hparts, rfl⟩ := exists_isCut sep cs
    rw [splitOnDouble_intercalate hparts]
    exact ⟨rfl, hparts⟩
  · rintro ⟨rfl, hparts⟩
    exact splitOnDouble_intercalate hparts

theorem splitOn_eq_iff :
    splitOn sep cs = parts ↔
      [sep].intercalate parts = cs ∧ parts ≠ [] ∧ ∀ p ∈ parts, sep ∉ p := by
  constructor
  · rintro rfl
    exact ⟨intercalate_splitOn sep cs, splitOn_ne_nil sep cs,
      fun p hp => (mem_splitOn_iff.1 hp).1⟩
  · rintro ⟨rfl, hne, hfree⟩
    exact splitOn_intercalate hne hfree

end Text

/-! ## Paths -/

namespace Override

variable {tail : String} {path : List String} {strict : Bool}

/-- The rest of a variable's name writes a path. -/
inductive Spells (tail : String) (path : List String) : Prop where
  /-- The segments stand between double underscores. -/
  | doubled : "__".toList <:+: tail.toList → tail = "__".intercalate path → 2 ≤ path.length →
      (∀ seg ∈ path, seg ≠ "" ∧ ¬"__".toList <:+: seg.toList) →
      (∀ seg ∈ path.dropLast, ¬"_".toList <:+ seg.toList) → Spells tail path
  /-- The segments stand between single underscores. -/
  | single : ¬"__".toList <:+: tail.toList → tail = "_".intercalate path → path ≠ [] →
      (∀ seg ∈ path, seg ≠ "" ∧ '_' ∉ seg.toList) → Spells tail path

/-- An error tells the name of the variable that it is about. -/
structure IsAbout (tail : String) (e : ConfigError) : Prop where
  /-- It is an error of the configuration. -/
  kind : e.report.kind = .configuration
  /-- The name is its only entry. -/
  context : e.report.context = [(.str "key", .str ("PATTERNLINT_" ++ tail))]

theorem Spells.ne_nil (h : Spells tail path) : path ≠ [] := by
  cases h with
  | doubled _ _ hlength =>
    rintro rfl
    simp at hlength
  | single _ _ hne => exact hne

theorem Spells.ne_empty (h : Spells tail path) : ∀ seg ∈ path, seg ≠ "" := by
  cases h with
  | doubled _ _ _ hseg => exact fun seg hmem => (hseg seg hmem).1
  | single _ _ _ hseg => exact fun seg hmem => (hseg seg hmem).1

theorem intercalate_toList_eq_iff {sep : String} :
    sep.toList.intercalate (path.map String.toList) = tail.toList ↔
      tail = sep.intercalate path := by
  rw [← String.toList_intercalate, String.toList_inj, eq_comm]

/-- With a double underscore, the segments are the parts between double underscores. -/
theorem segments_eq_iff_of_double (hdouble : "__".toList <:+: tail.toList) :
    segments tail.toList = path.map String.toList ↔
      tail = "__".intercalate path ∧ Text.IsCut '_' (path.map String.toList) := by
  have hif : Text.hasDouble '_' tail.toList = true := Text.hasDouble_iff.2 hdouble
  rw [segments, if_pos hif, Text.splitOnDouble_eq_iff, ← intercalate_toList_eq_iff]
  rfl

/-- The segments of a name without double underscores. -/
theorem segments_eq_iff_of_single (hsingle : ¬"__".toList <:+: tail.toList) :
    segments tail.toList = path.map String.toList ↔
      tail = "_".intercalate path ∧ path ≠ [] ∧ ∀ seg ∈ path, '_' ∉ seg.toList := by
  have hif : ¬Text.hasDouble '_' tail.toList = true := fun h => hsingle (Text.hasDouble_iff.1 h)
  rw [segments, if_neg hif, Text.splitOn_eq_iff, ← intercalate_toList_eq_iff,
    List.forall_mem_map, Ne, List.map_eq_nil_iff]
  rfl

/-- A text with a double underscore that is joined from segments without one has two of them. -/
theorem two_le_length (hdouble : "__".toList <:+: tail.toList)
    (htail : tail = "__".intercalate path) (hpath : path ≠ [])
    (hseg : ∀ seg ∈ path, ¬"__".toList <:+: seg.toList) : 2 ≤ path.length := by
  obtain ⟨seg, segs, rfl⟩ := List.exists_cons_of_ne_nil hpath
  cases segs with
  | nil =>
    rw [htail, String.intercalate_singleton] at hdouble
    exact absurd hdouble (hseg seg List.mem_cons_self)
  | cons next segs => simp

/-- A name writes the path that its segments are, if none of them is empty. -/
theorem spells_iff :
    Spells tail path ↔ segments tail.toList = path.map String.toList ∧ ∀ seg ∈ path, seg ≠ "" := by
  by_cases hdouble : "__".toList <:+: tail.toList
  · rw [segments_eq_iff_of_double hdouble]
    constructor
    · intro h
      have hne := h.ne_nil
      refine ⟨?_, h.ne_empty⟩
      cases h with
      | single hsingle => exact absurd hdouble hsingle
      | doubled _ htail _ hseg hlast =>
        refine ⟨htail, by simpa using hne, ?_, ?_⟩
        · exact List.forall_mem_map.2 fun seg hmem => (hseg seg hmem).2
        · rw [← List.map_dropLast]
          exact List.forall_mem_map.2 hlast
    · rintro ⟨⟨htail, hne, hsegs, hlast⟩, hempty⟩
      rw [List.forall_mem_map] at hsegs
      rw [← List.map_dropLast, List.forall_mem_map] at hlast
      refine .doubled hdouble htail ?_ (fun seg hmem => ⟨hempty seg hmem, hsegs seg hmem⟩) hlast
      exact two_le_length hdouble htail (by simpa using hne) hsegs
  · rw [segments_eq_iff_of_single hdouble]
    constructor
    · intro h
      refine ⟨?_, h.ne_empty⟩
      cases h with
      | doubled hdouble' => exact absurd hdouble' hdouble
      | single _ htail hne hseg => exact ⟨htail, hne, fun seg hmem => (hseg seg hmem).2⟩
    · rintro ⟨⟨htail, hne, hsegs⟩, hempty⟩
      exact .single hdouble htail hne fun seg hmem => ⟨hempty seg hmem, hsegs seg hmem⟩

/-- A name spells no path exactly if one of its segments is empty. -/
theorem forall_not_spells_iff : (∀ path, ¬Spells tail path) ↔ [] ∈ segments tail.toList := by
  constructor
  · intro h
    refine Classical.byContradiction fun hmem => h ((segments tail.toList).map String.ofList) ?_
    refine spells_iff.2 ⟨by simp [Function.comp_def], ?_⟩
    rintro seg hseg rfl
    obtain ⟨cs, hcs, hofList⟩ := List.mem_map.1 hseg
    obtain rfl : cs = [] := by simpa using hofList
    exact hmem hcs
  · intro hmem path h
    obtain ⟨hsegs, hempty⟩ := spells_iff.1 h
    rw [hsegs] at hmem
    obtain ⟨seg, hseg, htoList⟩ := List.mem_map.1 hmem
    exact hempty seg hseg (String.toList_inj.1 htoList)

/-- A name that writes a path is read as that path. -/
theorem parsePath_of_spells (strict : Bool) (h : Spells tail path) :
    parsePath strict tail = .ok path := by
  obtain ⟨hsegs, hempty⟩ := spells_iff.1 h
  have hany : (segments tail.toList).any (·.isEmpty) = false := by
    rw [List.any_eq_false, hsegs]
    refine List.forall_mem_map.2 fun seg hseg => ?_
    simpa using hempty seg hseg
  rw [parsePath, hany, hsegs]
  simp [Function.comp_def]

/-- A name that writes no path is refused, or passed over. -/
theorem parsePath_of_not_spells (h : ∀ path, ¬Spells tail path) :
    parsePath true tail = .error (.emptySegment tail) ∧ parsePath false tail = .ok [] := by
  have hany : (segments tail.toList).any (·.isEmpty) = true :=
    List.any_eq_true.2 ⟨[], forall_not_spells_iff.1 h, rfl⟩
  simp [parsePath, hany]

/-- A name is read as the path that it writes. One that writes none, such as the empty one, is
    refused by an error that tells the name of the variable, or passed over. -/
theorem parsePath_spells (tail : String) :
    (∀ strict path, parsePath strict tail = .ok path ∧ path ≠ [] ↔ Spells tail path) ∧
    ((∀ path, ¬Spells tail path) ↔ ∃ e, parsePath true tail = .error e ∧ IsAbout tail e) ∧
    ((∀ path, ¬Spells tail path) ↔ parsePath false tail = .ok []) ∧
    ∀ path, ¬Spells "" path := by
  refine ⟨fun strict path => ⟨?_, fun h => ⟨parsePath_of_spells strict h, h.ne_nil⟩⟩, ?_, ?_, ?_⟩
  · rintro ⟨hok, hne⟩
    by_cases h : ∃ path, Spells tail path
    · obtain ⟨path', h⟩ := h
      cases hok.symm.trans (parsePath_of_spells strict h)
      exact h
    · obtain ⟨htrue, hfalse⟩ := parsePath_of_not_spells (not_exists.1 h)
      cases strict with
      | true => cases hok.symm.trans htrue
      | false =>
        cases hok.symm.trans hfalse
        exact absurd rfl hne
  · constructor
    · exact fun h => ⟨_, (parsePath_of_not_spells h).1, rfl, rfl⟩
    · rintro ⟨e, he, -⟩ path h
      cases he.symm.trans (parsePath_of_spells true h)
  · refine ⟨fun h => (parsePath_of_not_spells h).2, fun hok path h => h.ne_nil ?_⟩
    cases hok.symm.trans (parsePath_of_spells false h)
    rfl
  · exact forall_not_spells_iff.2 (by decide)

example : Spells "a___b__c_" ["a", "_b", "c_"] := by
  rw [spells_iff]
  decide +kernel

end Override

end CategoryLint
