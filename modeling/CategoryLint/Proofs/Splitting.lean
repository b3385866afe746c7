import CategoryLint.Text.Blank
import CategoryLint.Text.Split
import Mathlib.Data.List.DropRight

/-!
# Parts of a text

What `splitOn` gives are the maximal pieces of a text without the separator
(`mem_splitOn_iff`): for the line feed, its lines. What `trim` leaves has no blank at its ends
(`trim_eq_self_iff_forall`). Splitting undoes joining: pieces without the separator, joined with
it, are found again (`splitOn_intercalate`), also if blanks are put after the separators and
trimmed off again (`map_trim_splitOn_join`).
-/

namespace CategoryLint.Text

variable {sep : Char}

/-! ## Maximal pieces -/

theorem splitOn_of_not_mem {cs : List Char} (h : sep ∉ cs) : splitOn sep cs = [cs] := by
  induction cs with
  | nil => rfl
  | cons c cs ih =>
    have hc : c ≠ sep := fun e => h (e ▸ List.mem_cons_self)
    rw [splitOn, if_neg hc, ih fun hs => h (List.mem_cons_of_mem _ hs)]
    rfl

/-- The first part goes up to the first separator. -/
theorem splitOn_append_cons {part : List Char} (h : sep ∉ part) (rest : List Char) :
    splitOn sep (part ++ sep :: rest) = part :: splitOn sep rest := by
  induction part with
  | nil => rw [List.nil_append, splitOn, if_pos rfl]
  | cons c part ih =>
    have hc : c ≠ sep := fun e => h (e ▸ List.mem_cons_self)
    rw [List.cons_append, splitOn, if_neg hc, ih fun hs => h (List.mem_cons_of_mem _ hs)]
    rfl

/-- What is put at the end of a text and has no separator is put at the end of the last part. -/
theorem splitOn_append_of_not_mem {tail : List Char} (h : sep ∉ tail) (cs : List Char) :
    ∃ parts part, splitOn sep cs = parts ++ [part] ∧
      splitOn sep (cs ++ tail) = parts ++ [part ++ tail] := by
  induction cs with
  | nil => exact ⟨[], [], rfl, splitOn_of_not_mem h⟩
  | cons d cs ih =>
    obtain ⟨parts, part, hcs, hcs'⟩ := ih
    rw [List.cons_append, splitOn, splitOn, hcs, hcs']
    split
    · exact ⟨[] :: parts, part, rfl, rfl⟩
    · cases parts with
      | nil => exact ⟨[], d :: part, rfl, rfl⟩
      | cons first parts => exact ⟨(d :: first) :: parts, part, rfl, rfl⟩

/-- A part starts right after the text `before`: it is empty or ends with the separator. -/
def StartsAfter (sep : Char) (before : List Char) : Prop := ∀ c ∈ before.getLast?, c = sep

/-- A part ends right before the text `after`: it is empty or starts with the separator. -/
def EndsBefore (sep : Char) (after : List Char) : Prop := ∀ c ∈ after.head?, c = sep

theorem StartsAfter.nil : StartsAfter sep [] := by simp [StartsAfter]

theorem EndsBefore.nil : EndsBefore sep [] := by simp [EndsBefore]

theorem EndsBefore.cons (rest : List Char) : EndsBefore sep (sep :: rest) := by
  simp [EndsBefore]

theorem StartsAfter.of_append_cons {before part : List Char}
    (h : StartsAfter sep (part ++ sep :: before)) : StartsAfter sep before := by
  intro c hc
  refine h c ?_
  rw [List.getLast?_append, List.getLast?_cons, Option.mem_def.1 hc]
  rfl

theorem StartsAfter.append_cons {before : List Char} (h : StartsAfter sep before)
    (part : List Char) :
    StartsAfter sep (part ++ sep :: before) := by
  intro c hc
  cases hb : before.getLast? with
  | none => simpa [List.getLast?_append, List.getLast?_cons, hb, eq_comm] using hc
  | some b =>
    have hc : b = c := by simpa [List.getLast?_append, List.getLast?_cons, hb] using hc
    exact hc ▸ h b hb

/-- A part stands between separators or the ends of the text. -/
theorem exists_of_mem_splitOn {part cs : List Char} (h : part ∈ splitOn sep cs) :
    sep ∉ part ∧ ∃ before after, cs = before ++ (part ++ after) ∧ StartsAfter sep before ∧
      EndsBefore sep after := by
  -- The induction is on the length: a text with a separator has its first piece in front of a
  -- shorter text, and all others in that.
  induction hn : cs.length using Nat.strongRecOn generalizing cs with
  | ind n ih =>
    by_cases hs : sep ∈ cs
    · obtain ⟨first, rest, rfl, hfirst⟩ := List.eq_append_cons_of_mem hs
      rw [splitOn_append_cons hfirst, List.mem_cons] at h
      rcases h with rfl | h
      · exact ⟨hfirst, [], sep :: rest, rfl, .nil, .cons rest⟩
      · have hlt : rest.length < n := by
          rw [← hn, List.length_append, List.length_cons]
          omega
        obtain ⟨hp, before, after, rfl, hb, ha⟩ := ih _ hlt h rfl
        exact ⟨hp, first ++ sep :: before, after, by simp, hb.append_cons first, ha⟩
    · rw [splitOn_of_not_mem hs, List.mem_singleton] at h
      exact ⟨h ▸ hs, [], [], by simp [h], .nil, .nil⟩

/-- What stands between separators or the ends of the text is a part. -/
theorem mem_splitOn_of_eq {part before after : List Char} (hp : sep ∉ part)
    (hb : StartsAfter sep before) (ha : EndsBefore sep after) :
    part ∈ splitOn sep (before ++ (part ++ after)) := by
  induction hn : before.length using Nat.strongRecOn generalizing before with
  | ind n ih =>
    cases hl : before.getLast? with
    | none =>
      rw [List.getLast?_eq_none_iff] at hl
      subst hl
      cases after with
      | nil => rw [List.append_nil, List.nil_append, splitOn_of_not_mem hp]; simp
      | cons c after =>
        obtain rfl : c = sep := ha c rfl
        rw [List.nil_append, splitOn_append_cons hp]
        exact List.mem_cons_self
    | some c =>
      have hs : sep ∈ before := hb c hl ▸ List.mem_of_getLast? hl
      obtain ⟨first, rest, rfl, hfirst⟩ := List.eq_append_cons_of_mem hs
      have hlt : rest.length < n := by
        rw [← hn, List.length_append, List.length_cons]
        omega
      rw [List.append_assoc, List.cons_append, splitOn_append_cons hfirst]
      exact List.mem_cons_of_mem _ (ih _ hlt hb.of_append_cons rfl)

/-- The parts of a text are its maximal pieces without the separator: those of the line feed
    are its lines. -/
theorem mem_splitOn_iff {part cs : List Char} :
    part ∈ splitOn sep cs ↔ sep ∉ part ∧ ∃ before after, cs = before ++ (part ++ after) ∧
      StartsAfter sep before ∧ EndsBefore sep after := by
  constructor
  · exact exists_of_mem_splitOn
  · rintro ⟨hp, before, after, rfl, hb, ha⟩
    exact mem_splitOn_of_eq hp hb ha

/-- A text has at least one part between doubled separators. -/
theorem splitOnDouble_ne_nil (sep : Char) (cs : List Char) : splitOnDouble sep cs ≠ [] := by
  fun_cases splitOnDouble sep cs with
  | case1 => simp
  | case2 => simp
  | case3 => simp
  | case4 c d cs h => cases splitOnDouble sep (d :: cs) <;> simp [consFirst]

/-! ## Trimming -/

theorem trim_cons {c : Char} (h : isBlank c) (cs : List Char) : trim (c :: cs) = trim cs := by
  rw [trim, List.dropWhile_cons, if_pos h, trim]

theorem trim_eq (cs : List Char) : trim cs = (cs.dropWhile isBlank).rdropWhile isBlank := rfl

theorem trim_infix (cs : List Char) : trim cs <:+: cs :=
  (List.rdropWhile_prefix isBlank _).isInfix.trans (List.dropWhile_suffix isBlank).isInfix

/-- A text is trimmed if there is nothing to drop on either side. -/
theorem trim_eq_self_iff {cs : List Char} :
    trim cs = cs ↔ cs.dropWhile isBlank = cs ∧ cs.rdropWhile isBlank = cs := by
  constructor
  · intro h
    have hlen : cs.length ≤ (cs.dropWhile isBlank).length := by
      conv_lhs => rw [← h, trim_eq]
      exact (List.rdropWhile_prefix isBlank _).length_le
    have hdrop : cs.dropWhile isBlank = cs := (List.dropWhile_suffix isBlank).eq_of_length_le hlen
    rw [trim_eq, hdrop] at h
    exact ⟨hdrop, h⟩
  · rintro ⟨hdrop, hrdrop⟩
    rw [trim_eq, hdrop, hrdrop]

/-- A trimmed text has no blank at its ends. -/
theorem trim_eq_self_iff_forall {cs : List Char} :
    trim cs = cs ↔ ∀ a c b, cs = a ++ c :: b → isBlank c → a ≠ [] ∧ b ≠ [] := by
  rw [trim_eq_self_iff, List.dropWhile_eq_self_iff, List.rdropWhile_eq_self_iff]
  constructor
  · rintro ⟨hfirst, hlast⟩ a c b rfl hc
    constructor
    · rintro rfl
      exact hfirst (by simp) hc
    · rintro rfl
      exact hlast (by simp) (by simpa using hc)
  · intro h
    refine ⟨fun hpos hc => ?_, fun hne hc => ?_⟩
    · obtain ⟨c, cs, rfl⟩ := List.exists_cons_of_length_pos hpos
      exact (h [] c cs rfl hc).1 rfl
    · exact (h _ _ [] (List.dropLast_append_getLast hne).symm hc).2 rfl

theorem trim_trim (cs : List Char) : trim (trim cs) = trim cs := by
  refine trim_eq_self_iff.2 ⟨?_, List.rdropWhile_idempotent _ _⟩
  -- What is left starts as it did before its end was trimmed.
  obtain ⟨rest, hrest⟩ := List.rdropWhile_prefix isBlank (cs.dropWhile isBlank)
  have hfirst := List.head?_dropWhile_not isBlank cs
  rw [← hrest, ← trim_eq] at hfirst
  cases ht : trim cs with
  | nil => rfl
  | cons c t =>
    have hc : ¬isBlank c := by simpa [ht] using hfirst
    rw [List.dropWhile_cons, if_neg hc]

theorem trim_append_singleton {c : Char} (h : isBlank c) (cs : List Char) :
    trim (cs ++ [c]) = trim cs := by
  rw [trim, trim, List.dropWhile_append]
  split
  · next hnil =>
    rw [List.dropWhile_cons, if_pos h, List.isEmpty_iff.1 hnil]
    rfl
  · rw [trimEnd, List.reverse_append, List.reverse_singleton, List.singleton_append,
      List.dropWhile_cons, if_pos h]
    rfl

/-- Blanks at the end are trimmed off. -/
theorem trim_append_blanks {blanks : List Char} (h : ∀ c ∈ blanks, isBlank c) (cs : List Char) :
    trim (cs ++ blanks) = trim cs := by
  induction blanks generalizing cs with
  | nil => rw [List.append_nil]
  | cons c blanks ih =>
    rw [List.forall_mem_cons] at h
    rw [List.append_cons, ih h.2, trim_append_singleton h.1]

/-- Blanks at the start are trimmed off. -/
theorem trim_blanks_append {blanks : List Char} (h : ∀ c ∈ blanks, isBlank c) (cs : List Char) :
    trim (blanks ++ cs) = trim cs := by
  rw [trim, trim, List.dropWhile_append_of_pos h]

theorem trim_of_forall_not_isBlank {cs : List Char} (h : ∀ c ∈ cs, ¬isBlank c) : trim cs = cs :=
  trim_eq_self_iff_forall.2 fun a c b hcs hc => absurd hc (h c (hcs ▸ by simp))

/-- The first blanks of two texts are those of the first, if the second has none. -/
theorem dropWhile_append_of_dropWhile_eq {tail : List Char} (h : tail.dropWhile isBlank = tail)
    (cs : List Char) : (cs ++ tail).dropWhile isBlank = cs.dropWhile isBlank ++ tail := by
  rw [List.dropWhile_append]
  split
  · next hnil => rw [h, List.isEmpty_iff.1 hnil, List.nil_append]
  · rfl

/-- Before a trimmed text that is not empty, the blanks at the end stay. -/
theorem exists_trim_append {tail : List Char} (h : trim tail = tail) (hne : tail ≠ [])
    (cs : List Char) :
    ∃ blanks, (∀ b ∈ blanks, isBlank b) ∧ trim (cs ++ tail) = trim cs ++ (blanks ++ tail) := by
  obtain ⟨hdrop, hrdrop⟩ := trim_eq_self_iff.1 h
  refine ⟨(cs.dropWhile isBlank).rtakeWhile isBlank, fun b hb => List.mem_rtakeWhile_imp hb, ?_⟩
  have hlast :
      (cs.dropWhile isBlank ++ tail).rdropWhile isBlank = cs.dropWhile isBlank ++ tail := by
    rw [List.rdropWhile_eq_self_iff] at hrdrop ⊢
    intro hne'
    rw [List.getLast_append_of_ne_nil _ hne]
    exact hrdrop hne
  rw [trim_eq, trim_eq, dropWhile_append_of_dropWhile_eq hdrop, hlast, ← List.append_assoc,
    List.rdropWhile_append_rtakeWhile]

/-! ## Joining -/

/-- What holds of the parts of a text, and of two texts that are joined, holds of the text. -/
theorem intercalate_of_forall {P : List Char → Prop} {sep : List Char} (hnil : P [])
    (hjoin : ∀ p q, P p → P q → P (p ++ (sep ++ q))) {parts : List (List Char)}
    (h : ∀ p ∈ parts, P p) : P (sep.intercalate parts) := by
  induction parts with
  | nil => exact hnil
  | cons p parts ih =>
    have hp : P p := h p List.mem_cons_self
    cases parts with
    | nil => rwa [List.intercalate_singleton]
    | cons q parts =>
      rw [List.intercalate_cons_cons, List.append_assoc]
      exact hjoin p _ hp (ih fun r hr => h r (List.mem_cons_of_mem _ hr))

/-- Parts without the separator that are joined with it are found by splitting. -/
theorem splitOn_intercalate {parts : List (List Char)} (hne : parts ≠ [])
    (hfree : ∀ p ∈ parts, sep ∉ p) : splitOn sep ([sep].intercalate parts) = parts := by
  induction parts with
  | nil => exact absurd rfl hne
  | cons p parts ih =>
    rw [List.forall_mem_cons] at hfree
    cases parts with
    | nil => rw [List.intercalate_singleton, splitOn_of_not_mem hfree.1]
    | cons q parts =>
      rw [List.intercalate_cons_cons, List.append_assoc, List.singleton_append,
        splitOn_append_cons hfree.1, ih (List.cons_ne_nil _ _) hfree.2]

/-- A blank before the first part is trimmed with it. -/
theorem map_trim_consFirst {c : Char} (h : isBlank c) {parts : List (List Char)}
    (hne : parts ≠ []) : (consFirst c parts).map trim = parts.map trim := by
  obtain ⟨part, parts, rfl⟩ := List.exists_cons_of_ne_nil hne
  rw [consFirst, List.map_cons, trim_cons h, List.map_cons]

/-- Trimmed parts that are joined with a separator and a space are found by splitting and
    trimming. -/
theorem map_trim_splitOn_join (hsep : ' ' ≠ sep) {parts : List (List Char)} (hne : parts ≠ [])
    (htrim : ∀ p ∈ parts, trim p = p) (hfree : ∀ p ∈ parts, sep ∉ p) :
    (splitOn sep ([sep, ' '].intercalate parts)).map trim = parts := by
  induction parts with
  | nil => exact absurd rfl hne
  | cons p parts ih =>
    have hp : sep ∉ p := hfree p List.mem_cons_self
    have tp : trim p = p := htrim p List.mem_cons_self
    cases parts with
    | nil => rw [List.intercalate_singleton, splitOn_of_not_mem hp, List.map_singleton, tp]
    | cons q parts =>
      have ih := ih (by simp) (fun r hr => htrim r (List.mem_cons_of_mem _ hr))
        fun r hr => hfree r (List.mem_cons_of_mem _ hr)
      rw [List.intercalate_cons_cons, List.append_assoc, List.cons_append, List.cons_append,
        List.nil_append, splitOn_append_cons hp, splitOn, if_neg hsep, List.map_cons, tp,
        map_trim_consFirst (by decide) (splitOn_ne_nil _ _), ih]

/-! ## Literals -/

theorem dropLiteral?_eq_some_iff {lit cs rest : List Char} :
    dropLiteral? lit cs = some rest ↔ cs = lit ++ rest := by
  induction lit generalizing cs with
  | nil => rw [dropLiteral?, Option.some.injEq, List.nil_append]
  | cons l lit ih =>
    cases cs with
    | nil => simp [dropLiteral?]
    | cons c cs =>
      rw [dropLiteral?, List.cons_append, List.cons.injEq]
      split
      · next hl => rw [ih]; exact ⟨fun h => ⟨hl.symm, h⟩, fun h => h.2⟩
      · next hl => exact ⟨fun h => by simp at h, fun h => absurd h.1.symm hl⟩

end CategoryLint.Text
