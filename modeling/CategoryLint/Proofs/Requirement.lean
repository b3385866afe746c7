import CategoryLint.Project.Check
import CategoryLint.Proofs.LowerCase
import CategoryLint.Proofs.PatternFile
import CategoryLint.Proofs.Step
import Mathlib.Data.List.Infix

/-!
# Requirements that can be met

The categories of a header are what is left of a line after the block was closed, the line cut
at its commas and the pieces trimmed: each of them is listable (`Listable`). A required category
is compared with them letter case aside, and lower case keeps the marks that decide this, so a
requirement that is met is listable too (`Listable.of_skeleton_eq`). Conversely, a file can be
written for every requirement that is listable: one that ends with `*/` closes the block itself.
-/

namespace CategoryLint

open Text Docblock

/-! ## Listable categories -/

/-- A category that a header can list: it is trimmed, on one line and without commas, and no
    `*/` in it comes before its end. -/
structure Listable (cs : List Char) : Prop where
  trimmed : trim cs = cs
  comma_not_mem : ',' ∉ cs
  newline_not_mem : '\n' ∉ cs
  closing_last : ∀ a b, cs = a ++ (closing ++ b) → b = []

namespace Listable

variable {cs ds : List Char}

theorem closing_last_iff :
    (∀ a b, cs = a ++ (closing ++ b) → b = []) ↔ ¬closing <:+: cs.dropLast := by
  constructor
  · rintro h ⟨a, b, hab⟩
    have hne : cs ≠ [] := fun hnil => by simp [hnil, closing] at hab
    have hcs : cs = a ++ (closing ++ (b ++ [cs.getLast hne])) := by
      rw [← List.append_assoc, ← List.append_assoc, hab, List.dropLast_append_getLast]
    simpa using h a _ hcs
  · rintro h a b rfl
    by_contra hb
    refine h ⟨a, b.dropLast, ?_⟩
    rw [List.append_assoc, List.dropLast_append_of_ne_nil (by simp [closing]),
      List.dropLast_append_of_ne_nil hb]

instance (cs : List Char) : Decidable (Listable cs) :=
  decidable_of_iff (trim cs = cs ∧ ',' ∉ cs ∧ '\n' ∉ cs ∧ ¬closing <:+: cs.dropLast)
    ⟨fun ⟨ht, hc, hn, hl⟩ => ⟨ht, hc, hn, closing_last_iff.2 hl⟩,
      fun h => ⟨h.trimmed, h.comma_not_mem, h.newline_not_mem, closing_last_iff.1 h.closing_last⟩⟩

/-- Whether a category is listable is a matter of its marks. -/
theorem of_skeleton_eq (h : skeleton cs = skeleton ds) (hcs : Listable cs) : Listable ds := by
  have hmark : ∀ a m b, ds = a ++ m :: b → isMark m →
      ∃ a' b', cs = a' ++ m :: b' ∧ skeleton a' = skeleton a ∧ skeleton b' = skeleton b := by
    rintro a m b rfl hm
    exact exists_of_skeleton_eq (h.trans (skeleton_append_mark hm))
  have hmem : ∀ m, isMark m → m ∉ cs → m ∉ ds := by
    intro m hm hnot hin
    obtain ⟨a, b, hds⟩ := List.append_of_mem hin
    obtain ⟨a', b', rfl, -⟩ := hmark a m b hds hm
    exact hnot (by simp)
  refine ⟨trim_eq_self_iff_forall.2 fun a c b hds hc => ?_, hmem _ (by decide) hcs.comma_not_mem,
    hmem _ (by decide) hcs.newline_not_mem, fun a b hds => ?_⟩
  · obtain ⟨a', b', hcs', ha, hb⟩ := hmark a c b hds (isMark_of_isBlank hc)
    obtain ⟨hna, hnb⟩ := trim_eq_self_iff_forall.1 hcs.trimmed a' c b' hcs' hc
    refine ⟨fun hnil => hna ?_, fun hnil => hnb ?_⟩
    · exact skeleton_eq_nil_iff.1 (ha.trans (skeleton_eq_nil_iff.2 hnil))
    · exact skeleton_eq_nil_iff.1 (hb.trans (skeleton_eq_nil_iff.2 hnil))
  · -- The slash follows the asterisk in both texts.
    obtain ⟨a', b', hcs', -, hb⟩ := hmark a '*' ('/' :: b) hds (by decide)
    obtain ⟨a'', b'', rfl, ha'', hb''⟩ :=
      exists_of_skeleton_eq (hb.trans (skeleton_append_mark (a := []) (by decide)))
    obtain rfl : a'' = [] := skeleton_eq_nil_iff.1 ha''
    have hnil : b'' = [] := hcs.closing_last a' b'' hcs'
    exact skeleton_eq_nil_iff.1 (hb''.symm.trans (skeleton_eq_nil_iff.2 hnil))

/-- Letter case does not matter for whether a category is listable. -/
theorem of_lower_eq {r s : String} (h : lower r = lower s) (hr : Listable r.toList) :
    Listable s.toList := by
  refine hr.of_skeleton_eq ?_
  have hchars : lowerChars r.toList = lowerChars s.toList := by
    simpa [lower] using congrArg String.toList h
  rw [← skeleton_lowerChars, hchars, skeleton_lowerChars]

end Listable

/-! ## What a header lists -/

/-- Nothing comes after a `*/` behind the start of a block. -/
theorem eq_nil_of_append_closing_eq {body x y : List Char} (hbody : ¬closing <:+: body)
    (h : body ++ closing = x ++ (closing ++ y)) : y = [] := by
  rw [← List.append_assoc] at h
  rcases List.append_eq_append_iff.1 h with ⟨z, hx, hz⟩ | ⟨z, rfl, -⟩
  · -- The two marks overlap in `z`, and they can only do so as a whole.
    match z, hz with
    | [], _ => exact absurd ⟨x, [], by simpa using hx⟩ hbody
    | [_], hz =>
      obtain rfl : _ = '*' := (List.cons.inj hz).1.symm
      have hlast := congrArg List.getLast? hx
      simp [closing, List.getLast?_append] at hlast
    | [_, _], hz => simp_all [closing]
    | _ :: _ :: _ :: _, hz => simp [closing] at hz
  · exact absurd ⟨x, z, rfl⟩ hbody

/-- A `*/` in the value of a header is at its end, and the text ends with the value. -/
theorem closing_last_of_header {t d : List Char} (hd : find? t = some d) (h : Header d)
    {a b : List Char} (hv : h.value = a ++ (closing ++ b)) : b = [] ∧ h.after = [] := by
  obtain ⟨pre, body, post, -, hblock, -, hbody⟩ := find?_eq_some_iff.1 hd
  -- The header's name is before its value, so the value is behind the start of the block.
  let front := h.before ++ h.indent ++ '*' :: (h.gap ++ (headerName ++ (h.space ++ a)))
  have htext : opening ++ (body ++ closing) = front ++ (closing ++ (b ++ h.after)) := by
    rw [← hblock]
    simpa [front, hv] using h.text_eq
  rcases List.append_eq_append_iff.1 htext with ⟨x, -, hx⟩ | ⟨x, hx, -⟩
  · exact List.append_eq_nil_iff.1 (eq_nil_of_append_closing_eq hbody hx)
  · have hlen := congrArg List.length hx
    have hname : headerName.length = 11 := rfl
    simp only [front, opening, List.length_append, List.length_cons, List.length_nil,
      hname] at hlen
    omega

/-- A category that a block lists is listable. -/
theorem listable_of_mem_categories {t d v e : List Char} (hd : find? t = some d)
    (hv : header? d = some v) (he : e ∈ Docblock.categories v) : Listable e := by
  obtain ⟨h, -, rfl⟩ := (header?_eq_some_iff (getLast?_of_find? hd)).1 hv
  obtain ⟨part, hpart, rfl⟩ := List.mem_map.1 he
  obtain ⟨hcomma, before, after, hvalue, -, -⟩ := mem_splitOn_iff.1 hpart
  obtain ⟨l, r, hlr⟩ := trim_infix part
  have hsub : ∀ c ∈ trim part, c ∈ part := fun c hc => hlr ▸ by simp [hc]
  refine ⟨trim_trim part, fun hc => hcomma (hsub _ hc), fun hn => h.newline_not_mem ?_, ?_⟩
  · rw [hvalue]
    simp [hsub _ hn]
  · intro a b hab
    have hb : b ++ (r ++ after) = [] := by
      refine (closing_last_of_header hd h (a := before ++ l ++ a) ?_).1
      rw [hvalue, ← hlr, hab]
      simp
    exact (List.append_eq_nil_iff.1 hb).1

/-! ## A text for a listable category -/

/-- A category that has no `*/` in it is listed alone by a plain file. -/
theorem exists_categories_of_not_closing {r : List Char} (hr : Listable r) (hne : r ≠ [])
    (hc : ¬closing <:+: r) :
    ∃ t d v, find? t = some d ∧ header? d = some v ∧ Docblock.categories v = [r] := by
  let f : PatternFile :=
    { pre := [], before := [], categories := [r], after := [], post := []
      pre_free := by decide
      before_line := by simp
      before_ne_header := by simp
      after_line := by simp
      trim_category := by simpa using hr.trimmed
      comma_not_mem := by simpa using hr.comma_not_mem
      category_line := by simpa using ⟨hr.newline_not_mem, hc⟩
      categories_ne_nil := by simp
      categories_ne_empty := by simpa using hne }
  exact ⟨f.text, _, f.value, f.find?_text, f.header?_block, f.categories_value⟩

/-- A category that ends with `*/` is listed alone by a file whose block it closes. -/
theorem exists_categories_of_closing {a : List Char} (hr : Listable (a ++ closing))
    (ha : ¬closing <:+: a) :
    ∃ t d v, find? t = some d ∧ header? d = some v ∧ Docblock.categories v = [a ++ closing] := by
  let body := '\n' :: ' ' :: '*' :: ' ' :: (headerName ++ ' ' :: a)
  have hbody : ¬closing <:+: body := by
    intro h
    rcases (closing_infix_append_cons (a := ['\n', ' ', '*']) (by decide)).1 h with h | h
    · exact absurd h (by decide)
    · rcases (closing_infix_append_cons (by decide)).1 h with h | h
      · exact absurd h (by decide +kernel)
      · exact ha h
  have hd : find? (opening ++ (body ++ closing)) = some (opening ++ (body ++ closing)) :=
    find?_eq_some_iff.2 ⟨[], body, [], by simp, rfl, by decide, hbody⟩
  have hv : header? (opening ++ (body ++ closing)) = some (a ++ closing) := by
    have hink : StartsInk (a ++ closing) := startsInk_of_trim_eq hr.trimmed (by simp [closing])
    have hline := headerFrom?_header hink hr.newline_not_mem .nil
    rw [List.append_nil] at hline
    simpa [body] using (header?_opening _).trans hline
  refine ⟨_, _, _, hd, hv, ?_⟩
  rw [Docblock.categories, splitOn_of_not_mem hr.comma_not_mem, List.map_singleton, hr.trimmed]

/-- For a listable text there is a block that lists it and nothing else. -/
theorem exists_categories {r : List Char} (hr : Listable r) (hne : r ≠ []) :
    ∃ t d v, find? t = some d ∧ header? d = some v ∧ Docblock.categories v = [r] := by
  by_cases hc : closing <:+: r
  · obtain ⟨a, b, hab⟩ := hc
    rw [List.append_assoc] at hab
    obtain rfl : b = [] := hr.closing_last a b hab.symm
    subst hab
    rw [List.append_nil] at *
    refine exists_categories_of_closing hr fun ⟨x, y, hxy⟩ => ?_
    have hy := hr.closing_last x (y ++ closing) (by simp [← hxy])
    simp [closing] at hy
  · exact exists_categories_of_not_closing hr hne hc

/-! ## Requirements -/

namespace Rule

variable {r : String}

/-- A requirement that is met is listable. -/
theorem listable_of_pass {rule : Rule} {t : List Char} (hbase : rule.base = .plain r)
    (hr : r ≠ "") (h : (rule.check t).outcome = .pass) : Listable r.toList := by
  obtain ⟨d, v, hd, hv, hmet⟩ := outcome_eq_pass_iff.1 h
  rcases hmet with hmet | hmet
  · rw [hbase, TextValue.plain.injEq] at hmet
    exact absurd hmet hr
  · rw [List.map_map, hbase, List.mem_map] at hmet
    obtain ⟨e, he, hlower⟩ := hmet
    have hlower : lower (String.ofList e) = lower r := TextValue.plain.inj hlower
    refine Listable.of_lower_eq hlower ?_
    rw [String.toList_ofList]
    exact listable_of_mem_categories hd hv he

theorem exists_pass (h : r = "" ∨ Listable r.toList) :
    ∃ t, ((⟨.plain r⟩ : Rule).check t).outcome = .pass := by
  by_cases hr : r = ""
  · -- Any header will do.
    have ha : Listable ['a'] := by decide
    obtain ⟨t, d, v, hd, hv, -⟩ := exists_categories ha (by decide)
    exact ⟨t, outcome_check_of_metBy hd hv (.inl (congrArg TextValue.plain hr))⟩
  · have hne : r.toList ≠ [] := fun hnil => hr (String.toList_eq_nil_iff.1 hnil)
    obtain ⟨t, d, v, hd, hv, hcategories⟩ := exists_categories (h.resolve_left hr) hne
    refine ⟨t, outcome_check_of_metBy hd hv (.inr ?_)⟩
    simp [hcategories]

/-- A requirement can be met by a text exactly if it is empty or listable; any other one fails
    every file. -/
theorem exists_pass_iff (r : String) :
    ((∃ t, ((Rule.ofValue (.str r)).check t).outcome = .pass) ↔ r = "" ∨ Listable r.toList) ∧
      (¬(r = "" ∨ Listable r.toList) → ∀ (rule : Rule) (w : Workspace) (p : Path) (result : Result),
        rule.base = .plain r → Project.checkFile w rule p = .ok result →
          result.outcome ≠ .pass) := by
  rw [ofValue_str]
  have hpass : ∀ (rule : Rule) (t : List Char), rule.base = .plain r →
      (rule.check t).outcome = .pass → r = "" ∨ Listable r.toList := fun rule t hbase h =>
    Decidable.or_iff_not_imp_left.2 fun hr => listable_of_pass hbase hr h
  refine ⟨⟨fun ⟨t, ht⟩ => hpass _ t rfl ht, exists_pass⟩, ?_⟩
  intro hnot rule w p result hbase hfile hresult
  rw [Project.checkFile, map_eq_ok_iff] at hfile
  obtain ⟨t, -, rfl⟩ := hfile
  exact hnot (hpass rule t hbase hresult)

/-- A category that closes the block can be required, and one with a comma in it cannot. -/
theorem exists_pass_iff_closing :
    (∃ t, ((Rule.ofValue (.str "ΟΔΟΣ */")).check t).outcome = .pass) ∧
      ∀ (rule : Rule) (w : Workspace) (p : Path) (result : Result),
        rule.base = .plain "hero, banner" → Project.checkFile w rule p = .ok result →
          result.outcome ≠ .pass :=
  ⟨(exists_pass_iff "ΟΔΟΣ */").1.2 (by decide +kernel),
    (exists_pass_iff "hero, banner").2 (by decide +kernel)⟩

end Rule

end CategoryLint
