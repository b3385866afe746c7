import CategoryLint.Proofs.Encoding
import Mathlib.Data.List.Infix

/-!
# Bytes that are no text

Which bytes are a text is said by their values (`IsSequence`): a character has a first byte that
tells how many more belong to it, these are continuation bytes, and the code point that they make
together needs all of them, is no surrogate and is at most U+10FFFF. Such sequences are exactly what
characters are encoded by (`isSequence_iff`), and sequences of them what texts are encoded by
(`wellFormed_iff`). The decoder looks at ranges of bytes and not at code points. Of bytes that are
no text it reads the longest part from the start that is one, and reports its length
(`decodeUtf8_eq_error_iff`).
-/

namespace CategoryLint.Text

variable {a b c d : UInt8} {bs q r : List UInt8} {n offset : Nat} {cs ds : List Char}

/-! ## Sequences -/

/-- The code point that a sequence makes: the bits of its first byte, and six of each byte after
    it. -/
def codePoint (head : Nat) (tail : List UInt8) : Nat :=
  tail.foldl (fun n b => n * 64 + b.toNat % 64) head

/-- How the characters of some length are written. -/
structure Form where
  /-- The first byte without the bits of the code point. -/
  mark : Nat
  /-- How many numbers the bits of the first byte can make. -/
  size : Nat
  /-- How many bytes come after the first. -/
  tail : Nat
  /-- The least code point that is written in this way. -/
  least : Nat

/-- The four forms of characters. -/
def forms : List Form :=
  [⟨0x00, 0x80, 0, 0⟩, ⟨0xC0, 0x20, 1, 0x80⟩, ⟨0xE0, 0x10, 2, 0x800⟩, ⟨0xF0, 0x08, 3, 0x10000⟩]

/-- A sequence of bytes has a form. -/
structure Form.Fits (f : Form) (a : UInt8) (tail : List UInt8) : Prop where
  /-- The first byte tells the form. -/
  head : f.mark ≤ a.toNat ∧ a.toNat < f.mark + f.size
  /-- No continuation byte is missing, and none is too many. -/
  length_tail : tail.length = f.tail
  /-- The others are continuation bytes. -/
  continues : ∀ b ∈ tail, 0x80 ≤ b.toNat ∧ b.toNat < 0xC0
  /-- No shorter form would do. -/
  shortest : f.least ≤ codePoint (a.toNat - f.mark) tail
  /-- The code point is not half of a surrogate pair. -/
  not_surrogate : codePoint (a.toNat - f.mark) tail < 0xD800 ∨
    0xDFFF < codePoint (a.toNat - f.mark) tail
  /-- The code point is one of Unicode. -/
  le_max : codePoint (a.toNat - f.mark) tail ≤ 0x10FFFF

/-- The bytes of one character. -/
def IsSequence (bs : List UInt8) : Prop := ∃ f ∈ forms, ∃ a tail, bs = a :: tail ∧ f.Fits a tail

/-- The bytes are those of characters, one after the other. -/
def WellFormed (bs : List UInt8) : Prop :=
  ∃ parts : List (List UInt8), (∀ p ∈ parts, IsSequence p) ∧ bs = parts.flatten

/-- The longest part of the bytes, from their start, that is well-formed. -/
structure IsLongestStart (bs start : List UInt8) : Prop where
  isPrefix : start <+: bs
  wellFormed : WellFormed start
  length_le : ∀ q, q <+: bs → WellFormed q → q.length ≤ start.length

/-! ## Sequences and characters -/

theorem utf8EncodeChar_eq (c : Char) : String.utf8EncodeChar c = codeBytes c.toNat := rfl

theorem toNat_tailByte_mod (n : Nat) : (tailByte n).toNat % 64 = n % 64 := tailBits_tailByte n

theorem isContinuation_tailByte (n : Nat) :
    0x80 ≤ (tailByte n).toNat ∧ (tailByte n).toNat < 0xC0 := by
  rw [toNat_tailByte]
  omega

/-- Bytes that make a code point by a form have the form, if the code point needs it. -/
theorem Form.Fits.of_codePoint_eq {f : Form} {m : Nat} {tail : List UInt8}
    (ha : a.toNat = m + f.mark) (hm : m < f.size) (hlen : tail.length = f.tail)
    (htail : ∀ b ∈ tail, 0x80 ≤ b.toNat ∧ b.toNat < 0xC0) (hcode : codePoint m tail = n)
    (hleast : f.least ≤ n) (hn : n < 0xD800 ∨ 0xDFFF < n ∧ n < 0x110000) : f.Fits a tail := by
  have hbits : a.toNat - f.mark = m := by omega
  refine ⟨by omega, hlen, htail, ?_, ?_, ?_⟩
  · rw [hbits, hcode]
    exact hleast
  · rw [hbits, hcode]
    omega
  · rw [hbits, hcode]
    omega

/-- A code point that is no surrogate has a sequence of bytes. -/
theorem isSequence_codeBytes (hn : n < 0xD800 ∨ 0xDFFF < n ∧ n < 0x110000) :
    IsSequence (codeBytes n) := by
  rw [codeBytes]
  split
  · refine ⟨⟨0x00, 0x80, 0, 0⟩, by simp [forms], _, [], rfl, ?_⟩
    exact .of_codePoint_eq (toNat_headByte (by omega)) (by change n < 0x80; omega) rfl (by simp) rfl
      (Nat.zero_le n) hn
  split
  · refine ⟨⟨0xC0, 0x20, 1, 0x80⟩, by simp [forms], _, [tailByte n], rfl, ?_⟩
    have hcode : codePoint (n / 64 % 32) [tailByte n] = n := by
      simp only [codePoint, List.foldl_cons, List.foldl_nil, toNat_tailByte_mod]
      omega
    exact .of_codePoint_eq (toNat_headByte (by omega)) (Nat.mod_lt _ (by decide)) rfl
      (by simp [isContinuation_tailByte]) hcode (by change 0x80 ≤ n; omega) hn
  split
  · refine ⟨⟨0xE0, 0x10, 2, 0x800⟩, by simp [forms], _, [tailByte (n / 64), tailByte n], rfl, ?_⟩
    have hcode : codePoint (n / 4096 % 16) [tailByte (n / 64), tailByte n] = n := by
      simp only [codePoint, List.foldl_cons, List.foldl_nil, toNat_tailByte_mod]
      omega
    exact .of_codePoint_eq (toNat_headByte (by omega)) (Nat.mod_lt _ (by decide)) rfl
      (by simp [isContinuation_tailByte]) hcode (by change 0x800 ≤ n; omega) hn
  · refine ⟨⟨0xF0, 0x08, 3, 0x10000⟩, by simp [forms], _,
      [tailByte (n / 4096), tailByte (n / 64), tailByte n], rfl, ?_⟩
    have hcode : codePoint (n / 262144 % 8) [tailByte (n / 4096), tailByte (n / 64), tailByte n] =
        n := by
      simp only [codePoint, List.foldl_cons, List.foldl_nil, toNat_tailByte_mod]
      omega
    exact .of_codePoint_eq (toNat_headByte (by omega)) (Nat.mod_lt _ (by decide)) rfl
      (by simp [isContinuation_tailByte]) hcode (by change 0x10000 ≤ n; omega) hn

/-- A byte is told by its number. -/
theorem headByte_eq (a : UInt8) {m : Nat} (h : n + m = a.toNat) : headByte m n = a := by
  rw [← UInt8.toNat_inj, toNat_headByte (h ▸ a.toNat_lt), h]

theorem tailByte_eq (hb : 0x80 ≤ b.toNat ∧ b.toNat < 0xC0) (h : n % 64 = b.toNat % 64) :
    tailByte n = b := by
  rw [← UInt8.toNat_inj, toNat_tailByte]
  omega

/-- The bytes of a sequence are those of the code point that it makes. -/
theorem exists_codeBytes_of_isSequence (h : IsSequence q) :
    ∃ n, (n < 0xD800 ∨ 0xDFFF < n ∧ n < 0x110000) ∧ q = codeBytes n := by
  obtain ⟨f, hf, a, tail, rfl, hfits⟩ := h
  have hvalid : ∀ n, (n < 0xD800 ∨ 0xDFFF < n) → n ≤ 0x10FFFF →
      n < 0xD800 ∨ 0xDFFF < n ∧ n < 0x110000 := by omega
  refine ⟨_, hvalid _ hfits.not_surrogate hfits.le_max, ?_⟩
  obtain ⟨hhead, hlen, htail, hleast, -, hmax⟩ := hfits
  simp only [forms, List.mem_cons, List.not_mem_nil, or_false] at hf
  rcases hf with rfl | rfl | rfl | rfl
  · obtain rfl : tail = [] := List.length_eq_zero_iff.1 hlen
    simp only [codePoint, List.foldl_nil] at *
    rw [codeBytes, if_pos (by omega), headByte_eq a (by omega)]
  · obtain ⟨b, rfl⟩ := List.length_eq_one_iff.1 hlen
    have hb := htail b (by simp)
    simp only [codePoint, List.foldl_cons, List.foldl_nil] at *
    rw [codeBytes, if_neg (by omega), if_pos (by omega), headByte_eq a (by omega),
      tailByte_eq hb (by omega)]
  · obtain ⟨b, c, rfl⟩ := List.length_eq_two.1 hlen
    have hb := htail b (by simp)
    have hc := htail c (by simp)
    simp only [codePoint, List.foldl_cons, List.foldl_nil] at *
    rw [codeBytes, if_neg (by omega), if_neg (by omega), if_pos (by omega),
      headByte_eq a (by omega), tailByte_eq hb (by omega), tailByte_eq hc (by omega)]
  · obtain ⟨b, c, d, rfl⟩ := List.length_eq_three.1 hlen
    have hb := htail b (by simp)
    have hc := htail c (by simp)
    have hd := htail d (by simp)
    simp only [codePoint, List.foldl_cons, List.foldl_nil] at *
    rw [codeBytes, if_neg (by omega), if_neg (by omega), if_neg (by omega),
      headByte_eq a (by omega), tailByte_eq hb (by omega), tailByte_eq hc (by omega),
      tailByte_eq hd (by omega)]

/-- The sequences are what characters are encoded by. -/
theorem isSequence_iff : IsSequence q ↔ ∃ c, q = String.utf8EncodeChar c := by
  constructor
  · intro h
    obtain ⟨n, hn, rfl⟩ := exists_codeBytes_of_isSequence h
    have hcode : (Char.ofNat n).toNat = n := by
      rw [Char.ofNat, dif_pos hn]
      rfl
    exact ⟨Char.ofNat n, by rw [utf8EncodeChar_eq, hcode]⟩
  · rintro ⟨c, rfl⟩
    exact isSequence_codeBytes c.valid

/-! ## Reading a sequence -/

theorem isTail_iff : isTail b ↔ 0x80 ≤ b.toNat ∧ b.toNat < 0xC0 := by
  rw [isTail, between_iff, Nat.lt_succ_iff]
  rfl

/-- What the decoder reads is a sequence: the ranges of its bytes leave out the code points that
    the form is too long for, the surrogates, and those beyond the last. -/
theorem exists_of_nextChar? {ch : Char} (h : nextChar? bs = some (ch, r)) :
    ∃ q, IsSequence q ∧ bs = q ++ r := by
  revert h
  fun_cases nextChar? bs with
  | case2 a r' ha =>
    rintro ⟨⟩
    have ha : a.toNat ≤ 0x7F := UInt8.le_iff_toNat_le.1 ha
    refine ⟨[a], ⟨⟨0x00, 0x80, 0, 0⟩, by simp [forms], a, [], rfl, ?_⟩, rfl⟩
    have hcode : codePoint a.toNat [] = a.toNat := rfl
    exact .of_codePoint_eq rfl (Nat.lt_succ_of_le ha) rfl (by simp) hcode (Nat.zero_le _) (by omega)
  | case4 a _ b r' ha hb =>
    rintro ⟨⟩
    have ha : 0xC2 ≤ a.toNat ∧ a.toNat ≤ 0xDF := between_iff.1 ha
    rw [isTail_iff] at hb
    refine ⟨[a, b], ⟨⟨0xC0, 0x20, 1, 0x80⟩, by simp [forms], a, [b], rfl, ?_⟩, rfl⟩
    have hcode : codePoint (a.toNat - 0xC0) [b] = (a.toNat - 0xC0) * 64 + b.toNat % 64 := rfl
    exact .of_codePoint_eq (by change a.toNat = _ + 0xC0; omega) (by change _ < 0x20; omega) rfl
      (by simpa using hb) hcode (by change 0x80 ≤ _; omega) (by omega)
  | case7 a _ b _ c r' ha htail =>
    rintro ⟨⟩
    have ha : 0xE0 ≤ a.toNat ∧ a.toNat ≤ 0xEF := between_iff.1 ha
    rw [Bool.and_eq_true, isSecondOfThree_iff, isTail_iff, isTail_iff] at htail
    obtain ⟨⟨hb, hlow, hhigh⟩, hc⟩ := htail
    refine ⟨[a, b, c], ⟨⟨0xE0, 0x10, 2, 0x800⟩, by simp [forms], a, [b, c], rfl, ?_⟩, rfl⟩
    have hcode : codePoint (a.toNat - 0xE0) [b, c] =
      ((a.toNat - 0xE0) * 64 + b.toNat % 64) * 64 + c.toNat % 64 := rfl
    exact .of_codePoint_eq (by change a.toNat = _ + 0xE0; omega) (by change _ < 0x10; omega) rfl
      (by simpa using ⟨hb, hc⟩) hcode (by change 0x800 ≤ _; omega) (by omega)
  | case10 a _ b _ c _ d r' htail =>
    rintro ⟨⟩
    rw [Bool.and_eq_true, Bool.and_eq_true, Bool.and_eq_true, between_iff, isSecondOfFour_iff,
      isTail_iff, isTail_iff, isTail_iff] at htail
    obtain ⟨⟨⟨ha, hb, hlow, hhigh⟩, hc⟩, hd⟩ := htail
    have ha : 0xF0 ≤ a.toNat ∧ a.toNat ≤ 0xF4 := ha
    refine ⟨[a, b, c, d], ⟨⟨0xF0, 0x08, 3, 0x10000⟩, by simp [forms], a, [b, c, d], rfl, ?_⟩, rfl⟩
    have hcode : codePoint (a.toNat - 0xF0) [b, c, d] =
      (((a.toNat - 0xF0) * 64 + b.toNat % 64) * 64 + c.toNat % 64) * 64 + d.toNat % 64 := rfl
    exact .of_codePoint_eq (by change a.toNat = _ + 0xF0; omega) (by change _ < 0x08; omega) rfl
      (by simpa using ⟨hb, hc, hd⟩) hcode (by change 0x10000 ≤ _; omega) (by omega)
  | _ => simp

/-- A character is read from its own bytes only. -/
theorem eq_of_nextChar? {ch : Char} (h : nextChar? bs = some (ch, r)) :
    bs = String.utf8EncodeChar ch ++ r := by
  obtain ⟨q, hq, rfl⟩ := exists_of_nextChar? h
  obtain ⟨ch', rfl⟩ := isSequence_iff.1 hq
  rw [nextChar?_append, Option.some.injEq, Prod.mk.injEq] at h
  rw [h.1]

/-! ## Texts -/

theorem encodeUtf8_cons (ch : Char) (cs : List Char) :
    encodeUtf8 (ch :: cs) = String.utf8EncodeChar ch ++ encodeUtf8 cs := rfl

/-- Bytes are well-formed exactly if they encode a text. -/
theorem wellFormed_iff : WellFormed bs ↔ ∃ cs, bs = encodeUtf8 cs := by
  constructor
  · rintro ⟨parts, hparts, rfl⟩
    induction parts with
    | nil => exact ⟨[], rfl⟩
    | cons p parts ih =>
      rw [List.forall_mem_cons] at hparts
      obtain ⟨ch, rfl⟩ := isSequence_iff.1 hparts.1
      obtain ⟨cs, hcs⟩ := ih hparts.2
      exact ⟨ch :: cs, by rw [List.flatten_cons, hcs, encodeUtf8_cons]⟩
  · rintro ⟨cs, rfl⟩
    refine ⟨cs.map String.utf8EncodeChar, fun p hp => ?_, List.flatMap_def⟩
    obtain ⟨ch, -, rfl⟩ := List.mem_map.1 hp
    exact isSequence_iff.2 ⟨ch, rfl⟩

/-- All bytes are a text and then nothing that starts a character. -/
theorem exists_eq_encodeUtf8_append (bs : List UInt8) :
    ∃ cs r, bs = encodeUtf8 cs ++ r ∧ nextChar? r = none := by
  -- Characters have up to four bytes, so the induction is on the number of bytes that are left.
  induction hn : bs.length using Nat.strongRecOn generalizing bs with
  | ind n ih =>
    cases hnext : nextChar? bs with
    | none => exact ⟨[], bs, rfl, hnext⟩
    | some next =>
      obtain ⟨ch, rest⟩ := next
      obtain ⟨cs, r, rfl, hr⟩ := ih _ (hn ▸ length_lt_of_nextChar? hnext) rest rfl
      refine ⟨ch :: cs, r, ?_, hr⟩
      rw [eq_of_nextChar? hnext, encodeUtf8_cons, List.append_assoc]

/-- Where two texts are followed by other bytes, one is longer than the other only if those start
    a character. -/
theorem isPrefix_of_encodeUtf8_append_eq (hr : nextChar? r = none)
    (h : encodeUtf8 ds ++ q = encodeUtf8 cs ++ r) : ds <+: cs := by
  induction ds generalizing cs with
  | nil => exact List.nil_prefix
  | cons d ds ih =>
    have hd : nextChar? (encodeUtf8 cs ++ r) = some (d, encodeUtf8 ds ++ q) := by
      rw [← h, encodeUtf8_cons, List.append_assoc, nextChar?_append]
    cases cs with
    | nil => exact absurd hd (by simp [encodeUtf8, hr])
    | cons ch cs =>
      rw [encodeUtf8_cons, List.append_assoc, nextChar?_append, Option.some.injEq,
        Prod.mk.injEq] at hd
      obtain ⟨rfl, hrest⟩ := hd
      exact List.cons_prefix_cons.2 ⟨rfl, ih hrest.symm⟩

/-- A text is the longest start of bytes if no character comes after it. -/
theorem isLongestStart_encodeUtf8 (cs : List Char) (hr : nextChar? r = none) :
    IsLongestStart (encodeUtf8 cs ++ r) (encodeUtf8 cs) := by
  refine ⟨List.prefix_append _ _, wellFormed_iff.2 ⟨cs, rfl⟩, fun q hq hwell => ?_⟩
  obtain ⟨ds, rfl⟩ := wellFormed_iff.1 hwell
  obtain ⟨rest, hrest⟩ := hq
  -- Another start is the bytes of a text, which can only be a start of this one.
  obtain ⟨es, rfl⟩ := isPrefix_of_encodeUtf8_append_eq hr hrest
  simp [encodeUtf8]

theorem exists_isLongestStart (bs : List UInt8) : ∃ start, IsLongestStart bs start := by
  obtain ⟨cs, r, rfl, hr⟩ := exists_eq_encodeUtf8_append bs
  exact ⟨_, isLongestStart_encodeUtf8 cs hr⟩

/-! ## Decoding -/

/-- The decoder stops where no character starts. -/
theorem decodeUtf8_append (cs : List Char) (hr : nextChar? r = none) :
    decodeUtf8 (encodeUtf8 cs ++ r) =
      if r = [] then .ok cs else .error (encodeUtf8 cs).length := by
  rw [decodeUtf8, decodeFrom_encodeUtf8_append, Nat.zero_add]
  split
  · next hnil =>
    rw [hnil, decodeFrom_nil]
    exact congrArg Except.ok (List.append_nil cs)
  · next hne => rw [decodeFrom_of_nextChar?_eq_none hne hr]; rfl

/-- The decoder fails on bytes that are no text, after the longest part that is one. -/
theorem decodeUtf8_eq_error_iff : decodeUtf8 bs = .error n ↔
    ¬WellFormed bs ∧ ∃ start, IsLongestStart bs start ∧ n = start.length := by
  obtain ⟨cs, r, rfl, hr⟩ := exists_eq_encodeUtf8_append bs
  have hlongest := isLongestStart_encodeUtf8 cs hr
  rw [decodeUtf8_append cs hr]
  split
  · next hnil =>
    subst hnil
    rw [List.append_nil]
    exact iff_of_false (by simp) fun h => h.1 (wellFormed_iff.2 ⟨cs, rfl⟩)
  · next hne =>
    rw [Except.error.injEq]
    constructor
    · rintro rfl
      refine ⟨fun hwell => hne ?_, _, hlongest, rfl⟩
      have hle := hlongest.length_le _ List.prefix_rfl hwell
      rw [List.length_append] at hle
      exact List.length_eq_zero_iff.1 (by omega)
    · rintro ⟨-, start, hstart, rfl⟩
      exact Nat.le_antisymm (hstart.length_le _ hlongest.isPrefix hlongest.wellFormed)
        (hlongest.length_le _ hstart.isPrefix hstart.wellFormed)

end CategoryLint.Text
