import CategoryLint.Project.Check
import CategoryLint.Proofs.Decoding

/-!
# Checking a file

When a file can be checked, and what its check gives (`checkFile_exact`). A file whose bytes are a
text has the result of that text, every line end of which is a line feed (`withFeeds`). Any other
file is refused, with the length of the longest part from its start that is a text. A path that
leads to no file is refused as well, but for one that the system does not follow, for it or a name
in it has too many bytes: there the system's own error is all there is
(`not_raises_fileNotFound_longName`). Links on the way add no long names (`walk_ne_tooLong`), and
one that leads nowhere leads to no file.
-/

namespace CategoryLint

/-! ## Line feeds -/

namespace Text

/-- A text with a line feed in place of every carriage return and line feed. -/
def joinLineEnds : List Char → List Char
  | [] => []
  | '\r' :: '\n' :: cs => '\n' :: joinLineEnds cs
  | c :: cs => c :: joinLineEnds cs

/-- A text with a line feed in place of every carriage return and line feed, and then in place of
    every carriage return that is left. -/
def withFeeds (cs : List Char) : List Char :=
  (joinLineEnds cs).map fun c => if c = '\r' then '\n' else c

/-- One pass over a text does as much as the two. -/
theorem unifyNewlines_eq_withFeeds (cs : List Char) : unifyNewlines cs = withFeeds cs := by
  fun_induction unifyNewlines cs with
  | case1 => rfl
  | case2 cs ih =>
    rw [ih, withFeeds, withFeeds, joinLineEnds]
    rfl
  | case3 cs hfeed ih =>
    rw [ih, withFeeds, withFeeds, joinLineEnds]
    · rfl
    · exact fun ds _ => hfeed ds
  | case4 c cs hboth hc ih =>
    rw [ih, withFeeds, withFeeds, joinLineEnds, List.map_cons, if_neg hc]
    exact hboth

end Text

open Text

/-! ## Long paths -/

/-- The path and its names have no more bytes than the system takes. -/
def Path.IsShort (p : Path) : Prop :=
  p.text.utf8ByteSize ≤ FileTree.maxPathBytes ∧
    ∀ n ∈ p.names, n.utf8ByteSize ≤ FileTree.maxNameBytes

namespace FileTree

/-- A walk over short names finds none too long if following links finds none. -/
theorem walkWith_ne_tooLong {follow : Link → Place → List String → Lookup}
    (hfollow : ∀ target place ns, (∀ n ∈ ns, n.utf8ByteSize ≤ maxNameBytes) →
      follow target place ns ≠ .tooLong)
    {names : List String} (h : ∀ n ∈ names, n.utf8ByteSize ≤ maxNameBytes) (t : FileTree)
    (removed : Nat) (place : Place) : t.walkWith follow removed place names ≠ .tooLong := by
  induction names generalizing removed place with
  | nil =>
    rw [walkWith]
    split
    · split <;> simp
    · simp
  | cons n names ih =>
    rw [List.forall_mem_cons] at h
    rw [walkWith]
    split
    · exact ih h.2 _ _
    split
    · simp
    split
    · exact ih h.2 _ _
    rw [if_neg (Nat.not_lt.2 h.1)]
    split
    · exact hfollow _ _ _ h.2
    · exact ih h.2 _ _

/-- Short names are followed, for the names of links are short. -/
theorem walk_ne_tooLong {names : List String} (h : ∀ n ∈ names, n.utf8ByteSize ≤ maxNameBytes)
    (t : FileTree) (links removed : Nat) (place : Place) :
    t.walk links removed place names ≠ .tooLong := by
  induction links generalizing removed place names with
  | zero => exact walkWith_ne_tooLong (fun _ _ _ _ => by simp) h t removed place
  | succ links ih =>
    refine walkWith_ne_tooLong (fun target place ns hns => ih (fun n hn => ?_) _ _) h t removed
      place
    rcases List.mem_append.1 hn with hn | hn
    · exact target.short n hn
    · exact hns n hn

end FileTree

/-- A short path is followed. -/
theorem Path.IsShort.lookup_ne_tooLong {p : Path} (h : p.IsShort) (w : Workspace) :
    w.lookup p ≠ .tooLong := by
  rw [Workspace.lookup]
  split
  · simp
  rw [if_neg (Nat.not_lt.2 h.1)]
  split
  · exact FileTree.walk_ne_tooLong h.2 _ _ _ _
  · exact FileTree.walk_ne_tooLong h.2 _ _ _ _

/-! ## Files -/

namespace Project

variable {w : Workspace} {rule : Rule} {p : Path} {bs : List UInt8} {cs : List Char}

/-- A path leads to a file. -/
def IsFile (w : Workspace) (p : Path) : Prop := ∃ bs, w.lookup p = .found (.file bs)

/-- A check ends with an error of this kind. -/
def Raises (kind : ErrorKind) (outcome : Except Failure Result) : Prop :=
  ∃ e : FileError, outcome = .error (.file e) ∧ e.report.kind = kind

/-- The text of a file is checked with its line ends translated. -/
theorem checkFile_of_encodeUtf8 (h : w.lookup p = .found (.file (encodeUtf8 cs))) :
    checkFile w rule p = .ok (rule.checkAt (some p.text) (withFeeds cs)) := by
  have hread : readText (encodeUtf8 cs) = .ok (withFeeds cs) := by
    rw [readText, decodeUtf8_encodeUtf8, ← unifyNewlines_eq_withFeeds]
    rfl
  rw [checkFile, patternText]
  simp only [h, hread]
  rfl

/-- Other bytes are an encoding error, after the longest start that is a text. -/
theorem checkFile_of_not_wellFormed (rule : Rule) (h : w.lookup p = .found (.file bs))
    (hbs : ¬WellFormed bs) : ∃ start, IsLongestStart bs start ∧
      checkFile w rule p = .error (.file (.notUtf8 p.text start.length)) := by
  obtain ⟨start, hstart⟩ := exists_isLongestStart bs
  have hread : readText bs = .error start.length := by
    rw [readText, decodeUtf8_eq_error_iff.2 ⟨hbs, start, hstart, rfl⟩]
    rfl
  refine ⟨start, hstart, ?_⟩
  rw [checkFile, patternText]
  simp only [h, hread]
  rfl

theorem checkFile_of_tooLong (h : w.lookup p = .tooLong) :
    checkFile w rule p = .error .pathTooLong := by
  rw [checkFile, patternText]
  simp only [h]
  rfl

theorem checkFile_of_not_isFile (h : ¬IsFile w p) (hlong : w.lookup p ≠ .tooLong) :
    checkFile w rule p = .error (.file (.notFound p.text)) := by
  rw [checkFile, patternText]
  split
  · next bs hfile => exact absurd ⟨bs, hfile⟩ h
  · next htoo => exact absurd htoo hlong
  · rfl

/-- A file fails its check for its bytes only. -/
theorem exists_of_checkFile_eq_error (h : w.lookup p = .found (.file bs)) {f : Failure}
    (hf : checkFile w rule p = .error f) :
    ¬WellFormed bs ∧ ∃ start, IsLongestStart bs start ∧
      f = .file (.notUtf8 p.text start.length) := by
  have hbs : ¬WellFormed bs := by
    intro hbs
    obtain ⟨cs, rfl⟩ := wellFormed_iff.1 hbs
    rw [checkFile_of_encodeUtf8 h] at hf
    cases hf
  obtain ⟨start, hstart, hcheck⟩ := checkFile_of_not_wellFormed rule h hbs
  exact ⟨hbs, start, hstart, Except.error.inj (hf.symm.trans hcheck)⟩

theorem raises_fileEncoding_iff (h : w.lookup p = .found (.file bs)) :
    Raises .fileEncoding (checkFile w rule p) ↔ ¬WellFormed bs := by
  constructor
  · rintro ⟨e, he, -⟩
    exact (exists_of_checkFile_eq_error h he).1
  · intro hbs
    obtain ⟨start, -, hcheck⟩ := checkFile_of_not_wellFormed rule h hbs
    exact ⟨_, hcheck, rfl⟩

/-- A path is refused for want of a file exactly if it leads to none and the system follows it. -/
theorem raises_fileNotFound_iff :
    Raises .fileNotFound (checkFile w rule p) ↔ ¬IsFile w p ∧ w.lookup p ≠ .tooLong := by
  constructor
  · rintro ⟨e, he, hkind⟩
    refine ⟨fun ⟨bs, hfile⟩ => ?_, fun hlong => ?_⟩
    · obtain ⟨-, start, -, heq⟩ := exists_of_checkFile_eq_error hfile he
      cases heq
      cases hkind
    · rw [checkFile_of_tooLong hlong] at he
      cases he
  · rintro ⟨hfile, hlong⟩
    exact ⟨_, checkFile_of_not_isFile hfile hlong, rfl⟩

/-- What checking a path gives. A file is refused for its bytes exactly if they are no text, at the
    end of the longest part from their start that is one; a file with a text has the result of that
    text. A path to no file is refused as such, but for one that is too long to be followed. -/
theorem checkFile_exact (w : Workspace) (rule : Rule) (p : Path) :
    (∀ bs, w.lookup p = .found (.file bs) →
      (Raises .fileEncoding (checkFile w rule p) ↔ ¬WellFormed bs) ∧
      (∀ e : FileError, checkFile w rule p = .error (.file e) →
        ∃ start, IsLongestStart bs start ∧
          e.report.context.get? (.str "offset") = some (.int start.length)) ∧
      (WellFormed bs → ∃ cs, bs = encodeUtf8 cs) ∧
      ∀ cs, bs = encodeUtf8 cs →
        checkFile w rule p = .ok (rule.checkAt (some p.text) (withFeeds cs))) ∧
    (Raises .fileNotFound (checkFile w rule p) ↔ ¬IsFile w p ∧ w.lookup p ≠ .tooLong) ∧
    (w.lookup p = .tooLong → ¬p.IsShort ∧ checkFile w rule p = .error .pathTooLong) := by
  refine ⟨fun bs hfile => ⟨raises_fileEncoding_iff hfile, fun e he => ?_, wellFormed_iff.1, ?_⟩,
    raises_fileNotFound_iff, fun hlong => ⟨?_, checkFile_of_tooLong hlong⟩⟩
  · obtain ⟨-, start, hstart, heq⟩ := exists_of_checkFile_eq_error hfile he
    cases heq
    exact ⟨start, hstart, rfl⟩
  · rintro cs rfl
    exact checkFile_of_encodeUtf8 hfile
  · exact fun hshort => hshort.lookup_ne_tooLong w hlong

/-- A directory with a file that breaks off in its second character, and one that does not. -/
def brokenOff : Workspace where
  files := .directory
    [("cut.php", .file [0x61, 0xE2, 0x82]), ("whole.php", .file (encodeUtf8 "a€\r\n\r".toList))]
  current := []

/-- A file that is broken off, a whole one, and one that is not there. -/
theorem checkFile_exact_brokenOff :
    Raises .fileEncoding (checkFile brokenOff ⟨"hero"⟩ ⟨0, ["cut.php"]⟩) ∧
      checkFile brokenOff ⟨"hero"⟩ ⟨0, ["whole.php"]⟩ =
        .ok (Rule.checkAt ⟨"hero"⟩ (some "whole.php") "a€\n\n".toList) ∧
      Raises .fileNotFound (checkFile brokenOff ⟨"hero"⟩ ⟨0, ["absent.php"]⟩) := by
  have hcut : brokenOff.lookup ⟨0, ["cut.php"]⟩ = .found (.file [0x61, 0xE2, 0x82]) := by rfl
  have hbroken : ¬WellFormed [0x61, 0xE2, 0x82] := by
    have hread : decodeUtf8 [0x61, 0xE2, 0x82] = .error 1 :=
      decodeUtf8_append ['a'] (r := [0xE2, 0x82]) (by decide)
    exact (decodeUtf8_eq_error_iff.1 hread).1
  have hwhole : brokenOff.lookup ⟨0, ["whole.php"]⟩ =
      .found (.file (encodeUtf8 "a€\r\n\r".toList)) := by rfl
  have habsent : brokenOff.lookup ⟨0, ["absent.php"]⟩ = .nothing := by rfl
  refine ⟨((checkFile_exact _ _ _).1 _ hcut).1.2 hbroken,
    ((checkFile_exact _ _ _).1 _ hwhole).2.2.2 _ rfl, (checkFile_exact _ _ _).2.1.2 ⟨?_, ?_⟩⟩
  · rintro ⟨bs, hbs⟩
    rw [habsent] at hbs
    cases hbs
  · rw [habsent]
    simp

/-- No file has a name of 256 bytes, and a path to it is not refused for want of a file. -/
theorem not_raises_fileNotFound_longName :
    let p : Path := ⟨0, [String.ofList (List.replicate 256 'a')]⟩
    ¬IsFile brokenOff p ∧ ¬Raises .fileNotFound (checkFile brokenOff ⟨"hero"⟩ p) := by
  intro p
  have hlong : brokenOff.lookup p = .tooLong := by
    -- The name is compared as a list: to read it off its bytes takes seconds.
    have hname : ¬p.names.any (·.toList.contains '\x00') := by
      simp only [p, List.any_cons, List.any_nil, String.toList_ofList]
      decide +kernel
    rw [Workspace.lookup, if_neg hname, if_neg (by decide +kernel), if_neg (by decide),
      FileTree.maxLinks, FileTree.walk, FileTree.walkWith, if_neg (by decide +kernel),
      if_neg (by decide +kernel), if_neg (by decide +kernel), if_pos (by decide +kernel)]
  refine ⟨?_, fun h => (raises_fileNotFound_iff.1 h).2 hlong⟩
  rintro ⟨bs, hbs⟩
  rw [hlong] at hbs
  cases hbs

end Project

end CategoryLint
