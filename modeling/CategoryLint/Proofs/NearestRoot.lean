import CategoryLint.Project.Root
import CategoryLint.Proofs.FileCheck

/-!
# The nearest root

A directory is marked if it holds a directory with the linter's settings, or anything under the
name of a repository (`Marked`); a symbolic link stands for what it leads to, and for nothing if it
leads nowhere (`FileTree.Leads`). The root of a project that a directory is in is the nearest
directory on the way up that is marked, or the directory itself if none is (`IsRoot`).

The directories on the way up are looked at from the nearest on, so those that are passed before
the first marked one are the ones below it (`ancestors_pairwise`). That makes the root that is found
the one place that is such a root (`root_nearest`). What can keep it from being found is the working
directory: it can be gone, or its path too long for what is in it to be looked at. The directories
above it have shorter paths.
-/

namespace CategoryLint

/-! ## Entries -/

/-- A name that an entry of a directory can have. -/
structure IsName (n : String) : Prop where
  ne_dot : n ≠ "."
  ne_dots : n ≠ ".."
  short : n.utf8ByteSize ≤ FileTree.maxNameBytes
  nul_not_mem : '\x00' ∉ n.toList

namespace FileTree

variable {t u v : FileTree} {p q place : Place} {name : String} {ns : List String}
  {follow : Link → Place → List String → Lookup}

/-- There is a directory at a place, and in it an entry with a name. -/
def Holds (t : FileTree) (p : Place) (name : String) (u : FileTree) : Prop :=
  ∃ es, t.get? p = some (.directory es) ∧ es.lookup name = some u

/-- An entry of a directory leads to a file or a directory: to itself, or to what it names if it
    is a link. -/
inductive Leads (t : FileTree) (p : Place) (name : String) (u : FileTree) : Prop where
  /-- It is a file or a directory. -/
  | entry : t.Holds p name u → (∀ target, u ≠ .link target) → Leads t p name u
  /-- It is a link, and its names lead on from its directory or from the root. -/
  | link {target : Link} : t.Holds p name (.link target) →
      t.walk (maxLinks - 1) 0 (if target.isAbsolute then [] else p) target.names = .found u →
      Leads t p name u

theorem get?_append (t : FileTree) (p q : Place) :
    t.get? (p ++ q) = (t.get? p).bind fun u => u.get? q := by
  induction p generalizing t with
  | nil => rfl
  | cons n p ih =>
    rw [List.cons_append, get?, get?]
    cases t.entries.lookup n with
    | none => rfl
    | some u => exact ih u

theorem holds_iff : t.Holds p name u ↔ t.get? (p ++ [name]) = some u := by
  have hentry : ∀ v : FileTree, v.get? [name] = v.entries.lookup name := by
    intro v
    rw [get?]
    cases v.entries.lookup name <;> rfl
  rw [Holds, get?_append]
  cases t.get? p with
  | none => simp
  | some v => cases v <;> simp [hentry, entries]

/-- A place on the way to a directory is a directory. -/
theorem hasDirectory_of_append (h : t.hasDirectory (p ++ q)) : t.hasDirectory p := by
  cases q with
  | nil => rwa [List.append_nil] at h
  | cons n q =>
    rw [hasDirectory, get?_append] at h
    rw [hasDirectory]
    cases hp : t.get? p with
    | none => simp [hp] at h
    | some u => cases u <;> simp_all [get?, entries, isDirectory]

/-- A name of a link is followed in its turn. -/
theorem walkWith_of_link {target : Link} (hplace : t.hasDirectory place) (hname : IsName name)
    (h : t.get? (place ++ [name]) = some (.link target)) :
    t.walkWith follow 0 place (name :: ns) = follow target place ns := by
  rw [walkWith, if_neg fun h => hname.ne_dots h.1, if_neg (by simp [hplace]), if_neg hname.ne_dot,
    if_neg (Nat.not_lt.2 hname.short), h]

/-- A walk goes on into an entry that is no link. -/
theorem walkWith_of_not_link (hplace : t.hasDirectory place) (hname : IsName name)
    (h : ∀ target, t.get? (place ++ [name]) ≠ some (.link target)) :
    t.walkWith follow 0 place (name :: ns) = t.walkWith follow 0 (place ++ [name]) ns := by
  rw [walkWith, if_neg fun h => hname.ne_dots h.1, if_neg (by simp [hplace]), if_neg hname.ne_dot,
    if_neg (Nat.not_lt.2 hname.short)]
  split
  · next target hlink => exact absurd hlink (h target)
  · rfl

/-- The names on the way to a directory lead there. -/
theorem walkWith_append (h : t.hasDirectory (place ++ p)) (hp : ∀ n ∈ p, IsName n) :
    t.walkWith follow 0 place (p ++ ns) = t.walkWith follow 0 (place ++ p) ns := by
  induction p generalizing place with
  | nil => rw [List.append_nil, List.nil_append]
  | cons n p ih =>
    rw [List.forall_mem_cons] at hp
    rw [List.append_cons] at h
    have hstep : t.hasDirectory (place ++ [n]) := hasDirectory_of_append h
    have hlink : ∀ target, t.get? (place ++ [n]) ≠ some (.link target) := by
      intro target hlink
      rw [hasDirectory, hlink] at hstep
      cases hstep
    rw [List.cons_append, walkWith_of_not_link (hasDirectory_of_append hstep) hp.1 hlink,
      ih h hp.2, ← List.append_cons]

theorem Leads.unique (hu : t.Leads p name u) (hv : t.Leads p name v) : u = v := by
  rcases hu with ⟨hu, hne⟩ | ⟨hu, hfound⟩ <;> rcases hv with ⟨hv, hne'⟩ | ⟨hv, hfound'⟩
  all_goals have heq := (holds_iff.1 hu).symm.trans (holds_iff.1 hv)
  · exact Option.some.inj heq
  · exact absurd (Option.some.inj heq) (hne _)
  · exact absurd (Option.some.inj heq).symm (hne' _)
  · cases heq
    exact Lookup.found.inj (hfound.symm.trans hfound')

/-- A path to an entry of a directory leads where the entry does. -/
theorem walk_eq_found_iff (h : t.hasDirectory p) (hp : ∀ n ∈ p, IsName n) (hname : IsName name) :
    t.walk maxLinks 0 [] (p ++ [name]) = .found u ↔ t.Leads p name u := by
  rw [show maxLinks = maxLinks - 1 + 1 from rfl, walk, walkWith_append h hp, List.nil_append]
  -- The names before the last are followed without a link; only the entry itself can be one.
  by_cases hlink : ∃ target, t.get? (p ++ [name]) = some (.link target)
  · obtain ⟨target, hlink⟩ := hlink
    rw [walkWith_of_link h hname hlink, List.append_nil]
    refine ⟨.link (holds_iff.2 hlink), ?_⟩
    rintro (⟨hu, hne⟩ | ⟨hlink', hfound⟩)
    · exact absurd (Option.some.inj ((holds_iff.1 hu).symm.trans hlink)) (hne target)
    · cases hlink.symm.trans (holds_iff.1 hlink')
      exact hfound
  · rw [walkWith_of_not_link h hname fun target hentry => hlink ⟨target, hentry⟩, walkWith,
      if_pos rfl]
    constructor
    · intro hfound
      split at hfound
      · cases hfound
      · cases hfound
      · next v hne hv =>
        cases hfound
        exact .entry (holds_iff.2 hv) hne
    · rintro (⟨hu, hne⟩ | ⟨hlink', -⟩)
      · rw [holds_iff.1 hu]
        cases u with
        | link target => exact absurd rfl (hne target)
        | file => rfl
        | directory => rfl
      · exact absurd ⟨_, holds_iff.1 hlink'⟩ hlink

end FileTree

/-! ## Paths of entries -/

/-- The number of bytes that the names on the way to a place take in a path. -/
def Place.bytes : Place → Nat
  | [] => 0
  | n :: p => n.utf8ByteSize + 1 + Place.bytes p

theorem Place.bytes_append (p q : Place) : Place.bytes (p ++ q) = p.bytes + q.bytes := by
  induction p with
  | nil => exact (Nat.zero_add _).symm
  | cons n p ih => simp only [List.cons_append, Place.bytes, ih, Nat.add_assoc]

theorem Path.utf8ByteSize_text (p : Place) (name : String) :
    (Path.mk 1 (p ++ [name])).text.utf8ByteSize = p.bytes + name.utf8ByteSize + 1 := by
  have hslash : "/".utf8ByteSize = 1 := by decide
  have hnames : ("/".intercalate (p ++ [name])).utf8ByteSize = p.bytes + name.utf8ByteSize := by
    induction p with
    | nil => rw [List.nil_append, String.intercalate_singleton, Place.bytes, Nat.zero_add]
    | cons n p ih =>
      have hrest : p ++ [name] ≠ [] := List.append_ne_nil_of_right_ne_nil p (List.cons_ne_nil _ _)
      rw [List.cons_append, String.intercalate_cons_of_ne_nil hrest, String.utf8ByteSize_append,
        String.utf8ByteSize_append, ih, Place.bytes, hslash]
      omega
  have hroot : (String.ofList (List.replicate 1 '/')).utf8ByteSize = 1 := by decide
  rw [Path.text, if_neg (fun h => by cases h.1), String.utf8ByteSize_append, hnames, hroot]
  omega

/-- The names of entries have no character that ends a path. -/
theorem any_nul_of_isName {p : Place} (h : ∀ n ∈ p, IsName n) :
    ¬p.any (·.toList.contains '\x00') := by
  simp only [List.any_eq_true, List.contains_iff_mem, not_exists, not_and]
  exact fun n hn => (h n hn).nul_not_mem

theorem forall_isName_concat {p : Place} {name : String} (h : ∀ n ∈ p, IsName n)
    (hname : IsName name) : ∀ n ∈ p ++ [name], IsName n := by
  intro n hn
  rcases List.mem_append.1 hn with hn | hn
  · exact h n hn
  · exact List.mem_singleton.1 hn ▸ hname

/-- The working directory is there, and so are the directories on the way to it. -/
structure Workspace.IsEntered (w : Workspace) : Prop where
  present : w.removed = 0
  directory : w.files.hasDirectory w.current
  names : ∀ n ∈ w.current, IsName n

namespace Project

variable {t : FileTree} {p q r current : Place} {w : Workspace} {name : String} {u : FileTree}
  {ps : List Place}

/-! ## Marks -/

/-- A directory is marked as the root of a project. -/
inductive Marked (t : FileTree) (p : Place) : Prop where
  /-- There is a directory with the linter's settings in it. -/
  | settings {es : List (String × FileTree)} :
      t.Leads p ".patternlint" (.directory es) → Marked t p
  /-- There is anything under the name of a repository in it. -/
  | repository {u : FileTree} : t.Leads p ".git" u → Marked t p

/-- A directory is the root of the project that another one is in. -/
structure IsRoot (t : FileTree) (current p : Place) : Prop where
  /-- It is on the way up. -/
  ancestor : p <+: current
  /-- If there is a marked directory on the way up, it is marked, and none below it is. -/
  nearest : (∃ q, q <+: current ∧ Marked t q) →
    Marked t p ∧ ∀ q, p <+: q → q ≠ p → q <+: current → ¬Marked t q
  /-- If there is none, it is the directory that the way starts from. -/
  unmarked : (∀ q, q <+: current → ¬Marked t q) → p = current

/-- A directory is there, and the paths of its marks are followed. -/
structure Visible (w : Workspace) (p : Place) : Prop where
  directory : w.files.hasDirectory p
  names : ∀ n ∈ p, IsName n
  short : (Path.mk 1 (p ++ [settingsName])).text.utf8ByteSize ≤ FileTree.maxPathBytes

namespace Visible

/-- The directories above have shorter paths. -/
theorem of_prefix (h : Visible w p) (hq : q <+: p) : Visible w q := by
  obtain ⟨r, rfl⟩ := hq
  refine ⟨FileTree.hasDirectory_of_append h.directory,
    fun n hn => h.names n (List.mem_append_left r hn), ?_⟩
  have hshort := h.short
  rw [Path.utf8ByteSize_text, Place.bytes_append] at hshort
  rw [Path.utf8ByteSize_text]
  omega

/-- From a visible place, a path to a marker is short enough to be looked up. -/
theorem isShort (h : Visible w p) (hname : IsName name)
    (hle : name.utf8ByteSize ≤ settingsName.utf8ByteSize) :
    (Path.mk 1 (p ++ [name])).IsShort := by
  constructor
  · have hshort := h.short
    rw [Path.utf8ByteSize_text] at hshort ⊢
    omega
  · exact fun n hn => (forall_isName_concat h.names hname n hn).short

/-- From a visible place, a marker is looked up as what its name leads to. -/
theorem lookup_eq_found_iff (h : Visible w p) (hname : IsName name)
    (hle : name.utf8ByteSize ≤ settingsName.utf8ByteSize) :
    w.lookup ⟨1, p ++ [name]⟩ = .found u ↔ w.files.Leads p name u := by
  rw [Workspace.lookup, if_neg (any_nul_of_isName (forall_isName_concat h.names hname)),
    if_neg (Nat.not_lt.2 (h.isShort hname hle).1)]
  exact FileTree.walk_eq_found_iff h.directory h.names hname

end Visible

theorem isName_settingsName : IsName settingsName := by
  constructor <;> decide +kernel

theorem isName_repositoryName : IsName repositoryName := by
  constructor <;> decide +kernel

/-- Whether a directory that can be seen is marked is found out. -/
theorem isMarked_of_visible (h : Visible w p) :
    ∃ b, isMarked w p = .ok b ∧ (b ↔ Marked w.files p) := by
  have hle : repositoryName.utf8ByteSize ≤ settingsName.utf8ByteSize := by decide +kernel
  have hsettings (u : FileTree) := h.lookup_eq_found_iff (u := u) isName_settingsName le_rfl
  have hrepository (u : FileTree) := h.lookup_eq_found_iff (u := u) isName_repositoryName hle
  rw [isMarked]
  split
  · next hlong => exact absurd hlong ((h.isShort isName_settingsName le_rfl).lookup_ne_tooLong w)
  · next es hfound => exact ⟨true, rfl, iff_of_true rfl (.settings ((hsettings _).1 hfound))⟩
  · next hnot =>
    split
    · next hlong =>
      exact absurd hlong ((h.isShort isName_repositoryName hle).lookup_ne_tooLong w)
    · next u hfound => exact ⟨true, rfl, iff_of_true rfl (.repository ((hrepository u).1 hfound))⟩
    · next hnone =>
      refine ⟨false, rfl, iff_of_false (by simp) ?_⟩
      -- What marks the directory would have been found by looking up its name.
      rintro (hes | hu)
      · exact hnot _ ((hsettings _).2 hes)
      · simp [(hrepository _).2 hu] at hnone

/-! ## The way up -/

/-- The nearest directories come first. -/
theorem ancestors_pairwise (p : Place) :
    (ancestors p).Pairwise fun q r => r.length < q.length := by
  rw [ancestors, List.pairwise_reverse, List.pairwise_map]
  refine List.pairwise_lt_range.imp_of_mem fun {m n} _ hn hlt => ?_
  rw [List.mem_range] at hn
  rw [List.length_take, List.length_take]
  omega

theorem exists_ancestors_eq (p : Place) : ∃ ps, ancestors p = p :: ps := by
  rw [ancestors, List.range_succ, List.map_append, List.reverse_append]
  exact ⟨_, congrArg (· :: _) List.take_length⟩

/-- What is passed before a directory on the way up are the directories below it. -/
theorem mem_of_ancestors_eq {before after : List Place} (h : ancestors p = before ++ q :: after)
    (hr : r <+: p) (hqr : q <+: r) (hne : r ≠ q) : r ∈ before := by
  have hmem : r ∈ before ++ q :: after := h ▸ mem_ancestors.2 hr
  rcases List.mem_append.1 hmem with hbefore | hrest
  · exact hbefore
  · have hafter : r ∈ after := (List.mem_cons.1 hrest).resolve_left hne
    have hsorted := ancestors_pairwise p
    rw [h, List.pairwise_append, List.pairwise_cons] at hsorted
    exact absurd hqr.length_le (Nat.not_le.2 (hsorted.2.1.1 r hafter))

/-- The first marked directory is found, and those before it are not marked. -/
theorem firstMarked_of_visible (h : ∀ p ∈ ps, Visible w p) :
    (firstMarked w ps = .ok none ∧ ∀ p ∈ ps, ¬Marked w.files p) ∨
      ∃ before p after, ps = before ++ p :: after ∧ firstMarked w ps = .ok (some p) ∧
        Marked w.files p ∧ ∀ q ∈ before, ¬Marked w.files q := by
  induction ps with
  | nil => exact .inl ⟨rfl, fun _ hp => absurd hp List.not_mem_nil⟩
  | cons p ps ih =>
    rw [List.forall_mem_cons] at h
    obtain ⟨b, hb, hmarked⟩ := isMarked_of_visible h.1
    cases b with
    | true =>
      refine .inr ⟨[], p, ps, rfl, ?_, hmarked.1 rfl, fun _ hq => absurd hq List.not_mem_nil⟩
      simp only [firstMarked, hb]
    | false =>
      have hnot : ¬Marked w.files p := fun hp => by simpa using hmarked.2 hp
      have hrest : firstMarked w (p :: ps) = firstMarked w ps := by simp only [firstMarked, hb]
      rw [hrest]
      rcases ih h.2 with ⟨hnone, hps⟩ | ⟨before, q, after, rfl, hsome, hq, hbefore⟩
      · exact .inl ⟨hnone, List.forall_mem_cons.2 ⟨hnot, hps⟩⟩
      · exact .inr ⟨p :: before, q, after, rfl, hsome, hq, List.forall_mem_cons.2 ⟨hnot, hbefore⟩⟩

/-- From a directory that can be seen, a root is found. -/
theorem findRoot_isRoot (h : Visible w w.current) :
    ∃ p, findRoot w = .ok p ∧ IsRoot w.files w.current p := by
  have hvisible : ∀ p ∈ ancestors w.current, Visible w p := fun p hp =>
    h.of_prefix (mem_ancestors.1 hp)
  rw [findRoot]
  rcases firstMarked_of_visible hvisible with
    ⟨hnone, hnot⟩ | ⟨before, p, after, hsplit, hsome, hmarked, hbefore⟩
  · have hunmarked : ∀ q, q <+: w.current → ¬Marked w.files q := fun q hq =>
      hnot q (mem_ancestors.2 hq)
    refine ⟨w.current, by rw [hnone]; rfl, List.prefix_refl _, ?_, fun _ => rfl⟩
    exact fun ⟨q, hq, hq'⟩ => absurd hq' (hunmarked q hq)
  · have hp : p <+: w.current := mem_ancestors.1 (by simp [hsplit])
    refine ⟨p, by rw [hsome]; rfl, hp, fun _ => ⟨hmarked, fun q hpq hne hq => ?_⟩,
      fun hunmarked => ?_⟩
    · exact hbefore q (mem_of_ancestors_eq hsplit hq hpq hne)
    · exact absurd hmarked (hunmarked p hp)

/-- There is one root only. -/
theorem IsRoot.eq (hp : IsRoot t current p) (hq : IsRoot t current q) : p = q := by
  by_cases h : ∃ r, r <+: current ∧ Marked t r
  · -- Of two places on one way, one is below the other; it is marked, so it is the same.
    refine Classical.byContradiction fun hne => ?_
    rcases List.prefix_or_prefix_of_prefix hp.ancestor hq.ancestor with hpq | hqp
    · exact (hp.nearest h).2 q hpq (Ne.symm hne) hq.ancestor (hq.nearest h).1
    · exact (hq.nearest h).2 p hqp hne hp.ancestor (hp.nearest h).1
  · have hnone : ∀ r, r <+: current → ¬Marked t r := fun r hr hmarked => h ⟨r, hr, hmarked⟩
    exact (hp.unmarked hnone).trans (hq.unmarked hnone).symm

/-- From a directory with too long a path, no mark is looked at. -/
theorem findRoot_of_long (hnames : ∀ n ∈ w.current, IsName n)
    (hlong : FileTree.maxPathBytes <
      (Path.mk 1 (w.current ++ [settingsName])).text.utf8ByteSize) :
    findRoot w = .error .pathTooLong := by
  have hlookup : w.lookup ⟨1, w.current ++ [settingsName]⟩ = .tooLong := by
    rw [Workspace.lookup,
      if_neg (any_nul_of_isName (forall_isName_concat hnames isName_settingsName)), if_pos hlong]
  obtain ⟨ps, hps⟩ := exists_ancestors_eq w.current
  simp only [findRoot, hps, firstMarked, isMarked, hlookup]
  rfl

/-- A file under the name of the settings does not mark the directory that it is in. -/
theorem marked_iff_of_file {bytes : List UInt8} (h : t.Leads p ".patternlint" (.file bytes)) :
    Marked t p ↔ ∃ u, t.Leads p ".git" u := by
  refine ⟨?_, fun ⟨_, hu⟩ => .repository hu⟩
  rintro (hes | hu)
  · cases h.unique hes
  · exact ⟨_, hu⟩

/-- From a working directory that is there, a root is found: the one place that is the root of the
    project that the directory is in, if the paths of its marks are not too long to be followed.
    From one that is gone or has too long a path, no root is found. A file under the name of the
    settings marks no directory. -/
theorem root_nearest (w : Workspace) :
    (w.IsEntered →
      let longest := (Path.mk 1 (w.current ++ [".patternlint"])).text.utf8ByteSize
      (longest ≤ FileTree.maxPathBytes →
        ∃ p, root w none = .ok ⟨1, p⟩ ∧ ∀ q, IsRoot w.files w.current q ↔ q = p) ∧
      (FileTree.maxPathBytes < longest → root w none = .error .pathTooLong)) ∧
    (0 < w.removed → root w none = .error .noDirectory) ∧
    ∀ p bytes, w.files.Leads p ".patternlint" (.file bytes) →
      (Marked w.files p ↔ ∃ u, w.files.Leads p ".git" u) := by
  refine ⟨fun h => ⟨fun hshort => ?_, fun hlong => ?_⟩, fun h => if_neg h.ne',
    fun p bytes => marked_iff_of_file⟩
  · obtain ⟨p, hfind, hp⟩ := findRoot_isRoot ⟨h.directory, h.names, hshort⟩
    refine ⟨p, ?_, fun q => ⟨fun hq => hq.eq hp, fun hq => hq ▸ hp⟩⟩
    rw [root, if_pos h.present, hfind]
    rfl
  · rw [root, if_pos h.present, findRoot_of_long h.names hlong]
    rfl

/-- A directory with settings below one with a repository, and a file with the name of the settings
    in the working directory. -/
def nested : Workspace where
  files := .directory [("a", .directory [(".git", .file []), ("b", .directory
    [(".patternlint", .directory []), ("c", .directory [(".patternlint", .file [])])])])]
  current := ["a", "b", "c"]

theorem nested_isEntered : nested.IsEntered := by
  refine ⟨rfl, by decide +kernel, ?_⟩
  simp only [nested, List.forall_mem_cons]
  exact ⟨by constructor <;> decide +kernel, by constructor <;> decide +kernel,
    by constructor <;> decide +kernel, by simp⟩

/-- A file in place of the settings directory marks nothing, and a repository marks its
    directory. -/
theorem root_nearest_nested :
    nested.IsEntered ∧
      (Path.mk 1 (nested.current ++ [".patternlint"])).text.utf8ByteSize ≤ FileTree.maxPathBytes ∧
      (∃ p, root nested none = .ok ⟨1, p⟩ ∧ ∀ q, IsRoot nested.files nested.current q ↔ q = p) ∧
      nested.files.Leads nested.current ".patternlint" (.file []) ∧
      (Marked nested.files nested.current ↔ ∃ u, nested.files.Leads nested.current ".git" u) := by
  have hshort : (Path.mk 1 (nested.current ++ [".patternlint"])).text.utf8ByteSize ≤
      FileTree.maxPathBytes := by decide +kernel
  have hfile : nested.files.Leads nested.current ".patternlint" (.file []) :=
    .entry (FileTree.holds_iff.2 rfl) (by simp)
  obtain ⟨hentered, -, hmarked⟩ := root_nearest nested
  exact ⟨nested_isEntered, hshort, (hentered nested_isEntered).1 hshort, hfile, hmarked _ _ hfile⟩

example : root nested none = .ok ⟨1, ["a", "b"]⟩ := rfl

/-- A link to nothing under the name of a repository, in a directory below one with a
    repository. -/
def dangling : Workspace where
  files := .directory [(".git", .directory []),
    ("a", .directory [(".git", .link ⟨false, ["gone"], by decide +kernel⟩)])]
  current := ["a"]

/-- Sixteen directories inside each other, with the longest names there are. -/
def deep : Workspace where
  files := (List.replicate 16 longestName).foldr (fun n t => .directory [(n, t)]) (.directory [])
  current := List.replicate 16 longestName
where
  /-- A name of 255 bytes. -/
  longestName : String := String.ofList (List.replicate FileTree.maxNameBytes 'a')

theorem isName_longestName : IsName deep.longestName where
  ne_dot := by decide +kernel
  ne_dots := by decide +kernel
  short := by decide +kernel
  nul_not_mem := by simp [deep.longestName, List.mem_replicate]

theorem deep_isEntered : deep.IsEntered :=
  ⟨rfl, by decide +kernel, fun _ hn => (List.mem_replicate.1 hn).2 ▸ isName_longestName⟩

/-- A link to nothing marks no directory. From a directory that is gone no root is found, and none
    from one with too long a path. -/
theorem root_passes_dangling :
    (∃ target, dangling.files.Holds dangling.current ".git" (.link target)) ∧
      root dangling none = .ok ⟨1, []⟩ ∧
      root { dangling with removed := 1 } none = .error .noDirectory ∧
      deep.IsEntered ∧ root deep none = .error .pathTooLong := by
  refine ⟨⟨_, FileTree.holds_iff.2 rfl⟩, rfl, rfl, deep_isEntered, ?_⟩
  rw [root, if_pos deep_isEntered.present,
    findRoot_of_long deep_isEntered.names (by decide +kernel)]
  rfl

end Project

end CategoryLint
