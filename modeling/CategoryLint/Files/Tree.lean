import CategoryLint.Files.Path

/-!
# File trees

The files that a run sees: a tree of directories, files and symbolic links, a working
directory in it, and the environment variables. A path is followed name by name; every name
but the last must be that of a directory, two dots lead back to the directory above, and a
link is followed in its turn, up to a number of links. The working directory can be removed;
it is then empty, and stays so whatever takes its name. Permissions are left out: everything
can be read.
-/

namespace CategoryLint

/-- The greatest number of bytes in a name. -/
def FileTree.maxNameBytes : Nat := 255

/-- What a symbolic link names. Unlike the names of a path, these may be single dots. -/
structure Link where
  /-- Whether the names lead on from the root, and not from the directory of the link. -/
  isAbsolute : Bool
  /-- The names on the way. -/
  names : List String
  /-- The names are such as files have. -/
  short : ∀ n ∈ names, n.utf8ByteSize ≤ FileTree.maxNameBytes

/-- A file, a link, or a directory with all below it. -/
inductive FileTree where
  /-- A file with its bytes. -/
  | file (bytes : List UInt8)
  /-- A symbolic link. -/
  | link (target : Link)
  /-- A directory with its entries. -/
  | directory (entries : List (String × FileTree))

/-- The place of a file or a directory: the names that lead to it from the root. -/
abbrev Place := List String

namespace FileTree

/-- Whether a tree is a directory. -/
def isDirectory : FileTree → Bool
  | directory _ => true
  | file _ | link _ => false

/-- The entries of a directory. -/
def entries : FileTree → List (String × FileTree)
  | directory es => es
  | file _ | link _ => []

/-- What is at a place. -/
def get? (t : FileTree) : Place → Option FileTree
  | [] => some t
  | n :: ns => (t.entries.lookup n).bind fun t => get? t ns

/-- The entries of a directory with a tree under a name: in place of what was there,
    or at the end. -/
def putEntry (n : String) (t : FileTree) : List (String × FileTree) → List (String × FileTree)
  | [] => [(n, t)]
  | (m, u) :: es => if m = n then (m, t) :: es else (m, u) :: putEntry n t es

/-- The tree with another one at a place; the directories on the way are made. -/
def put (new : FileTree) : Place → FileTree → FileTree
  | [], _ => new
  | n :: ns, t =>
    directory (putEntry n (put new ns ((t.entries.lookup n).getD (directory []))) t.entries)

/-- The tree without what is at a place. -/
def remove : Place → FileTree → FileTree
  | [], _ => directory []
  | [n], t => directory (t.entries.filter fun e => e.1 ≠ n)
  | n :: ns, t =>
    match t.entries.lookup n with
    | some u => directory (putEntry n (remove ns u) t.entries)
    | none => t

/-- Whether there is a directory at a place. -/
def hasDirectory (t : FileTree) (p : Place) : Bool := (t.get? p).any isDirectory

/-- What a path leads to. -/
inductive Lookup where
  /-- Nothing. -/
  | nothing
  /-- A file or a directory. -/
  | found (t : FileTree)
  /-- The system does not look, for the path or a name in it is too long. -/
  | tooLong

/-- The greatest number of bytes in a path. -/
def maxPathBytes : Nat := 4095

/-- The greatest number of links that are followed on one path. -/
def maxLinks : Nat := 40

/-- What names lead to from a place, with `follow` for what a link leads to from its directory
    and with the names after it. The last `removed` directories on the way to the place are no
    longer there: no name leads on from them, but two dots lead back. -/
def walkWith (t : FileTree) (follow : Link → Place → List String → Lookup) (removed : Nat)
    (place : Place) : List String → Lookup
  | [] =>
    if removed = 0 then
      match t.get? place with
      | some (.link _) | none => .nothing
      | some t => .found t
    else .found (.directory [])
  | n :: ns =>
    if n = ".." ∧ (0 < removed ∨ t.hasDirectory place) then
      walkWith t follow (removed - 1) place.dropLast ns
    else if 0 < removed ∨ !t.hasDirectory place then .nothing
    else if n = "." then walkWith t follow 0 place ns
    else if maxNameBytes < n.utf8ByteSize then .tooLong
    else
      match t.get? (place ++ [n]) with
      | some (.link target) => follow target place ns
      | _ => walkWith t follow 0 (place ++ [n]) ns

/-- What names lead to from a place, with a number of links that may still be followed. -/
def walk (t : FileTree) : (links : Nat) → (removed : Nat) → Place → List String → Lookup
  | 0 => walkWith t fun _ _ _ => .nothing
  | links + 1 => walkWith t fun target place ns =>
    walk t links 0 (if target.isAbsolute then [] else place) (target.names ++ ns)

end FileTree

/-- What a run sees of the system it runs on. -/
structure Workspace where
  /-- The files. -/
  files : FileTree
  /-- The working directory. -/
  current : Place
  /-- How many of the last directories on the way to the working directory are no longer
      there. What takes their names later is not the same. -/
  removed : Nat := 0
  /-- The environment variables. -/
  environment : List (String × String) := []

namespace Workspace

/-- What is at a path. A path with the character U+0000 leads nowhere. -/
def lookup (w : Workspace) (p : Path) : FileTree.Lookup :=
  if p.names.any (·.toList.contains '\x00') then .nothing
  else if FileTree.maxPathBytes < p.text.utf8ByteSize then .tooLong
  else if p.isAbsolute then w.files.walk FileTree.maxLinks 0 [] p.names
  else w.files.walk FileTree.maxLinks w.removed w.current p.names

/-- The workspace with a tree at a place. -/
def put (w : Workspace) (t : FileTree) (p : Place) : Workspace :=
  { w with files := FileTree.put t p w.files }

/-- The workspace without what is at a place. -/
def remove (w : Workspace) (p : Place) : Workspace :=
  { w with
    files := FileTree.remove p w.files
    removed :=
      if p.isPrefixOf w.current then max w.removed (w.current.length + 1 - p.length)
      else w.removed }

/-- The workspace with another working directory. -/
def enter (w : Workspace) (p : Place) : Workspace := { w with current := p, removed := 0 }

end Workspace

end CategoryLint
