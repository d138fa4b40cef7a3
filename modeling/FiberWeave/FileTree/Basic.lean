import FiberWeave.Bytes

/-!
# File trees

A file tree says what is at each location below the root: a directory, a file with its bytes and
mode, or a symbolic link.

* `Content` — what is in a file. A file may be given as an archive with its members.
* `Host` — what the operating system and the libraries make of a tree: which directories can be
  listed, which names are texts, which bytes are archives, what ignore files say.
* `FileTree` — the entries, in the order in which directories list them.
* `FileTree.get?` — what is at a location.
* `FileTree.children`, `FileTree.listed` — the names in a directory, and those that it lists.
* `FileTree.members?` — the members of the archive in a file.
* `FileTree.put`, `FileTree.remove`, `FileTree.move` — changes of single locations; `get?_put` says
  what the first does to every location.
-/

namespace FiberWeave

/-- Names from the root down. The root itself is the empty list. -/
abbrev Location := List String

/-- A member of an archive. The data is missing if it cannot be read. -/
structure Member where
  name : String
  data : Option Bytes
  deriving DecidableEq, Repr, Inhabited

/-- What is in a file. The octets of an archive are given beside its members; where nobody looks at
them, the mark at the front of an archive stands for them all. -/
inductive Content where
  | bytes (data : Bytes)
  | archive (members : List Member) (data : Bytes := [0x50, 0x4B, 0x03, 0x04])
  deriving DecidableEq, Repr, Inhabited

/-- The octets of a file. -/
def Content.toBytes : Content → Bytes
  | bytes data => data
  | archive _ data => data

/-- What can be at a location. -/
inductive Entry where
  | directory
  | file (content : Content) (mode : Nat)
  | link (target : String)
  deriving DecidableEq, Repr, Inhabited

/-- The mode of a directory and of a file that nobody gave another one. -/
def Entry.directoryMode : Nat := 0o755
def Entry.fileMode : Nat := 0o644

/-- Whether a mode lets the owner of a file read it. All files have the same owner. -/
def Entry.mayRead (mode : Nat) : Bool := mode &&& 0o400 != 0

/-- Whether a mode lets the owner of a file change it. -/
def Entry.mayWrite (mode : Nat) : Bool := mode &&& 0o200 != 0

/-- Whether a mode lets the owner of a file run it. -/
def Entry.mayRun (mode : Nat) : Bool := mode &&& 0o100 != 0

/-- The part of a mode that says who may do what. -/
def Entry.permissions (mode : Nat) : Nat := mode &&& 0o777

/-- What the operating system and the libraries that read files make of a tree. Where nothing else is
said, every directory can be listed, every name is Unicode, no octets are an archive, and no entry is
passed over. -/
structure Host where
  /-- Whether a directory cannot be listed. Its entries are there all the same. -/
  refusesListing : Location → Bool := fun _ => false
  /-- Whether a name is Unicode. One that is not is written as a text of as many octets that is the
  name of nothing else. -/
  isUnicode : String → Bool := fun _ => true
  /-- The members of the archive in a file, if the library for archives finds one in its bytes. -/
  unzip : Bytes → Option (List Member) := fun _ => none
  /-- Whether the library that walks directories passes an entry over: with the path that the walk
  starts from, the directory that it leads to, what can be read of the ignore files that bear on the
  entry, the names that lead to it from there, and whether it is a directory. -/
  ignores : (base : String) → (dir : Location) → (rules : List (Option Bytes)) →
    (names : List String) → (directory : Bool) → Bool := fun _ _ _ _ _ => false
  deriving Inhabited

/-- The entries of a tree in the order in which directories list them. -/
structure FileTree where
  entries : List (Location × Entry) := []
  /-- Where a path starts that does not start at the root. -/
  workingDirectory : Location := []
  host : Host := {}
  deriving Inhabited

namespace FileTree

/-- What is at a location. The root is always a directory. -/
def get? (t : FileTree) (loc : Location) : Option Entry :=
  if loc = [] then some .directory
  else (t.entries.find? fun e => e.1 == loc).map (·.2)

/-- Whether a directory is at a location. -/
def isDirectoryAt (t : FileTree) (loc : Location) : Bool := t.get? loc == some .directory

/-- The name of `loc` in the directory `dir`, if it lies directly in it. -/
def childName? (dir loc : Location) : Option String :=
  match loc.getLast? with
  | some name => if loc == dir ++ [name] then some name else none
  | none => none

/-- The names in a directory, in listing order. -/
def children (t : FileTree) (dir : Location) : List String :=
  t.entries.filterMap fun e => childName? dir e.1

/-- The names that a directory lists. -/
def listed (t : FileTree) (dir : Location) : List String :=
  if t.host.refusesListing dir then [] else t.children dir

/-- The directories of a tree. -/
def directories (t : FileTree) : List Location :=
  [] :: (t.entries.filter fun e => e.2 == .directory).map (·.1)

/-- The members of the archive in a file, if there is one. -/
def members? (t : FileTree) : Content → Option (List Member)
  | .bytes data => t.host.unzip data
  | .archive members _ => some members

/-- The bytes of all files, and of all members of archives. -/
def allBytes (t : FileTree) : List Bytes :=
  t.entries.flatMap fun e =>
    match e.2 with
    | .file content _ =>
        content.toBytes :: ((t.members? content).getD []).filterMap (·.data)
    | _ => []

/-- The entries with one at `loc`: in the place of the one there, or else at the end. -/
def putIn (loc : Location) (entry : Entry) : List (Location × Entry) → List (Location × Entry)
  | [] => [(loc, entry)]
  | e :: rest => if e.1 = loc then (loc, entry) :: rest else e :: putIn loc entry rest

/-- Puts an entry at a location, in the place of the one that is there. -/
def put (t : FileTree) (loc : Location) (entry : Entry) : FileTree :=
  { t with entries := putIn loc entry t.entries }

/-- Removes the entry at a location. What is below a directory stays, so this is for entries that
are not directories. -/
def remove (t : FileTree) (loc : Location) : FileTree :=
  { t with entries := t.entries.filter fun e => !(e.1 == loc) }

/-- Removes the entry at a location with all that is below it. -/
def removeAll (t : FileTree) (loc : Location) : FileTree :=
  { t with entries := t.entries.filter fun e => !(loc.isPrefixOf e.1) }

/-- Moves the entry at one location to another one, in the place of what is there. -/
def move (t : FileTree) (source target : Location) : FileTree :=
  match t.get? source with
  | some entry => (t.put target entry).remove source
  | none => t

/-! ## What the changes do -/

theorem find?_putIn (loc other : Location) (entry : Entry) (es : List (Location × Entry)) :
    ((putIn loc entry es).find? fun e => e.1 == other).map (·.2) =
      if other = loc then some entry else (es.find? fun e => e.1 == other).map (·.2) := by
  induction es with
  | nil =>
      by_cases ho : other = loc
      · simp [putIn, ho]
      · simp [putIn, ho, Ne.symm ho]
  | cons e rest ih =>
      by_cases he : e.1 = loc
      · by_cases ho : other = loc
        · simp [putIn, he, ho]
        · simp [putIn, he, ho, Ne.symm ho]
      · by_cases ho : e.1 = other
        · have : other ≠ loc := fun x => he (ho.trans x)
          simp [putIn, ho, this]
        · simp only [putIn, he, if_false, List.find?_cons, beq_eq_false_iff_ne.2 ho, ih]

theorem get?_put (t : FileTree) (loc other : Location) (entry : Entry) (h : loc ≠ []) :
    (t.put loc entry).get? other = if other = loc then some entry else t.get? other := by
  by_cases hroot : other = []
  · subst hroot
    simp [get?, Ne.symm h]
  · simp only [get?, hroot, if_false, put]
    exact find?_putIn loc other entry t.entries

/-- A location that holds a directory is one of the directories. -/
theorem mem_directories {t : FileTree} {loc : Location} (h : t.isDirectoryAt loc = true) :
    loc ∈ t.directories := by
  simp only [isDirectoryAt, get?, beq_iff_eq] at h
  by_cases hroot : loc = []
  · simp [directories, hroot]
  · simp only [hroot, if_false, Option.map_eq_some_iff] at h
    obtain ⟨e, he, hdir⟩ := h
    have hmem := List.mem_of_find?_eq_some he
    have hloc : e.1 = loc := by simpa using List.find?_some he
    simp only [directories, List.mem_cons, List.mem_map, List.mem_filter]
    exact Or.inr ⟨e, ⟨hmem, by simp [hdir]⟩, hloc⟩

end FileTree

end FiberWeave
