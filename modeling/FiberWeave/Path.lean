import FiberWeave.Text.Cut

/-!
# Paths

A path is a text of names with slashes between them. Its parts are what the names amount to:
doubled and trailing slashes and inner dots do not count, so several texts have the same parts.

* `Path.pieces` — what stands between the slashes; `pieces_append` lengthens the last piece.
* `Path.Part`, `Path.parts` — the parts of a path.
* `Path.join`, `Path.parent?`, `Path.fileName?`, `Path.extension?` — the usual operations. The first
  two keep the spelling that they are given.
* `Path.relativeTo?` — the parts of a path below another one.
* `Path.sort` — paths in the order of their parts.
-/

namespace FiberWeave.Path

/-- One step of a path. -/
inductive Part where
  | root
  /-- A dot at the very front; dots elsewhere are no parts. -/
  | here
  | up
  | name (text : String)
  deriving DecidableEq, Repr, Inhabited

/-- The text of a part. -/
def Part.text : Part → String
  | root => "/"
  | here => "."
  | up => ".."
  | name text => text

/-- The texts between the slashes of a path. -/
def pieces (path : String) : List String := (Text.splitOn '/' path.toList).map String.ofList

/-- What is put behind a path makes its last piece longer, unless it has a slash itself. -/
theorem pieces_append {tail : String} (h : '/' ∉ tail.toList) (path : String) :
    ∃ front last, pieces path = front ++ [last] ∧
      pieces (path ++ tail) = front ++ [last ++ tail] := by
  obtain ⟨front, last, hpath, happend⟩ := Text.splitOn_append h path.toList
  refine ⟨front.map String.ofList, String.ofList last, ?_, ?_⟩
  · simp [pieces, hpath]
  · simp [pieces, String.toList_append, happend, String.ofList_append]

/-- There is always a last piece. -/
theorem pieces_eq_concat (path : String) : ∃ front last, pieces path = front ++ [last] := by
  obtain ⟨front, last, hpath, _⟩ := pieces_append (show '/' ∉ "".toList by simp) path
  exact ⟨front, last, hpath⟩

/-- Whether a text between slashes is no part. -/
def isInert (piece : String) : Bool := piece == "" || piece == "."

/-- The part that a text between slashes stands for, if it is one. -/
def innerPart? (piece : String) : Option Part :=
  if isInert piece then none
  else if piece == ".." then some .up
  else some (.name piece)

/-- Whether a path starts at the root. -/
def isAbsolute (path : String) : Bool := path.toList.head? == some '/'

/-- The parts of a path. -/
def parts (path : String) : List Part :=
  match pieces path with
  | [] => []
  | first :: later =>
      let front :=
        if isAbsolute path then some Part.root
        else if first == "." then some Part.here
        else innerPart? first
      front.toList ++ later.filterMap innerPart?

/-- `tail` as seen from `base`. A slash is put between them unless `base` is empty or ends with
one; a `tail` that starts at the root stands alone. -/
def join (base tail : String) : String :=
  if isAbsolute tail then tail
  else if base.isEmpty || base.toList.getLast? == some '/' then base ++ tail
  else base ++ "/" ++ tail

/-- The path without its last part, or nothing if that is the root or there is none. -/
def parent? (path : String) : Option String :=
  match pieces path with
  | [] => none
  | first :: later =>
      match later.reverse.dropWhile isInert with
      | _ :: kept =>
          match (kept.dropWhile isInert).reverse with
          | [] => some (if isAbsolute path then "/" else first)
          | kept => some ("/".intercalate (first :: kept))
      | [] => if first.isEmpty then none else some ""

/-- The last part, if it is a name. -/
def fileName? (path : String) : Option String :=
  match (parts path).getLast? with
  | some (.name text) => some text
  | _ => none

/-- What follows the last dot of the file name, if something stands before that dot. -/
def extension? (path : String) : Option String := do
  let name ← fileName? path
  match Text.cutLast? '.' name.toList with
  | some (_ :: _, after) => return String.ofList after
  | _ => none

/-- Whether the file name of a path ends like that of a jar. -/
def isJar (path : String) : Bool := extension? path == some "jar"

/-- The parts of a path that follow those of `base`, if it begins with them. -/
def relativeTo? (base path : String) : Option (List Part) :=
  let start := parts base
  let all := parts path
  if start.isPrefixOf all then some (all.drop start.length) else none

/-- Whether two paths have the same parts. -/
def same (a b : String) : Bool := parts a == parts b

/-! ## Order -/

/-- The place of a part among parts of other kinds. -/
def Part.rank : Part → Nat
  | root => 0
  | here => 1
  | up => 2
  | name _ => 3

/-- Parts by kind, names by their characters. -/
def Part.compare (a b : Part) : Ordering :=
  (Ord.compare a.rank b.rank).then (Ord.compare a.text b.text)

/-- Lists of parts in lexicographic order. -/
def compareParts : List Part → List Part → Ordering
  | [], [] => .eq
  | [], _ :: _ => .lt
  | _ :: _, [] => .gt
  | a :: as, b :: bs => (a.compare b).then (compareParts as bs)

/-- Paths in the order of their parts. -/
def sort (paths : List String) : List String :=
  paths.mergeSort fun a b => compareParts (parts a) (parts b) != .gt

end FiberWeave.Path
