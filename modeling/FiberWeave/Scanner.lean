import FiberWeave.ClassFileRef
import FiberWeave.FileTree.Walk

/-!
# Finding class files

A build directory is searched breadth first. Symbolic links are followed, but a directory that is
reached twice is searched once only, on the first path that led to it.

* `Scanner` — a search that is under way.
* `Scanner.start?`, `Scanner.next?`, `Scanner.drain` — its begin, one step and the rest of it.
* `Scanner.work_expand_le`, `Scanner.work_expand_lt` — searching a directory adds no work, which is
  why a search ends whatever the links.
-/

namespace FiberWeave

/-- A search for class files. -/
structure Scanner where
  root : String
  /-- Directories that are still to be searched. -/
  queue : List String
  /-- Class files that were found and not yet handed out. -/
  pending : List String := []
  /-- The directories that were reached, each by its own location. -/
  visited : List Location
  deriving DecidableEq, Repr, Inhabited

namespace Scanner

/-- A search of a directory, or nothing if the path leads to none. -/
def start? (t : FileTree) (root : String) : Option Scanner :=
  match t.resolve root with
  | .error _ => none
  | .ok loc =>
      if t.isDirectoryAt loc then
        some { root := FileTree.pathOf loc, queue := [FileTree.pathOf loc], visited := [loc] }
      else none

/-- Whether a name in a directory is that of a class file. One that is not Unicode never is. -/
def isClassFile (t : FileTree) (path name : String) : Bool :=
  t.host.isUnicode name && ClassFileRef.isClassFile path

/-- Takes note of one name in a directory. -/
def note (t : FileTree) (dir : String) (s : Scanner) (name : String) : Scanner :=
  let path := Path.join dir name
  match t.resolve path with
  | .error _ => s
  | .ok loc =>
      if t.isDirectoryAt loc then
        if s.visited.contains loc then s
        else { s with visited := loc :: s.visited, queue := s.queue ++ [path] }
      else if t.isFile path && isClassFile t path name then
        { s with pending := s.pending ++ [path] }
      else s

/-- Searches a directory. One that cannot be listed counts as empty. -/
def expand (t : FileTree) (s : Scanner) (dir : String) : Scanner :=
  match t.namesIn dir with
  | .error _ => s
  | .ok names => names.foldl (note t dir) s

/-! ## Why a search ends -/

/-- The directories that were not reached yet, and those reached but not searched. -/
def work (t : FileTree) (s : Scanner) : Nat :=
  (t.directories.filter fun loc => !s.visited.contains loc).length + s.queue.length

theorem length_filter_lt {α : Type} {p q : α → Bool} {xs : List α} {x : α} (hx : x ∈ xs)
    (hp : p x = true) (hq : q x = false) (h : ∀ y, q y = true → p y = true) :
    (xs.filter q).length < (xs.filter p).length := by
  induction xs with
  | nil => simp at hx
  | cons y ys ih =>
      have hle : (ys.filter q).length ≤ (ys.filter p).length := by
        simp only [← List.countP_eq_length_filter]
        exact List.countP_mono_left fun z _ => h z
      rcases List.mem_cons.1 hx with rfl | hx
      · simp only [List.filter_cons, hp, hq, if_true, Bool.false_eq_true, if_false,
          List.length_cons]
        omega
      · have := ih hx
        simp only [List.filter_cons]
        cases hqy : q y with
        | true => simp [h y hqy]; omega
        | false =>
            cases p y <;> simp <;> omega

theorem work_note_le (t : FileTree) (dir : String) (s : Scanner) (name : String) :
    (note t dir s name).work t ≤ s.work t := by
  unfold note
  simp only
  split
  · exact Nat.le_refl _
  · rename_i loc _
    by_cases hd : t.isDirectoryAt loc = true
    · simp only [hd, if_true]
      cases hv : s.visited.contains loc with
      | true => simp
      | false =>
          have hlt : (t.directories.filter fun l => !(loc :: s.visited).contains l).length <
              (t.directories.filter fun l => !s.visited.contains l).length :=
            length_filter_lt (FileTree.mem_directories hd) (by simpa using hv) (by simp)
              (by intro y hy; simp at hy ⊢; exact hy.2)
          simp only [Bool.false_eq_true, if_false, work, List.length_append, List.length_cons,
            List.length_nil]
          omega
    · simp only [hd, Bool.false_eq_true, if_false]
      split <;> simp [work]

theorem work_expand_le (t : FileTree) (s : Scanner) (dir : String) :
    (expand t s dir).work t ≤ s.work t := by
  unfold expand
  cases t.namesIn dir with
  | error _ => exact Nat.le_refl _
  | ok names =>
      simp only
      induction names generalizing s with
      | nil => exact Nat.le_refl _
      | cons name rest ih => exact Nat.le_trans (ih (note t dir s name)) (work_note_le t dir s name)

/-- So each directory that is searched leaves less. -/
theorem work_expand_lt {t : FileTree} {s : Scanner} {dir : String} {queue : List String}
    (h : s.queue = dir :: queue) :
    (expand t ⟨s.root, queue, [], s.visited⟩ dir).work t < s.work t := by
  have := work_expand_le t ⟨s.root, queue, [], s.visited⟩ dir
  simp only [work, h, List.length_cons] at this ⊢
  omega

/-! ## Running a search -/

/-- The next class file and the search after it, or nothing if none is left. -/
def next? (t : FileTree) (s : Scanner) : Option (ClassFileRef × Scanner) :=
  match s.pending, _ : s.queue with
  | path :: pending, _ => some (.ofPath s.root path, { s with pending })
  | [], [] => none
  | [], dir :: queue => next? t (expand t ⟨s.root, queue, [], s.visited⟩ dir)
termination_by s.work t
decreasing_by exact work_expand_lt ‹_›

/-- All class files that a search has not handed out yet, in the order in which it will. -/
def drain (t : FileTree) (s : Scanner) : List ClassFileRef :=
  s.pending.map (.ofPath s.root) ++
    match _ : s.queue with
    | [] => []
    | dir :: queue => drain t (expand t ⟨s.root, queue, [], s.visited⟩ dir)
termination_by s.work t
decreasing_by exact work_expand_lt ‹_›

end Scanner

end FiberWeave
