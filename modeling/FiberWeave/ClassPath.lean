import FiberWeave.ClassName
import FiberWeave.Facts
import FiberWeave.FileTree.Archive
import FiberWeave.FileTree.Listing
import FiberWeave.MethodLists
import FiberWeave.Text.Utf8

/-!
# The class path

Classes and resources outside the build directory are looked up in directories and jars, in order.
A directory brings the jars below it along.

* `ClassPath.ofPaths` — the class path of a list of paths; `ClassPath.ignored` are those of them
  that lead to neither.
* `ClassPath.resource?`, `ClassPath.resources`, `ClassPath.class?` — lookups.
* `ClassPath.methodLists` — what the lists of suspendable methods on the class path say.
* `ClassPath.class?_mem` — whatever a lookup finds is among the bytes of the file tree.
-/

namespace FiberWeave

/-- A place to look classes up in. -/
inductive ClassPathEntry where
  | directory (path : String)
  | jar (path : String)
  deriving DecidableEq, Repr, Inhabited

namespace ClassPathEntry

/-- Whether two entries are of one kind and their paths have the same parts. -/
def same : ClassPathEntry → ClassPathEntry → Bool
  | directory a, directory b => Path.same a b
  | jar a, jar b => Path.same a b
  | _, _ => false

/-- The data of a resource in one place. What cannot be read is not there. -/
def resource? (t : FileTree) (name : String) : ClassPathEntry → Option Bytes
  | directory dir =>
      match t.stat (Path.join dir name) with
      | .ok (.file content mode) => if Entry.mayRead mode then some content.toBytes else none
      | _ => none
  | jar path => (Jar.read? t path name).toOption.join

end ClassPathEntry

/-- Places to look classes up in, first come first served. -/
structure ClassPath where
  entries : List ClassPathEntry := []
  deriving DecidableEq, Repr, Inhabited

namespace ClassPath

/-- Neighbours that are the same are kept once, in the form of the first. -/
def dedup : List ClassPathEntry → List ClassPathEntry
  | [] => []
  | e :: rest =>
      match dedup rest with
      | [] => [e]
      | next :: later => if e.same next then e :: later else e :: next :: later

/-- The entries that a path brings along. -/
def entriesOf (t : FileTree) (path : String) : List ClassPathEntry :=
  if t.isDirectory path then .directory path :: (t.jarsBelow path).map .jar
  else if t.isFile path && Path.isJar path then [.jar path]
  else []

/-- The class path of a list of directories and jars. -/
def ofPaths (t : FileTree) (paths : List String) : ClassPath :=
  ⟨dedup (paths.flatMap (entriesOf t))⟩

/-- The paths that lead to neither a directory nor a jar. -/
def ignored (t : FileTree) (paths : List String) : List String :=
  paths.filter fun path => !(t.isDirectory path || (t.isFile path && Path.isJar path))

/-- The data of the first resource with a name. -/
def resource? (cp : ClassPath) (t : FileTree) (name : String) : Option Bytes :=
  cp.entries.findSome? (ClassPathEntry.resource? t name)

/-- The data of all resources with a name. -/
def resources (cp : ClassPath) (t : FileTree) (name : String) : List Bytes :=
  cp.entries.filterMap (ClassPathEntry.resource? t name)

/-- The first class file of a class. -/
def class? (cp : ClassPath) (t : FileTree) (name : String) : Option Bytes :=
  cp.resource? t (ClassName.filePath name)

/-- The facts of a class, from the first class file of that name. -/
def facts? (cp : ClassPath) (t : FileTree) (name : String) : Option ClassFacts := do
  let bytes ← cp.class? t name
  (ClassFacts.analyze bytes).toOption

/-- What the method lists on the class path say together. -/
def methodLists (cp : ClassPath) (t : FileTree) : MethodLists :=
  let lists := (cp.resources t MethodLists.suspendablesResource).foldl
    (fun lists data => lists.addSuspendables (Text.Utf8.decodeLossy data)) {}
  (cp.resources t MethodLists.supersResource).foldl
    (fun lists data => lists.addSupers (Text.Utf8.decodeLossy data)) lists

/-! ## Lookups find what is in the tree -/

theorem mem_allBytes_of_get? {t : FileTree} {loc : Location} {content : Content} {mode : Nat}
    (h : t.get? loc = some (.file content mode)) :
    content.toBytes ∈ t.allBytes ∧
      ∀ members, t.members? content = some members → ∀ m ∈ members, ∀ data, m.data = some data →
        data ∈ t.allBytes := by
  simp only [FileTree.get?] at h
  split at h
  · simp at h
  · obtain ⟨e, he, hfile⟩ := Option.map_eq_some_iff.1 h
    have hmem := List.mem_of_find?_eq_some he
    constructor
    · refine List.mem_flatMap.2 ⟨e, hmem, ?_⟩
      rw [hfile]
      exact List.mem_cons_self
    · intro members hmembers m hm data hd
      refine List.mem_flatMap.2 ⟨e, hmem, ?_⟩
      rw [hfile]
      simp only [hmembers, Option.getD_some, List.mem_cons, List.mem_filterMap]
      exact Or.inr ⟨m, hm, hd⟩

theorem exists_get?_of_stat {t : FileTree} {path : String} {entry : Entry}
    (h : t.stat path = .ok entry) : ∃ loc, t.get? loc = some entry := by
  unfold FileTree.stat at h
  cases hr : t.resolve path with
  | error e => simp [hr] at h
  | ok loc =>
      refine ⟨loc, ?_⟩
      simp only [hr, Attempt.ok_bind] at h
      cases he : t.get? loc with
      | none => simp [he] at h
      | some e =>
          simp only [he, Except.ok.injEq, Attempt.pure_eq_ok] at h
          rw [h]

theorem resource?_mem {t : FileTree} {name : String} {entry : ClassPathEntry} {data : Bytes}
    (h : entry.resource? t name = some data) : data ∈ t.allBytes := by
  cases entry with
  | directory dir =>
      simp only [ClassPathEntry.resource?] at h
      split at h
      · rename_i content mode hs
        obtain ⟨loc, hloc⟩ := exists_get?_of_stat hs
        split at h
        · rw [← Option.some.inj h]
          exact (mem_allBytes_of_get? hloc).1
        · simp at h
      · simp at h
  | jar path =>
      simp only [ClassPathEntry.resource?, Jar.read?] at h
      split at h
      · simp at h
      · rename_i content mode hs
        obtain ⟨loc, hloc⟩ := exists_get?_of_stat hs
        split at h
        · simp at h
        · cases hmembers : t.members? content with
          | none => simp [hmembers] at h
          | some members =>
              simp only [hmembers] at h
              split at h
              · simp at h
              · rename_i found d hf
                have hm := List.mem_of_find?_eq_some hf
                simp only [Option.join_some, Option.some.injEq, Attempt.toOption_ok] at h
                rw [← h]
                exact (mem_allBytes_of_get? hloc).2 members hmembers _ (by simpa using hm) d rfl
              · simp at h
      · simp at h

/-- The bytes of a class that a lookup finds are among the bytes of the tree. -/
theorem class?_mem {cp : ClassPath} {t : FileTree} {name : String} {data : Bytes}
    (h : cp.class? t name = some data) : data ∈ t.allBytes := by
  obtain ⟨entry, _, he⟩ := List.exists_of_findSome?_eq_some h
  exact resource?_mem he

end ClassPath

end FiberWeave
