import FiberWeave.ClassPath
import FiberWeave.Proofs.Revision

/-!
# The class path after files were rewritten

A class path is made of the directories that its paths lead to and of the jars below them.  Unless
an ignore file was rewritten, it has the same places afterwards; unless a jar was, what is looked up
in them is what was there, or what that was rewritten to.

* `FileTree.Lasting` — a path at which the same is read again; `readFile_lasting`,
  `Jar.read?_lasting`.
* `ClassPath.looksAt` — the paths at which a class path looks for resources.
* `FileTree.walked_revised`, `ClassPath.ofPaths_revised` — the places are the same.
* **`ClassPath.resource?_revised`**, `ClassPath.resources_revised` — lookups.
-/

namespace FiberWeave

open FileTree (Revised)

namespace FileTree

/-- Whether a path leads to a directory, in terms of the directory that it leads to. -/
theorem isDirectory_eq (t : FileTree) (path : String) :
    t.isDirectory path = (t.directoryAt? path).isSome := by
  unfold isDirectory stat directoryAt? isDirectoryAt
  cases t.resolve path with
  | error e => rfl
  | ok loc =>
      cases he : t.get? loc with
      | none => simp [he, Option.filter_some]
      | some e => cases e <;> simp [he, Option.filter_some]

/-- The names that lead to what is below a directory depend on the locations only. -/
theorem namesBelow_eq (t : FileTree) (dir : Location) : (t.below dir).map Prod.fst =
    (t.locations.filter fun loc => dir.isPrefixOf loc && dir.length < loc.length).map
      (List.drop dir.length) := by
  simp only [below, locations, List.filter_map, List.map_map]
  rfl

/-- What a walk comes to is told by the names below its directory. -/
theorem walked_of_directory {t : FileTree} {path : String} {dir : Location}
    (h : t.directoryAt? path = some dir) : t.walked path =
      path :: (((t.below dir).map Prod.fst).filter (t.comesTo path dir)).map (pathBelow path) := by
  obtain ⟨hresolve, hdir⟩ := directoryAt?_eq_some_iff.1 h
  simp only [walked, hresolve, hdir, if_true, List.filter_map, List.map_map]
  rfl

/-- What bears on a directory on the way to an entry bears on the entry. -/
theorem mem_ignorePaths_take {base path : String} {dir : Location} {names : List String} {n : Nat}
    (h : path ∈ ignorePaths base dir (names.take n)) : path ∈ ignorePaths base dir names := by
  rcases List.mem_append.1 h with h | h
  · exact List.mem_append_left _ h
  · obtain ⟨m, hm, rfl⟩ := List.mem_map.1 h
    rw [List.mem_range, List.length_take, Nat.lt_min] at hm
    rw [List.take_take, Nat.min_eq_left (Nat.le_of_lt hm.1)]
    exact List.mem_append_right _ (List.mem_map_of_mem (List.mem_range.2 hm.2))

/-- What is no file cannot be read. -/
theorem toOption_readFile_of_not_isFile {t : FileTree} {path : String} (h : t.isFile path = false) :
    (t.readFile path).toOption = none := by
  cases hread : t.readFile path with
  | error e => rfl
  | ok bytes => simp [isFile_of_readFile hread] at h

end FileTree

/-- What is no file has no members. -/
theorem Jar.toOption_read?_of_not_isFile {t : FileTree} {path : String} (h : t.isFile path = false)
    (name : String) : (read? t path name).toOption = none := by
  unfold FileTree.isFile at h
  unfold read?
  cases hstat : t.stat path with
  | error e => rfl
  | ok e =>
      cases e with
      | file content mode => simp [hstat] at h
      | directory => rfl
      | link target => rfl

/-- A resource in a directory is what can be read under its name. -/
theorem ClassPathEntry.resource?_directory (t : FileTree) (name dir : String) :
    resource? t name (.directory dir) = (t.readFile (Path.join dir name)).toOption := by
  simp only [resource?, FileTree.readFile, FileTree.contentAt]
  cases t.stat (Path.join dir name) with
  | error e => rfl
  | ok e =>
      cases e with
      | file content mode => cases hmay : Entry.mayRead mode <;> simp [hmay]
      | directory => rfl
      | link target => rfl

/-- The paths at which a place is looked at for resources. -/
def ClassPathEntry.looksAt (names : List String) : ClassPathEntry → List String
  | .directory dir => names.map (Path.join dir)
  | .jar path => [path]

/-- The paths at which a class path looks for resources. -/
def ClassPath.looksAt (cp : ClassPath) (names : List String) : List String :=
  cp.entries.flatMap (ClassPathEntry.looksAt names)

/-! ## Lookups in a revised tree -/

/-- What is read at a path stays what it is: nothing is rewritten there, and the path does not come to
lead to a file by losing a link. -/
structure FileTree.Lasting (R : Bytes → Bytes → Prop) (t : FileTree) (path : String) : Prop where
  near : ¬t.TooFar path
  plain : ∀ data, t.readFile path = .ok data → ∀ new, ¬R data new

section Revised

variable {R : Bytes → Bytes → Prop} {t t' : FileTree} (v : Revised R t t')
  (hlocations : t'.locations = t.locations) (ht : t.WellFormed)

include v hlocations ht

theorem FileTree.isFile_revised {path : String} (hnear : ¬t.TooFar path) :
    t'.isFile path = t.isFile path :=
  v.isFile (free_of_children (children_of_locations hlocations)) ht hnear

/-- What is read is what was read, or what it was rewritten to. -/
theorem FileTree.readFile_revised {path : String} (hnear : ¬t.TooFar path) :
    Option.Rel (fun old new => new = old ∨ R old new) (t.readFile path).toOption
      (t'.readFile path).toOption := by
  have hsame := isFile_revised v hlocations ht hnear
  cases hfile : t.isFile path with
  | false =>
      rw [toOption_readFile_of_not_isFile hfile,
        toOption_readFile_of_not_isFile (hsame.trans hfile)]
      exact .none
  | true =>
      rcases v.readFile hfile with ⟨old, new, hold, hnew, hrelated⟩ | ⟨e, hold, hnew⟩
      · rw [hold, hnew]
        exact .some hrelated
      · rw [hold, hnew]
        exact .none

theorem FileTree.readFile_lasting {path : String} (h : t.Lasting R path) :
    (t'.readFile path).toOption = (t.readFile path).toOption := by
  have hrelated := readFile_revised v hlocations ht h.near
  generalize hold : (t.readFile path).toOption = old, (t'.readFile path).toOption = new at hrelated
  cases hrelated with
  | none => rfl
  | some hdata =>
      rcases hdata with rfl | hR
      · rfl
      · exact absurd hR (h.plain _ (Attempt.toOption_eq_some_iff.1 hold) _)

/-- A walk comes to the same entries if the ignore files are as they were. -/
theorem FileTree.comesTo_revised {base : String} {dir : Location} {names : List String}
    (hrules : ∀ path ∈ ignorePaths base dir names, t.Lasting R path) :
    t'.comesTo base dir names = t.comesTo base dir names := by
  have hfree := free_of_children (children_of_locations hlocations)
  have hdirs : ∀ loc, t'.isDirectoryAt loc = t.isDirectoryAt loc := fun loc =>
    Bool.eq_iff_iff.2 ⟨v.directory_back hfree, v.directory⟩
  have hpasses : ∀ n, t'.passesOver base dir (names.take n) = t.passesOver base dir (names.take n) := by
    intro n
    have hread : (ignorePaths base dir (names.take n)).map (fun path => (t'.readFile path).toOption) =
        (ignorePaths base dir (names.take n)).map fun path => (t.readFile path).toOption :=
      List.map_congr_left fun path hpath =>
        readFile_lasting v hlocations ht (hrules path (mem_ignorePaths_take hpath))
    rw [passesOver, passesOver, v.host, hread, hdirs]
  simp only [comesTo, v.host, hpasses]

/-- A walk comes to the same paths. -/
theorem FileTree.walked_revised {base : String} {dir : Location}
    (hdir : t.directoryAt? base = some dir)
    (hrules : ∀ path ∈ t.ignoreFiles base, t.Lasting R path) : t'.walked base = t.walked base := by
  have hdir' := (v.directoryAt? (free_of_children (children_of_locations hlocations)) base).trans hdir
  have hcomes : ∀ names ∈ (t.below dir).map Prod.fst,
      t'.comesTo base dir names = t.comesTo base dir names := by
    intro names hnames
    obtain ⟨e, he, rfl⟩ := List.mem_map.1 hnames
    refine comesTo_revised v hlocations ht fun path hpath => hrules path ?_
    rw [ignoreFiles, (directoryAt?_eq_some_iff.1 hdir).1]
    exact List.mem_flatMap.2 ⟨e, he, hpath⟩
  rw [walked_of_directory hdir, walked_of_directory hdir', namesBelow_eq, hlocations,
    ← namesBelow_eq, List.filter_congr hcomes]

/-- A path brings the same places along. -/
theorem ClassPath.entriesOf_revised {path : String} (hnear : ¬t.TooFar path)
    (hrules : ∀ rules ∈ t.ignoreFiles path, t.Lasting R rules) :
    entriesOf t' path = entriesOf t path := by
  have hdir := v.directoryAt? (FileTree.free_of_children (FileTree.children_of_locations hlocations))
    path
  unfold entriesOf
  rw [FileTree.isDirectory_eq, FileTree.isDirectory_eq, hdir,
    FileTree.isFile_revised v hlocations ht hnear]
  cases hloc : t.directoryAt? path with
  | none => rfl
  | some dir =>
      rw [FileTree.jarsBelow, FileTree.jarsBelow, FileTree.walked_revised v hlocations ht hloc hrules]

/-- **The places of a class path are the same.** -/
theorem ClassPath.ofPaths_revised {paths : List String} (hnear : ∀ path ∈ paths, ¬t.TooFar path)
    (hrules : ∀ rules ∈ paths.flatMap t.ignoreFiles, t.Lasting R rules) :
    ofPaths t' paths = ofPaths t paths := by
  rw [ofPaths, ofPaths, List.flatMap_congr fun path hpath =>
    entriesOf_revised v hlocations ht (hnear path hpath) fun rules hmem =>
      hrules rules (List.mem_flatMap.2 ⟨path, hpath, hmem⟩)]

/-- A jar has the members that it had. -/
theorem Jar.read?_lasting {path : String} (h : t.Lasting R path) (name : String) :
    (Jar.read? t' path name).toOption = (Jar.read? t path name).toOption := by
  cases hfile : t.isFile path with
  | true =>
      obtain ⟨goal, hresolve, content, mode, he⟩ := FileTree.isFile_iff.1 hfile
      have hstat : t.stat path = .ok (.file content mode) := by simp [FileTree.stat, hresolve, he]
      obtain ⟨e', hstat', hrenewed⟩ := v.stat hstat (by simp)
      obtain ⟨content', rfl, hcontent⟩ := hrenewed.file
      have hmembers : t'.members? content = t.members? content := by
        rw [FileTree.members?.eq_def, FileTree.members?.eq_def, v.host]
      cases hmay : Entry.mayRead mode with
      | false => simp [read?, hstat, hstat', hmay]
      | true =>
          have hread : t.readFile path = .ok content.toBytes := by
            simp [FileTree.readFile, FileTree.contentAt, hstat, hmay]
          rcases hcontent with rfl | ⟨bytes, rfl, hR⟩
          · simp only [read?, hstat, hstat', hmembers]
          · exact absurd hR (h.plain _ hread _)
  | false =>
      rw [toOption_read?_of_not_isFile hfile, toOption_read?_of_not_isFile
        ((FileTree.isFile_revised v hlocations ht h.near).trans hfile)]

theorem ClassPathEntry.resource?_revised {names : List String} {name : String} (hname : name ∈ names)
    (entry : ClassPathEntry) (hnear : ∀ path ∈ entry.looksAt names, ¬t.TooFar path)
    (hjar : ∀ path, entry = .jar path → t.Lasting R path) :
    Option.Rel (fun old new => new = old ∨ R old new) (entry.resource? t name)
      (entry.resource? t' name) := by
  cases entry with
  | directory dir =>
      rw [resource?_directory, resource?_directory]
      exact FileTree.readFile_revised v hlocations ht (hnear _ (List.mem_map_of_mem hname))
  | jar path =>
      rw [resource?, resource?, Jar.read?_lasting v hlocations ht (hjar path rfl) name]
      cases (Jar.read? t path name).toOption.join with
      | none => exact .none
      | some data => exact .some (.inl rfl)

namespace ClassPath

variable {cp : ClassPath} {names : List String} {name : String} (hname : name ∈ names)
  (hnear : ∀ path ∈ cp.looksAt names, ¬t.TooFar path)
  (hjars : ∀ path, .jar path ∈ cp.entries → t.Lasting R path)

include hname hnear hjars

theorem resource?_entries_revised {entry : ClassPathEntry} (hentry : entry ∈ cp.entries) :
    Option.Rel (fun old new => new = old ∨ R old new) (entry.resource? t name)
      (entry.resource? t' name) :=
  entry.resource?_revised v hlocations ht hname
    (fun path hpath => hnear path (List.mem_flatMap.2 ⟨entry, hentry, hpath⟩))
    fun path hjar => hjars path (hjar ▸ hentry)

/-- **The first resource with a name** is the one that was the first, or what it was rewritten
to. -/
theorem resource?_revised : Option.Rel (fun old new => new = old ∨ R old new)
    (cp.resource? t name) (cp.resource? t' name) := by
  have hentries : ∀ entry ∈ cp.entries, _ := fun entry hentry =>
    resource?_entries_revised v hlocations ht hname hnear hjars hentry
  unfold resource?
  generalize cp.entries = entries at hentries
  induction entries with
  | nil => exact .none
  | cons entry rest ih =>
      have hfirst := hentries entry List.mem_cons_self
      rw [List.findSome?_cons, List.findSome?_cons]
      generalize entry.resource? t name = first, entry.resource? t' name = first' at hfirst
      cases hfirst with
      | none => exact ih fun entry hentry => hentries entry (List.mem_cons_of_mem _ hentry)
      | some hrelated => exact .some hrelated

/-- All resources with a name are as they were if none of them is such as is rewritten. -/
theorem resources_revised (hplain : ∀ data ∈ cp.resources t name, ∀ new, ¬R data new) :
    cp.resources t' name = cp.resources t name := by
  refine List.filterMap_congr fun entry hentry => ?_
  have hfound : ∀ data, entry.resource? t name = some data → data ∈ cp.resources t name :=
    fun data hdata => List.mem_filterMap.2 ⟨entry, hentry, hdata⟩
  have hrelated := resource?_entries_revised v hlocations ht hname hnear hjars hentry
  generalize entry.resource? t name = first, entry.resource? t' name = first' at hfound hrelated
  cases hrelated with
  | none => rfl
  | @some old new hdata =>
      rcases hdata with rfl | hR
      · rfl
      · exact absurd hR (hplain old (hfound old rfl) new)

end ClassPath

end Revised

end FiberWeave
