import FiberWeave.Proofs.Dependence
import FiberWeave.Proofs.PlainPaths

/-!
# Where classes are looked for

Names of classes come from class files that nobody has checked, and a directory on the class path is
asked for the file that a name stands for.  Whether that file lies in the directory is up to the name.

* `FileTree.SameAt` — the same is found at a path in two trees.
* `FileTree.Apart` — trees that differ in files only, in places that none of some paths lead to;
  `Apart.sameAt`: the same is found at these paths.
* `ClassPath.Covers` — the paths below the directories of a class path, and its jars.
  `ClassPath.Outside`, `Outside.apartFrom`: where there are no links below these directories, it is
  enough that the files lie elsewhere.
* `ClassPath.class?_congr`, `ClassPath.methodLists_congr` — lookups see nothing else, unless a class has
  a rooted name.
* **`ClassPath.class?_confined`** — where classes are looked for, and what does not influence
  classifications and common superclasses.
-/

namespace FiberWeave

/-! ## Trees that differ elsewhere -/

namespace FileTree

/-- The same is found at a path, or nothing. -/
def SameAt (t t' : FileTree) (path : String) : Prop := (t'.stat path).toOption = (t.stat path).toOption

/-- Nothing can be reached through what is at a location. -/
def IsDeadEnd (t : FileTree) (loc : Location) : Prop := t.get? loc = none ∨ t.HoldsFile loc

/-- Two trees that differ in files only, which may be there or not, in places that none of the paths
leads to. -/
structure Apart (paths : String → Prop) (t t' : FileTree) : Prop where
  workingDirectory : t'.workingDirectory = t.workingDirectory
  host : t'.host = t.host
  deadEnd : ∀ loc, t'.get? loc ≠ t.get? loc → t.IsDeadEnd loc ∧ t'.IsDeadEnd loc
  unreached : ∀ loc path, t'.get? loc ≠ t.get? loc → paths path →
    t.resolve path ≠ .ok loc ∧ t'.resolve path ≠ .ok loc

variable {paths : String → Prop} {t t' : FileTree} {loc goal : Location} {path : String}

theorem IsDeadEnd.not_directory (h : t.IsDeadEnd loc) : t.isDirectoryAt loc = false := by
  rcases h with hnone | hfile
  · simp [isDirectoryAt, hnone]
  · exact hfile.not_directory

theorem stat_eq_ok_iff {e : Entry} :
    t.stat path = .ok e ↔ ∃ goal, t.resolve path = .ok goal ∧ t.get? goal = some e := by
  unfold stat
  cases t.resolve path with
  | error error => simp
  | ok goal => cases he : t.get? goal <;> simp [he]

namespace Apart

theorem symm (h : Apart paths t t') : Apart paths t' t where
  workingDirectory := h.workingDirectory.symm
  host := h.host.symm
  deadEnd loc hloc := (h.deadEnd loc hloc.symm).symm
  unreached loc path hloc hpath := (h.unreached loc path hloc.symm hpath).symm

theorem directory (h : Apart paths t t') (hdir : t.isDirectoryAt loc = true) :
    t'.isDirectoryAt loc = true := by
  by_cases hloc : t'.get? loc = t.get? loc
  · rwa [isDirectoryAt, hloc]
  · rw [(h.deadEnd loc hloc).1.not_directory] at hdir
    cases hdir

/-- A walk leads where it led, unless it ends where the trees differ. -/
theorem leads (h : Apart paths t t') {k k' : Nat} {names : List String}
    (hleads : Leads t k loc names k' goal) (hgoal : t'.get? goal = t.get? goal) :
    Leads t' k loc names k' goal := by
  induction hleads with
  | done => exact .done
  | stay hdir hname _ ih => exact .stay (h.directory hdir) hname (ih hgoal)
  | up hdir _ ih => exact .up (h.directory hdir) (ih hgoal)
  | @enter k k' loc goal name rest e hdir hinert hup hlen he hlink hrest ih =>
      by_cases hloc : t'.get? (loc ++ [name]) = t.get? (loc ++ [name])
      · exact .enter (h.directory hdir) hinert hup hlen (hloc.trans he) hlink (ih hgoal)
      · -- nothing leads on from such a place, so it would be the goal
        obtain ⟨-, rfl⟩ := hrest.eq_of_not_directory (h.deadEnd _ hloc).1.not_directory
        exact absurd hgoal hloc
  | @follow k k' loc goal name target rest hdir hinert hup hlen he _ ih =>
      by_cases hloc : t'.get? (loc ++ [name]) = t.get? (loc ++ [name])
      · exact .follow (h.directory hdir) hinert hup hlen (hloc.trans he) (ih hgoal)
      · rcases (h.deadEnd _ hloc).1 with hnone | ⟨content, mode, hfile⟩
        · cases hnone.symm.trans he
        · cases hfile.symm.trans he

theorem resolve (h : Apart paths t t') (hpath : paths path) (hresolve : t.resolve path = .ok goal) :
    t'.resolve path = .ok goal := by
  have hgoal : t'.get? goal = t.get? goal := by
    by_contra hdiffers
    exact (h.unreached goal path hdiffers hpath).1 hresolve
  obtain ⟨hcheck, k', hleads⟩ := resolve_eq_ok_iff.1 hresolve
  have horigin : t'.origin path = t.origin path := by rw [origin, origin, h.workingDirectory]
  exact resolve_eq_ok_iff.2 ⟨hcheck, k', horigin ▸ h.leads hleads hgoal⟩

theorem stat (h : Apart paths t t') (hpath : paths path) {e : Entry} (hstat : t.stat path = .ok e) :
    t'.stat path = .ok e := by
  obtain ⟨goal, hresolve, he⟩ := stat_eq_ok_iff.1 hstat
  have hgoal : t'.get? goal = t.get? goal := by
    by_contra hdiffers
    exact (h.unreached goal path hdiffers hpath).1 hresolve
  exact stat_eq_ok_iff.2 ⟨goal, h.resolve hpath hresolve, hgoal.trans he⟩

/-- **The same is found at the paths** that do not lead to where the trees differ. -/
theorem sameAt (h : Apart paths t t') (hpath : paths path) : SameAt t t' path := by
  refine Option.ext fun e => ?_
  rw [Attempt.toOption_eq_some_iff, Attempt.toOption_eq_some_iff]
  exact ⟨h.symm.stat hpath, h.stat hpath⟩

end Apart

/-- Either the same is found at a path in both trees, or nothing in either. -/
theorem SameAt.stat_cases (h : SameAt t t' path) :
    (∃ e, t.stat path = .ok e ∧ t'.stat path = .ok e) ∨
      ∃ error error', t.stat path = .error error ∧ t'.stat path = .error error' := by
  rw [SameAt] at h
  cases hstat : t.stat path with
  | ok e =>
      rw [hstat] at h
      exact .inl ⟨e, rfl, Attempt.toOption_eq_some_iff.1 h⟩
  | error error =>
      cases hstat' : t'.stat path with
      | ok e => simp [hstat, hstat'] at h
      | error error' => exact .inr ⟨error, error', rfl, rfl⟩

end FileTree

/-! ## Lookups -/

namespace ClassPathEntry

variable {t t' : FileTree} {name : String}

/-- The paths that a place is for: those below a directory, and the path of a jar. -/
def Covers : ClassPathEntry → String → Prop
  | directory dir, path => ∃ tail, Path.IsPlain tail ∧ path = Path.join dir tail
  | jar archive, path => path = archive

/-- A directory gives what is found at the path of a resource. -/
theorem resource?_directory_congr {dir : String}
    (h : FileTree.SameAt t t' (Path.join dir name)) :
    resource? t' name (.directory dir) = resource? t name (.directory dir) := by
  rcases h.stat_cases with ⟨e, hstat, hstat'⟩ | ⟨error, error', hstat, hstat'⟩
  · simp only [resource?, hstat, hstat']
  · simp only [resource?, hstat, hstat']

/-- A jar gives what is found in it, whatever the name of a resource. -/
theorem resource?_jar_congr {archive : String} (h : FileTree.SameAt t t' archive)
    (hhost : t'.host = t.host) :
    resource? t' name (.jar archive) = resource? t name (.jar archive) := by
  rcases h.stat_cases with ⟨e, hstat, hstat'⟩ | ⟨error, error', hstat, hstat'⟩
  · simp only [resource?, Jar.read?, FileTree.members?, hstat, hstat', hhost]
  · simp only [resource?, Jar.read?, hstat, hstat']

theorem resource?_congr {entry : ClassPathEntry} (hhost : t'.host = t.host)
    (hcovers : ∀ path, entry.Covers path → FileTree.SameAt t t' path)
    (hname : ∀ dir, FileTree.SameAt t t' (Path.join dir name) ∨ Path.IsPlain name) :
    entry.resource? t' name = entry.resource? t name := by
  cases entry with
  | directory dir =>
      exact resource?_directory_congr ((hname dir).elim id fun hplain =>
        hcovers _ ⟨name, hplain, rfl⟩)
  | jar archive => exact resource?_jar_congr (hcovers archive rfl) hhost

end ClassPathEntry

namespace ClassPath

open ClassName (Rooted filePath)

variable {cp : ClassPath} {t t' : FileTree} {name : String}

/-- The paths that a class path is for. -/
def Covers (cp : ClassPath) (path : String) : Prop := ∃ entry ∈ cp.entries, entry.Covers path

/-- Two trees that differ in files only, in places that nothing below a directory of a class path
leads to, and none of its jars. -/
def ApartFrom (cp : ClassPath) (t t' : FileTree) : Prop := FileTree.Apart cp.Covers t t'

/-- Two trees that differ in files only, which lie neither below a directory of a class path nor where
one of its jars is, while there are no links below these directories. -/
structure Outside (cp : ClassPath) (t t' : FileTree) : Prop where
  workingDirectory : t'.workingDirectory = t.workingDirectory
  host : t'.host = t.host
  deadEnd : ∀ loc, t'.get? loc ≠ t.get? loc → t.IsDeadEnd loc ∧ t'.IsDeadEnd loc
  directory : ∀ dir, .directory dir ∈ cp.entries → ∀ u ∈ [t, t'], ∃ root, u.resolve dir = .ok root ∧
    u.LinkFree root ∧ ∀ loc, t'.get? loc ≠ t.get? loc → ¬root <+: loc
  jar : ∀ path, .jar path ∈ cp.entries → ∀ u ∈ [t, t'], ∀ loc, t'.get? loc ≠ t.get? loc →
    u.resolve path ≠ .ok loc

/-- Nothing below a directory leads to a file that lies outside. -/
theorem Outside.apartFrom (h : cp.Outside t t') : cp.ApartFrom t t' := by
  have hunreached : ∀ u ∈ [t, t'], ∀ loc path, t'.get? loc ≠ t.get? loc → cp.Covers path →
      u.resolve path ≠ .ok loc := by
    rintro u hu loc path hloc ⟨entry, hentry, hpath⟩ hresolve
    cases entry with
    | directory dir =>
        obtain ⟨tail, htail, rfl⟩ := hpath
        obtain ⟨root, hroot, hfree, hbelow⟩ := h.directory dir hentry u hu
        exact hbelow loc hloc (hfree.prefix_of_resolve hroot htail hresolve)
    | jar archive =>
        obtain rfl : path = archive := hpath
        exact h.jar path hentry u hu loc hloc hresolve
  exact ⟨h.workingDirectory, h.host, h.deadEnd, fun loc path hloc hpath =>
    ⟨hunreached t (by simp) loc path hloc hpath, hunreached t' (by simp) loc path hloc hpath⟩⟩

theorem ApartFrom.resource?_entry (h : cp.ApartFrom t t') {entry : ClassPathEntry}
    (hentry : entry ∈ cp.entries)
    (hname : ∀ dir, FileTree.SameAt t t' (Path.join dir name) ∨ Path.IsPlain name) :
    entry.resource? t' name = entry.resource? t name :=
  ClassPathEntry.resource?_congr h.host (fun _ hpath => h.sameAt ⟨entry, hentry, hpath⟩) hname

theorem resource?_congr
    (h : ∀ entry ∈ cp.entries, entry.resource? t' name = entry.resource? t name) :
    cp.resource? t' name = cp.resource? t name := by
  unfold resource?
  generalize cp.entries = entries at h
  induction entries with
  | nil => rfl
  | cons entry rest ih =>
      rw [List.findSome?_cons, List.findSome?_cons, h entry List.mem_cons_self,
        ih fun entry hentry => h entry (.tail _ hentry)]

/-- A class is found as before, unless its name is rooted and something else is found at its path. -/
theorem class?_congr (h : cp.ApartFrom t t')
    (hname : Rooted name → FileTree.SameAt t t' (filePath name)) :
    cp.class? t' name = cp.class? t name := by
  have hplaces : ∀ dir, FileTree.SameAt t t' (Path.join dir (filePath name)) ∨
      Path.IsPlain (filePath name) := fun dir => by
    by_cases hrooted : Rooted name
    · rw [ClassName.join_filePath_of_rooted hrooted]
      exact .inl (hname hrooted)
    · exact .inr (ClassName.isPlain_filePath_iff.2 hrooted)
  exact resource?_congr fun entry hentry => h.resource?_entry hentry hplaces

theorem facts?_congr (h : cp.ApartFrom t t')
    (hname : Rooted name → FileTree.SameAt t t' (filePath name)) :
    cp.facts? t' name = cp.facts? t name := by
  rw [facts?, facts?, class?_congr h hname]

/-- The lists of methods say what they said. -/
theorem methodLists_congr (h : cp.ApartFrom t t') : cp.methodLists t' = cp.methodLists t := by
  have hresources : ∀ name, Path.IsPlain name → cp.resources t' name = cp.resources t name :=
    fun name hplain => List.filterMap_congr fun entry hentry =>
      h.resource?_entry hentry fun _ => .inr hplain
  rw [methodLists, methodLists, hresources _ (by decide), hresources _ (by decide)]

/-- A way to find classes that asks a class path last finds the same for all that some classes lead
to, unless something else is found at the path of a rooted name among them. -/
theorem sameOn {starts : List String} {find find' : String → Option ClassFacts}
    (h : cp.ApartFrom t t')
    (hfind : ∀ name, cp.facts? t' name = cp.facts? t name → find' name = find name)
    (hrooted : ∀ name, Reaches find starts name → Rooted name →
      FileTree.SameAt t t' (filePath name)) : SameOn starts find find' := fun name hname =>
  hfind name (facts?_congr h (hrooted name hname))

/-! ## What has no influence -/

/-- What there is to say of where classes are looked for. -/
structure Confined (cp : ClassPath) : Prop where
  /-- A directory gives what can be read at one path. -/
  opened : ∀ t dir name, ClassPathEntry.resource? t (filePath name) (.directory dir) =
    (t.readFile (Path.join dir (filePath name))).toOption
  /-- The path is the one of the directory with names behind it, unless the name of the class is
  rooted. -/
  below : ∀ dir name, ¬Rooted name → Path.Below dir (Path.join dir (filePath name))
  /-- Then it is a path below the root, which has nothing to do with the directory: it is below the
  directory only if it happens to begin with its parts. -/
  rooted : ∀ dir name, Rooted name → Path.join dir (filePath name) = filePath name ∧
    Path.Below "/" (filePath name) ∧ (Path.Below dir (filePath name) ↔
      .root ∈ Path.parts dir ∧ Path.parts dir <+: Path.parts (filePath name))
  /-- Where there are no links below a directory, what is read lies in it. -/
  inside : ∀ (t : FileTree) dir root name goal, ¬Rooted name → t.resolve dir = .ok root →
    t.LinkFree root → t.resolve (Path.join dir (filePath name)) = .ok goal → root <+: goal
  /-- Then files that lie outside are apart from the class path. -/
  apart : ∀ t t', cp.Outside t t' → cp.ApartFrom t t'
  /-- Files apart from it do not matter to the lookup of a class, but for one file if its name is
  rooted. -/
  class? : ∀ t t', cp.ApartFrom t t' → ∀ name,
    (Rooted name → FileTree.SameAt t t' (filePath name)) → cp.class? t' name = cp.class? t name
  /-- They do not matter to the lists of methods and the database either, but for the files of the
  rooted names that the recorded classes lead to. -/
  finish : ∀ t t', cp.ApartFrom t t' → ∀ b : Database.Builder,
    (∀ name, Reaches (b.hierarchy cp t).facts? b.mentions name → Rooted name →
      FileTree.SameAt t t' (filePath name)) →
    b.finish cp t' (cp.methodLists t') = b.finish cp t (cp.methodLists t)
  /-- Nor to the common superclass of two classes, but for the files of the rooted names that these
  lead to. -/
  commonSuperclass : ∀ t t', cp.ApartFrom t t' → ∀ db : Database, db.classPath = cp → ∀ a c,
    (∀ name, Reaches (db.hierarchy t).facts? [a, c] name → Rooted name →
      FileTree.SameAt t t' (filePath name)) →
    db.commonSuperclass t' a c = db.commonSuperclass t a c

/-- **Classes are looked for below the directories of a class path** and in its jars, and nothing else
matters, as long as no name begins with a dot or a slash. -/
theorem class?_confined (cp : ClassPath) : Confined cp := by
  constructor
  case opened => exact fun t dir name => ClassPathEntry.resource?_directory t (filePath name) dir
  case below =>
    exact fun dir name h => Path.below_join dir (ClassName.isPlain_filePath_iff.2 h)
  case rooted =>
    exact fun dir name h =>
      ⟨ClassName.join_filePath_of_rooted h dir, ClassName.below_root_filePath h,
        Path.below_iff_of_below_root (ClassName.below_root_filePath h)⟩
  case inside =>
    intro t dir root name goal hname hdir hfree hgoal
    exact hfree.prefix_of_resolve hdir (ClassName.isPlain_filePath_iff.2 hname) hgoal
  case apart => exact fun t t' h => h.apartFrom
  case class? => exact fun t t' h name hname => class?_congr h hname
  case finish =>
    intro t t' h b hrooted
    rw [methodLists_congr h]
    refine Database.Builder.finish_congr _ (sameOn h (fun name hname => ?_) hrooted)
    rw [Database.Builder.facts?_hierarchy, Database.Builder.facts?_hierarchy, hname]
  case commonSuperclass =>
    rintro t t' h db rfl a c hrooted
    refine Hierarchy.commonSuperclass_congr (sameOn h (fun name hname => ?_) hrooted)
    simp only [Database.hierarchy, hname]

/-- A file outside the only directory of a class path is found as a class with a rooted name. -/
example : (⟨[.directory "/lib"]⟩ : ClassPath).class?
    { entries := [(["lib"], .directory), (["tmp"], .directory),
      (["tmp", "A.class"], .file (.bytes [0x78]) Entry.fileMode)] } "/tmp/A" = some [0x78] := by
  decide +kernel

end ClassPath

end FiberWeave
