import FiberWeave.ClassPath
import FiberWeave.Proofs.PathOrder
import FiberWeave.Proofs.Replacement
import Mathlib.Data.List.Find

/-!
# Trees whose directories list their names in another order

The operating system lists the names in a directory in any order.  Two trees that differ in this
have the same entry at each location, so that paths lead to the same places in both.  Jars are
sorted when they are found, so that class paths are the same, too.

* `find?_key_perm` — lookups by keys do not depend on an order.
* `FileTree.Reordered` — the same entries in another order; `FileTree.Alike` — at each location the
  same entry. `Reordered.alike`, `Reordered.wellFormed` say what stays, and `Alike.reordered` that
  nothing else can differ between trees with the same entries.
* `Alike.walk`, `Alike.resolve`, `Alike.stat` — what paths lead to depends on the entries only.
* `Reordered.children`, **`exists_reordered`** — the listings of such trees are all the orders in
  which each directory can list its names.
* **`Reordered.jarsBelow`** — jars are sorted.
* **`ClassPath.ofPaths_reordered`**, `ClassPath.resource?_alike` — class paths and lookups.
-/

namespace FiberWeave

/-- In a list without repeated keys, a key finds the same element in whatever order the elements
are. -/
theorem find?_key_perm {α κ : Type} [BEq κ] [LawfulBEq κ] {key : α → κ} {xs ys : List α}
    (h : ys.Perm xs) (hkeys : (xs.map key).Nodup) (k : κ) :
    (ys.find? fun x => key x == k) = xs.find? fun x => key x == k := by
  refine (List.find?_eq_find?_of_perm h.symm fun a ha b hb => ?_).symm
  have hsame : key a = key b := (eq_of_beq ha.2).trans (eq_of_beq hb.2).symm
  exact List.inj_on_of_nodup_map hkeys ha.1 hb.1 hsame

namespace FileTree

variable {t t' : FileTree}

/-- The same entries, which directories may list in another order. -/
structure Reordered (t t' : FileTree) : Prop where
  workingDirectory : t'.workingDirectory = t.workingDirectory
  host : t'.host = t.host
  entries : t'.entries.Perm t.entries

/-- The same entries, in whatever order. -/
structure Alike (t t' : FileTree) : Prop where
  workingDirectory : t'.workingDirectory = t.workingDirectory
  host : t'.host = t.host
  get? : ∀ loc, t'.get? loc = t.get? loc

/-! ## Where paths lead -/

namespace Alike

variable (h : Alike t t')

include h

theorem isDirectoryAt (loc : Location) : t'.isDirectoryAt loc = t.isDirectoryAt loc := by
  rw [FileTree.isDirectoryAt, FileTree.isDirectoryAt, h.get?]

theorem stride (follow : Location → List String → Except OsError Location) (loc : Location)
    (names : List String) : t'.stride follow loc names = t.stride follow loc names := by
  induction names generalizing loc with
  | nil => rfl
  | cons name rest ih => simp only [FileTree.stride, h.isDirectoryAt, h.get?, ih]

theorem walk (links : Nat) : t'.walk links = t.walk links := by
  induction links with
  | zero =>
      funext loc names
      exact h.stride _ loc names
  | succ links ih =>
      funext loc names
      rw [FileTree.walk, FileTree.walk, ih, h.stride]

theorem resolve (path : String) : t'.resolve path = t.resolve path := by
  simp only [FileTree.resolve, FileTree.origin, h.workingDirectory, h.walk]

theorem slot (path : String) : t'.slot path = t.slot path := by
  simp only [FileTree.slot, FileTree.origin, h.workingDirectory, h.walk, h.resolve,
    h.isDirectoryAt]

theorem stat (path : String) : t'.stat path = t.stat path := by
  simp only [FileTree.stat, h.resolve, h.get?]

theorem isFile (path : String) : t'.isFile path = t.isFile path := by
  simp only [FileTree.isFile, h.stat]

theorem isDirectory (path : String) : t'.isDirectory path = t.isDirectory path := by
  simp only [FileTree.isDirectory, h.stat]

theorem readFile (path : String) : t'.readFile path = t.readFile path := by
  simp only [FileTree.readFile, FileTree.contentAt, h.stat]

theorem modeAt (path : String) : t'.modeAt path = t.modeAt path := by
  simp only [FileTree.modeAt, h.stat]

theorem overlay : Overlay t t' [] := by
  refine ⟨h.workingDirectory, by simp, fun loc e he => .inl ?_⟩
  rw [h.get?, he]

end Alike

/-! ## Entries in another order -/

theorem Alike.symm (h : Alike t t') : Alike t' t :=
  ⟨h.workingDirectory.symm, h.host.symm, fun loc => (h.get? loc).symm⟩

/-- In whatever order entries are listed, the same is found at each location. -/
theorem Reordered.alike (h : Reordered t t') (ht : t.locations.Nodup) : Alike t t' := by
  refine ⟨h.workingDirectory, h.host, fun loc => ?_⟩
  rw [FileTree.get?, FileTree.get?, find?_key_perm h.entries ht]

theorem Reordered.locations (h : Reordered t t') : t'.locations.Perm t.locations :=
  h.entries.map Prod.fst

theorem Reordered.wellFormed (h : Reordered t t') (ht : t.WellFormed) : t'.WellFormed where
  distinct := h.locations.nodup_iff.2 ht.distinct
  names e he := ht.names e (h.entries.subset he)
  below e he := by
    rw [(h.alike ht.distinct).isDirectoryAt]
    exact ht.below e (h.entries.subset he)

theorem mem_entries_iff (ht : t.locations.Nodup) {loc : Location} {e : Entry} (hloc : loc ≠ []) :
    (loc, e) ∈ t.entries ↔ t.get? loc = some e := by
  refine ⟨fun hmem => ?_, fun he => exists_mem_of_get? he hloc⟩
  have hsome := (mem_locations_iff hloc).1 (List.mem_map_of_mem (f := Prod.fst) hmem)
  obtain ⟨e', he'⟩ := Option.isSome_iff_exists.1 hsome
  have hmem' := exists_mem_of_get? he' hloc
  obtain rfl : e = e' := by
    simpa using List.inj_on_of_nodup_map ht hmem hmem' rfl
  exact he'

theorem WellFormed.nil_not_mem (ht : t.WellFormed) : [] ∉ t.locations := by
  intro hmem
  obtain ⟨e, he, hloc⟩ := List.mem_map.1 hmem
  exact (ht.below e he).1 hloc

/-- Trees with the same entries differ in the order of their entries only, if each has the locations
of a well-formed tree. -/
theorem Alike.reordered {final final' : FileTree} (h : Alike final final') (ht : t.WellFormed)
    (ht' : t'.WellFormed) (hsame : final.locations = t.locations)
    (hsame' : final'.locations = t'.locations) : Reordered final final' := by
  have hnodup : final.locations.Nodup := hsame ▸ ht.distinct
  have hnodup' : final'.locations.Nodup := hsame' ▸ ht'.distinct
  refine ⟨h.workingDirectory, h.host,
    (List.perm_ext_iff_of_nodup hnodup'.of_map hnodup.of_map).2 ?_⟩
  rintro ⟨loc, e⟩
  by_cases hloc : loc = []
  · subst hloc
    exact iff_of_false
      (fun hmem => ht'.nil_not_mem (hsame' ▸ List.mem_map_of_mem (f := Prod.fst) hmem))
      fun hmem => ht.nil_not_mem (hsame ▸ List.mem_map_of_mem (f := Prod.fst) hmem)
  · rw [mem_entries_iff hnodup hloc, mem_entries_iff hnodup' hloc, h.get?]

/-! ## Listings -/

/-- Each directory lists the same names. -/
theorem Reordered.children (h : Reordered t t') (dir : Location) :
    (t'.children dir).Perm (t.children dir) := h.entries.filterMap _

theorem nodup_directories (ht : t.WellFormed) : t.directories.Nodup := by
  have hsub : ((t.entries.filter fun e => e.2 == .directory).map Prod.fst).Sublist t.locations :=
    List.filter_sublist.map _
  exact List.nodup_cons.2 ⟨fun hmem => ht.nil_not_mem (hsub.subset hmem), ht.distinct.sublist hsub⟩

/-- Names are listed in directories only. -/
theorem WellFormed.mem_directories_of_mem_children (ht : t.WellFormed) {dir : Location}
    {name : String} (hname : name ∈ t.children dir) : dir ∈ t.directories := by
  obtain ⟨e, he, hloc⟩ := mem_children_iff.1 hname
  have hbelow := (ht.below e he).2
  rw [hloc, List.dropLast_concat] at hbelow
  exact mem_directories hbelow

/-- The same tree, with directories that list their names in the given orders. -/
def arranged (t : FileTree) (order : Location → List String) : FileTree where
  workingDirectory := t.workingDirectory
  host := t.host
  entries := t.directories.flatMap fun dir =>
    (order dir).map fun name => (dir ++ [name], (t.get? (dir ++ [name])).getD .directory)

section Arranged

variable {order : Location → List String} (horder : ∀ dir, (order dir).Perm (t.children dir))

include horder

theorem children_arranged (ht : t.WellFormed) (dir : Location) :
    (t.arranged order).children dir = order dir := by
  -- only the entries made for `dir` lie directly in it
  have hone : ∀ other, ((order other).filterMap fun name => childName? dir (other ++ [name])) =
      if other = dir then order other else [] := by
    intro other
    by_cases hsame : other = dir <;> simp [childName?, hsame]
  have hother : ∀ dirs : List Location, dir ∉ dirs →
      (dirs.flatMap fun other => if other = dir then order other else []) = [] := by
    intro dirs hdir
    simp only [List.flatMap_eq_nil_iff, ite_eq_right_iff]
    rintro other hmem rfl
    exact absurd hmem hdir
  simp only [arranged, children, List.filterMap_flatMap, List.filterMap_map, Function.comp_def,
    hone]
  by_cases hdir : dir ∈ t.directories
  · obtain ⟨before, after, hsplit⟩ := List.mem_iff_append.1 hdir
    have hnodup := nodup_directories ht
    rw [hsplit, List.nodup_middle, List.nodup_cons, List.mem_append, not_or] at hnodup
    simp [hsplit, hother before hnodup.1.1, hother after hnodup.1.2]
  · have hnone : t.children dir = [] := List.eq_nil_iff_forall_not_mem.2 fun name hname =>
      hdir (ht.mem_directories_of_mem_children hname)
    have hempty : order dir = [] := (hnone ▸ horder dir).eq_nil
    rw [hother _ hdir, hempty]

theorem reordered_arranged (ht : t.WellFormed) : Reordered t (t.arranged order) := by
  have hlocations : (t.arranged order).locations =
      t.directories.flatMap fun dir => (order dir).map fun name => dir ++ [name] := by
    simp [arranged, locations, List.map_flatMap, Function.comp_def]
  have hnodup : (t.arranged order).locations.Nodup := by
    rw [hlocations, List.nodup_flatMap]
    refine ⟨fun dir _ => ?_, (nodup_directories ht).imp fun hne => ?_⟩
    · refine ((horder dir).nodup_iff.2 (ht.nodup_children dir)).map fun a b hab => ?_
      simpa using hab
    · intro loc hloc hloc'
      obtain ⟨name, _, rfl⟩ := List.mem_map.1 hloc
      obtain ⟨name', _, hsame⟩ := List.mem_map.1 hloc'
      exact hne (List.append_inj_left' hsame rfl).symm
  refine ⟨rfl, rfl, (List.perm_ext_iff_of_nodup hnodup.of_map ht.distinct.of_map).2 ?_⟩
  rintro ⟨loc, e⟩
  simp only [arranged, List.mem_flatMap, List.mem_map, Prod.mk.injEq, (horder _).mem_iff]
  constructor
  · rintro ⟨dir, _, name, hname, rfl, rfl⟩
    obtain ⟨⟨_, e⟩, he, rfl⟩ := mem_children_iff.1 hname
    have hget := (mem_entries_iff ht.distinct (by simp)).1 he
    simpa [hget] using he
  · intro he
    have hloc : loc ≠ [] := (ht.below _ he).1
    have hsplit := List.dropLast_concat_getLast hloc
    have hget := (mem_entries_iff ht.distinct hloc).1 he
    refine ⟨loc.dropLast, mem_directories (ht.below _ he).2, loc.getLast hloc,
      mem_children_iff.2 ⟨_, he, hsplit.symm⟩, hsplit, ?_⟩
    rw [hsplit, hget, Option.getD_some]

/-- **Every way to list the names in each directory** is that of a tree with the same entries. -/
theorem exists_reordered (ht : t.WellFormed) :
    ∃ t', Reordered t t' ∧ ∀ dir, t'.children dir = order dir :=
  ⟨t.arranged order, reordered_arranged horder ht, children_arranged horder ht⟩

end Arranged

/-- The names that lead to what is below a directory. -/
theorem isName_of_mem_below (ht : t.WellFormed) {dir : Location} {e : List String × Entry}
    (he : e ∈ t.below dir) : ∀ name ∈ e.1, IsName name := by
  obtain ⟨entry, hentry, rfl⟩ := List.mem_map.1 he
  exact fun name hname =>
    ht.names entry (List.mem_of_mem_filter hentry) name (List.mem_of_mem_drop hname)

/-- The paths below a directory are made of names. -/
theorem exists_names_of_mem_walked (ht : t.WellFormed) {base path : String}
    (hpath : path ∈ t.walked base) :
    ∃ names, (∀ name ∈ names, IsName name) ∧ path = pathBelow base names := by
  unfold walked at hpath
  cases hresolve : t.resolve base with
  | error e => simp [hresolve] at hpath
  | ok dir =>
      simp only [hresolve] at hpath
      rcases List.mem_cons.1 hpath with rfl | hpath
      · exact ⟨[], by simp, rfl⟩
      · cases hdir : t.isDirectoryAt dir with
        | false => simp [hdir] at hpath
        | true =>
            simp only [hdir, if_true] at hpath
            obtain ⟨e, he, rfl⟩ := List.mem_map.1 hpath
            exact ⟨e.1, isName_of_mem_below ht (List.mem_of_mem_filter he), rfl⟩

/-- The paths below a directory have different parts. -/
theorem parts_walked (ht : t.WellFormed) {base a b : String} (ha : a ∈ t.walked base)
    (hb : b ∈ t.walked base) (hparts : Path.parts a = Path.parts b) : a = b := by
  obtain ⟨names, hnames, rfl⟩ := exists_names_of_mem_walked ht ha
  obtain ⟨names', hnames', rfl⟩ := exists_names_of_mem_walked ht hb
  rw [pathBelow_injective hnames hnames' hparts]

/-- A walk passes over the same entries. -/
theorem Alike.comesTo (h : Alike t t') (base : String) (dir : Location) (names : List String) :
    t'.comesTo base dir names = t.comesTo base dir names := by
  simp only [FileTree.comesTo, FileTree.passesOver, h.host, h.readFile, h.isDirectoryAt]

theorem Reordered.walked (h : Reordered t t') (ht : t.WellFormed) (base : String) :
    (t'.walked base).Perm (t.walked base) := by
  have halike := h.alike ht.distinct
  unfold FileTree.walked
  rw [halike.resolve]
  cases t.resolve base with
  | error e => exact .refl _
  | ok dir =>
      simp only [halike.isDirectoryAt, halike.comesTo]
      cases t.isDirectoryAt dir with
      | false => exact .refl _
      | true => exact ((((h.entries.filter _).map _).filter _).map _).cons base

/-- **Jars are found in the same order.** -/
theorem Reordered.jarsBelow (h : Reordered t t') (ht : t.WellFormed) (base : String) :
    t'.jarsBelow base = t.jarsBelow base :=
  Path.sort_perm ((h.walked ht base).filter _) fun _ ha _ hb hparts =>
    parts_walked ht (List.mem_of_mem_filter ha) (List.mem_of_mem_filter hb) hparts

end FileTree

/-! ## Class paths -/

open FileTree (Alike Reordered)

variable {t t' : FileTree}

theorem Jar.read?_alike (h : Alike t t') (jar name : String) :
    Jar.read? t' jar name = Jar.read? t jar name := by
  simp only [Jar.read?, FileTree.members?, h.stat, h.host]

namespace ClassPath

/-- **A list of paths makes the same class path.** -/
theorem ofPaths_reordered (h : Reordered t t') (ht : t.WellFormed) (paths : List String) :
    ofPaths t' paths = ofPaths t paths := by
  have halike := h.alike ht.distinct
  have hentries : ∀ path, entriesOf t' path = entriesOf t path := fun path => by
    simp only [entriesOf, halike.isDirectory, halike.isFile, h.jarsBelow ht]
  rw [ofPaths, ofPaths, funext hentries]

variable (h : Alike t t') (cp : ClassPath)

include h

theorem resource?_entry_alike (name : String) (entry : ClassPathEntry) :
    entry.resource? t' name = entry.resource? t name := by
  cases entry with
  | directory dir => simp only [ClassPathEntry.resource?, h.stat]
  | jar path => simp only [ClassPathEntry.resource?, Jar.read?_alike h]

theorem resource?_alike (name : String) : cp.resource? t' name = cp.resource? t name := by
  simp only [resource?, funext (resource?_entry_alike h name)]

theorem resources_alike (name : String) : cp.resources t' name = cp.resources t name := by
  simp only [resources, funext (resource?_entry_alike h name)]

theorem facts?_alike (name : String) : cp.facts? t' name = cp.facts? t name := by
  simp only [facts?, class?, resource?_alike h]

theorem methodLists_alike : cp.methodLists t' = cp.methodLists t := by
  simp only [methodLists, resources_alike h]

end ClassPath

end FiberWeave
