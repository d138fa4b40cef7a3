import FiberWeave.Proofs.Reordering
import FiberWeave.Proofs.Search
import FiberWeave.Proofs.SearchAgain

/-!
# Searching a directory without links

Where there are no symbolic links, a search can come to a directory on one path only, and whatever
order it takes, it comes to all of them.  So what it finds can be told without the search.

* `FileTree.LinkFree` — a directory with no links below it; `resolve_concat_iff` says where its
  names lead.
* `Access.dir_eq` — a directory is reached by the names of its location only.
* `FileTree.Shown` — names that lead through directories that list what is in them.
* `Scanner.mem_stops_iff` — the directories that a search visits.
* `Scanner.HasClassFile`, **`mem_drain_iff`** — the class files that a search finds.
* **`drain_reordered`** — the order in which directories list their names changes the order of what
  is found, and nothing else.
-/

namespace FiberWeave

namespace FileTree

variable {t : FileTree} {root goal : Location} {names : List String} {name : String}

/-- There are no symbolic links below a directory. -/
def LinkFree (t : FileTree) (root : Location) : Prop :=
  ∀ names target, t.get? (root ++ names) ≠ some (.link target)

theorem size_pathOf_concat (loc : Location) (name : String) :
    (pathOf loc).utf8ByteSize ≤ (pathOf (loc ++ [name])).utf8ByteSize := by
  by_cases hloc : loc = []
  · subst hloc
    simp [pathOf, String.utf8ByteSize_append]
  · rw [pathOf_concat hloc, String.utf8ByteSize_append, String.utf8ByteSize_append]
    omega

/-- A path is at least as long as the path of the directory that it begins with. -/
theorem size_pathOf_append (loc : Location) (names : List String) :
    (pathOf loc).utf8ByteSize ≤ (pathOf (loc ++ names)).utf8ByteSize := by
  induction names using List.reverseRecOn with
  | nil => rw [List.append_nil]
  | append_singleton front last ih =>
      rw [← List.append_assoc]
      exact ih.trans (size_pathOf_concat (loc ++ front) last)

/-- Where there are no links, a name leads to what has this name in its directory. -/
theorem LinkFree.leads_name {k k' : Nat} (hfree : t.LinkFree root) (hname : IsName name)
    (h : Leads t k (root ++ names) [name] k' goal) :
    goal = root ++ names ++ [name] ∧ (t.get? goal).isSome = true := by
  cases h with
  | stay _ hinert => simp [hname.not_inert] at hinert
  | up => exact absurd rfl hname.ne_up
  | follow _ _ _ _ hlink =>
      rw [List.append_assoc] at hlink
      exact absurd hlink (hfree _ _)
  | enter _ _ _ _ he _ hrest =>
      cases hrest with
      | done => exact ⟨rfl, by rw [he]; rfl⟩

/-- Where there are no links, the path to what a directory lists leads there, unless it is too
long. -/
theorem resolve_concat_iff (ht : t.WellFormed) (hfree : t.LinkFree root)
    (hdir : t.isDirectoryAt (root ++ names) = true) (hname : IsName name) :
    t.resolve (pathOf (root ++ names ++ [name])) = .ok goal ↔
      goal = root ++ names ++ [name] ∧ (t.get? goal).isSome = true ∧
        (pathOf goal).utf8ByteSize ≤ pathLimit := by
  have hnames := ht.names_of_directory hdir
  have hall : ∀ n ∈ root ++ names ++ [name], IsName n := by
    intro n hn
    rcases List.mem_append.1 hn with hn | hn
    · exact hnames n hn
    · exact List.mem_singleton.1 hn ▸ hname
  obtain ⟨k, hleads⟩ := walk_eq_ok_iff.1 (ht.walk_names hdir)
  rw [resolve_pathOf_iff hall, walk_eq_ok_iff]
  constructor
  · rintro ⟨hshort, k', hgoal⟩
    obtain ⟨j, mid, hfront, hlast⟩ := hgoal.split _ _ rfl
    obtain rfl := hfront.unique hleads
    obtain ⟨rfl, hsome⟩ := hfree.leads_name hname hlast
    exact ⟨rfl, hsome, hshort⟩
  · rintro ⟨rfl, hsome, hshort⟩
    obtain ⟨e, he⟩ := Option.isSome_iff_exists.1 hsome
    refine ⟨hshort, k, hleads.append (.enter hdir hname.not_inert hname.ne_up hname.length he ?_
      .done)⟩
    rintro target rfl
    rw [List.append_assoc] at he
    exact hfree _ _ he

/-- Where there are no links, a directory is reached by the names of its location only. -/
theorem Access.dir_eq {dir : Location} (h : t.Access t.children root names dir) (ht : t.WellFormed)
    (hfree : t.LinkFree root) : dir = root ++ names := by
  induction h with
  | here => exact (List.append_nil root).symm
  | enter _ hname hleads _ ih =>
      subst ih
      have hname := ht.isName_of_mem_children hname
      obtain ⟨k', hleads⟩ := walk_eq_ok_iff.1 hleads
      rw [(hfree.leads_name hname hleads).1, List.append_assoc]

theorem Access.directory {inside : Location → List String} {dir : Location}
    (h : t.Access inside root names dir)
    (hroot : t.isDirectoryAt root = true) : t.isDirectoryAt dir = true := by
  cases h with
  | here => exact hroot
  | enter _ _ _ hsub => exact hsub

/-- What is at a location is in a directory. -/
theorem WellFormed.mem_children (ht : t.WellFormed) {dir : Location} {e : Entry}
    (he : t.get? (dir ++ [name]) = some e) :
    t.isDirectoryAt dir = true ∧ name ∈ t.children dir := by
  have hmem := exists_mem_of_get? he (by simp)
  exact ⟨by simpa using (ht.below _ hmem).2, mem_children_iff.2 ⟨_, hmem, rfl⟩⟩

/-- The directories that names lead through, from `root` on, list what is in them. -/
def Shown (t : FileTree) (root : Location) (names : List String) : Prop :=
  ∀ n < names.length, t.host.refusesListing (root ++ names.take n) = false

theorem shown_concat_iff : t.Shown root (names ++ [name]) ↔
    t.Shown root names ∧ t.host.refusesListing (root ++ names) = false := by
  constructor
  · intro h
    refine ⟨fun n hn => ?_, by simpa using h names.length (by simp)⟩
    simpa [List.take_append_of_le_length (Nat.le_of_lt hn)] using h n (by simp; omega)
  · rintro ⟨h, hlast⟩ n hn
    rcases Nat.lt_or_eq_of_le (Nat.le_of_lt_succ (by simpa using hn)) with hn | rfl
    · simpa [List.take_append_of_le_length (Nat.le_of_lt hn)] using h n hn
    · simpa using hlast

/-- A directory that can be listed lists what is in it. -/
theorem mem_listed_iff {dir : Location} :
    name ∈ t.listed dir ↔ name ∈ t.children dir ∧ t.host.refusesListing dir = false := by
  unfold FileTree.listed
  cases t.host.refusesListing dir <;> simp

/-- What is reached through names that directories list is shown. -/
theorem Access.shown {dir : Location} (h : t.Access t.listed root names dir) (ht : t.WellFormed)
    (hfree : t.LinkFree root) : t.Shown root names := by
  induction h with
  | here => exact fun n hn => absurd hn (Nat.not_lt_zero n)
  | @enter names dir sub name h hname _ _ ih =>
      obtain rfl := h.of_listed.dir_eq ht hfree
      exact shown_concat_iff.2 ⟨ih, (mem_listed_iff.1 hname).2⟩

end FileTree

namespace Scanner

open FileTree

variable {t t' : FileTree} {root : Location} {stops : List Stop} {files : List ClassFileRef}

/-! ## The directories of a search -/

section Stops

variable (ht : t.WellFormed) (hdir : t.isDirectoryAt root = true) (hfree : t.LinkFree root)
  (hvisits : Visits t root stops files)

include ht hdir hfree hvisits

theorem size_le_of_mem {stop : Stop} (hstop : stop ∈ stops) :
    (pathOf stop.dir).utf8ByteSize ≤ pathLimit := by
  have haccess := hvisits.access stop hstop
  have hresolve := hvisits.resolves stop hstop
  have hroot := ht.names_of_directory hdir
  rw [Stop.path_eq hroot (haccess.of_listed.isName ht), ← haccess.of_listed.dir_eq ht hfree]
    at hresolve
  exact ((resolve_pathOf_iff (ht.names_of_directory (haccess.directory hdir))).1 hresolve).1

/-- **A search visits all directories with paths that are short enough**, by the names of their
locations, as far as the directories above list them. -/
theorem mem_stops_iff {names : List String} {dir : Location} : ⟨names, dir⟩ ∈ stops ↔
    dir = root ++ names ∧ t.isDirectoryAt dir = true ∧
      (pathOf dir).utf8ByteSize ≤ pathLimit ∧ t.Shown root names := by
  constructor
  · intro hstop
    have haccess := hvisits.access _ hstop
    exact ⟨haccess.of_listed.dir_eq ht hfree, haccess.directory hdir,
      size_le_of_mem ht hdir hfree hvisits hstop, haccess.shown ht hfree⟩
  · rintro ⟨rfl, hsub, hshort, hshown⟩
    induction names using List.reverseRecOn with
    | nil => simpa using hvisits.start
    | append_singleton front last ih =>
        -- the directory above is visited, and the search goes on from there
        rw [← List.append_assoc] at hsub hshort ⊢
        have he : t.get? (root ++ front ++ [last]) = some .directory := by
          simpa [isDirectoryAt] using hsub
        obtain ⟨habove, hchild⟩ := ht.mem_children he
        obtain ⟨hfrontShown, hlists⟩ := shown_concat_iff.1 hshown
        have hlast := ht.isName_of_mem_children hchild
        have hfront := ih habove ((size_pathOf_concat _ last).trans hshort) hfrontShown
        have hnames := (hvisits.access _ hfront).of_listed.isName ht
        have hresolve : t.resolve (Stop.pathTo root ⟨front, root ++ front⟩ last) =
            .ok (root ++ front ++ [last]) := by
          rw [Stop.pathTo_eq (ht.names_of_directory hdir) hnames hlast, ← List.append_assoc]
          exact (resolve_concat_iff ht hfree habove hlast).2 ⟨rfl, by rw [he]; rfl, hshort⟩
        obtain ⟨next, hnext, hsame, _⟩ := hvisits.closed _ hfront last
          (mem_listed_iff.2 ⟨hchild, hlists⟩) _ hresolve hsub
        have hnextNames := (hvisits.access next hnext).of_listed.dir_eq ht hfree
        rw [hsame, List.append_assoc] at hnextNames
        obtain ⟨names, dir⟩ := next
        obtain rfl : dir = root ++ front ++ [last] := hsame
        obtain rfl : front ++ [last] = names := List.append_cancel_left hnextNames
        exact hnext

end Stops

/-! ## The class files of a search -/

/-- A class file below a directory that a search can find: its path is short enough, its name is
Unicode, and the directories on the way can be listed. -/
structure HasClassFile (t : FileTree) (root : Location) (names : List String) (name : String) :
    Prop where
  file : t.isFileAt (root ++ names ++ [name]) = true
  suffix : isClassName name = true
  unicode : t.host.isUnicode name = true
  shown : t.Shown root (names ++ [name])
  short : (pathOf (root ++ names ++ [name])).utf8ByteSize ≤ pathLimit

theorem exists_get?_of_isFileAt {loc : Location} (h : t.isFileAt loc = true) :
    ∃ content mode, t.get? loc = some (.file content mode) := by
  unfold isFileAt at h
  cases he : t.get? loc with
  | none => simp [he] at h
  | some e =>
      cases e with
      | file content mode => exact ⟨content, mode, rfl⟩
      | directory => simp [he] at h
      | link target => simp [he] at h

theorem mem_files_iff (ht : t.WellFormed) (hdir : t.isDirectoryAt root = true)
    (hfree : t.LinkFree root) (hvisits : Visits t root stops files) {file : ClassFileRef} :
    file ∈ files ↔ ∃ names name, HasClassFile t root names name ∧
      file = .ofPath (pathOf root) (pathOf (root ++ names ++ [name])) := by
  have hroot := ht.names_of_directory hdir
  have hpathTo : ∀ {names : List String} {name : String}, ⟨names, root ++ names⟩ ∈ stops →
      IsName name → Stop.pathTo root ⟨names, root ++ names⟩ name =
        pathOf (root ++ names ++ [name]) := fun hstop hname => by
    rw [Stop.pathTo_eq hroot ((hvisits.access _ hstop).of_listed.isName ht) hname,
      List.append_assoc]
  rw [hvisits.found, List.mem_flatMap]
  constructor
  · rintro ⟨⟨names, dir⟩, hstop, hfile⟩
    obtain ⟨rfl, hsub, _, hnames⟩ := (mem_stops_iff ht hdir hfree hvisits).1 hstop
    obtain ⟨name, hname, rfl⟩ := List.mem_map.1 hfile
    obtain ⟨hseen, htest⟩ := List.mem_filter.1 hname
    obtain ⟨hlisted, hunicode⟩ := List.mem_filter.1 hseen
    obtain ⟨hchild, hlists⟩ := mem_listed_iff.1 hlisted
    have hisName := ht.isName_of_mem_children hchild
    simp only [hpathTo hstop hisName] at htest ⊢
    obtain ⟨hsuffix, hany⟩ := Bool.and_eq_true_iff.1 htest
    obtain ⟨goal, hgoal, hfile⟩ := (Option.any_eq_true ..).1 hany
    obtain ⟨rfl, _, hshort⟩ := (resolve_concat_iff ht hfree hsub hisName).1
      (Attempt.toOption_eq_some_iff.1 hgoal)
    exact ⟨names, name,
      ⟨hfile, hsuffix, hunicode, shown_concat_iff.2 ⟨hnames, hlists⟩, hshort⟩, rfl⟩
  · rintro ⟨names, name, ⟨hfile, hsuffix, hunicode, hshown, hshort⟩, rfl⟩
    obtain ⟨content, mode, he⟩ := exists_get?_of_isFileAt hfile
    obtain ⟨hsub, hchild⟩ := ht.mem_children he
    obtain ⟨hnames, hlists⟩ := shown_concat_iff.1 hshown
    have hisName := ht.isName_of_mem_children hchild
    have hstop : ⟨names, root ++ names⟩ ∈ stops := (mem_stops_iff ht hdir hfree hvisits).2
      ⟨rfl, hsub, (size_pathOf_concat _ name).trans hshort, hnames⟩
    have hgoal := (resolve_concat_iff ht hfree hsub hisName).2 ⟨rfl, by rw [he]; rfl, hshort⟩
    have hseen : name ∈ (t.listed (root ++ names)).filter t.host.isUnicode :=
      List.mem_filter.2 ⟨mem_listed_iff.2 ⟨hchild, hlists⟩, hunicode⟩
    refine ⟨_, hstop, List.mem_map.2 ⟨name, List.mem_filter.2 ⟨hseen, ?_⟩, ?_⟩⟩
    · simp only [hpathTo hstop hisName, hgoal]
      rw [hsuffix, Attempt.toOption_ok, Option.any_some, hfile, Bool.true_and]
    · rw [hpathTo hstop hisName]

/-- A search of a directory whose path is short enough visits its stops. -/
theorem exists_visits (ht : t.WellFormed) (hdir : t.isDirectoryAt root = true)
    (hshort : (pathOf root).utf8ByteSize ≤ pathLimit) :
    ∃ stops, Visits t root stops (drain t ⟨pathOf root, [pathOf root], [], [root]⟩) := by
  have hroot := ht.names_of_directory hdir
  have hown : t.resolve (pathOf root) = .ok root :=
    (resolve_pathOf_iff hroot).2 ⟨hshort, ht.walk_names hdir⟩
  have hreached : Reached t root [⟨[], root⟩] := by
    refine ⟨?_, ?_, ?_, by simp, by simp⟩
    · simpa using Access.here
    · simpa using hdir
    · simpa [Stop.path, pathBelow] using hown
  have hfrontier : Frontier t root [] [⟨[], root⟩] ⟨pathOf root, [pathOf root], [], [root]⟩ :=
    ⟨rfl, rfl, rfl, hreached, by simp, by simp⟩
  obtain ⟨more, s', hend, _, hdrain⟩ := hfrontier.drain ht hroot
  rw [List.map_nil, List.nil_append] at hdrain
  rw [List.nil_append] at hend
  exact ⟨[⟨[], root⟩] ++ more, hdrain ▸ hend.visits ht hroot (by simp)⟩

/-- A directory whose path is too long is not listed. -/
theorem drain_of_long (ht : t.WellFormed) (hdir : t.isDirectoryAt root = true)
    (hlong : pathLimit < (pathOf root).utf8ByteSize) :
    drain t ⟨pathOf root, [pathOf root], [], [root]⟩ = [] := by
  have hroot := ht.names_of_directory hdir
  have hnone : t.directoryAt? (pathOf root) = none := by
    refine Option.eq_none_iff_forall_ne_some.2 fun loc hloc => ?_
    have hresolve := (directoryAt?_eq_some_iff.1 hloc).1
    exact Nat.not_le.2 hlong ((resolve_pathOf_iff hroot).1 hresolve).1
  rw [drain_of_queue_cons rfl, expand_eq, namesAt_eq, hnone]
  exact drain_of_queue_nil rfl

/-- **What a search finds** where there are no links: each class file whose path is short enough. -/
theorem mem_drain_iff (ht : t.WellFormed) (hdir : t.isDirectoryAt root = true)
    (hfree : t.LinkFree root) {file : ClassFileRef} :
    file ∈ drain t ⟨pathOf root, [pathOf root], [], [root]⟩ ↔
      ∃ names name, HasClassFile t root names name ∧
        file = .ofPath (pathOf root) (pathOf (root ++ names ++ [name])) := by
  by_cases hshort : (pathOf root).utf8ByteSize ≤ pathLimit
  · obtain ⟨stops, hvisits⟩ := exists_visits ht hdir hshort
    exact mem_files_iff ht hdir hfree hvisits
  · rw [drain_of_long ht hdir (Nat.lt_of_not_le hshort)]
    refine iff_of_false List.not_mem_nil ?_
    rintro ⟨names, name, hfile, _⟩
    have hsize := size_pathOf_append root (names ++ [name])
    rw [← List.append_assoc] at hsize
    exact hshort (hsize.trans hfile.short)

/-- Nothing is found twice. -/
theorem nodup_drain (ht : t.WellFormed) (hdir : t.isDirectoryAt root = true) :
    (drain t ⟨pathOf root, [pathOf root], [], [root]⟩).Nodup := by
  by_cases hshort : (pathOf root).utf8ByteSize ≤ pathLimit
  · obtain ⟨stops, hvisits⟩ := exists_visits ht hdir hshort
    exact hvisits.paths.of_map
  · rw [drain_of_long ht hdir (Nat.lt_of_not_le hshort)]
    exact List.nodup_nil

/-! ## In another order -/

theorem HasClassFile.alike (h : Alike t t') {names : List String} {name : String}
    (hfile : HasClassFile t root names name) : HasClassFile t' root names name := by
  refine ⟨?_, hfile.suffix, ?_, ?_, hfile.short⟩
  · rw [isFileAt, h.get?]
    exact hfile.file
  · rw [h.host]
    exact hfile.unicode
  · unfold Shown
    rw [h.host]
    exact hfile.shown

/-- **The order in which directories list their names** changes the order of what is found, and
nothing else. -/
theorem drain_reordered (h : Reordered t t') (ht : t.WellFormed) {path : String} {s : Scanner}
    (hfree : ∀ root, t.resolve path = .ok root → t.LinkFree root)
    (hstart : start? t path = some s) :
    start? t' path = some s ∧ (s.drain t').Perm (s.drain t) := by
  have halike := h.alike ht.distinct
  have ht' := h.wellFormed ht
  rw [start?_eq] at hstart
  obtain ⟨root, hroot, rfl⟩ := Option.map_eq_some_iff.1 hstart
  obtain ⟨hresolve, hdir⟩ := directoryAt?_eq_some_iff.1 hroot
  have hdir' : t'.isDirectoryAt root = true := (halike.isDirectoryAt root).trans hdir
  have hfree' : t'.LinkFree root := fun names target =>
    halike.get? _ ▸ hfree root hresolve names target
  constructor
  · rw [start?_eq, directoryAt?_eq_some_iff.2 ⟨(halike.resolve path).trans hresolve, hdir'⟩]
    rfl
  · refine (List.perm_ext_iff_of_nodup (nodup_drain ht' hdir') (nodup_drain ht hdir)).2
      fun file => ?_
    rw [mem_drain_iff ht' hdir' hfree', mem_drain_iff ht hdir (hfree root hresolve)]
    constructor
    · rintro ⟨names, name, hfile, rfl⟩
      exact ⟨names, name, hfile.alike halike.symm, rfl⟩
    · rintro ⟨names, name, hfile, rfl⟩
      exact ⟨names, name, hfile.alike halike, rfl⟩

end Scanner

end FiberWeave
