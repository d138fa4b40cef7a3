import FiberWeave.Proofs.Locations
import FiberWeave.Scanner

/-!
# What a search of a build directory finds

The directories that subdirectories and links lead to form a graph, not a tree.  A search goes
through it breadth first and knows a directory again by its location, but names the class files in
it by the path on which it came.  It sees of a directory what the directory lists, and a name that is
not Unicode is no class file to it.

* `FileTree.Access` — the paths on which a directory can be reached from another one, name by name.
* `Scanner.Stop` — a directory and the path on which a search came to it.
* `Scanner.Visits` — what a search visits and hands out, as far as its own paths lead.
  `Scanner.Covers` — the same, with nothing that can be reached left out and no path longer than
  need be.
* `Adds`, `Frontier` — what one name adds, and what holds between two directories;
  **`Frontier.drain`** is the induction.
* **`visits_of_start`** — every search visits what its paths lead to, and covers everything if
  nothing hinders it: directories that do not list what is in them, class files with names that are
  not Unicode, and names that are lost on its paths.
* **`search_misses`** — each of these can make a search miss class files.
-/

namespace FiberWeave

namespace FileTree

/-- Names on which a directory can be reached from `root`, each the name of a directory or of a link
to one. It is one of the names that `inside` gives for the directory before. -/
inductive Access (t : FileTree) (inside : Location → List String) (root : Location) :
    List String → Location → Prop where
  | here : Access t inside root [] root
  | enter {names : List String} {dir sub : Location} {name : String}
      (h : Access t inside root names dir) (hname : name ∈ inside dir)
      (hleads : t.walk linkLimit dir [name] = .ok sub) (hdir : t.isDirectoryAt sub = true) :
      Access t inside root (names ++ [name]) sub

/-- Whether a file is at a location. -/
def isFileAt (t : FileTree) (loc : Location) : Bool :=
  match t.get? loc with
  | some (.file ..) => true
  | _ => false

/-- What can be reached through names that directories list can be reached. -/
theorem Access.of_listed {t : FileTree} {root dir : Location} {names : List String}
    (h : t.Access t.listed root names dir) : t.Access t.children root names dir := by
  induction h with
  | here => exact .here
  | enter _ hname hleads hdir ih =>
      exact .enter ih ((sublist_listed t _).subset hname) hleads hdir

theorem Access.isName {t : FileTree} {root dir : Location} {names : List String}
    (h : t.Access t.children root names dir) (ht : t.WellFormed) : ∀ name ∈ names, IsName name := by
  induction h with
  | here => simp
  | enter _ hname _ _ ih =>
      intro name hmem
      rcases List.mem_append.1 hmem with hmem | hmem
      · exact ih name hmem
      · obtain rfl := List.mem_singleton.1 hmem
        exact ht.isName_of_mem_children hname

/-- Names lead to one directory only. -/
theorem Access.unique {t : FileTree} {inside : Location → List String} {root dir dir' : Location}
    {names : List String}
    (h : t.Access inside root names dir) (h' : t.Access inside root names dir') : dir = dir' := by
  induction h generalizing dir' with
  | here =>
      generalize hnames : ([] : List String) = names at h'
      cases h' with
      | here => rfl
      | enter => simp at hnames
  | @enter names mid sub name _ _ hleads _ ih =>
      generalize hnames : names ++ [name] = names' at h'
      cases h' with
      | here => simp at hnames
      | enter h' _ hleads' _ =>
          obtain ⟨rfl, hname⟩ := List.append_inj' hnames rfl
          obtain rfl := List.singleton_inj.1 hname
          obtain rfl := ih h'
          exact Except.ok.inj (hleads.symm.trans hleads')

end FileTree

namespace Scanner

open FileTree

/-! ## What is to be visited -/

/-- A directory and the names by which a search came to it from where it began. -/
structure Stop where
  names : List String
  dir : Location
  deriving DecidableEq, Repr

/-- Whether a name is that of a class file. -/
def isClassName (name : String) : Bool := ClassName.fileSuffix.toList.isSuffixOf name.toList

/-- Those of some names that are names of class files, where `reach` says where names lead. -/
def classNames (t : FileTree) (reach : String → Except OsError Location) (names : List String) :
    List String :=
  names.filter fun name => isClassName name && (reach name).toOption.any t.isFileAt

namespace Stop

/-- The path on which a search came to a directory. -/
def path (root : Location) (stop : Stop) : String := pathBelow (pathOf root) stop.names

/-- The path on which a search comes to a name in the directory. -/
def pathTo (root : Location) (stop : Stop) (name : String) : String :=
  Path.join (stop.path root) name

/-- What is handed out for names in a directory. -/
def refs (root : Location) (stop : Stop) (names : List String) : List ClassFileRef :=
  names.map fun name => .ofPath (pathOf root) (stop.pathTo root name)

/-- The class files in the directory of a stop, whether or not a search finds them. -/
def files (t : FileTree) (stop : Stop) : List String :=
  classNames t (fun name => t.walk linkLimit stop.dir [name]) (t.children stop.dir)

/-- The class files that a search finds in the directory of a stop: it sees names that the directory
lists and that are Unicode, and follows them on its own path. -/
def found (t : FileTree) (root : Location) (stop : Stop) : List String :=
  classNames t (fun name => t.resolve (stop.pathTo root name))
    ((t.listed stop.dir).filter t.host.isUnicode)

/-- Nothing in the directory is hidden from a search. -/
structure Unhindered (t : FileTree) (root : Location) (stop : Stop) : Prop where
  /-- The directory lists what is in it. -/
  listed : t.listed stop.dir = t.children stop.dir
  /-- Class files have Unicode names. -/
  unicode : ∀ name ∈ stop.files t, t.host.isUnicode name = true
  /-- No name that leads somewhere is lost on the path of the search. -/
  leads : ∀ name ∈ t.children stop.dir, ∀ loc, t.walk linkLimit stop.dir [name] = .ok loc →
    t.resolve (stop.pathTo root name) = .ok loc

end Stop

/-- The paths of the directories that a search still lists, in order. -/
def searched (t : FileTree) (s : Scanner) : List String :=
  match _ : s.queue with
  | [] => []
  | dir :: queue => dir :: searched t (expand t ⟨s.root, queue, [], s.visited⟩ dir)
termination_by s.work t
decreasing_by exact work_expand_lt ‹_›

/-- What comes out if a search is asked for one class file after the other, until none is left. -/
inductive Yields (t : FileTree) : Scanner → List ClassFileRef → Prop where
  | done {s : Scanner} (h : s.next? t = none) : Yields t s []
  | next {s s' : Scanner} {file : ClassFileRef} {files : List ClassFileRef}
      (h : s.next? t = some (file, s')) (hrest : Yields t s' files) : Yields t s (file :: files)

/-- A search visits each of `stops` once, with all that its paths lead to, and hands out the class
files that it finds in them. -/
structure Visits (t : FileTree) (root : Location) (stops : List Stop) (files : List ClassFileRef) :
    Prop where
  access : ∀ stop ∈ stops, t.Access t.listed root stop.names stop.dir
  resolves : ∀ stop ∈ stops, t.resolve (stop.path root) = .ok stop.dir
  once : (stops.map Stop.dir).Nodup
  start : ⟨[], root⟩ ∈ stops
  closed : ∀ stop ∈ stops, ∀ name ∈ t.listed stop.dir, ∀ sub,
    t.resolve (stop.pathTo root name) = .ok sub → t.isDirectoryAt sub = true →
      ∃ next ∈ stops, next.dir = sub ∧ next.names.length ≤ stop.names.length + 1
  found : files = stops.flatMap fun stop => stop.refs root (stop.found t root)
  paths : (files.map ClassFileRef.path).Nodup
  depths : files.Pairwise fun a b => a.depth ≤ b.depth

/-- A search visits every directory that can be reached once, on a path that no other is shorter
than, and hands out the class files in them. -/
structure Covers (t : FileTree) (root : Location) (stops : List Stop) (files : List ClassFileRef) :
    Prop where
  access : ∀ stop ∈ stops, t.Access t.children root stop.names stop.dir
  once : (stops.map Stop.dir).Nodup
  complete : ∀ names dir, t.Access t.children root names dir →
    ∃ stop ∈ stops, stop.dir = dir ∧ stop.names.length ≤ names.length
  found : files = stops.flatMap fun stop => stop.refs root (stop.files t)
  paths : (files.map ClassFileRef.path).Nodup
  depths : files.Pairwise fun a b => a.depth ≤ b.depth

/-! ## Paths of stops -/

section Paths

variable {t : FileTree} {root : Location} {stop : Stop} {name : String}

theorem isName_append {xs ys : List String} (hxs : ∀ n ∈ xs, IsName n) (hys : ∀ n ∈ ys, IsName n) :
    ∀ n ∈ xs ++ ys, IsName n := fun n hn => (List.mem_append.1 hn).elim (hxs n) (hys n)

theorem isName_concat {xs : List String} (hxs : ∀ n ∈ xs, IsName n) (hname : IsName name) :
    ∀ n ∈ xs ++ [name], IsName n := isName_append hxs (by simpa using hname)

theorem Stop.path_eq (hroot : ∀ name ∈ root, IsName name)
    (hnames : ∀ name ∈ stop.names, IsName name) :
    stop.path root = pathOf (root ++ stop.names) := pathBelow_pathOf hroot hnames

theorem Stop.pathTo_eq (hroot : ∀ name ∈ root, IsName name)
    (hnames : ∀ name ∈ stop.names, IsName name) (hname : IsName name) :
    stop.pathTo root name = pathOf (root ++ (stop.names ++ [name])) := by
  rw [pathTo, path_eq hroot hnames, join_pathOf (isName_append hroot hnames) hname,
    List.append_assoc]

theorem Stop.path_concat {sub : Location} :
    Stop.path root ⟨stop.names ++ [name], sub⟩ = stop.pathTo root name := by
  simp [Stop.path, Stop.pathTo, pathBelow]

/-- Different stops and names have different paths. -/
theorem Stop.pathTo_injective {other : Stop} {name' : String} (hroot : ∀ name ∈ root, IsName name)
    (hnames : ∀ n ∈ stop.names, IsName n) (hname : IsName name)
    (hnames' : ∀ n ∈ other.names, IsName n) (hname' : IsName name')
    (h : stop.pathTo root name = other.pathTo root name') :
    stop.names = other.names ∧ name = name' := by
  rw [pathTo_eq hroot hnames hname, pathTo_eq hroot hnames' hname'] at h
  have hparts := congrArg Path.parts h
  rw [parts_pathOf (isName_append hroot (isName_concat hnames hname)),
    parts_pathOf (isName_append hroot (isName_concat hnames' hname'))] at hparts
  have hlocs : root ++ (stop.names ++ [name]) = root ++ (other.names ++ [name']) :=
    List.map_injective_iff.2 (fun _ _ h => Path.Part.name.inj h) (List.cons.inj hparts).2
  simpa using hlocs

theorem count_intercalate {mark : Char} {piece : List Char} {later : List (List Char)}
    (h : ∀ cs ∈ piece :: later, mark ∉ cs) :
    ([mark].intercalate (piece :: later)).count mark = later.length := by
  induction later generalizing piece with
  | nil => simpa [List.count_eq_zero] using h piece (by simp)
  | cons next later ih =>
      have hpiece : piece.count mark = 0 := List.count_eq_zero.2 (h piece (by simp))
      have hlater := ih fun cs hcs => h cs (.tail _ hcs)
      rw [List.intercalate_cons_cons, List.count_append, List.count_append, hpiece, hlater]
      simp [Nat.add_comm]

theorem relativeTo?_pathOf {below : List String} (hroot : ∀ name ∈ root, IsName name)
    (hbelow : ∀ name ∈ below, IsName name) :
    Path.relativeTo? (pathOf root) (pathOf (root ++ below)) = some (below.map .name) := by
  rw [Path.relativeTo?, parts_pathOf hroot, parts_pathOf (isName_append hroot hbelow),
    List.map_append, ← List.cons_append]
  simp

/-- The names that a search gives to a class file are as deep as the path to its directory is
long. -/
theorem depth_ofPath {names : List String} (hroot : ∀ name ∈ root, IsName name)
    (hbelow : ∀ n ∈ names ++ [name], IsName n) :
    (ClassFileRef.ofPath (pathOf root) (pathOf (root ++ (names ++ [name])))).depth =
      names.length := by
  obtain ⟨first, later, hcons⟩ : ∃ first later, names ++ [name] = first :: later :=
    List.exists_cons_of_ne_nil (by simp)
  have hcount : ("/".intercalate (names ++ [name])).toList.count '/' = names.length := by
    have hslash : ∀ cs ∈ first.toList :: later.map String.toList, '/' ∉ cs := by
      intro cs hcs
      obtain ⟨n, hn, rfl⟩ := List.mem_map.1 (show cs ∈ (first :: later).map String.toList from hcs)
      exact (hbelow n (hcons ▸ hn)).slash
    have hlength : names.length = (later.map String.toList).length := by
      simpa using congrArg List.length hcons
    rw [hcons, String.toList_intercalate, List.map_cons (f := String.toList), hlength]
    exact count_intercalate hslash
  have htexts : ((names ++ [name]).map Path.Part.name).map Path.Part.text = names ++ [name] := by
    simp [Function.comp_def, Path.Part.text]
  simp only [ClassFileRef.depth, ClassFileRef.ofPath, relativeTo?_pathOf hroot hbelow,
    Option.getD_some, ClassFileRef.internalNameOf, htexts]
  -- the ending that is taken off has no slash
  cases hstrip : Text.stripEnd? ClassName.fileSuffix.toList
      ("/".intercalate (names ++ [name])).toList with
  | none => exact hcount
  | some stem =>
      rw [Text.stripEnd?_eq_some_iff.1 hstrip, List.count_append] at hcount
      simpa [ClassName.fileSuffix, List.count_cons] using hcount

theorem isClassFile_pathOf {loc : Location} (hloc : ∀ n ∈ loc ++ [name], IsName n) :
    ClassFileRef.isClassFile (pathOf (loc ++ [name])) = isClassName name := by
  have hlast : Path.fileName? (pathOf (loc ++ [name])) = some name := by
    rw [Path.fileName?, parts_pathOf hloc, List.map_append, List.map_singleton, ← List.cons_append,
      List.getLast?_concat]
  rw [ClassFileRef.isClassFile, hlast, isClassName, Bool.eq_iff_iff, List.isSuffixOf_iff_suffix,
    Option.isSome_iff_exists]
  simp only [Text.stripEnd?_eq_some_iff]
  exact ⟨fun ⟨rest, h⟩ => ⟨rest, h.symm⟩, fun ⟨rest, h⟩ => ⟨rest, h.symm⟩⟩

end Paths

/-! ## One name -/

/-- What a search knows of the directories that it has come to. -/
structure Reached (t : FileTree) (root : Location) (stops : List Stop) : Prop where
  access : ∀ stop ∈ stops, t.Access t.listed root stop.names stop.dir
  directory : ∀ stop ∈ stops, t.isDirectoryAt stop.dir = true
  resolves : ∀ stop ∈ stops, t.resolve (stop.path root) = .ok stop.dir
  once : (stops.map Stop.dir).Nodup
  sorted : stops.Pairwise fun a b => a.names.length ≤ b.names.length

/-- What a look at `names` in the directory of `stop` adds to a search that has come to `stops`:
the stops `new`, and class files. -/
structure Adds (t : FileTree) (root : Location) (stops : List Stop) (stop : Stop)
    (names : List String) (new : List Stop) (s s' : Scanner) : Prop where
  state : s' = { s with
    queue := s.queue ++ new.map (Stop.path root)
    visited := (new.map Stop.dir).reverse ++ s.visited
    pending := s.pending ++ (classNames t (fun name => t.resolve (stop.pathTo root name))
      (names.filter t.host.isUnicode)).map (stop.pathTo root) }
  level : ∀ next ∈ new, next.names.length = stop.names.length + 1
  reached : Reached t root (stops ++ new)
  closed : ∀ name ∈ names, ∀ sub, t.resolve (stop.pathTo root name) = .ok sub →
    t.isDirectoryAt sub = true → sub ∈ (stops ++ new).map Stop.dir

theorem Reached.concat {t : FileTree} {root : Location} {stops : List Stop} {next : Stop}
    (h : Reached t root stops) (haccess : t.Access t.listed root next.names next.dir)
    (hdir : t.isDirectoryAt next.dir = true)
    (hresolves : t.resolve (next.path root) = .ok next.dir) (hnew : next.dir ∉ stops.map Stop.dir)
    (hlevel : ∀ stop ∈ stops, stop.names.length ≤ next.names.length) :
    Reached t root (stops ++ [next]) where
  access := by
    intro stop hstop
    rcases List.mem_append.1 hstop with hstop | hstop
    · exact h.access stop hstop
    · exact List.mem_singleton.1 hstop ▸ haccess
  directory := by
    intro stop hstop
    rcases List.mem_append.1 hstop with hstop | hstop
    · exact h.directory stop hstop
    · exact List.mem_singleton.1 hstop ▸ hdir
  resolves := by
    intro stop hstop
    rcases List.mem_append.1 hstop with hstop | hstop
    · exact h.resolves stop hstop
    · exact List.mem_singleton.1 hstop ▸ hresolves
  once := by
    rw [List.map_append, List.map_singleton, List.nodup_append_comm]
    exact List.nodup_cons.2 ⟨hnew, h.once⟩
  sorted := List.pairwise_append.2 ⟨h.sorted, List.pairwise_singleton _ _,
    fun stop hstop _ hlast => List.mem_singleton.1 hlast ▸ hlevel stop hstop⟩

section Steps

variable {t : FileTree} {root : Location} {stops new new' : List Stop} {stop : Stop}
  {name : String} {names names' : List String} {s s' s'' : Scanner}

theorem Adds.nil (hreached : Reached t root stops) : Adds t root stops stop [] [] s s where
  state := by simp [classNames]
  level := by simp
  reached := by simpa using hreached
  closed := by simp

theorem Adds.append (h : Adds t root stops stop names new s s')
    (h' : Adds t root (stops ++ new) stop names' new' s' s'') :
    Adds t root stops stop (names ++ names') (new ++ new') s s'' where
  state := by
    rw [h'.state, h.state]
    simp [classNames]
  level := fun next hnext => (List.mem_append.1 hnext).elim (h.level next) (h'.level next)
  reached := by simpa using h'.reached
  closed := by
    intro name hname sub hsub hdir
    rw [← List.append_assoc, List.map_append]
    rcases List.mem_append.1 hname with hname | hname
    · exact List.mem_append_left _ (h.closed name hname sub hsub hdir)
    · rw [← List.map_append]
      exact h'.closed name hname sub hsub hdir

/-- Where the path of a stop and one name leads, the name alone leads from the directory. -/
theorem walk_of_resolve_pathTo (ht : t.WellFormed) (hroot : ∀ name ∈ root, IsName name)
    (hreached : Reached t root stops) (hstop : stop ∈ stops) (hname : name ∈ t.children stop.dir)
    {loc : Location} (h : t.resolve (stop.pathTo root name) = .ok loc) :
    t.walk linkLimit stop.dir [name] = .ok loc := by
  have hnames := (hreached.access stop hstop).of_listed.isName ht
  have hisName := ht.isName_of_mem_children hname
  have hpath := hreached.resolves stop hstop
  rw [Stop.path_eq hroot hnames, resolve_pathOf_iff (isName_append hroot hnames)] at hpath
  rw [Stop.pathTo_eq hroot hnames hisName,
    resolve_pathOf_iff (isName_append hroot (isName_concat hnames hisName))] at h
  obtain ⟨k, hdir⟩ := walk_eq_ok_iff.1 hpath.2
  obtain ⟨k', hleads⟩ := walk_eq_ok_iff.1 h.2
  obtain ⟨j, mid, hfirst, hlast⟩ := hleads.split _ _ (List.append_assoc _ _ _).symm
  obtain rfl := hfirst.unique hdir
  -- the path has used up some links; the name alone may use all of them
  obtain ⟨extra, hextra⟩ := Nat.exists_eq_add_of_le hfirst.le
  exact walk_eq_ok_iff.2 ⟨_, hextra ▸ hlast.more extra⟩

theorem isFile_of_resolve {path : String} {loc : Location} (h : t.resolve path = .ok loc) :
    t.isFile path = t.isFileAt loc := by
  simp only [isFile, stat, h, Attempt.ok_bind, isFileAt]
  rcases t.get? loc with _ | _ | _ | _ <;> rfl

/-- A directory is searched name by name, as far as it lists them. -/
theorem expand_of_directory {path : String} {dir : Location} (h : t.resolve path = .ok dir)
    (hdir : t.isDirectoryAt dir = true) (s : Scanner) :
    expand t s path = (t.listed dir).foldl (Scanner.note t path) s := by
  cases hrefuses : t.host.refusesListing dir with
  | true => simp [expand, namesIn, listed, h, hdir, hrefuses]
  | false => simp [expand, namesIn, listed, h, hdir, hrefuses]

/-- What is found in a directory is in it. -/
theorem Stop.sublist_found (t : FileTree) (root : Location) (stop : Stop) :
    (stop.found t root).Sublist (t.children stop.dir) :=
  List.filter_sublist.trans (List.filter_sublist.trans (sublist_listed t stop.dir))

/-- One name adds a stop if it leads to a directory that the search has not come to yet. -/
theorem Adds.note (ht : t.WellFormed) (hroot : ∀ name ∈ root, IsName name)
    (hreached : Reached t root stops) (hvisited : s.visited = (stops.map Stop.dir).reverse)
    (hstop : stop ∈ stops) (hlevel : ∀ other ∈ stops, other.names.length ≤ stop.names.length + 1)
    (hlisted : name ∈ t.listed stop.dir) :
    ∃ new, Adds t root stops stop [name] new s (note t (stop.path root) s name) := by
  have hname := (sublist_listed t stop.dir).subset hlisted
  have hnames := (hreached.access stop hstop).of_listed.isName ht
  have hisName := ht.isName_of_mem_children hname
  have hclass : ClassFileRef.isClassFile (stop.pathTo root name) = isClassName name := by
    rw [Stop.pathTo_eq hroot hnames hisName, ← List.append_assoc]
    exact isClassFile_pathOf (isName_concat (isName_append hroot hnames) hisName)
  have hpath : Path.join (stop.path root) name = stop.pathTo root name := rfl
  have hfound : classNames t (fun name => t.resolve (stop.pathTo root name))
      ([name].filter t.host.isUnicode) = if t.host.isUnicode name && isClassName name &&
        (t.resolve (stop.pathTo root name)).toOption.any t.isFileAt then [name] else [] := by
    cases hunicode : t.host.isUnicode name <;> simp [classNames, hunicode, List.filter_singleton]
  unfold Scanner.note
  simp only [hpath, Scanner.isClassFile, hclass]
  cases hresolve : t.resolve (stop.pathTo root name) with
  | error e =>
      rw [hresolve] at hfound
      exact ⟨[], by simp [hfound], by simp, by simpa using hreached, by simp [hresolve]⟩
  | ok loc =>
      rw [hresolve, Attempt.toOption_ok, Option.any_some] at hfound
      simp only
      cases hdir : t.isDirectoryAt loc with
      | false =>
          refine ⟨[], ?_, by simp, by simpa using hreached, ?_⟩
          · rw [isFile_of_resolve hresolve, Bool.and_comm]
            cases hfile : t.host.isUnicode name && isClassName name && t.isFileAt loc with
            | false => simp [hfound, hfile]
            | true => simp [hfound, hfile]
          · intro n hn sub hsub hsubdir
            obtain rfl := List.mem_singleton.1 hn
            obtain rfl := Except.ok.inj (hresolve.symm.trans hsub)
            simp [hdir] at hsubdir
      | true =>
          have hfile : t.isFileAt loc = false := by
            have he : t.get? loc = some .directory := by simpa [isDirectoryAt] using hdir
            simp [isFileAt, he]
          cases hknown : s.visited.contains loc with
          | true =>
              have hmem : loc ∈ stops.map Stop.dir := by simpa [hvisited] using hknown
              refine ⟨[], by simp [hfound, hfile], by simp, by simpa using hreached, ?_⟩
              intro n hn sub hsub hsubdir
              obtain rfl := List.mem_singleton.1 hn
              obtain rfl := Except.ok.inj (hresolve.symm.trans hsub)
              simpa using hmem
          | false =>
              have hnew : loc ∉ stops.map Stop.dir := by simpa [hvisited] using hknown
              refine ⟨[⟨stop.names ++ [name], loc⟩], ?_, by simp, ?_, ?_⟩
              · simp [hfound, hfile, Stop.path_concat]
              · exact hreached.concat
                  (.enter (hreached.access stop hstop) hlisted
                    (walk_of_resolve_pathTo ht hroot hreached hstop hname hresolve) hdir) hdir
                  (by rw [Stop.path_concat, hresolve]) hnew (by simpa using hlevel)
              · intro n hn sub hsub _
                obtain rfl := List.mem_singleton.1 hn
                obtain rfl := Except.ok.inj (hresolve.symm.trans hsub)
                simp

/-- Several names add what each of them does after the ones before it. -/
theorem Adds.fold (ht : t.WellFormed) (hroot : ∀ name ∈ root, IsName name)
    (hreached : Reached t root stops) (hvisited : s.visited = (stops.map Stop.dir).reverse)
    (hstop : stop ∈ stops) (hlevel : ∀ other ∈ stops, other.names.length ≤ stop.names.length + 1)
    (hnames : ∀ name ∈ names, name ∈ t.listed stop.dir) :
    ∃ new, Adds t root stops stop names new s (names.foldl (Scanner.note t (stop.path root)) s) := by
  induction names generalizing stops s with
  | nil => exact ⟨[], .nil hreached⟩
  | cons name rest ih =>
      obtain ⟨new, hnew⟩ := Adds.note ht hroot hreached hvisited hstop hlevel
        (hnames name (by simp))
      have hstate : (Scanner.note t (stop.path root) s name).visited =
          ((stops ++ new).map Stop.dir).reverse := by
        rw [hnew.state, List.map_append, List.reverse_append, hvisited]
      obtain ⟨later, hlater⟩ := ih hnew.reached hstate
        (List.mem_append_left _ hstop)
        (fun other hother => (List.mem_append.1 hother).elim (hlevel other)
          fun h => Nat.le_of_eq (hnew.level other h))
        (fun n hn => hnames n (.tail _ hn))
      exact ⟨new ++ later, hnew.append hlater⟩

end Steps

/-! ## One directory after the other -/

section Recursion

variable {t : FileTree} {s : Scanner} {dir : String} {queue : List String}

theorem drain_of_queue_nil (h : s.queue = []) : s.drain t = s.pending.map (.ofPath s.root) := by
  rw [drain]
  split
  · simp
  · simp_all

theorem drain_of_queue_cons (h : s.queue = dir :: queue) :
    s.drain t = s.pending.map (.ofPath s.root) ++
      (expand t ⟨s.root, queue, [], s.visited⟩ dir).drain t := by
  rw [drain]
  split
  · simp_all
  · rename_i hq
    obtain ⟨rfl, rfl⟩ := List.cons.inj (h.symm.trans hq)
    rfl

theorem searched_of_queue_nil (h : s.queue = []) : s.searched t = [] := by
  rw [searched]
  split
  · rfl
  · simp_all

theorem searched_of_queue_cons (h : s.queue = dir :: queue) :
    s.searched t = dir :: (expand t ⟨s.root, queue, [], s.visited⟩ dir).searched t := by
  rw [searched]
  split
  · simp_all
  · rename_i hq
    obtain ⟨rfl, rfl⟩ := List.cons.inj (h.symm.trans hq)
    rfl

end Recursion

/-- Between two directories, a search has listed `earlier`, and `later` are still to be listed. -/
structure Frontier (t : FileTree) (root : Location) (earlier later : List Stop) (s : Scanner) :
    Prop where
  start : s.root = pathOf root
  queue : s.queue = later.map (Stop.path root)
  visited : s.visited = ((earlier ++ later).map Stop.dir).reverse
  reached : Reached t root (earlier ++ later)
  /-- What was found last is at most one level deeper than what comes next. -/
  level : ∀ stop ∈ later, ∀ other ∈ earlier ++ later, other.names.length ≤ stop.names.length + 1
  closed : ∀ stop ∈ earlier, ∀ name ∈ t.listed stop.dir, ∀ sub,
    t.resolve (stop.pathTo root name) = .ok sub → t.isDirectoryAt sub = true →
      ∃ next ∈ earlier ++ later, next.dir = sub ∧ next.names.length ≤ stop.names.length + 1

namespace Frontier

variable {t : FileTree} {root : Location} {earlier later : List Stop} {stop : Stop} {s : Scanner}

theorem expand (ht : t.WellFormed) (hroot : ∀ name ∈ root, IsName name)
    (h : Frontier t root earlier (stop :: later) s) :
    ∃ new s', Scanner.expand t ⟨s.root, later.map (Stop.path root), [], s.visited⟩
        (stop.path root) = s' ∧
      Frontier t root (earlier ++ [stop]) (later ++ new) s' ∧
      s'.pending = (stop.found t root).map (stop.pathTo root) := by
  have hstop : stop ∈ earlier ++ stop :: later := by simp
  have hexpand : Scanner.expand t ⟨s.root, later.map (Stop.path root), [], s.visited⟩
      (stop.path root) = (t.listed stop.dir).foldl (Scanner.note t (stop.path root))
        ⟨s.root, later.map (Stop.path root), [], s.visited⟩ :=
    expand_of_directory (h.reached.resolves stop hstop) (h.reached.directory stop hstop) _
  obtain ⟨new, hnew⟩ := Adds.fold (s := ⟨s.root, later.map (Stop.path root), [], s.visited⟩)
    ht hroot h.reached h.visited hstop (h.level stop (by simp)) (fun _ hname => hname)
  have hstops : earlier ++ [stop] ++ (later ++ new) = earlier ++ stop :: later ++ new := by simp
  have hbound : ∀ other ∈ earlier ++ stop :: later ++ new,
      other.names.length ≤ stop.names.length + 1 := fun other hother =>
    (List.mem_append.1 hother).elim (h.level stop (by simp) other)
      fun hmem => Nat.le_of_eq (hnew.level other hmem)
  refine ⟨new, _, rfl, ?_, ?_⟩
  · rw [hexpand, hnew.state]
    refine ⟨h.start, by simp, ?_, hstops ▸ hnew.reached, ?_, ?_⟩
    · rw [hstops, List.map_append, List.reverse_append, ← h.visited]
    · -- no stop before another one is deeper, so all are within one level of `stop`
      rw [hstops]
      intro next hnext other hother
      refine Nat.le_trans (hbound other hother) (Nat.succ_le_succ ?_)
      rcases List.mem_append.1 hnext with hnext | hnext
      · have hsorted := (List.pairwise_append.1 h.reached.sorted).2.1
        exact (List.pairwise_cons.1 hsorted).1 next hnext
      · rw [hnew.level next hnext]
        exact Nat.le_succ _
    · rw [hstops]
      intro listed hlisted name hname sub hsub hsubdir
      rcases List.mem_append.1 hlisted with hlisted | hlisted
      · obtain ⟨next, hnext, hsame, hlen⟩ := h.closed listed hlisted name hname sub hsub hsubdir
        exact ⟨next, List.mem_append_left _ hnext, hsame, hlen⟩
      · obtain rfl := List.mem_singleton.1 hlisted
        obtain ⟨next, hnext, hsame⟩ := List.mem_map.1 (hnew.closed name hname sub hsub hsubdir)
        exact ⟨next, hnext, hsame, hbound next hnext⟩
  · rw [hexpand, hnew.state, List.nil_append]
    rfl

/-- A search comes to some more stops, each of which it lists, and hands out what it finds. -/
theorem drain (ht : t.WellFormed) (hroot : ∀ name ∈ root, IsName name)
    (h : Frontier t root earlier later s) : ∃ more s',
      Frontier t root (earlier ++ later ++ more) [] s' ∧
      s.searched t = (later ++ more).map (Stop.path root) ∧
      s.drain t = s.pending.map (.ofPath (pathOf root)) ++
        (later ++ more).flatMap fun stop => stop.refs root (stop.found t root) := by
  induction s using Scanner.drain.induct t generalizing earlier later with
  | case1 s ih =>
      cases later with
      | nil =>
          refine ⟨[], s, by simpa using h, ?_, ?_⟩
          · rw [searched_of_queue_nil (by simpa using h.queue)]
            rfl
          · rw [drain_of_queue_nil (by simpa using h.queue), h.start]
            simp
      | cons stop later =>
          obtain ⟨new, next, hnext, hfrontier, hpending⟩ := h.expand ht hroot
          obtain ⟨more, s', hs', hsearched, hdrain⟩ := ih _ _ h.queue (hnext ▸ hfrontier)
          refine ⟨new ++ more, s', by simpa using hs', ?_, ?_⟩
          · rw [searched_of_queue_cons h.queue, hsearched]
            simp
          · rw [drain_of_queue_cons h.queue, hdrain, hnext, hpending, h.start]
            simp [Stop.refs, Function.comp_def]

/-- What is found at a stop is named as deep as the stop is. -/
theorem depth_of_mem_refs (ht : t.WellFormed) (hroot : ∀ name ∈ root, IsName name)
    (h : Frontier t root earlier later s) (hstop : stop ∈ earlier ++ later) {file : ClassFileRef}
    (hfile : file ∈ stop.refs root (stop.found t root)) : file.depth = stop.names.length := by
  obtain ⟨name, hname, rfl⟩ := List.mem_map.1 hfile
  have hisName := ht.isName_of_mem_children ((stop.sublist_found t root).subset hname)
  have hnames := (h.reached.access stop hstop).of_listed.isName ht
  rw [Stop.pathTo_eq hroot hnames hisName]
  exact depth_ofPath hroot (isName_concat hnames hisName)

/-- At its end, a search has visited its stops. -/
theorem visits (ht : t.WellFormed) (hroot : ∀ name ∈ root, IsName name)
    (h : Frontier t root earlier [] s) (hstart : ⟨[], root⟩ ∈ earlier) :
    Visits t root earlier (earlier.flatMap fun stop => stop.refs root (stop.found t root)) where
  access stop hstop := h.reached.access stop (by simpa using hstop)
  resolves stop hstop := h.reached.resolves stop (by simpa using hstop)
  once := by simpa using h.reached.once
  start := hstart
  closed stop hstop := by simpa using h.closed stop hstop
  found := rfl
  paths := by
    rw [List.Nodup, List.pairwise_map, List.pairwise_flatMap]
    constructor
    · intro stop hstop
      have hnames := (h.reached.access stop (by simpa using hstop)).of_listed.isName ht
      rw [Stop.refs, List.pairwise_map]
      have hfound := stop.sublist_found t root
      refine ((ht.nodup_children stop.dir).sublist hfound).imp_of_mem ?_
      intro a b ha hb hne hpaths
      have ha := ht.isName_of_mem_children (hfound.subset ha)
      have hb := ht.isName_of_mem_children (hfound.subset hb)
      have hpaths : stop.pathTo root a = stop.pathTo root b := hpaths
      exact hne (Stop.pathTo_injective hroot hnames ha hnames hb hpaths).2
    · have honce := h.reached.once
      rw [List.append_nil] at honce
      refine (List.pairwise_map.1 honce).imp_of_mem ?_
      intro a b ha hb hne x hx y hy hpaths
      obtain ⟨name, hname, rfl⟩ := List.mem_map.1 hx
      obtain ⟨name', hname', rfl⟩ := List.mem_map.1 hy
      have haccess := h.reached.access a (by simpa using ha)
      have haccess' := h.reached.access b (by simpa using hb)
      have hsame := Stop.pathTo_injective hroot (haccess.of_listed.isName ht)
        (ht.isName_of_mem_children ((a.sublist_found t root).subset hname)) (haccess'.of_listed.isName ht)
        (ht.isName_of_mem_children ((b.sublist_found t root).subset hname')) hpaths
      exact hne (haccess.unique (hsame.1 ▸ haccess'))
  depths := by
    have hdepth : ∀ stop ∈ earlier, ∀ file ∈ stop.refs root (stop.found t root),
        file.depth = stop.names.length := fun stop hstop file hfile =>
      h.depth_of_mem_refs ht hroot (by simpa using hstop) hfile
    have hsorted : earlier.Pairwise fun a b => a.names.length ≤ b.names.length := by
      simpa using h.reached.sorted
    rw [List.pairwise_flatMap]
    constructor
    · intro stop hstop
      refine List.pairwise_of_forall_mem_list fun a ha b hb => ?_
      exact Nat.le_of_eq ((hdepth stop hstop a ha).trans (hdepth stop hstop b hb).symm)
    · refine hsorted.imp_of_mem fun {a b} ha hb hlen x hx y hy => ?_
      rw [hdepth a ha x hx, hdepth b hb y hy]
      exact hlen

/-- A search finds all class files in a directory if nothing in it is hidden. -/
theorem found_eq_files (ht : t.WellFormed) (hroot : ∀ name ∈ root, IsName name)
    (h : Frontier t root earlier later s) (hstop : stop ∈ earlier ++ later)
    (hfree : stop.Unhindered t root) : stop.found t root = stop.files t := by
  have hreach : ∀ name ∈ t.children stop.dir, (t.resolve (stop.pathTo root name)).toOption =
      (t.walk linkLimit stop.dir [name]).toOption := by
    intro name hname
    cases hwalk : t.walk linkLimit stop.dir [name] with
    | ok loc => rw [hfree.leads name hname loc hwalk]
    | error e =>
        cases hresolve : t.resolve (stop.pathTo root name) with
        | error e' => rfl
        | ok loc =>
            rw [walk_of_resolve_pathTo ht hroot h.reached hstop hname hresolve] at hwalk
            cases hwalk
  rw [Stop.found, Stop.files, classNames, classNames, hfree.listed, List.filter_filter]
  refine List.filter_congr fun name hname => ?_
  rw [hreach name hname]
  cases hfile : isClassName name && (t.walk linkLimit stop.dir [name]).toOption.any t.isFileAt with
  | false => rfl
  | true => exact hfree.unicode name (List.mem_filter.2 ⟨hname, hfile⟩)

/-- A search from which nothing is hidden has visited all that can be reached, each directory on one
of its shortest paths. -/
theorem covers (ht : t.WellFormed) (hroot : ∀ name ∈ root, IsName name)
    (h : Frontier t root earlier [] s) (hstart : ⟨[], root⟩ ∈ earlier)
    (hfree : ∀ stop ∈ earlier, stop.Unhindered t root) :
    Covers t root earlier (earlier.flatMap fun stop => stop.refs root (stop.found t root)) := by
  have hvisits := h.visits ht hroot hstart
  refine ⟨fun stop hstop => (hvisits.access stop hstop).of_listed, hvisits.once, ?_, ?_,
    hvisits.paths, hvisits.depths⟩
  · intro names dir haccess
    induction haccess with
    | here => exact ⟨_, hstart, rfl, Nat.le_refl _⟩
    | @enter _ _ _ name _ hname hleads hdir ih =>
        obtain ⟨stop, hstop, rfl, hlen⟩ := ih
        have hlisted : name ∈ t.listed stop.dir := (hfree stop hstop).listed ▸ hname
        obtain ⟨next, hnext, hsame, hlevel⟩ := hvisits.closed stop hstop name hlisted _
          ((hfree stop hstop).leads name hname _ hleads) hdir
        exact ⟨next, hnext, hsame, by simpa using Nat.le_trans hlevel (Nat.succ_le_succ hlen)⟩
  · refine List.flatMap_congr fun stop hstop => ?_
    rw [h.found_eq_files ht hroot (by simpa using hstop) (hfree stop hstop)]

end Frontier

/-! ## Whole searches -/

/-- What a search hands out next is the first of what it hands out at all. -/
theorem drain_eq_next? (t : FileTree) (s : Scanner) :
    s.drain t = match s.next? t with
      | none => []
      | some (file, s') => file :: s'.drain t := by
  induction s using next?.induct t with
  | case1 s path pending hpending =>
      have hnext : s.next? t = some (.ofPath s.root path, { s with pending }) := by
        rw [next?]
        split <;> simp_all
      have hfirst : s.drain t = .ofPath s.root path :: drain t { s with pending } := by
        cases hqueue : s.queue with
        | nil =>
            rw [drain_of_queue_nil hqueue, drain_of_queue_nil (s := ⟨_, _, pending, _⟩) rfl,
              hpending, List.map_cons]
        | cons dir queue =>
            rw [drain_of_queue_cons hqueue, drain_of_queue_cons (s := ⟨_, _, pending, _⟩) rfl,
              hpending, List.map_cons, List.cons_append]
      rw [hnext, hfirst]
  | case2 s hqueue hpending =>
      have hnext : s.next? t = none := by
        rw [next?]
        split <;> simp_all
      rw [hnext, drain_of_queue_nil hqueue, hpending]
      rfl
  | case3 s dir queue hqueue hpending ih =>
      have hnext : s.next? t = (expand t ⟨s.root, queue, [], s.visited⟩ dir).next? t := by
        rw [next?]
        split <;> simp_all
      rw [hnext, ← ih, drain_of_queue_cons hqueue, hpending]
      rfl

/-- Asked for one class file after the other, a search comes to an end. -/
theorem yields_drain (t : FileTree) (s : Scanner) : Yields t s (s.drain t) := by
  generalize hfiles : s.drain t = files
  induction files generalizing s with
  | nil =>
      rw [drain_eq_next?] at hfiles
      cases hnext : s.next? t with
      | none => exact .done hnext
      | some next => simp [hnext] at hfiles
  | cons file files ih =>
      rw [drain_eq_next?] at hfiles
      cases hnext : s.next? t with
      | none => simp [hnext] at hfiles
      | some next =>
          obtain ⟨first, s'⟩ := next
          simp only [hnext, List.cons.injEq] at hfiles
          exact .next (hfiles.1 ▸ hnext) (ih s' hfiles.2)

/-- **A search visits each directory that its paths lead to once, breadth first, and hands out the
class files that it finds there.  If nothing in these directories is hidden from it, it covers all that
can be reached.** -/
theorem visits_of_start {t : FileTree} {path : String} {s : Scanner} (ht : t.WellFormed)
    (hstart : start? t path = some s)
    (hshort : ∀ dir ∈ t.directories, (pathOf dir).utf8ByteSize ≤ pathLimit) :
    ∃ root stops, t.resolve path = .ok root ∧ Yields t s (s.drain t) ∧
      stops.map (Stop.path root) = s.searched t ∧ Visits t root stops (s.drain t) ∧
      ((∀ stop ∈ stops, stop.Unhindered t root) → Covers t root stops (s.drain t)) := by
  unfold start? at hstart
  cases hresolve : t.resolve path with
  | error e => simp [hresolve] at hstart
  | ok root =>
      cases hdir : t.isDirectoryAt root with
      | false => simp [hresolve, hdir] at hstart
      | true =>
          obtain rfl : _ = s := by simpa [hresolve, hdir] using hstart
          have hroot := ht.names_of_directory hdir
          have hown : t.resolve (pathOf root) = .ok root :=
            (resolve_pathOf_iff hroot).2 ⟨hshort root (mem_directories hdir), ht.walk_names hdir⟩
          have hreached : Reached t root [⟨[], root⟩] := by
            refine ⟨?_, ?_, ?_, by simp, by simp⟩
            · simpa using Access.here
            · simpa using hdir
            · simpa [Stop.path, pathBelow] using hown
          have hfrontier : Frontier t root [] [⟨[], root⟩]
              ⟨pathOf root, [pathOf root], [], [root]⟩ :=
            ⟨rfl, rfl, rfl, hreached, by simp, by simp⟩
          obtain ⟨more, s', hend, hsearched, hdrain⟩ := hfrontier.drain ht hroot
          rw [List.map_nil, List.nil_append] at hdrain
          rw [List.nil_append] at hend
          refine ⟨root, [⟨[], root⟩] ++ more, rfl, yields_drain t _, hsearched.symm, ?_, ?_⟩
          · rw [hdrain]
            exact hend.visits ht hroot (by simp)
          · intro hfree
            rw [hdrain]
            exact hend.covers ht hroot (by simp) hfree

/-- A tree with links to a directory above, to a directory beside, to a file and to nothing. -/
def tangled : FileTree where
  entries := [(["r"], .directory), (["r", "up"], .link ".."), (["r", "p"], .directory),
    (["r", "p", "A.class"], .file (.bytes []) Entry.fileMode), (["r", "q"], .link "p"),
    (["r", "B.class"], .link "p/A.class"), (["r", "C.class"], .link "gone")]

theorem tangled_covered : tangled.WellFormed ∧
    (∀ dir ∈ tangled.directories, (pathOf dir).utf8ByteSize ≤ pathLimit) ∧
    ∃ s, start? tangled "/r" = some s ∧ ∃ stops, Covers tangled ["r"] stops (s.drain tangled) := by
  have hstart : start? tangled "/r" = some ⟨"/r", ["/r"], [], [["r"]]⟩ := by decide +kernel
  have hwell : tangled.WellFormed := by decide +kernel
  have hshort : ∀ dir ∈ tangled.directories, (pathOf dir).utf8ByteSize ≤ pathLimit := by
    decide +kernel
  obtain ⟨root, stops, hroot, _, hsearched, hvisits, hcovers⟩ :=
    visits_of_start hwell hstart hshort
  obtain rfl : ["r"] = root := by
    have hr : tangled.resolve "/r" = .ok ["r"] :=
      Attempt.toOption_eq_some_iff.1 (by decide +kernel)
    exact Except.ok.inj (hr.symm.trans hroot)
  refine ⟨hwell, hshort, _, hstart, stops, hcovers fun stop hstop => ⟨rfl, fun _ _ => rfl, ?_⟩⟩
  intro name hname loc hleads
  have hall : ∀ path ∈ searched tangled ⟨"/r", ["/r"], [], [["r"]]⟩,
      ∀ dir ∈ (tangled.resolve path).toOption, ∀ name ∈ tangled.children dir,
        ∀ loc ∈ (tangled.walk linkLimit dir [name]).toOption,
          (tangled.resolve (Path.join path name)).toOption = some loc := by decide +kernel
  have hpath := hsearched ▸ List.mem_map_of_mem (f := Stop.path ["r"]) hstop
  have hdir := Attempt.toOption_eq_some_iff.2 (hvisits.resolves stop hstop)
  exact Attempt.toOption_eq_some_iff.1
    (hall _ hpath _ hdir name hname loc (Attempt.toOption_eq_some_iff.2 hleads))

example : ((start? tangled "/r").map fun s => (s.drain tangled).map ClassFileRef.path) =
    some ["/r/B.class", "/r/p/A.class"] := by decide +kernel

/-! ## What a search may miss -/

/-- Where all is covered, a class file in a directory that can be reached is among those found. -/
theorem Covers.mem_of_access {t : FileTree} {root dir : Location} {stops : List Stop}
    {files : List ClassFileRef} {names : List String} {name : String}
    (h : Covers t root stops files) (haccess : t.Access t.children root names dir)
    (hname : name ∈ Stop.files t ⟨names, dir⟩) :
    ∃ stop ∈ stops, .ofPath (pathOf root) (stop.pathTo root name) ∈ files := by
  obtain ⟨stop, hstop, rfl, -⟩ := h.complete _ _ haccess
  rw [h.found]
  exact ⟨stop, hstop, List.mem_flatMap.2 ⟨stop, hstop, List.mem_map_of_mem hname⟩⟩

/-- A search of the directory `r` does not cover what can be reached from there. -/
structure Misses (t : FileTree) : Prop where
  wellFormed : t.WellFormed
  short : ∀ dir ∈ t.directories, (pathOf dir).utf8ByteSize ≤ pathLimit
  missing : ∃ s, start? t "/r" = some s ∧ ¬∃ stops, Covers t ["r"] stops (s.drain t)

/-- A search that hands out nothing misses what can be reached. -/
theorem misses_of_drain_eq_nil {t : FileTree} {s : Scanner} {dir : Location} {names : List String}
    {name : String} (ht : t.WellFormed)
    (hshort : ∀ dir ∈ t.directories, (pathOf dir).utf8ByteSize ≤ pathLimit)
    (hstart : start? t "/r" = some s) (hdrain : s.drain t = [])
    (haccess : t.Access t.children ["r"] names dir) (hname : name ∈ Stop.files t ⟨names, dir⟩) :
    Misses t := by
  refine ⟨ht, hshort, s, hstart, ?_⟩
  rintro ⟨stops, h⟩
  obtain ⟨stop, -, hmem⟩ := h.mem_of_access haccess hname
  rw [hdrain] at hmem
  cases hmem

/-- So it does if there are class files in a directory below. -/
theorem misses_of_subdirectory {t : FileTree} {s : Scanner} {sub name : String} {dir : Location}
    (ht : t.WellFormed) (hshort : ∀ dir ∈ t.directories, (pathOf dir).utf8ByteSize ≤ pathLimit)
    (hstart : start? t "/r" = some s) (hdrain : s.drain t = []) (hsub : sub ∈ t.children ["r"])
    (hleads : (t.walk linkLimit ["r"] [sub]).toOption = some dir) (hdir : t.isDirectoryAt dir = true)
    (hname : name ∈ Stop.files t ⟨[sub], dir⟩) : Misses t :=
  misses_of_drain_eq_nil ht hshort hstart hdrain
    (.enter .here hsub (Attempt.toOption_eq_some_iff.1 hleads) hdir) hname

/-- A tree in which thirty links lead to a directory, and twenty from there to the next one. The
first of them is on the path that a search takes, though there is another one without links. -/
def crooked : FileTree where
  entries := [(["l"], .link "."), (["r"], .directory),
    (["r", "a"], .link (".." ++ String.join (List.replicate 29 "/l") ++ "/r/s/t")),
    (["r", "s"], .directory), (["r", "s", "t"], .directory),
    (["r", "s", "t", "b"], .link ("../../.." ++ String.join (List.replicate 19 "/l") ++ "/x")),
    (["x"], .directory), (["x", "F.class"], .file (.bytes []) Entry.fileMode)]

/-- A tree with a class file in a directory below `r`. -/
def nested : FileTree where
  entries := [(["r"], .directory), (["r", "d"], .directory),
    (["r", "d", "F.class"], .file (.bytes []) Entry.fileMode)]

/-- The same tree, with a directory that cannot be listed. -/
def closed : FileTree := { nested with host := { refusesListing := fun dir => dir == ["r", "d"] } }

/-- The same tree, where the text stands for a name that is not Unicode. -/
def foreign : FileTree := { nested with host := { isUnicode := fun name => name != "F.class" } }

/-- **A search may miss class files** that can be reached: in a directory that another path leads to,
in one that cannot be listed, and if their names are not Unicode. -/
theorem search_misses : Misses crooked ∧ Misses closed ∧ Misses foreign := by
  let s : Scanner := ⟨"/r", ["/r"], [], [["r"]]⟩
  refine ⟨?crooked, ?closed, ?foreign⟩
  case crooked =>
    have hstart : start? crooked "/r" = some s := by decide +kernel
    have ha : crooked.walk linkLimit ["r"] ["a"] = .ok ["r", "s", "t"] :=
      Attempt.toOption_eq_some_iff.1 (by decide +kernel)
    have hb : crooked.walk linkLimit ["r", "s", "t"] ["b"] = .ok ["x"] :=
      Attempt.toOption_eq_some_iff.1 (by decide +kernel)
    have haccess : crooked.Access crooked.children ["r"] ([] ++ ["a"] ++ ["b"]) ["x"] :=
      .enter (.enter .here (by decide +kernel) ha (by decide +kernel)) (by decide +kernel) hb
        (by decide +kernel)
    have hname : "F.class" ∈ Stop.files crooked ⟨[] ++ ["a"] ++ ["b"], ["x"]⟩ := by decide +kernel
    exact misses_of_drain_eq_nil (by decide +kernel) (by decide +kernel) hstart (by decide +kernel)
      haccess hname
  case closed =>
    have hstart : start? closed "/r" = some s := by decide +kernel
    have hname : "F.class" ∈ Stop.files closed ⟨["d"], ["r", "d"]⟩ := by decide +kernel
    exact misses_of_subdirectory (by decide +kernel) (by decide +kernel) hstart (by decide +kernel)
      (by decide +kernel) (by decide +kernel) (by decide +kernel) hname
  case foreign =>
    have hstart : start? foreign "/r" = some s := by decide +kernel
    have hname : "F.class" ∈ Stop.files foreign ⟨["d"], ["r", "d"]⟩ := by decide +kernel
    exact misses_of_subdirectory (by decide +kernel) (by decide +kernel) hstart (by decide +kernel)
      (by decide +kernel) (by decide +kernel) (by decide +kernel) hname

end Scanner

end FiberWeave
