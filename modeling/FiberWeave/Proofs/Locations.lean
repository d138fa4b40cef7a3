import FiberWeave.ClassFileRef
import FiberWeave.FileTree.Listing
import FiberWeave.Proofs.Walks
import Mathlib.Data.List.Induction
import Mathlib.Data.List.Nodup

/-!
# Well-formed trees, and the paths of their locations

* `FileTree.IsName` — a text that an entry can have as its name.
* `FileTree.WellFormed` — a tree as there can be one on a disk: at most one entry at each location,
  below a directory, with names that can be names.
* `pieces_pathOf`, `parts_pathOf`, `join_pathOf` — the path of a location has its names as pieces and
  as parts, and is made longer by one name at a time; `pathBelow_pathOf` for several.
* `resolve_pathOf` — the path of a directory leads there, unless it is too long for a path.
* `Leads.more`, `Leads.le` — more links do no harm, and no walk gains any.
-/

namespace FiberWeave

/-! ## Texts with a mark between the pieces -/

namespace Text

theorem splitOn_append_cons {mark : Char} {cs : List Char} (h : mark ∉ cs) (rest : List Char) :
    splitOn mark (cs ++ mark :: rest) = cs :: splitOn mark rest := by
  induction cs with
  | nil => simp [splitOn]
  | cons c cs ih =>
      have hc : c ≠ mark := fun e => h (by simp [e])
      have hcs : mark ∉ cs := fun e => h (by simp [e])
      simp [splitOn, hc, ih hcs]

/-- The pieces of texts with a mark between them are these texts. -/
theorem splitOn_intercalate {mark : Char} {piece : List Char} {later : List (List Char)}
    (h : ∀ cs ∈ piece :: later, mark ∉ cs) :
    splitOn mark ([mark].intercalate (piece :: later)) = piece :: later := by
  induction later generalizing piece with
  | nil => simpa using splitOn_of_not_mem (h piece (by simp))
  | cons next later ih =>
      have hlater : ∀ cs ∈ next :: later, mark ∉ cs := fun cs hcs => h cs (.tail _ hcs)
      rw [List.intercalate_cons_cons, List.append_assoc, List.singleton_append,
        splitOn_append_cons (h piece (by simp)), ih hlater]

theorem mem_of_mem_intercalate {mark c : Char} {texts : List (List Char)}
    (h : c ∈ [mark].intercalate texts) : c = mark ∨ ∃ cs ∈ texts, c ∈ cs := by
  induction texts with
  | nil => simp at h
  | cons cs later ih =>
      cases later with
      | nil => exact .inr ⟨cs, by simp, by simpa using h⟩
      | cons next later =>
          rw [List.intercalate_cons_cons, List.append_assoc, List.mem_append, List.mem_append,
            List.mem_singleton] at h
          rcases h with hcs | hmark | hlater
          · exact .inr ⟨cs, by simp, hcs⟩
          · exact .inl hmark
          · rcases ih hlater with hmark | ⟨ds, hds, hc⟩
            · exact .inl hmark
            · exact .inr ⟨ds, .tail _ hds, hc⟩

end Text

namespace FileTree

/-! ## Names and well-formed trees -/

/-- A text that an entry can have as its name. -/
structure IsName (name : String) : Prop where
  ordinary : isOrdinary name = true
  slash : '/' ∉ name.toList
  nul : '\x00' ∉ name.toList
  length : name.utf8ByteSize ≤ nameLimit

instance (name : String) : Decidable (IsName name) :=
  decidable_of_iff (isOrdinary name = true ∧ '/' ∉ name.toList ∧ '\x00' ∉ name.toList ∧
      name.utf8ByteSize ≤ nameLimit)
    ⟨fun h => ⟨h.1, h.2.1, h.2.2.1, h.2.2.2⟩, fun h => ⟨h.ordinary, h.slash, h.nul, h.length⟩⟩

/-- A tree as there can be one on a disk. -/
structure WellFormed (t : FileTree) : Prop where
  distinct : (t.entries.map Prod.fst).Nodup
  names : ∀ e ∈ t.entries, ∀ name ∈ e.1, IsName name
  below : ∀ e ∈ t.entries, e.1 ≠ [] ∧ t.isDirectoryAt e.1.dropLast = true

instance (t : FileTree) : Decidable t.WellFormed :=
  decidable_of_iff ((t.entries.map Prod.fst).Nodup ∧ (∀ e ∈ t.entries, ∀ name ∈ e.1, IsName name) ∧
      ∀ e ∈ t.entries, e.1 ≠ [] ∧ t.isDirectoryAt e.1.dropLast = true)
    ⟨fun h => ⟨h.1, h.2.1, h.2.2⟩, fun h => ⟨h.distinct, h.names, h.below⟩⟩

theorem IsName.not_inert {name : String} (h : IsName name) : Path.isInert name = false := by
  have := h.ordinary
  simp only [isOrdinary, Bool.not_eq_true', Bool.or_eq_false_iff] at this
  exact this.1

theorem IsName.ne_up {name : String} (h : IsName name) : name ≠ ".." := by
  have := h.ordinary
  simp only [isOrdinary, Bool.not_eq_true', Bool.or_eq_false_iff, beq_eq_false_iff_ne] at this
  exact this.2

theorem IsName.ne_nil {name : String} (h : IsName name) : name.toList ≠ [] := by
  intro hnil
  have hname : name = "" := String.toList_inj.1 (by simpa using hnil)
  simpa [hname, Path.isInert] using h.not_inert

theorem IsName.not_absolute {name : String} (h : IsName name) : Path.isAbsolute name = false := by
  unfold Path.isAbsolute
  cases hname : name.toList with
  | nil => rfl
  | cons c rest =>
      have hslash : '/' ≠ c := by
        rintro rfl
        exact h.slash (by simp [hname])
      simpa using Ne.symm hslash

theorem childName?_eq_some_iff {dir loc : Location} {name : String} :
    childName? dir loc = some name ↔ loc = dir ++ [name] := by
  unfold childName?
  cases hlast : loc.getLast? with
  | none =>
      obtain rfl := List.getLast?_eq_none_iff.1 hlast
      simp
  | some last =>
      constructor
      · intro h
        by_cases hloc : loc = dir ++ [last]
        · obtain rfl : last = name := by simpa [hloc] using h
          exact hloc
        · simp [hloc] at h
      · rintro rfl
        simp only [List.getLast?_concat, Option.some.injEq] at hlast
        simp [hlast]

theorem mem_children_iff {t : FileTree} {dir : Location} {name : String} :
    name ∈ t.children dir ↔ ∃ e ∈ t.entries, e.1 = dir ++ [name] := by
  simp only [children, List.mem_filterMap, childName?_eq_some_iff]

/-- What a directory lists is in it. -/
theorem sublist_listed (t : FileTree) (dir : Location) :
    (t.listed dir).Sublist (t.children dir) := by
  unfold listed
  split
  · exact List.nil_sublist _
  · exact .refl _

theorem exists_mem_of_get? {t : FileTree} {loc : Location} {e : Entry} (h : t.get? loc = some e)
    (hloc : loc ≠ []) : (loc, e) ∈ t.entries := by
  simp only [get?, hloc, if_false, Option.map_eq_some_iff] at h
  obtain ⟨⟨loc', e'⟩, hfind, rfl⟩ := h
  obtain rfl : loc' = loc := by simpa using List.find?_some hfind
  exact List.mem_of_find?_eq_some hfind

namespace WellFormed

variable {t : FileTree} {dir loc : Location} {name : String}

theorem isName_of_mem_children (h : t.WellFormed) (hname : name ∈ t.children dir) :
    IsName name := by
  obtain ⟨e, he, hloc⟩ := mem_children_iff.1 hname
  exact h.names e he name (by simp [hloc])

theorem names_of_directory (h : t.WellFormed) (hdir : t.isDirectoryAt dir = true) :
    ∀ name ∈ dir, IsName name := by
  intro name hname
  have hmem := exists_mem_of_get? (by simpa [isDirectoryAt] using hdir) (List.ne_nil_of_mem hname)
  exact h.names _ hmem name hname

/-- A directory lists each of its names once. -/
theorem nodup_children (h : t.WellFormed) (dir : Location) : (t.children dir).Nodup := by
  have hmap : t.children dir = (t.entries.map Prod.fst).filterMap (childName? dir) := by
    rw [List.filterMap_map]
    rfl
  rw [hmap]
  refine List.Nodup.filterMap (fun a b name ha hb => ?_) h.distinct
  rw [childName?_eq_some_iff.1 ha, childName?_eq_some_iff.1 hb]

end WellFormed

/-! ## The path of a location -/

theorem toList_pathOf (loc : Location) :
    (pathOf loc).toList = '/' :: ['/'].intercalate (loc.map String.toList) := by
  simp [pathOf, String.toList_append, String.toList_intercalate]

theorem isAbsolute_pathOf (loc : Location) : Path.isAbsolute (pathOf loc) = true := by
  simp [Path.isAbsolute, toList_pathOf]

/-- The pieces of the path of a location are its names, behind an empty one. -/
theorem pieces_pathOf {loc : Location} (hloc : loc ≠ []) (h : ∀ name ∈ loc, IsName name) :
    Path.pieces (pathOf loc) = "" :: loc := by
  obtain ⟨name, rest, rfl⟩ := List.exists_cons_of_ne_nil hloc
  have hslash : ∀ cs ∈ name.toList :: rest.map String.toList, '/' ∉ cs := by
    intro cs hcs
    obtain ⟨name, hname, rfl⟩ := List.mem_map.1 (show cs ∈ (name :: rest).map String.toList from hcs)
    exact (h name hname).slash
  have hsplit := Text.splitOn_intercalate hslash
  rw [Path.pieces, toList_pathOf, Text.splitOn, if_pos rfl, List.map_cons (f := String.toList), hsplit]
  simp [String.ofList_toList]

/-- The parts of the path of a location are the root and its names. -/
theorem parts_pathOf {loc : Location} (h : ∀ name ∈ loc, IsName name) :
    Path.parts (pathOf loc) = .root :: loc.map .name := by
  cases loc with
  | nil => rfl
  | cons name rest =>
      have hinner : (name :: rest).filterMap Path.innerPart? = (name :: rest).map .name := by
        rw [← List.filterMap_eq_map]
        refine List.filterMap_congr fun name hname => ?_
        simp [Path.innerPart?, (h name hname).not_inert, (h name hname).ne_up]
      rw [Path.parts, pieces_pathOf (by simp) h]
      simp only [isAbsolute_pathOf, if_true, hinner, Option.toList_some, List.singleton_append]

theorem pathOf_concat {loc : Location} (hloc : loc ≠ []) (name : String) :
    pathOf (loc ++ [name]) = pathOf loc ++ "/" ++ name := by
  rw [pathOf, String.intercalate_append_of_ne_nil hloc (by simp), String.intercalate_singleton]
  simp only [pathOf, String.append_assoc]

/-- The path of a location is made longer by a name. -/
theorem join_pathOf {loc : Location} {name : String} (hloc : ∀ name ∈ loc, IsName name)
    (hname : IsName name) : Path.join (pathOf loc) name = pathOf (loc ++ [name]) := by
  rcases List.eq_nil_or_concat' loc with rfl | ⟨front, last, rfl⟩
  · simp [Path.join, hname.not_absolute, pathOf, String.intercalate_singleton]
  · obtain ⟨base, hbase⟩ : ∃ base, pathOf (front ++ [last]) = base ++ last := by
      cases front with
      | nil => exact ⟨"/", rfl⟩
      | cons => exact ⟨_, pathOf_concat (by simp) last⟩
    have hlast : IsName last := hloc last (by simp)
    have hend : (pathOf (front ++ [last])).toList.getLast? ≠ some '/' := by
      rw [hbase, String.toList_append, List.getLast?_append_of_ne_nil _ hlast.ne_nil]
      exact fun hslash => hlast.slash (List.mem_of_getLast? hslash)
    have hempty : (pathOf (front ++ [last])).isEmpty = false := by
      simp [pathOf, String.isEmpty_eq_false_iff]
    rw [pathOf_concat (List.concat_ne_nil _ _), Path.join, hname.not_absolute, hempty]
    simp [hend]

theorem pathBelow_pathOf {loc : Location} {names : List String}
    (hloc : ∀ name ∈ loc, IsName name) (hnames : ∀ name ∈ names, IsName name) :
    pathBelow (pathOf loc) names = pathOf (loc ++ names) := by
  induction names generalizing loc with
  | nil => simp [pathBelow]
  | cons name rest ih =>
      have hlonger : ∀ n ∈ loc ++ [name], IsName n := by
        intro n hn
        rcases List.mem_append.1 hn with hn | hn
        · exact hloc n hn
        · exact hnames n (by simpa using Or.inl (List.mem_singleton.1 hn))
      have hrest := ih hlonger fun n hn => hnames n (.tail _ hn)
      rw [pathBelow, List.foldl_cons, join_pathOf hloc (hnames name (by simp))]
      rw [pathBelow] at hrest
      rw [hrest, List.append_assoc, List.singleton_append]

/-! ## Walks -/

/-- More links do no harm. -/
theorem Leads.more {t : FileTree} {k k' : Nat} {loc goal : Location} {names : List String}
    (h : Leads t k loc names k' goal) (extra : Nat) :
    Leads t (k + extra) loc names (k' + extra) goal := by
  induction h with
  | done => exact .done
  | stay hdir hname _ ih => exact .stay hdir hname ih
  | up hdir _ ih => exact .up hdir ih
  | enter hdir hinert hup hlen he hlink _ ih => exact .enter hdir hinert hup hlen he hlink ih
  | @follow k _ _ _ _ _ _ hdir hinert hup hlen he _ ih =>
      rw [Nat.add_right_comm]
      exact .follow hdir hinert hup hlen he ih

/-- No walk gains links. -/
theorem Leads.le {t : FileTree} {k k' : Nat} {loc goal : Location} {names : List String}
    (h : Leads t k loc names k' goal) : k' ≤ k := by
  induction h with
  | done => exact Nat.le_refl _
  | stay _ _ _ ih => exact ih
  | up _ _ ih => exact ih
  | enter _ _ _ _ _ _ _ ih => exact ih
  | follow _ _ _ _ _ _ ih => exact Nat.le_succ_of_le ih

theorem walk_inert {t : FileTree} {k : Nat} {loc : Location} {name : String} {rest : List String}
    (hdir : t.isDirectoryAt loc = true) (hname : Path.isInert name = true) :
    t.walk k loc (name :: rest) = t.walk k loc rest := by
  rw [walk_eq_stride, stride]
  simp [hdir, hname]

theorem checkPath_pathOf_iff {loc : Location} (h : ∀ name ∈ loc, IsName name) :
    checkPath (pathOf loc) = .ok () ↔ (pathOf loc).utf8ByteSize ≤ pathLimit := by
  have hempty : (pathOf loc).isEmpty = false := by simp [pathOf, String.isEmpty_eq_false_iff]
  have hnul : '\x00' ∉ (pathOf loc).toList := by
    rw [toList_pathOf, List.mem_cons]
    rintro (hslash | hmem)
    · exact absurd hslash (by decide)
    · rcases Text.mem_of_mem_intercalate hmem with hslash | ⟨cs, hcs, hnul⟩
      · exact absurd hslash (by decide)
      · obtain ⟨name, hname, rfl⟩ := List.mem_map.1 hcs
        exact (h name hname).nul hnul
  by_cases hlen : pathLimit < (pathOf loc).utf8ByteSize
  · simp [checkPath, hempty, hnul, hlen, Nat.not_le.2 hlen]
  · simp [checkPath, hempty, hnul, hlen, Nat.not_lt.1 hlen]

/-- The path of a location leads where its names do, unless it is too long for a path. -/
theorem resolve_pathOf_iff {t : FileTree} {loc goal : Location}
    (hnames : ∀ name ∈ loc, IsName name) : t.resolve (pathOf loc) = .ok goal ↔
      (pathOf loc).utf8ByteSize ≤ pathLimit ∧ t.walk linkLimit [] loc = .ok goal := by
  have hroot : t.isDirectoryAt [] = true := by simp [isDirectoryAt, get?]
  have hwalk : t.walk linkLimit (t.origin (pathOf loc)) (Path.pieces (pathOf loc)) =
      t.walk linkLimit [] loc := by
    rw [origin, isAbsolute_pathOf, if_pos rfl]
    cases loc with
    | nil =>
        have hpieces : Path.pieces (pathOf []) = ["", ""] := rfl
        rw [hpieces, walk_inert hroot rfl, walk_inert hroot rfl]
    | cons name rest => rw [pieces_pathOf (by simp) hnames, walk_inert hroot rfl]
  rw [← checkPath_pathOf_iff hnames, resolve, hwalk]
  cases checkPath (pathOf loc) with
  | error e => simp
  | ok => simp

/-- A directory is where its names lead. -/
theorem WellFormed.walk_names {t : FileTree} (h : t.WellFormed) {dir : Location}
    (hdir : t.isDirectoryAt dir = true) : t.walk linkLimit [] dir = .ok dir := by
  induction dir using List.reverseRecOn with
  | nil => rw [walk_eq_stride, stride]
  | append_singleton front last ih =>
      have he : t.get? (front ++ [last]) = some .directory := by simpa [isDirectoryAt] using hdir
      have hmem := exists_mem_of_get? he (by simp)
      have hfront : t.isDirectoryAt front = true := by simpa using (h.below _ hmem).2
      have hlast : IsName last := h.names _ hmem last (by simp)
      obtain ⟨k', hleads⟩ := walk_eq_ok_iff.1 (ih hfront)
      exact walk_eq_ok_iff.2 ⟨k', hleads.append
        (.enter hfront hlast.not_inert hlast.ne_up hlast.length he (by simp) .done)⟩

end FileTree

end FiberWeave
