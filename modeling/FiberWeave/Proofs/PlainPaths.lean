import FiberWeave.ClassName
import FiberWeave.Proofs.LinkFree
import FiberWeave.Proofs.PathOrder

/-!
# Paths that stay below a directory

A class name becomes a path by slashes for its dots.  So none of its steps can lead up, but a name that
begins with a dot or a slash becomes a path that starts at the root, and such a path stands alone
wherever it is put.

* `Path.IsPlain` — a path of names; **`Path.below_join`**: put behind another path, it stays below.
* `ClassName.Rooted` — names that begin with a dot or a slash; **`ClassName.isPlain_filePath_iff`**:
  exactly the paths of other class files are plain.  `ClassName.join_filePath_of_rooted` says where the
  rooted ones are looked for.
* `FileTree.LinkFree.prefix_of_resolve` — where there are no links below a directory, plain paths
  behind it lead below it.
-/

namespace FiberWeave

/-! ## Plain paths -/

/-- The pieces of a text between marks have its characters. -/
theorem Text.mem_of_mem_splitOn {mark c : Char} {cs piece : List Char}
    (h : piece ∈ splitOn mark cs) (hc : c ∈ piece) : c ∈ cs := by
  induction cs generalizing piece with
  | nil => simp_all [splitOn]
  | cons d rest ih =>
      rw [splitOn] at h
      split at h
      · rcases List.mem_cons.1 h with rfl | h
        · cases hc
        · exact .tail _ (ih h hc)
      · cases hrest : splitOn mark rest with
        | nil =>
            simp only [hrest, List.mem_singleton] at h
            subst h
            exact List.mem_cons.2 (.inl (List.mem_singleton.1 hc))
        | cons first later =>
            simp only [hrest, List.mem_cons] at h
            rcases h with rfl | h
            · rcases List.mem_cons.1 hc with rfl | hc
              · exact .head _
              · exact .tail _ (ih (by simp [hrest]) hc)
            · exact .tail _ (ih (by simp [hrest, h]) hc)

namespace Path

/-- Names with slashes between them. Neither the start nor a step leads anywhere else. -/
structure IsPlain (tail : String) : Prop where
  relative : isAbsolute tail = false
  not_here : "." ∉ pieces tail
  not_up : ".." ∉ pieces tail

instance (tail : String) : Decidable (IsPlain tail) :=
  decidable_of_iff (isAbsolute tail = false ∧ "." ∉ pieces tail ∧ ".." ∉ pieces tail)
    ⟨fun h => ⟨h.1, h.2.1, h.2.2⟩, fun h => ⟨h.relative, h.not_here, h.not_up⟩⟩

/-- A path with the parts of another one, and only names behind them. -/
def Below (base path : String) : Prop :=
  ∃ names : List String, parts path = parts base ++ names.map .name

/-- Where no step is a dot or leads up, the parts of a path are names. -/
theorem filterMap_innerPart? {texts : List String} (hhere : "." ∉ texts) (hup : ".." ∉ texts) :
    texts.filterMap innerPart? = (texts.filter fun text => text ≠ "").map Part.name := by
  induction texts with
  | nil => rfl
  | cons text rest ih =>
      simp only [List.mem_cons, not_or] at hhere hup
      by_cases hempty : text = ""
      · subst hempty
        exact ih hhere.2 hup.2
      · have hpart : innerPart? text = some (.name text) := by
          simp [innerPart?, isInert, hempty, Ne.symm hhere.1, Ne.symm hup.1]
        rw [List.filterMap_cons, hpart, List.filter_cons_of_pos (by simpa using hempty),
          List.map_cons, ih hhere.2 hup.2]

/-- **A plain path stays below** the path that it is put behind. -/
theorem below_join (base : String) {tail : String} (h : IsPlain tail) :
    Below base (join base tail) := by
  refine ⟨(pieces tail).filter fun piece => piece ≠ "", ?_⟩
  rw [parts_join_of_relative base h.relative ?_, filterMap_innerPart? h.not_here h.not_up]
  rintro piece hpiece rfl
  exact h.not_here (List.mem_of_mem_head? hpiece)

theorem join_of_isAbsolute (base : String) {tail : String} (h : isAbsolute tail = true) :
    join base tail = tail := by
  rw [join, if_pos h]

/-- Another path that starts at the root and has neither dots nor steps up is below the root. -/
theorem below_root {path : String} (habsolute : isAbsolute path = true) (hhere : "." ∉ pieces path)
    (hup : ".." ∉ pieces path) : Below "/" path := by
  obtain ⟨first, later, hcons⟩ := pieces_eq_cons path
  rw [hcons, List.mem_cons, not_or] at hhere hup
  have hroot : parts "/" = [.root] := by decide
  refine ⟨later.filter fun piece => piece ≠ "", ?_⟩
  rw [hroot, parts, hcons, ← filterMap_innerPart? hhere.2 hup.2]
  simp [habsolute]

/-- A path that starts at the root is below those that start there and have its first parts. -/
theorem below_iff_of_below_root {base path : String} (h : Below "/" path) :
    Below base path ↔ .root ∈ parts base ∧ parts base <+: parts path := by
  have hroot : parts "/" = [.root] := by decide
  obtain ⟨names, hpath⟩ := h
  rw [hroot, List.singleton_append] at hpath
  rw [Below, hpath]
  cases hbase : parts base with
  | nil =>
      refine iff_of_false ?_ fun h => absurd h.1 List.not_mem_nil
      rintro ⟨others, hothers⟩
      cases others with
      | nil => cases hothers
      | cons => cases hothers
  | cons first later =>
      constructor
      · rintro ⟨others, hothers⟩
        obtain ⟨rfl, -⟩ := List.cons.inj hothers
        exact ⟨List.mem_cons_self, others.map .name, hothers.symm⟩
      · rintro ⟨-, rest, hrest⟩
        obtain ⟨rfl, htail⟩ := List.cons.inj hrest
        obtain ⟨front, others, -, -, rfl⟩ := List.append_eq_map_iff.1 htail
        exact ⟨others, hrest.symm⟩

end Path

/-! ## Class files -/

namespace ClassName

variable {name : String}

/-- A name that begins with a dot or a slash. -/
def Rooted (name : String) : Prop :=
  name.toList.head? = some '.' ∨ name.toList.head? = some '/'

instance (name : String) : Decidable (Rooted name) := inferInstanceAs (Decidable (_ ∨ _))

theorem toList_filePath (name : String) :
    (filePath name).toList = Text.slashed name.toList ++ fileSuffix.toList := by
  rw [filePath, internal, String.toList_append, String.toList_ofList]

theorem isAbsolute_filePath_iff : Path.isAbsolute (filePath name) = true ↔ Rooted name := by
  rw [Path.isAbsolute, toList_filePath, Rooted]
  cases name.toList with
  | nil => decide
  | cons c cs =>
      by_cases hc : c = '.'
      · simp [Text.slashed, hc]
      · simp [Text.slashed, hc]

/-- The pieces of the path of a class file have no dots, but for the ending of the last one. -/
theorem exists_pieces_filePath (name : String) : ∃ front last,
    Path.pieces (filePath name) = front ++ [last ++ fileSuffix] ∧
      (∀ piece ∈ front, '.' ∉ piece.toList) := by
  obtain ⟨front, last, hpieces, hlonger⟩ :=
    Path.pieces_append (show '/' ∉ fileSuffix.toList by decide) (internal name)
  refine ⟨front, last, hlonger, fun piece hpiece hdot => ?_⟩
  have hmem : piece ∈ Path.pieces (internal name) := by simp [hpieces, hpiece]
  obtain ⟨cs, hcs, rfl⟩ := List.mem_map.1 hmem
  rw [String.toList_ofList] at hdot
  have hinternal := Text.mem_of_mem_splitOn hcs hdot
  rw [internal, String.toList_ofList] at hinternal
  exact Text.dot_not_mem_slashed _ hinternal

/-- No step on the path of a class file is a dot or leads up. -/
theorem not_mem_pieces_filePath (name : String) {piece : String} (hdot : '.' ∈ piece.toList)
    (hshort : piece.length < fileSuffix.length) : piece ∉ Path.pieces (filePath name) := by
  obtain ⟨front, last, hpieces, hfront⟩ := exists_pieces_filePath name
  rw [hpieces]
  intro hmem
  rcases List.mem_append.1 hmem with hmem | hmem
  · exact hfront piece hmem hdot
  · rw [List.mem_singleton.1 hmem, String.length_append] at hshort
    omega

theorem here_not_mem_pieces (name : String) : "." ∉ Path.pieces (filePath name) :=
  not_mem_pieces_filePath name (by decide) (by decide)

theorem up_not_mem_pieces (name : String) : ".." ∉ Path.pieces (filePath name) :=
  not_mem_pieces_filePath name (by decide) (by decide)

/-- **The path of a class file is plain** unless its class has a rooted name. -/
theorem isPlain_filePath_iff : Path.IsPlain (filePath name) ↔ ¬Rooted name := by
  rw [← isAbsolute_filePath_iff, Bool.not_eq_true]
  exact ⟨fun h => h.relative, fun h => ⟨h, here_not_mem_pieces name, up_not_mem_pieces name⟩⟩

/-- A class with a rooted name is looked for in the same place, whatever directory it is looked for
in: in one below the root. -/
theorem join_filePath_of_rooted (h : Rooted name) (dir : String) :
    Path.join dir (filePath name) = filePath name :=
  Path.join_of_isAbsolute dir (isAbsolute_filePath_iff.2 h)

theorem below_root_filePath (h : Rooted name) : Path.Below "/" (filePath name) :=
  Path.below_root (isAbsolute_filePath_iff.2 h) (here_not_mem_pieces name) (up_not_mem_pieces name)

end ClassName

/-! ## Directories without links -/

namespace FileTree

variable {t : FileTree} {root goal : Location} {dir tail : String}

/-- A piece that is no part leads nowhere. -/
theorem Leads.eq_of_inert {k k' : Nat} {loc : Location} {piece : String}
    (h : Leads t k loc [piece] k' goal) (hinert : Path.isInert piece = true) : goal = loc := by
  cases h with
  | stay _ _ hdone =>
      cases hdone with
      | done => rfl
  | up => exact absurd hinert (by decide)
  | enter _ hnot => simp [hinert] at hnot
  | follow _ hnot => simp [hinert] at hnot

/-- What is put behind a path leads on from where the path leads. -/
theorem leads_join (hdir : t.resolve dir = .ok root) (hrelative : Path.isAbsolute tail = false)
    (h : t.resolve (Path.join dir tail) = .ok goal) :
    ∃ k k', Leads t k root (Path.pieces tail) k' goal := by
  obtain ⟨hcheck, j, hroot⟩ := resolve_eq_ok_iff.1 hdir
  obtain ⟨-, k', hgoal⟩ := resolve_eq_ok_iff.1 h
  have hempty : dir ≠ "" := by
    rintro rfl
    cases hcheck
  have hisEmpty : dir.isEmpty = false := by simpa using hempty
  by_cases hslash : dir.toList.getLast? = some '/'
  · -- the last piece of such a path is empty, and stays where the path leads
    obtain ⟨front, hfront⟩ := List.getLast?_eq_some_iff.1 hslash
    obtain rfl : dir = String.ofList front ++ "/" := by
      rw [← String.toList_inj, hfront]
      simp [String.toList_append]
    have hjoin : Path.join (String.ofList front ++ "/") tail = String.ofList front ++ "/" ++ tail := by
      simp [Path.join, hrelative]
    have hpieces := Path.pieces_append_slash (String.ofList front) ""
    rw [String.append_empty] at hpieces
    rw [hjoin, origin, Path.isAbsolute_append hempty, Path.pieces_append_slash] at hgoal
    rw [origin, hpieces] at hroot
    obtain ⟨i, mid, hmid, hlast⟩ := hroot.split _ _ rfl
    obtain ⟨i', mid', hmid', hrest⟩ := hgoal.split _ _ rfl
    obtain rfl := hmid.unique hmid'
    obtain rfl := hlast.eq_of_inert (by decide)
    exact ⟨_, _, hrest⟩
  · have hjoin : Path.join dir tail = dir ++ "/" ++ tail := by
      have hslash' : (dir.toList.getLast? == some '/') = false := by simpa using hslash
      simp [Path.join, hrelative, hslash', hempty]
    rw [hjoin, origin, String.append_assoc, Path.isAbsolute_append hempty, ← String.append_assoc,
      Path.pieces_append_slash] at hgoal
    obtain ⟨i, mid, hmid, hrest⟩ := hgoal.split _ _ rfl
    obtain rfl := hmid.unique hroot
    exact ⟨_, _, hrest⟩

/-- Where there are no links, names lead further down only. -/
theorem LinkFree.prefix_of_leads (hfree : t.LinkFree root) {k k' : Nat} {loc : Location}
    {texts : List String} (hup : ".." ∉ texts) (hloc : root <+: loc)
    (h : Leads t k loc texts k' goal) : root <+: goal := by
  induction h with
  | done => exact hloc
  | stay _ _ _ ih => exact ih (fun hmem => hup (.tail _ hmem)) hloc
  | up => exact absurd List.mem_cons_self hup
  | enter _ _ _ _ _ _ _ ih =>
      exact ih (fun hmem => hup (.tail _ hmem)) (hloc.trans (List.prefix_append _ _))
  | follow _ _ _ _ hlink =>
      obtain ⟨names, rfl⟩ := hloc
      rw [List.append_assoc] at hlink
      exact absurd hlink (hfree _ _)

/-- **Where there are no links below a directory**, a plain path behind it leads below it. -/
theorem LinkFree.prefix_of_resolve (hfree : t.LinkFree root) (hdir : t.resolve dir = .ok root)
    (htail : Path.IsPlain tail) (h : t.resolve (Path.join dir tail) = .ok goal) : root <+: goal := by
  obtain ⟨k, k', hleads⟩ := leads_join hdir htail.relative h
  exact hfree.prefix_of_leads htail.not_up List.prefix_rfl hleads

end FileTree

end FiberWeave
