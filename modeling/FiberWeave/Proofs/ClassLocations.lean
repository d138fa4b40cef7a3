import FiberWeave.Proofs.PlainPaths

/-!
# Names of classes and locations of their files

A class file lies where the name of its class says, and the name can be read off the place where it
lies.  The two ways are inverse to each other for names that are components with dots between them,
whatever the components are called and however the path of the root is spelled: its own parts go
away as a whole.

* `Text.splitOn_slashed`, `Text.dotted_slashed` — a name with slashes for its dots has the same
  components, and is the old one with dots for its slashes.
* `Path.intercalate_pieces` — a path is its pieces with slashes between them.
* `ClassName.IsDotted` — the names; `IsDotted.relativeTo?_join`: their path below a root consists of
  their components, but for the ending of the last one.
* **`ClassFileRef.ofPath_join_filePath`** — the file of a class suggests the name of the class.
-/

namespace FiberWeave

/-! ## Dots and slashes -/

namespace Text

/-- A text is its pieces with the marks between them. -/
theorem intercalate_splitOn (mark : Char) (cs : List Char) :
    [mark].intercalate (splitOn mark cs) = cs := by
  induction cs with
  | nil => rfl
  | cons c rest ih =>
      obtain ⟨front, last, hconcat, -⟩ := splitOn_append (show mark ∉ [] by simp) rest
      obtain ⟨piece, later, hcons⟩ :=
        List.exists_cons_of_ne_nil (show splitOn mark rest ≠ [] by simp [hconcat])
      rw [hcons] at ih
      rw [splitOn, hcons]
      by_cases hc : c = mark
      · simp [hc, List.intercalate_cons_cons, ih]
      · cases later with
        | nil => simpa [hc] using ih
        | cons next later =>
            rw [List.intercalate_cons_cons] at ih
            simp [hc, List.intercalate_cons_cons, ← ih]

/-- Slashes for dots change the marks and leave the pieces. -/
theorem splitOn_slashed {cs : List Char} (h : '/' ∉ cs) :
    splitOn '/' (slashed cs) = splitOn '.' cs := by
  induction cs with
  | nil => rfl
  | cons c rest ih =>
      have hc : c ≠ '/' := fun e => h (by simp [e])
      have hrest := ih fun hmem => h (.tail _ hmem)
      rw [slashed] at hrest
      rw [slashed, List.map_cons, splitOn, splitOn, hrest]
      by_cases hdot : c = '.'
      · simp [hdot]
      · simp [hdot, hc]

/-- Dots for slashes take back what slashes for dots did. -/
theorem dotted_slashed {cs : List Char} (h : '/' ∉ cs) : dotted (slashed cs) = cs := by
  rw [dotted, slashed, List.map_map]
  refine (List.map_congr_left fun c hc => ?_).trans (List.map_id cs)
  by_cases hdot : c = '.'
  · simp [hdot]
  · have hslash : c ≠ '/' := fun e => h (e ▸ hc)
    simp [hdot, hslash]

end Text

/-- A path is its pieces with slashes between them. -/
theorem Path.intercalate_pieces (path : String) : "/".intercalate (pieces path) = path := by
  have htexts : (pieces path).map String.toList = Text.splitOn '/' path.toList := by
    simp [pieces, Function.comp_def]
  have hslash : "/".toList = ['/'] := by decide
  rw [← String.toList_inj, String.toList_intercalate, htexts, hslash, Text.intercalate_splitOn]

/-! ## Names -/

namespace ClassName

/-- Components with dots between them. No component is empty, and none has a slash. -/
structure IsDotted (name : String) : Prop where
  components : [] ∉ Text.splitOn '.' name.toList
  slashless : '/' ∉ name.toList

instance (name : String) : Decidable (IsDotted name) :=
  decidable_of_iff ([] ∉ Text.splitOn '.' name.toList ∧ '/' ∉ name.toList)
    ⟨fun h => ⟨h.1, h.2⟩, fun h => ⟨h.components, h.slashless⟩⟩

variable {name : String}

theorem IsDotted.not_rooted (h : IsDotted name) : ¬Rooted name := by
  have hcomponents := h.components
  intro hrooted
  rcases hrooted with hdot | hslash
  · obtain ⟨rest, hrest⟩ := List.head?_eq_some_iff.1 hdot
    rw [hrest] at hcomponents
    exact hcomponents (by simp [Text.splitOn])
  · exact h.slashless (List.mem_of_mem_head? hslash)

/-- The file of a class lies in a directory for each component but the last. -/
theorem IsDotted.empty_not_mem_pieces (h : IsDotted name) : "" ∉ Path.pieces (filePath name) := by
  obtain ⟨front, last, hinternal, hpath⟩ :=
    Path.pieces_append (show '/' ∉ fileSuffix.toList by decide) (internal name)
  have hcomponents : "" ∉ Path.pieces (internal name) := by
    rw [Path.pieces, internal, String.toList_ofList, Text.splitOn_slashed h.slashless]
    intro hmem
    obtain ⟨piece, hpiece, hempty⟩ := List.mem_map.1 hmem
    obtain rfl : piece = [] := by simpa using congrArg String.toList hempty
    exact h.components hpiece
  rw [filePath, hpath]
  intro hmem
  rcases List.mem_append.1 hmem with hfront | hlast
  · exact hcomponents (by simp [hinternal, hfront])
  · have hlength := congrArg String.length (List.mem_singleton.1 hlast)
    have hsuffix : fileSuffix.length = 6 := by decide
    rw [String.length_append, hsuffix] at hlength
    simp at hlength

/-- What is left of the path of a class file when the root is taken off. -/
theorem IsDotted.relativeTo?_join (h : IsDotted name) (root : String) :
    Path.relativeTo? root (Path.join root (filePath name)) =
      some ((Path.pieces (filePath name)).map .name) := by
  have hplain : Path.IsPlain (filePath name) := isPlain_filePath_iff.2 h.not_rooted
  have hnames : (Path.pieces (filePath name)).filterMap Path.innerPart? =
      (Path.pieces (filePath name)).map .name := by
    rw [Path.filterMap_innerPart? hplain.not_here hplain.not_up, List.filter_eq_self.2]
    intro piece hpiece
    have hne : piece ≠ "" := fun hempty => h.empty_not_mem_pieces (hempty ▸ hpiece)
    simpa using hne
  have hparts : Path.parts (Path.join root (filePath name)) =
      Path.parts root ++ (Path.pieces (filePath name)).map .name := by
    rw [Path.parts_join_of_relative root hplain.relative ?_, hnames]
    rintro piece hpiece rfl
    exact hplain.not_here (List.mem_of_mem_head? hpiece)
  rw [Path.relativeTo?, hparts]
  simp

/-- The form with slashes has no dots left to replace. -/
theorem filePath_internal (name : String) : filePath (internal name) = filePath name := by
  have hself : internal (internal name) = internal name := by
    rw [internal_eq_self_iff, internal, String.toList_ofList]
    exact Text.dot_not_mem_slashed _
  rw [filePath, hself, filePath]

end ClassName

/-! ## Locations -/

namespace ClassFileRef

open ClassName

/-- The pieces of the path of a class file suggest the name of the class. -/
theorem internalNameOf_pieces (name : String) :
    internalNameOf ((Path.pieces (filePath name)).map .name) = internal name := by
  have htexts : ((Path.pieces (filePath name)).map Path.Part.name).map Path.Part.text =
      Path.pieces (filePath name) := by
    simp [Function.comp_def, Path.Part.text]
  have hstem : Text.stripEnd? fileSuffix.toList (filePath name).toList =
      some (internal name).toList := by
    rw [Text.stripEnd?_eq_some_iff, filePath, String.toList_append]
  simp only [internalNameOf, htexts, Path.intercalate_pieces, hstem, String.ofList_toList]

/-- **Names and locations correspond.**  The file of a class below any root suggests the name of the
class, with dots and with slashes, and is looked for in the same place by either. -/
theorem ofPath_join_filePath (root : String) {name : String} (h : IsDotted name) :
    ofPath root (Path.join root (filePath name)) =
      { name, internalName := internal name, path := Path.join root (filePath name) } ∧
    filePath (internal name) = filePath name := by
  have hinternal : internalNameOf ((Path.relativeTo? root (Path.join root (filePath name))).getD
      (Path.parts (Path.join root (filePath name)))) = internal name := by
    rw [h.relativeTo?_join root, Option.getD_some, internalNameOf_pieces]
  have hname : String.ofList (Text.dotted (internal name).toList) = name := by
    rw [internal, String.toList_ofList, Text.dotted_slashed h.slashless, String.ofList_toList]
  refine ⟨?_, filePath_internal name⟩
  simp only [ofPath, hinternal, hname]

/-- A component may be called like the ending of class files, and the path of the root may have
doubled slashes and dots. -/
theorem ofPath_join_filePath_classClass : ClassName.IsDotted "com.class.class" ∧
    ofPath "./build//classes/." "./build//classes/./com/class/class.class" =
      { name := "com.class.class"
        internalName := "com/class/class"
        path := "./build//classes/./com/class/class.class" } ∧
    filePath "com/class/class" = filePath "com.class.class" := by
  have hdotted : IsDotted "com.class.class" := by decide +kernel
  have hpath : Path.join "./build//classes/." (filePath "com.class.class") =
      "./build//classes/./com/class/class.class" := by decide +kernel
  have hinternal : internal "com.class.class" = "com/class/class" := by decide +kernel
  have h := ofPath_join_filePath "./build//classes/." hdotted
  rw [hpath, hinternal] at h
  exact ⟨hdotted, h⟩

end ClassFileRef

end FiberWeave
