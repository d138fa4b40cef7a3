import FiberWeave.Proofs.Locations
import Mathlib.Data.List.Perm.Basic

/-!
# Sorting paths

Paths are sorted by their parts.  Paths below one directory have different parts, so there is only
one way of sorting them.

* `Path.parts_join_of_relative`, `FileTree.parts_pathBelow` — what is put behind a path adds its own
  parts, and a name is one part.
* `Path.compareParts_eq` — parts are compared as a lexicographic order compares them.
* **`Path.sort_perm`** — in whatever order paths with different parts are given, they are sorted the
  same way.
-/

namespace FiberWeave

/-! ## The parts of a longer path -/

/-- The pieces of two texts with a mark between them are those of both. -/
theorem Text.splitOn_append_mark (mark : Char) (cs rest : List Char) :
    splitOn mark (cs ++ mark :: rest) = splitOn mark cs ++ splitOn mark rest := by
  induction cs with
  | nil => simp [splitOn]
  | cons c cs ih =>
      by_cases hc : c = mark
      · simp [splitOn, hc, ih]
      · obtain ⟨front, last, hpieces, _⟩ := splitOn_append (show mark ∉ [] by simp) cs
        cases front with
        | nil => simp_all [splitOn]
        | cons piece front => simp_all [splitOn]

namespace Path

open FileTree (IsName)

variable {base name : String}

theorem pieces_append_slash (base tail : String) :
    pieces (base ++ "/" ++ tail) = pieces base ++ pieces tail := by
  have htexts : (base ++ "/" ++ tail).toList = base.toList ++ '/' :: tail.toList := by
    simp [String.toList_append]
  rw [pieces, htexts, Text.splitOn_append_mark, List.map_append]
  rfl

theorem pieces_eq_cons (path : String) : ∃ first later, pieces path = first :: later := by
  obtain ⟨front, last, hpieces⟩ := pieces_eq_concat path
  exact List.exists_cons_of_ne_nil (by simp [hpieces])

theorem pieces_of_isName (hname : IsName name) : pieces name = [name] := by
  rw [pieces, Text.splitOn_of_not_mem hname.slash]
  simp [String.ofList_toList]

theorem isAbsolute_append (hbase : base ≠ "") (tail : String) :
    isAbsolute (base ++ tail) = isAbsolute base := by
  have hne : base.toList ≠ [] := fun hnil => hbase (String.toList_inj.1 (by simpa using hnil))
  rw [isAbsolute, isAbsolute, String.toList_append, List.head?_append_of_ne_nil _ hne]

theorem innerPart?_of_isName (hname : IsName name) : innerPart? name = some (.name name) := by
  simp [innerPart?, hname.not_inert, hname.ne_up]

/-- A longer path has the parts that its later pieces add. -/
theorem parts_of_pieces {path longer first : String} {later more : List String}
    (hpath : pieces path = first :: later) (hlonger : pieces longer = first :: more)
    (hroot : isAbsolute longer = isAbsolute path) {new : List Part}
    (hnew : more.filterMap innerPart? = later.filterMap innerPart? ++ new) :
    parts longer = parts path ++ new := by
  rw [parts, parts, hpath, hlonger]
  simp only [hroot, hnew, List.append_assoc]

/-- A text that stands alone has the parts of its pieces, unless it begins with an inner dot. -/
theorem parts_of_relative {tail : String} (hrelative : isAbsolute tail = false)
    (hhere : ∀ piece ∈ (pieces tail).head?, piece ≠ ".") :
    parts tail = (pieces tail).filterMap innerPart? := by
  obtain ⟨first, later, hcons⟩ := pieces_eq_cons tail
  have hfirst : first ≠ "." := hhere first (by rw [hcons]; rfl)
  rw [parts, hcons]
  cases hpart : innerPart? first <;> simp [hrelative, hfirst, hpart]

/-- **What is put behind a path adds its own parts.** -/
theorem parts_join_of_relative (base : String) {tail : String} (hrelative : isAbsolute tail = false)
    (hhere : ∀ piece ∈ (pieces tail).head?, piece ≠ ".") :
    parts (join base tail) = parts base ++ (pieces tail).filterMap innerPart? := by
  unfold join
  rw [hrelative]
  by_cases hempty : base = ""
  · have hnone : parts "" = [] := rfl
    simpa [hempty, hnone] using parts_of_relative hrelative hhere
  · have hisEmpty : base.isEmpty = false := by simpa using hempty
    by_cases hslash : base.toList.getLast? = some '/'
    · -- the last piece of such a path is empty, and the first new one takes its place
      obtain ⟨front, hfront⟩ := List.getLast?_eq_some_iff.1 hslash
      obtain rfl : base = String.ofList front ++ "/" := by
        rw [← String.toList_inj, hfront]
        simp [String.toList_append]
      obtain ⟨first, later, hcons⟩ := pieces_eq_cons (String.ofList front)
      have hbase : pieces (String.ofList front ++ "/") = first :: (later ++ [""]) := by
        have hpieces := pieces_append_slash (String.ofList front) ""
        rwa [String.append_empty, hcons] at hpieces
      have hlonger : pieces (String.ofList front ++ "/" ++ tail) =
          first :: (later ++ pieces tail) := by
        rw [pieces_append_slash, hcons, List.cons_append]
      have hinert : innerPart? "" = none := rfl
      simp only [hisEmpty, hslash, beq_self_eq_true, Bool.or_true, if_true, Bool.false_eq_true,
        if_false]
      exact parts_of_pieces hbase hlonger (isAbsolute_append hempty tail)
        (by simp [List.filterMap_append, hinert])
    · obtain ⟨first, later, hcons⟩ := pieces_eq_cons base
      have hlonger : pieces (base ++ "/" ++ tail) = first :: (later ++ pieces tail) := by
        rw [pieces_append_slash, hcons, List.cons_append]
      have hroot : isAbsolute (base ++ "/" ++ tail) = isAbsolute base := by
        rw [String.append_assoc, isAbsolute_append hempty]
      have hslash' : (base.toList.getLast? == some '/') = false := by simpa using hslash
      simp only [hisEmpty, hslash', Bool.or_self, Bool.false_eq_true, if_false]
      exact parts_of_pieces hcons hlonger hroot List.filterMap_append

/-- A name put behind a path is one more part. -/
theorem parts_join (base : String) (hname : IsName name) :
    parts (join base name) = parts base ++ [.name name] := by
  have hhere : ∀ piece ∈ (pieces name).head?, piece ≠ "." := by
    rw [pieces_of_isName hname]
    rintro _ ⟨⟩ rfl
    exact absurd hname.not_inert (by decide)
  rw [parts_join_of_relative base hname.not_absolute hhere, pieces_of_isName hname,
    List.filterMap_cons, innerPart?_of_isName hname, List.filterMap_nil]

end Path

namespace FileTree

theorem parts_pathBelow (base : String) {names : List String} (h : ∀ name ∈ names, IsName name) :
    Path.parts (pathBelow base names) = Path.parts base ++ names.map .name := by
  induction names generalizing base with
  | nil => simp [pathBelow]
  | cons name rest ih =>
      have hrest := ih (Path.join base name) fun n hn => h n (List.mem_cons_of_mem _ hn)
      rw [pathBelow] at hrest
      rw [pathBelow, List.foldl_cons, hrest, Path.parts_join base (h name List.mem_cons_self)]
      simp

/-- Different names below one directory have different paths. -/
theorem pathBelow_injective {base : String} {names names' : List String}
    (h : ∀ name ∈ names, IsName name) (h' : ∀ name ∈ names', IsName name)
    (hparts : Path.parts (pathBelow base names) = Path.parts (pathBelow base names')) :
    names = names' := by
  rw [parts_pathBelow base h, parts_pathBelow base h'] at hparts
  exact List.map_injective_iff.2 (fun _ _ h => Path.Part.name.inj h)
    (List.append_cancel_left hparts)

end FileTree

/-! ## The order of paths -/

namespace Path

instance : Std.TransCmp Part.compare :=
  inferInstanceAs (Std.TransCmp (compareLex (compareOn Part.rank) (compareOn Part.text)))

instance : Std.LawfulEqCmp Part.compare where
  eq_of_compare := by
    intro a b h
    have hboth : Ord.compare a.rank b.rank = .eq ∧ Ord.compare a.text b.text = .eq := by
      simpa [Part.compare, Ordering.then_eq_eq] using h
    have hrank : a.rank = b.rank := Std.LawfulEqCmp.eq_of_compare hboth.1
    have htext : a.text = b.text := Std.LawfulEqCmp.eq_of_compare hboth.2
    cases a <;> cases b <;> simp_all [Part.rank, Part.text]

/-- Parts are compared as a lexicographic order compares them. -/
theorem compareParts_eq (as bs : List Part) :
    compareParts as bs = List.compareLex Part.compare as bs := by
  fun_induction compareParts as bs with
  | case1 => rfl
  | case2 => rfl
  | case3 => rfl
  | case4 a as b bs ih =>
      rw [List.compareLex_cons_cons, ih]

/-- Whether a path comes before another one, or has the same parts. -/
def upTo (a b : String) : Bool := compareParts (parts a) (parts b) != .gt

theorem upTo_eq (a b : String) :
    upTo a b = (List.compareLex Part.compare (parts a) (parts b)).isLE := by
  rw [upTo, compareParts_eq]
  cases List.compareLex Part.compare (parts a) (parts b) <;> rfl

theorem upTo_trans (a b c : String) (hab : upTo a b = true) (hbc : upTo b c = true) :
    upTo a c = true := by
  rw [upTo_eq] at *
  exact Std.TransCmp.isLE_trans hab hbc

theorem upTo_total (a b : String) : (upTo a b || upTo b a) = true := by
  have hswap : List.compareLex Part.compare (parts b) (parts a) =
      (List.compareLex Part.compare (parts a) (parts b)).swap := Std.OrientedCmp.eq_swap
  rw [upTo_eq, upTo_eq, hswap]
  cases List.compareLex Part.compare (parts a) (parts b) <;> rfl

theorem parts_eq_of_upTo {a b : String} (hab : upTo a b = true) (hba : upTo b a = true) :
    parts a = parts b := by
  rw [upTo_eq] at hab hba
  exact Std.LawfulEqCmp.eq_of_compare (Std.OrientedCmp.isLE_antisymm hab hba)

theorem pairwise_sort (paths : List String) :
    (sort paths).Pairwise fun a b => upTo a b = true :=
  List.pairwise_mergeSort upTo_trans upTo_total paths

theorem sort_perm_self (paths : List String) : (sort paths).Perm paths :=
  List.mergeSort_perm paths upTo

/-- **Paths with different parts are sorted the same way**, in whatever order they are given. -/
theorem sort_perm {paths paths' : List String} (h : paths'.Perm paths)
    (hparts : ∀ a ∈ paths, ∀ b ∈ paths, parts a = parts b → a = b) : sort paths' = sort paths := by
  have hsame : (sort paths').Perm (sort paths) :=
    ((sort_perm_self paths').trans h).trans (sort_perm_self paths).symm
  refine List.Perm.eq_of_pairwise ?_ (pairwise_sort paths') (pairwise_sort paths) hsame
  intro a b ha hb hab hba
  have ha : a ∈ paths := h.subset ((sort_perm_self paths').subset ha)
  have hb : b ∈ paths := (sort_perm_self paths).subset hb
  exact hparts a ha b hb (parts_eq_of_upTo hab hba)

end Path

end FiberWeave
