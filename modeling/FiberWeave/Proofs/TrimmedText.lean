import FiberWeave.Text.Blank
import FiberWeave.Text.Cut
import Mathlib.Data.List.Basic

/-!
# Text between blanks, and around a mark

* `Text.Unpadded` — a text with no blank at either end; `trim_eq_iff` — trimming takes a text out of
  the blanks around it, and there is only one way to do so.
* `Text.slashed_trim` — trimming and turning dots into slashes do not get in each other's way.
* `Text.cutLast?_eq_some_iff` — the last occurrence of a mark is the one with no other behind it.
-/

namespace FiberWeave.Text

/-! ## Outer blanks -/

/-- No blank stands at either end of a text. -/
structure Unpadded (cs : List Char) : Prop where
  front : ∀ c ∈ cs.head?, isBlank c = false
  back : ∀ c ∈ cs.getLast?, isBlank c = false

instance (cs : List Char) : Decidable (Unpadded cs) :=
  decidable_of_iff ((cs.head?.any isBlank) = false ∧ (cs.getLast?.any isBlank) = false) (by
    rw [Option.any_eq_false, Option.any_eq_false]
    exact ⟨fun h => ⟨h.1, h.2⟩, fun h => ⟨h.front, h.back⟩⟩)

theorem Unpadded.reverse {cs : List Char} (h : Unpadded cs) : Unpadded cs.reverse where
  front c hc := h.back c (by rwa [List.head?_reverse] at hc)
  back c hc := h.front c (by rwa [List.getLast?_reverse] at hc)

/-- A blank text is no obstacle in front of another one. -/
theorem trimStart_append {before : List Char} (h : isBlankText before = true) (cs : List Char) :
    trimStart (before ++ cs) = trimStart cs := by
  induction before with
  | nil => rfl
  | cons c before ih =>
      obtain ⟨hc, hbefore⟩ : isBlank c = true ∧ isBlankText before = true := by
        simpa [isBlankText] using h
      rw [List.cons_append, trimStart, List.dropWhile_cons, if_pos hc]
      exact ih hbefore

/-- There is nothing to take off a text that does not begin with a blank. -/
theorem trimStart_of_front {cs : List Char} (h : ∀ c ∈ cs.head?, isBlank c = false) :
    trimStart cs = cs := by
  cases cs with
  | nil => rfl
  | cons c rest =>
      rw [trimStart, List.dropWhile_cons, if_neg]
      simpa using h c rfl

theorem exists_trimStart (cs : List Char) :
    ∃ before, isBlankText before = true ∧ cs = before ++ trimStart cs :=
  ⟨cs.takeWhile isBlank, List.all_takeWhile, List.takeWhile_append_dropWhile.symm⟩

theorem front_trimStart (cs : List Char) : ∀ c ∈ (trimStart cs).head?, isBlank c = false := by
  intro c hc
  have hfirst := List.head?_dropWhile_not isBlank cs
  rw [trimStart, Option.mem_def] at hc
  rw [hc] at hfirst
  exact hfirst

theorem isBlankText_reverse (cs : List Char) : isBlankText cs.reverse = isBlankText cs :=
  List.all_reverse

/-- Taking the blanks off the end is taking them off the front of the reverse text. -/
theorem trimEnd_eq (cs : List Char) : trimEnd cs = (trimStart cs.reverse).reverse := rfl

theorem trim_padded {before core after : List Char} (hbefore : isBlankText before = true)
    (hafter : isBlankText after = true) (hcore : Unpadded core) :
    trim (before ++ core ++ after) = core := by
  have hend : isBlankText after.reverse = true := (isBlankText_reverse after).trans hafter
  rw [trim, List.append_assoc, trimStart_append hbefore]
  cases core with
  | nil =>
      rw [List.nil_append, (trimStart_eq_nil_iff after).2 hafter]
      rfl
  | cons c core =>
      have hfront : trimStart (c :: core ++ after) = c :: core ++ after :=
        trimStart_of_front fun d hd => hcore.front d hd
      rw [hfront, trimEnd_eq, List.reverse_append, trimStart_append hend,
        trimStart_of_front hcore.reverse.front, List.reverse_reverse]

theorem exists_trimEnd (cs : List Char) :
    ∃ after, isBlankText after = true ∧ cs = trimEnd cs ++ after := by
  obtain ⟨after, hafter, hback⟩ := exists_trimStart cs.reverse
  refine ⟨after.reverse, (isBlankText_reverse after).trans hafter, ?_⟩
  rw [trimEnd_eq, ← List.reverse_append, ← hback, List.reverse_reverse]

theorem exists_padding (cs : List Char) : ∃ before after, isBlankText before = true ∧
    isBlankText after = true ∧ cs = before ++ trim cs ++ after := by
  obtain ⟨before, hbefore, hfront⟩ := exists_trimStart cs
  obtain ⟨after, hafter, hback⟩ := exists_trimEnd (trimStart cs)
  refine ⟨before, after, hbefore, hafter, ?_⟩
  rw [List.append_assoc, trim, ← hback]
  exact hfront

theorem unpadded_trim (cs : List Char) : Unpadded (trim cs) where
  front c hc := by
    -- what is left begins like the text before its end was taken off
    obtain ⟨after, -, hback⟩ := exists_trimEnd (trimStart cs)
    refine front_trimStart cs c ?_
    rw [hback, Option.mem_def, List.head?_append, show (trimEnd (trimStart cs)).head? = some c from hc]
    rfl
  back c hc := by
    rw [trim, trimEnd_eq, List.getLast?_reverse] at hc
    exact front_trimStart _ c hc

/-- **Trimming takes a text out of the blanks around it.** -/
theorem trim_eq_iff {cs core : List Char} : trim cs = core ↔ Unpadded core ∧
    ∃ before after, isBlankText before = true ∧ isBlankText after = true ∧
      cs = before ++ core ++ after := by
  constructor
  · rintro rfl
    exact ⟨unpadded_trim cs, exists_padding cs⟩
  · rintro ⟨hcore, before, after, hbefore, hafter, rfl⟩
    exact trim_padded hbefore hafter hcore

/-- Blanks behind a text are taken off with its own. -/
theorem trim_append {after : List Char} (h : isBlankText after = true) (cs : List Char) :
    trim (cs ++ after) = trim cs := by
  obtain ⟨before, back, hbefore, hback, hcs⟩ := exists_padding cs
  refine trim_eq_iff.2 ⟨unpadded_trim cs, before, back ++ after, hbefore, ?_, ?_⟩
  · rw [isBlankText, List.all_append]
    exact Bool.and_eq_true_iff.2 ⟨hback, h⟩
  · rw [← List.append_assoc, ← hcs]

theorem trim_eq_nil_iff (cs : List Char) : trim cs = [] ↔ isBlankText cs = true := by
  constructor
  · intro h
    obtain ⟨before, after, hbefore, hafter, hcs⟩ := exists_padding cs
    rw [hcs, h, List.append_nil, isBlankText, List.all_append]
    exact Bool.and_eq_true_iff.2 ⟨hbefore, hafter⟩
  · intro h
    rw [trim, (trimStart_eq_nil_iff cs).2 h]
    rfl

/-! ## Dots and slashes -/

/-- A slash for a dot, and any other character as it is. -/
theorem isBlank_slash (c : Char) : isBlank (if c = '.' then '/' else c) = isBlank c := by
  by_cases hc : c = '.'
  · subst hc
    decide
  · rw [if_neg hc]

theorem trimStart_slashed (cs : List Char) : trimStart (slashed cs) = slashed (trimStart cs) := by
  have hblank : (isBlank ∘ fun c : Char => if c = '.' then '/' else c) = isBlank :=
    funext isBlank_slash
  rw [trimStart, slashed, List.dropWhile_map, hblank]
  rfl

theorem slashed_reverse (cs : List Char) : slashed cs.reverse = (slashed cs).reverse :=
  List.map_reverse

/-- **Trimming and turning dots into slashes** can be done in either order. -/
theorem slashed_trim (cs : List Char) : slashed (trim cs) = trim (slashed cs) := by
  rw [trim, trim, trimStart_slashed, trimEnd_eq, trimEnd_eq, slashed_reverse, ← trimStart_slashed,
    slashed_reverse]

/-- Neither dots nor slashes are blank, so that text is blank with the ones if it is with the
others. -/
theorem isBlankText_slashed (cs : List Char) : isBlankText (slashed cs) = isBlankText cs := by
  rw [isBlankText, slashed, List.all_map]
  exact congrArg cs.all (funext isBlank_slash)

theorem slashed_eq_nil_iff {cs : List Char} : slashed cs = [] ↔ cs = [] := List.map_eq_nil_iff

/-! ## The last occurrence of a mark -/

theorem cutLast?_eq_none_iff {mark : Char} {cs : List Char} :
    cutLast? mark cs = none ↔ mark ∉ cs := by
  induction cs with
  | nil => simp [cutLast?]
  | cons c rest ih =>
      rw [cutLast?]
      cases hrest : cutLast? mark rest with
      | some sides =>
          have hmem : mark ∈ rest := by
            by_contra hnot
            simp [ih.2 hnot] at hrest
          simp [hmem]
      | none =>
          have hnot := ih.1 hrest
          by_cases hc : c = mark
          · simp [hc]
          · simp [hc, hnot, Ne.symm hc]

/-- **The last mark of a text** is the one that no other follows. -/
theorem cutLast?_eq_some_iff {mark : Char} {cs before after : List Char} :
    cutLast? mark cs = some (before, after) ↔ cs = before ++ mark :: after ∧ mark ∉ after := by
  induction cs generalizing before with
  | nil => simp [cutLast?]
  | cons c rest ih =>
      rw [cutLast?]
      cases hrest : cutLast? mark rest with
      | some sides =>
          obtain ⟨front, back⟩ := sides
          constructor
          · intro h
            obtain ⟨rfl, rfl⟩ := Prod.mk.inj (Option.some.inj h)
            obtain ⟨rfl, hafter⟩ := ih.1 hrest
            exact ⟨rfl, hafter⟩
          · rintro ⟨hcs, hafter⟩
            cases before with
            | nil =>
                obtain ⟨rfl, rfl⟩ := List.cons.inj hcs
                rw [cutLast?_eq_none_iff.2 hafter] at hrest
                cases hrest
            | cons d before =>
                obtain ⟨rfl, htail⟩ := List.cons.inj hcs
                obtain ⟨rfl, rfl⟩ := Prod.mk.inj
                  (Option.some.inj (hrest.symm.trans (ih.2 ⟨htail, hafter⟩)))
                rfl
      | none =>
          have hnot := cutLast?_eq_none_iff.1 hrest
          constructor
          · intro h
            by_cases hc : c = mark
            · rw [if_pos hc] at h
              obtain ⟨rfl, rfl⟩ := Prod.mk.inj (Option.some.inj h)
              exact ⟨by rw [hc]; rfl, hnot⟩
            · rw [if_neg hc] at h
              cases h
          · rintro ⟨hcs, hafter⟩
            cases before with
            | nil =>
                obtain ⟨rfl, rfl⟩ := List.cons.inj hcs
                exact if_pos rfl
            | cons d before =>
                obtain ⟨rfl, rfl⟩ := List.cons.inj hcs
                exact absurd (by simp) hnot

end FiberWeave.Text
