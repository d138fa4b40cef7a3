import FiberWeave.Engine.Command

/-!
# What an engine says

The lines on the standard error of an engine are messages, one for each line that is not blank.

* `Text.IsLines` — the ways in which a text is put together from lines; `lines_eq_iff`: there is one,
  and it is found.
* `Says` — what a line says, and at which level; `says_iff`: this is read.
* `Tells`, `tells_iff` — the messages in a text, line by line.
* `IsLastWord`, `isLastWord_iff` — the text of the last one.
-/

namespace FiberWeave

namespace Text

/-! ## Lines -/

/-- A text that consists of these lines. -/
inductive IsLines : (text : List Char) → (lines : List (List Char)) → Prop
  | none : IsLines [] []
  /-- The end of a text need not end with a line feed. -/
  | unended {line : List Char} (hne : line ≠ []) (h : '\n' ∉ line) : IsLines line [line]
  | fed {line text : List Char} {later : List (List Char)} (h : '\n' ∉ line)
      (hreturn : line.getLast? ≠ some '\r') (hlater : IsLines text later) :
      IsLines (line ++ '\n' :: text) (line :: later)
  | returned {line text : List Char} {later : List (List Char)} (h : '\n' ∉ line)
      (hlater : IsLines text later) : IsLines (line ++ '\r' :: '\n' :: text) (line :: later)

/-- A character in front of a line belongs to it, unless it ends a line together with what follows. -/
theorem IsLines.cons {c : Char} {text line : List Char} {later : List (List Char)}
    (h : IsLines text (line :: later)) (hfeed : c ≠ '\n')
    (hreturn : ∀ rest, c = '\r' → text ≠ '\n' :: rest) :
    IsLines (c :: text) ((c :: line) :: later) := by
  have hline : '\n' ∉ line → '\n' ∉ c :: line := by
    intro hnot hmem
    rcases List.mem_cons.1 hmem with heq | hmem
    · exact hfeed heq.symm
    · exact hnot hmem
  cases h with
  | unended hne h => exact .unended (List.cons_ne_nil _ _) (hline h)
  | returned h hlater => exact (hlater.returned (hline h) :)
  | fed h hlast hlater =>
      refine hlater.fed (hline h) ?_
      cases line with
      | nil =>
          intro heq
          exact hreturn _ (by simpa using heq) rfl
      | cons d line => simpa using hlast

theorem isLines_lines (text : List Char) : IsLines text (lines text) := by
  fun_induction lines text with
  | case1 => exact .none
  | case2 rest ih => exact ih.fed List.not_mem_nil nofun
  | case3 rest ih => exact ih.returned List.not_mem_nil
  | case4 c rest hfeed hreturn hrest ih =>
      rw [hrest] at ih
      cases ih with
      | none => exact .unended (List.cons_ne_nil _ _) (by simpa using Ne.symm hfeed)
  | case5 c rest hfeed hreturn line later hrest ih =>
      rw [hrest] at ih
      exact ih.cons hfeed hreturn

theorem lines_cons {c : Char} {text line : List Char} {later : List (List Char)}
    (h : lines text = line :: later) (hfeed : c ≠ '\n')
    (hreturn : ∀ rest, c = '\r' → text ≠ '\n' :: rest) :
    lines (c :: text) = (c :: line) :: later := by
  rw [lines, h]
  · exact hfeed
  · exact hreturn

theorem lines_fed {line : List Char} (h : '\n' ∉ line) (hreturn : line.getLast? ≠ some '\r')
    (text : List Char) : lines (line ++ '\n' :: text) = line :: lines text := by
  induction line with
  | nil => exact lines_newline text
  | cons c line ih =>
      have hlast : line.getLast? ≠ some '\r' := by
        intro heq
        exact hreturn (by rw [List.getLast?_cons, heq]; rfl)
      refine lines_cons (ih (fun hmem => h (.tail _ hmem)) hlast) (fun hc => h (by simp [hc])) ?_
      rintro rest rfl heq
      cases line with
      | nil => exact hreturn rfl
      | cons d line => exact h (by simp [(List.cons.inj heq).1])

theorem lines_returned {line : List Char} (h : '\n' ∉ line) (text : List Char) :
    lines (line ++ '\r' :: '\n' :: text) = line :: lines text := by
  induction line with
  | nil => simp [lines]
  | cons c line ih =>
      refine lines_cons (ih fun hmem => h (.tail _ hmem)) (fun hc => h (by simp [hc])) ?_
      rintro rest rfl heq
      cases line with
      | nil => cases heq
      | cons d line => exact h (by simp [(List.cons.inj heq).1])

/-- A text consists of lines in one way, and these are its lines. -/
theorem lines_eq_iff {text : List Char} {ls : List (List Char)} :
    lines text = ls ↔ IsLines text ls := by
  constructor
  · rintro rfl
    exact isLines_lines text
  · intro h
    induction h with
    | none => rw [lines]
    | unended hne h => exact lines_of_not_mem _ hne h
    | fed h hreturn _ ih => rw [lines_fed h hreturn, ih]
    | returned h _ ih => rw [lines_returned h, ih]

end Text

/-! ## Messages -/

/-- What a line says, and at which level. A line that does not begin with the name of a level and a
colon is a debug message as it stands; blanks behind such a beginning are no part of the message. -/
inductive Says (line : List Char) : Level → List Char → Prop
  | stated {marker : String} {level : Level} {rest : List Char}
      (hmarker : (marker, level) ∈ Level.markers) (hline : line = marker.toList ++ rest) :
      Says line level (Text.trimStart rest)
  | unstated (h : ∀ marker level, (marker, level) ∈ Level.markers → ¬marker.toList <+: line) :
      Says line .debug line

/-- A line states one level at most. -/
theorem marker_unique {marker marker' : String} {level level' : Level} {line : List Char}
    (h : (marker, level) ∈ Level.markers) (h' : (marker', level') ∈ Level.markers)
    (hline : marker.toList <+: line) (hline' : marker'.toList <+: line) :
    marker = marker' ∧ level = level' := by
  have hall : ∀ m ∈ Level.markers, ∀ m' ∈ Level.markers, m.1.toList.isPrefixOf m'.1.toList = true →
      m = m' := by decide +kernel
  rcases List.prefix_or_prefix_of_prefix hline hline' with hprefix | hprefix
  · exact Prod.mk.inj (hall _ h _ h' (List.isPrefixOf_iff_prefix.2 hprefix))
  · obtain ⟨rfl, rfl⟩ := Prod.mk.inj (hall _ h' _ h (List.isPrefixOf_iff_prefix.2 hprefix))
    exact ⟨rfl, rfl⟩

theorem says_parseLine (line : List Char) :
    Says line (Remark.parseLine line).1 (Remark.parseLine line).2 := by
  unfold Remark.parseLine
  cases hfound : Level.markers.findSome? fun m =>
      (Text.stripStart? m.1.toList line).map fun rest => (m.2, Text.trimStart rest) with
  | some stated =>
      obtain ⟨⟨marker, level⟩, hmarker, hstated⟩ := List.exists_of_findSome?_eq_some hfound
      obtain ⟨rest, hrest, rfl⟩ := Option.map_eq_some_iff.1 hstated
      exact .stated hmarker (Text.stripStart?_eq_some_iff.1 hrest)
  | none =>
      refine .unstated fun marker level hmarker hline => ?_
      obtain ⟨rest, rfl⟩ := hline
      have habsent := List.findSome?_eq_none_iff.1 hfound _ hmarker
      rw [Text.stripStart?_eq_some_iff.2 rfl] at habsent
      cases habsent

theorem Says.unique {line message message' : List Char} {level level' : Level}
    (h : Says line level message) (h' : Says line level' message') :
    level = level' ∧ message = message' := by
  cases h with
  | stated hmarker hline =>
      subst hline
      cases h' with
      | stated hmarker' hline' =>
          obtain ⟨rfl, rfl⟩ := marker_unique hmarker hmarker' (List.prefix_append _ _)
            ⟨_, hline'.symm⟩
          rw [List.append_cancel_left hline']
          exact ⟨rfl, rfl⟩
      | unstated hnone => exact absurd (List.prefix_append _ _) (hnone _ _ hmarker)
  | unstated hnone =>
      cases h' with
      | stated hmarker hline => exact absurd ⟨_, hline.symm⟩ (hnone _ _ hmarker)
      | unstated => exact ⟨rfl, rfl⟩

theorem says_iff {line message : List Char} {level : Level} :
    Says line level message ↔ Remark.parseLine line = (level, message) := by
  constructor
  · intro h
    obtain ⟨hlevel, hmessage⟩ := (says_parseLine line).unique h
    exact Prod.ext hlevel hmessage
  · intro h
    have hparse := says_parseLine line
    rwa [h] at hparse

/-! ## All messages, and the last one -/

/-- A line of which there is a message. -/
def HasText (line : List Char) : Prop := ∃ c ∈ line, Text.isBlank c = false

theorem not_isBlankText_iff (line : List Char) :
    (!Text.isBlankText line) = true ↔ HasText line := by
  simp [Text.isBlankText, HasText]

theorem filter_eq_nil_iff_blank {lines : List (List Char)} :
    (lines.filter fun line => !Text.isBlankText line) = [] ↔ ∀ line ∈ lines, ¬HasText line := by
  simp only [List.filter_eq_nil_iff, not_isBlankText_iff]

/-- These are the messages of lines, one for each line that is not blank, in their order. -/
inductive Tells : (lines : List (List Char)) → (remarks : List Remark) → Prop
  | none : Tells [] []
  | blank {line : List Char} {later : List (List Char)} {remarks : List Remark}
      (h : ¬HasText line) (hlater : Tells later remarks) : Tells (line :: later) remarks
  | one {line message : List Char} {later : List (List Char)} {level : Level}
      {remarks : List Remark} (h : HasText line) (hstates : Says line level message)
      (hlater : Tells later remarks) :
      Tells (line :: later) ({ level, text := String.ofList message } :: remarks)

/-- The text of the last message in these lines, trimmed, or no text if all lines are blank. -/
inductive IsLastWord (lines : List (List Char)) : (word : String) → Prop
  | none (h : ∀ line ∈ lines, ¬HasText line) : IsLastWord lines ""
  | last {before after : List (List Char)} {line message : List Char} {level : Level}
      (hlines : lines = before ++ line :: after) (h : HasText line)
      (hafter : ∀ later ∈ after, ¬HasText later) (hstates : Says line level message) :
      IsLastWord lines (String.ofList (Text.trim message))

theorem tells_ofText (text : List Char) : Tells (Text.lines text) (Remark.ofText text) := by
  unfold Remark.ofText
  induction Text.lines text with
  | nil => exact .none
  | cons line later ih =>
      by_cases h : HasText line
      · have hkept : (!Text.isBlankText line) = true := (not_isBlankText_iff line).2 h
        rw [List.filter_cons, if_pos hkept]
        exact .one h (says_parseLine line) ih
      · have hdropped : ¬(!Text.isBlankText line) = true := mt (not_isBlankText_iff line).1 h
        rw [List.filter_cons, if_neg hdropped]
        exact .blank h ih

theorem Tells.unique {lines : List (List Char)} {remarks remarks' : List Remark}
    (h : Tells lines remarks) (h' : Tells lines remarks') : remarks = remarks' := by
  induction h generalizing remarks' with
  | none =>
      cases h'
      rfl
  | blank hblank _ ih =>
      cases h' with
      | blank _ hlater => exact ih hlater
      | one htext => exact absurd htext hblank
  | one htext hstates _ ih =>
      cases h' with
      | blank hblank => exact absurd htext hblank
      | one _ hstates' hlater =>
          obtain ⟨rfl, rfl⟩ := hstates.unique hstates'
          rw [ih hlater]

theorem tells_iff {text : List Char} {remarks : List Remark} :
    Tells (Text.lines text) remarks ↔ Remark.ofText text = remarks := by
  constructor
  · exact (tells_ofText text).unique
  · rintro rfl
    exact tells_ofText text

theorem isLastWord_iff {errors : Bytes} {word : String} :
    IsLastWord (Text.lines (Text.Utf8.decodeLossy errors)) word ↔
      Launch.lastMessage errors = word := by
  unfold Launch.lastMessage
  dsimp only
  generalize Text.lines (Text.Utf8.decodeLossy errors) = lines
  constructor
  · intro h
    cases h with
    | none hblank =>
        rw [filter_eq_nil_iff_blank.2 hblank]
        rfl
    | @last before after line message level hlines htext hafter hstates =>
        have hkept : (!Text.isBlankText line) = true := (not_isBlankText_iff line).2 htext
        rw [hlines, List.filter_append, List.filter_cons, if_pos hkept,
          filter_eq_nil_iff_blank.2 hafter, List.getLast?_concat]
        dsimp only
        rw [says_iff.1 hstates]
  · rintro rfl
    cases hlast : (lines.filter fun line => !Text.isBlankText line).getLast? with
    | none => exact .none (filter_eq_nil_iff_blank.1 (List.getLast?_eq_none_iff.1 hlast))
    | some line =>
        -- the lines behind the last one that is kept are blank
        obtain ⟨kept, hkept⟩ := List.getLast?_eq_some_iff.1 hlast
        obtain ⟨before, behind, rfl, -, hbehind⟩ := List.filter_eq_append_iff.1 hkept
        obtain ⟨blanks, after, rfl, -, hline, hafter⟩ := List.filter_eq_cons_iff.1 hbehind
        exact .last (List.append_assoc before blanks (line :: after)).symm
          ((not_isBlankText_iff line).1 hline) (filter_eq_nil_iff_blank.1 hafter)
          (says_parseLine line)

end FiberWeave
