/-!
# Cutting text

* `stripStart?`, `stripEnd?` — a text without a given beginning or end.
* `occursIn` — whether one text is part of another.
* `cutFirst?`, `cutLast?` — the two sides of the first or last occurrence of a character.
* `slashed`, `dotted` — a name with its dots turned into slashes, and the reverse.
* `splitOn` — the pieces between the occurrences of a character; `splitOn_append` says what a longer
  text does to them.
-/

namespace FiberWeave.Text

/-- What follows `start`, if the text begins with it. -/
def stripStart? : (start text : List Char) → Option (List Char)
  | [], text => some text
  | _ :: _, [] => none
  | a :: start, c :: text => if a = c then stripStart? start text else none

theorem stripStart?_eq_some_iff {start text rest : List Char} :
    stripStart? start text = some rest ↔ text = start ++ rest := by
  induction start generalizing text with
  | nil => simp [stripStart?, eq_comm]
  | cons a start ih =>
      cases text with
      | nil => simp [stripStart?]
      | cons c text =>
          by_cases h : a = c
          · subst h
            simp [stripStart?, ih]
          · simp [stripStart?, h, Ne.symm h]

/-- What stands before `ending`, if the text ends with it. -/
def stripEnd? (ending text : List Char) : Option (List Char) :=
  (stripStart? ending.reverse text.reverse).map List.reverse

theorem stripEnd?_eq_some_iff {ending text rest : List Char} :
    stripEnd? ending text = some rest ↔ text = rest ++ ending := by
  simp only [stripEnd?, Option.map_eq_some_iff, stripStart?_eq_some_iff]
  constructor
  · rintro ⟨r, hr, rfl⟩
    have := congrArg List.reverse hr
    simpa using this
  · rintro rfl
    exact ⟨rest.reverse, by simp, by simp⟩

/-- Whether `part` occurs in a text without a gap. -/
def occursIn (part : List Char) : List Char → Bool
  | [] => part.isEmpty
  | c :: rest => part.isPrefixOf (c :: rest) || occursIn part rest

theorem occursIn_iff {part text : List Char} : occursIn part text = true ↔ part <:+: text := by
  induction text with
  | nil => simp [occursIn, List.infix_nil]
  | cons c rest ih =>
      rw [occursIn, Bool.or_eq_true, List.isPrefixOf_iff_prefix, ih, List.infix_cons_iff]

/-- The two sides of the first `mark` of a text. -/
def cutFirst? (mark : Char) : List Char → Option (List Char × List Char)
  | [] => none
  | c :: rest =>
      if c = mark then some ([], rest)
      else (cutFirst? mark rest).map fun (before, after) => (c :: before, after)

/-- The two sides of the last `mark` of a text. -/
def cutLast? (mark : Char) : List Char → Option (List Char × List Char)
  | [] => none
  | c :: rest =>
      match cutLast? mark rest with
      | some (before, after) => some (c :: before, after)
      | none => if c = mark then some ([], rest) else none

/-- The pieces of a text between the occurrences of `mark`; there is always at least one. -/
def splitOn (mark : Char) : List Char → List (List Char)
  | [] => [[]]
  | c :: rest =>
      if c = mark then [] :: splitOn mark rest
      else
        match splitOn mark rest with
        | [] => [[c]]
        | piece :: later => (c :: piece) :: later

theorem splitOn_of_not_mem {mark : Char} {cs : List Char} (h : mark ∉ cs) :
    splitOn mark cs = [cs] := by
  induction cs with
  | nil => rfl
  | cons c rest ih =>
      have hc : c ≠ mark := fun e => h (by simp [e])
      have hr : mark ∉ rest := fun e => h (by simp [e])
      simp [splitOn, hc, ih hr]

/-- What is put behind a text makes its last piece longer, unless it has a mark itself. -/
theorem splitOn_append {mark : Char} {tail : List Char} (h : mark ∉ tail) (cs : List Char) :
    ∃ front last, splitOn mark cs = front ++ [last] ∧
      splitOn mark (cs ++ tail) = front ++ [last ++ tail] := by
  induction cs with
  | nil => exact ⟨[], [], rfl, splitOn_of_not_mem h⟩
  | cons c rest ih =>
      obtain ⟨front, last, hrest, happend⟩ := ih
      by_cases hc : c = mark
      · refine ⟨[] :: front, last, ?_, ?_⟩
        · simp [splitOn, hc, hrest]
        · simp [splitOn, hc, happend]
      · cases front with
        | nil =>
            refine ⟨[], c :: last, ?_, ?_⟩
            · simp [splitOn, hc, hrest]
            · simp [splitOn, hc, happend]
        | cons piece front =>
            refine ⟨(c :: piece) :: front, last, ?_, ?_⟩
            · simp [splitOn, hc, hrest]
            · simp [splitOn, hc, happend]

/-- Every dot replaced by a slash. -/
def slashed (cs : List Char) : List Char := cs.map fun c => if c = '.' then '/' else c

/-- Every slash replaced by a dot. -/
def dotted (cs : List Char) : List Char := cs.map fun c => if c = '/' then '.' else c

/-- A text without a dot stays as it is. -/
theorem slashed_of_not_mem {cs : List Char} (h : '.' ∉ cs) : slashed cs = cs := by
  induction cs with
  | nil => rfl
  | cons c rest ih =>
      have hc : c ≠ '.' := fun e => h (by simp [e])
      have hr : '.' ∉ rest := fun e => h (by simp [e])
      have := ih hr
      simp only [slashed] at this ⊢
      simp [hc, this]

/-- No dot is left. -/
theorem dot_not_mem_slashed (cs : List Char) : '.' ∉ slashed cs := by
  intro h
  obtain ⟨c, _, hc⟩ := List.mem_map.1 h
  split at hc
  · cases hc
  · rename_i hdot
    exact hdot hc

end FiberWeave.Text
