/-!
# Lines

A line ends with a line feed, or with a carriage return and a line feed. Neither belongs to the
line. What follows the last line feed is a line too, unless it is empty; a carriage return at its
end belongs to it.

* `lines` — the lines of a text.
-/

namespace FiberWeave.Text

/-- The lines of a text, without the characters that end them. -/
def lines : List Char → List (List Char)
  | [] => []
  | '\n' :: rest => [] :: lines rest
  | '\r' :: '\n' :: rest => [] :: lines rest
  | c :: rest =>
      match lines rest with
      | [] => [[c]]
      | line :: later => (c :: line) :: later

/-- A line feed at the front ends an empty line. -/
theorem lines_newline (rest : List Char) : lines ('\n' :: rest) = [] :: lines rest := by
  simp [lines]

/-- A text without a line feed is a single line. -/
theorem lines_of_not_mem (cs : List Char) (hne : cs ≠ []) (h : '\n' ∉ cs) : lines cs = [cs] := by
  induction cs with
  | nil => exact absurd rfl hne
  | cons c rest ih =>
      have hc : c ≠ '\n' := fun e => h (by simp [e])
      have hr : '\n' ∉ rest := fun e => h (by simp [e])
      rw [lines]
      · cases rest with
        | nil => simp [lines]
        | cons d rest => rw [ih (by simp) hr]
      · exact hc
      · rintro rest' - rfl
        exact hr (by simp)

end FiberWeave.Text
