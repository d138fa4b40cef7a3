import FiberWeave.Json.Reader
import FiberWeave.Json.Value
import FiberWeave.FileTree.OsError
import Mathlib.Tactic.IntervalCases
import Mathlib.Tactic.SplitIfs

/-!
# Written texts are read back

* `Json.Denotes` — letters between quotes that stand for one character.  `denotes_escape`: what is
  written for a character stands for it.
* `Json.readText_quoted`, `Json.readList_texts` — a text, and a list of texts, are read back from
  what is written for them, whatever follows.
* `Json.readAll_texts` — and so is a list that is all there is.
-/

namespace FiberWeave.Json

/-! ## One character -/

/-- Letters between quotes that stand for one character: a backslash and what is behind it, or the
character itself. -/
inductive Denotes (c : Char) : List Char → Prop
  | escaped {letters : List Char} (h : ∀ rest, escaped (letters ++ rest) = .ok (c, rest)) :
      Denotes c ('\\' :: letters)
  | plain (quote : c ≠ '"') (backslash : c ≠ '\\') (control : ¬c.toNat < 0x20) : Denotes c [c]

/-- Control characters are written with four digits, of which the first two are zero. -/
theorem hexUnit_hexDigits : ∀ n < 0x20, ∀ rest : List Char,
    hexUnit ((hexDigits 4 n).toList ++ rest) = .ok (n, rest) := by
  have hdigits : ∀ n < 0x20, ∃ a b c d, (hexDigits 4 n).toList = [a, b, c, d] ∧
      hexUnit [a, b, c, d] = .ok (n, []) := by
    intro n hn
    interval_cases n <;> exact ⟨_, _, _, _, rfl, rfl⟩
  intro n hn rest
  obtain ⟨a, b, c, d, htext, hread⟩ := hdigits n hn
  rw [htext]
  simp only [hexUnit, List.cons_append, List.nil_append] at hread ⊢
  split at hread
  · simp_all
  · cases hread

/-- **What is written for a character** stands for it. -/
theorem denotes_escape (c : Char) : Denotes c (escape c).toList := by
  unfold escape
  split_ifs with hquote hbackslash hback hfeed hline hreturn htab hcontrol
  case pos => subst hquote; exact .escaped fun _ => rfl
  case pos => subst hbackslash; exact .escaped fun _ => rfl
  case pos => subst hback; exact .escaped fun _ => rfl
  case pos => subst hfeed; exact .escaped fun _ => rfl
  case pos => subst hline; exact .escaped fun _ => rfl
  case pos => subst hreturn; exact .escaped fun _ => rfl
  case pos => subst htab; exact .escaped fun _ => rfl
  case pos =>
    rw [String.toList_append]
    refine Denotes.escaped fun rest => ?_
    show escaped ('u' :: ((hexDigits 4 c.toNat).toList ++ rest)) = _
    have hsmall : ¬(0xDC00 ≤ c.toNat ∧ c.toNat < 0xE000) ∧
        ¬(0xD800 ≤ c.toNat ∧ c.toNat < 0xDC00) := by omega
    rw [escaped, hexChar, hexUnit_hexDigits _ hcontrol]
    simp only [Attempt.ok_bind, if_neg hsmall.1, if_neg hsmall.2, Attempt.pure_eq_ok,
      Char.ofNat_toNat]
  case neg =>
    rw [String.toList_singleton]
    exact .plain hquote hbackslash hcontrol

variable {c : Char} {letters rest : List Char}

/-- One step of a string: its first character is the one that the letters stand for. -/
theorem stringBody_append (h : Denotes c letters) (fuel : Nat) (rest : List Char) :
    stringBody escaped (fuel + 1) (letters ++ rest) =
      (stringBody escaped fuel rest).map fun r => (c :: r.1, r.2) := by
  cases h with
  | @escaped letters h =>
      rw [List.cons_append, stringBody, if_neg (by decide), if_pos rfl, h rest, Attempt.ok_bind]
      show (stringBody Json.escaped fuel rest >>= fun r => pure (c :: r.1, r.2)) = _
      cases stringBody Json.escaped fuel rest <;> rfl
  | plain quote backslash control =>
      rw [List.singleton_append, stringBody, if_neg quote, if_neg backslash, if_neg control]
      cases stringBody Json.escaped fuel rest <;> rfl

/-! ## A text -/

/-- The written between the quotes of a text. -/
def written (cs : List Char) : List Char := cs.flatMap fun c => (escape c).toList

theorem toList_quoted (s : String) : (quoted s).toList = '"' :: written s.toList ++ ['"'] := by
  have hjoin (cs : List Char) : (String.join (cs.map escape)).toList = written cs := by
    simp [written, String.toList_join, List.flatMap_map]
  rw [quoted, String.toList_append, String.toList_append, hjoin]
  rfl

/-- There is a step for each character, however many written it has. -/
theorem stringBody_written {cs : List Char} {fuel : Nat} (hfuel : cs.length < fuel)
    (rest : List Char) : stringBody escaped fuel (written cs ++ '"' :: rest) = .ok (cs, rest) := by
  induction cs generalizing fuel with
  | nil =>
      obtain ⟨fuel, rfl⟩ := Nat.exists_eq_succ_of_ne_zero (Nat.ne_of_gt hfuel)
      rfl
  | cons c cs ih =>
      obtain ⟨fuel, rfl⟩ := Nat.exists_eq_succ_of_ne_zero (Nat.ne_zero_of_lt hfuel)
      have hsplit : written (c :: cs) ++ '"' :: rest =
          (escape c).toList ++ (written cs ++ '"' :: rest) := by
        rw [written, List.flatMap_cons, List.append_assoc]
        rfl
      rw [hsplit, stringBody_append (denotes_escape c),
        ih (Nat.lt_of_succ_lt_succ (by simpa using hfuel))]
      rfl

theorem Denotes.length_pos (h : Denotes c letters) : 1 ≤ letters.length := by
  cases h <;> simp

theorem length_le_written (cs : List Char) : cs.length ≤ (written cs).length := by
  induction cs with
  | nil => exact Nat.le_refl 0
  | cons c cs ih =>
      have hone := (denotes_escape c).length_pos
      simp only [written, List.flatMap_cons, List.length_append, List.length_cons] at ih ⊢
      omega

/-- **A written text is read back**, whatever follows it. -/
theorem readText_quoted (expected s : String) (rest : List Char) :
    readText expected ((quoted s).toList ++ rest) = .ok (s, rest) := by
  have hbody : stringBody escaped (written s.toList ++ '"' :: rest).length
      (written s.toList ++ '"' :: rest) = .ok (s.toList, rest) := by
    refine stringBody_written ?_ rest
    have hle := length_le_written s.toList
    simp only [List.length_append, List.length_cons]
    omega
  have hstring : readString (written s.toList ++ '"' :: rest) = .ok (s, rest) := by
    rw [readString, hbody]
    simp only [Attempt.ok_bind, Attempt.pure_eq_ok, String.ofList_toList]
  have hsplit : (quoted s).toList ++ rest = '"' :: (written s.toList ++ '"' :: rest) := by
    rw [toList_quoted]
    simp
  rw [hsplit]
  exact hstring

/-! ## A list of texts -/

/-- The items of a list behind its first one. -/
def moreItems (xs : List String) : List Char := xs.flatMap fun x => ',' :: (quoted x).toList

theorem compactAll_texts (xs : List String) :
    Value.compact.compactAll (xs.map Value.text) = xs.map quoted := by
  induction xs with
  | nil => rfl
  | cons x xs ih => exact congrArg (quoted x :: ·) ih

theorem toList_items (x : String) (xs : List String) :
    (",".intercalate ((x :: xs).map quoted)).toList = (quoted x).toList ++ moreItems xs := by
  induction xs generalizing x with
  | nil => simp [moreItems]
  | cons y ys ih =>
      rw [List.map_cons, List.map_cons, String.intercalate_cons_cons, String.toList_append,
        String.toList_append, ← List.map_cons, ih y, List.append_assoc]
      rfl

theorem toList_compact_nil : (Value.texts []).compact.toList = ['[', ']'] := by decide

theorem toList_compact_cons (x : String) (xs : List String) :
    (Value.texts (x :: xs)).compact.toList =
      '[' :: ((quoted x).toList ++ (moreItems xs ++ [']'])) := by
  rw [Value.texts, Value.compact, compactAll_texts, String.toList_append, String.toList_append,
    toList_items]
  simp

variable {α : Type} {r : Reader α} {fuel : Nat} {first : Bool} {cs cs' cs'' : List Char} {x : α}
  {xs : List α}

/-- One item of a list and those behind it. -/
theorem readItems_cons (hnext : nextItem first cs = .ok (true, cs'))
    (hread : r cs' = .ok (x, cs'')) (hmore : readItems r fuel false cs'' = .ok (xs, rest)) :
    readItems r (fuel + 1) first cs = .ok (x :: xs, rest) := by
  show (nextItem first cs >>= fun _ => _) = _
  rw [hnext, Attempt.ok_bind]
  show (r cs' >>= fun _ => _) = _
  rw [hread, Attempt.ok_bind]
  show (readItems r fuel false cs'' >>= fun _ => _) = _
  rw [hmore]
  rfl

theorem readItems_moreItems (expected : String) {xs : List String} {fuel : Nat}
    (hfuel : xs.length < fuel) (rest : List Char) :
    readItems (readText expected) fuel false (moreItems xs ++ ']' :: rest) =
      .ok (xs, ']' :: rest) := by
  induction xs generalizing fuel with
  | nil =>
      obtain ⟨fuel, rfl⟩ := Nat.exists_eq_succ_of_ne_zero (Nat.ne_of_gt hfuel)
      rfl
  | cons x xs ih =>
      obtain ⟨fuel, rfl⟩ := Nat.exists_eq_succ_of_ne_zero (Nat.ne_zero_of_lt hfuel)
      have hnext : nextItem false (moreItems (x :: xs) ++ ']' :: rest) =
          .ok (true, (quoted x).toList ++ (moreItems xs ++ ']' :: rest)) := by
        have hsplit : moreItems (x :: xs) ++ ']' :: rest =
            ',' :: ((quoted x).toList ++ (moreItems xs ++ ']' :: rest)) := by simp [moreItems]
        rw [hsplit, toList_quoted]
        rfl
      exact readItems_cons hnext (readText_quoted expected x _)
        (ih (Nat.lt_of_succ_lt_succ (by simpa using hfuel)))

/-- The items of a list, with the end of the list behind them. -/
theorem readList_of_items (hitems : readItems r (cs.length + 1) true cs = .ok (xs, ']' :: rest)) :
    readList r ('[' :: cs) = .ok (xs, rest) := by
  have hopen : readList r ('[' :: cs) = (readItems r (cs.length + 1) true cs >>= fun read =>
      (closeList >>= fun _ => pure read.1) read.2) := rfl
  rw [hopen, hitems]
  rfl

theorem length_le_moreItems (xs : List String) : xs.length ≤ (moreItems xs).length := by
  induction xs with
  | nil => exact Nat.le_refl 0
  | cons x xs ih =>
      simp only [moreItems, List.flatMap_cons, List.length_append, List.length_cons] at ih ⊢
      omega

/-- **A written list of texts is read back**, whatever follows it. -/
theorem readList_texts (expected : String) (xs : List String) (rest : List Char) :
    readList (readText expected) ((Value.texts xs).compact.toList ++ rest) = .ok (xs, rest) := by
  cases xs with
  | nil =>
      rw [toList_compact_nil]
      rfl
  | cons x xs =>
      have hsplit : (Value.texts (x :: xs)).compact.toList ++ rest =
          '[' :: ((quoted x).toList ++ (moreItems xs ++ ']' :: rest)) := by
        simp [toList_compact_cons]
      have hfirst (cs : List Char) : nextItem true ((quoted x).toList ++ cs) =
          .ok (true, (quoted x).toList ++ cs) := by
        rw [toList_quoted]
        rfl
      rw [hsplit]
      refine readList_of_items (readItems_cons (hfirst _) (readText_quoted expected x _) ?_)
      refine readItems_moreItems expected ?_ rest
      have hle := length_le_moreItems xs
      simp only [List.length_append, List.length_cons]
      omega

/-- **A list that is all there is** is read back. -/
theorem readAll_texts (expected : String) (xs : List String) :
    readAll (readList (readText expected)) (Value.texts xs).compact.toList = .ok xs := by
  have hread := readList_texts expected xs []
  rw [List.append_nil] at hread
  show (readList (readText expected) _ >>= fun _ => _) = _
  rw [hread]
  rfl

end FiberWeave.Json
