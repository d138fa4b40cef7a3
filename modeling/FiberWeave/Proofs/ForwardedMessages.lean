import FiberWeave.Engine.Basic
import FiberWeave.Proofs.EngineMessages

/-!
# Messages are read back from the lines of an engine

An engine writes a message as the name of its level, a colon, a blank and the text.  Between such
lines there may be blank ones and lines that it wrote for other reasons, and lines end in either
way.

* `Remark.lineOf` — the line of a message; `Remark.Writable` — the texts that a line can hold.
* `Remark.Row` — the lines, and the message that each stands for; `Row.says`, `Row.tells`: this is
  what it says.
* `Remark.Output` — the texts made of such lines; `output_messages`: messages with texts that lines
  can hold have such a text, whatever ends their lines and however many blank lines follow them.
* **`Remark.log_forwarded`** — what a text of such lines adds to the messages so far.

A text may itself begin with the name of a level, or be empty: only the first beginning of a line is
taken off, and only blanks behind it.
-/

namespace FiberWeave.Remark

open Text

/-! ## Lines -/

/-- The line on which an engine writes a message. -/
def lineOf (level : Level) (message : List Char) : List Char :=
  (level.name ++ ": ").toList ++ message

/-- A text that a line can hold and that blanks around it do not swallow. -/
structure Writable (message : List Char) : Prop where
  unbroken : '\n' ∉ message
  front : ∀ c ∈ message.head?, isBlank c = false
  back : message.getLast? ≠ some '\r'

/-- A line of an engine without its ending, and the message that it stands for if it stands for
one. -/
inductive Row : (line : List Char) → (said : Option Remark) → Prop
  | message (level : Level) {message : List Char} (h : Writable message) :
      Row (lineOf level message) (some { level, text := String.ofList message })
  | blank {line : List Char} (hunbroken : '\n' ∉ line) (h : isBlankText line = true) : Row line none
  /-- A line that does not begin like a message is one of the lowest level, as it stands. -/
  | other {line : List Char} (hunbroken : '\n' ∉ line) (htext : isBlankText line = false)
      (h : ∀ marker ∈ Level.markers, ¬marker.1.toList <+: line) :
      Row line (some { level := .debug, text := String.ofList line })

variable {level : Level} {message line : List Char} {said : Option Remark} {remarks : List Remark}

/-- The line of a message is never blank: there is the name of the level. -/
theorem hasText_lineOf (level : Level) (message : List Char) : HasText (lineOf level message) := by
  have hcolon : ':' ∈ (level.name ++ ": ").toList := by
    rw [String.toList_append]
    exact List.mem_append_right _ (by simp)
  exact ⟨':', List.mem_append_left _ hcolon, by decide⟩

theorem says_lineOf (level : Level) (h : Writable message) :
    Says (lineOf level message) level message := by
  have hmarker : (level.name ++ ":", level) ∈ Level.markers := by
    cases level <;> decide
  have hline : lineOf level message = (level.name ++ ":").toList ++ ' ' :: message := by
    simp [lineOf, String.toList_append]
  have hblank : trimStart (' ' :: message) = message := by
    cases message with
    | nil => decide
    | cons c rest =>
        have hc := h.front c rfl
        have hspace : isBlank ' ' = true := by decide
        simp [trimStart, hspace, hc]
  have hsays := Says.stated hmarker hline
  rwa [hblank] at hsays

theorem newline_not_mem_lineOf (level : Level) (h : Writable message) :
    '\n' ∉ lineOf level message := by
  have hname : '\n' ∉ (level.name ++ ": ").toList := by
    cases level <;> decide
  simp only [lineOf, List.mem_append, not_or]
  exact ⟨hname, h.unbroken⟩

/-- The line of a message does not take anything of what ends it. -/
theorem getLast?_lineOf (level : Level) (h : Writable message) :
    (lineOf level message).getLast? ≠ some '\r' := by
  cases message with
  | nil => cases level <;> decide
  | cons c rest =>
      have hback := h.back
      simpa [lineOf, List.getLast?_append] using hback

theorem Row.newline_not_mem (h : Row line said) : '\n' ∉ line := by
  cases h with
  | message level h => exact newline_not_mem_lineOf level h
  | blank hunbroken => exact hunbroken
  | other hunbroken => exact hunbroken

/-- **A row says its message and nothing else**, whatever the lines around it say. -/
theorem Row.tells {later : List (List Char)} (h : Row line said) (hlater : Tells later remarks) :
    Tells (line :: later) (said.toList ++ remarks) := by
  cases h with
  | message level h => exact .one (hasText_lineOf level _) (says_lineOf level h) hlater
  | blank _ h =>
      refine .blank (fun htext => ?_) hlater
      rw [← not_isBlankText_iff, h] at htext
      simp at htext
  | other _ htext h =>
      refine .one ((not_isBlankText_iff line).1 ?_) (.unstated fun _ _ hmem => h _ hmem) hlater
      simp [htext]

/-! ## Texts -/

/-- What an engine wrote, and the messages that its lines stand for.  The last line need not be
ended.  A carriage return in front of a line feed is part of what ends a line. -/
inductive Output : (text : List Char) → (remarks : List Remark) → Prop
  | none : Output [] []
  | last {line : List Char} {said : Option Remark} (hrow : Row line said) (hne : line ≠ []) :
      Output line said.toList
  | fed {line text : List Char} {said : Option Remark} {later : List Remark} (hrow : Row line said)
      (hreturn : line.getLast? ≠ some '\r') (hlater : Output text later) :
      Output (line ++ '\n' :: text) (said.toList ++ later)
  | returned {line text : List Char} {said : Option Remark} {later : List Remark}
      (hrow : Row line said) (hlater : Output text later) :
      Output (line ++ '\r' :: '\n' :: text) (said.toList ++ later)

/-- The lines of what an engine wrote say its messages, in order. -/
theorem Output.tells {text : List Char} (h : Output text remarks) : Tells (lines text) remarks := by
  induction h with
  | none => exact .none
  | last hrow hne =>
      rw [lines_of_not_mem _ hne hrow.newline_not_mem, ← List.append_nil (Option.toList _)]
      exact hrow.tells .none
  | fed hrow hreturn _ ih =>
      rw [lines_fed hrow.newline_not_mem hreturn]
      exact hrow.tells ih
  | returned hrow _ ih =>
      rw [lines_returned hrow.newline_not_mem]
      exact hrow.tells ih

/-- What ends a line. -/
inductive Ending where
  | feed
  | returnFeed
  deriving DecidableEq, Repr

/-- The characters that end a line. -/
def Ending.text : Ending → List Char
  | feed => ['\n']
  | returnFeed => ['\r', '\n']

/-- The line of a message, and any number of empty lines behind it. -/
structure Entry where
  level : Level
  message : List Char
  ending : Ending
  gap : List Ending := []
  deriving DecidableEq, Repr

namespace Entry

/-- The text of an entry. -/
def text (e : Entry) : List Char :=
  lineOf e.level e.message ++ (e.ending.text ++ e.gap.flatMap Ending.text)

/-- The message of an entry. -/
def remark (e : Entry) : Remark := { level := e.level, text := String.ofList e.message }

end Entry

section Texts

variable {later : List Char}

theorem output_ended (hrow : Row line said) (hreturn : line.getLast? ≠ some '\r') (ending : Ending)
    (hlater : Output later remarks) :
    Output (line ++ (ending.text ++ later)) (said.toList ++ remarks) := by
  cases ending with
  | feed => exact .fed hrow hreturn hlater
  | returnFeed => exact .returned hrow hlater

theorem output_gap (gap : List Ending) (hlater : Output later remarks) :
    Output (gap.flatMap Ending.text ++ later) remarks := by
  induction gap with
  | nil => exact hlater
  | cons ending rest ih =>
      have hempty : Row [] none := .blank (by simp) rfl
      have hended := output_ended hempty (by simp) ending ih
      simpa using hended

/-- **Messages have a text**: each on its line, with either ending and any number of empty lines
behind it. -/
theorem output_entries {entries : List Entry} (h : ∀ e ∈ entries, Writable e.message) :
    Output (entries.flatMap Entry.text) (entries.map Entry.remark) := by
  induction entries with
  | nil => exact .none
  | cons e rest ih =>
      have hwritable := h e List.mem_cons_self
      have hrest := output_gap e.gap (ih fun e' he' => h e' (.tail _ he'))
      have hended := output_ended (.message e.level hwritable) (getLast?_lineOf e.level hwritable)
        e.ending hrest
      simpa [Entry.text, Entry.remark] using hended

end Texts

/-! ## Forwarding -/

theorem Output.ofText_eq {text : List Char} (h : Output text remarks) : ofText text = remarks :=
  tells_iff.1 h.tells

/-- **Messages are forwarded as they were written.**  To the messages so far, what an engine wrote
adds those that its lines stand for, in order and nothing else; and whatever messages there are that
lines can hold, their lines are such a text. -/
theorem log_forwarded {σ : Type} (w : Workspace σ) :
    (∀ text remarks, Output text remarks → (w.say (ofText text)).log = w.log ++ remarks) ∧
    ∀ entries : List Entry, (∀ e ∈ entries, Writable e.message) →
      Output (entries.flatMap Entry.text) (entries.map Entry.remark) := by
  refine ⟨fun text remarks h => ?_, fun entries h => output_entries h⟩
  show w.log ++ ofText text = w.log ++ remarks
  rw [h.ofText_eq]

/-- An empty text, one that begins like a message, a blank line and a line of another kind. -/
theorem log_forwarded_mixedLines :
    (({ files := {}, engine := () } : Workspace Unit).say
      (ofText "WARNING: \r\nINFO: ERROR: x\n \t\r\nWARNINGS\n".toList)).log =
      [{ level := .warning, text := "" }, { level := .info, text := "ERROR: x" },
        { level := .debug, text := "WARNINGS" }] := by
  have hwarning : Row "WARNING: ".toList (some { level := .warning, text := "" }) :=
    .message .warning ⟨by simp, by simp, by simp⟩
  have hwritable : Writable "ERROR: x".toList := ⟨by simp, by simp; decide, by simp⟩
  have hinfo : Row "INFO: ERROR: x".toList (some { level := .info, text := "ERROR: x" }) :=
    .message .info hwritable
  have hblank : Row " \t".toList none := .blank (by decide) (by decide)
  have hother : Row "WARNINGS".toList (some { level := .debug, text := "WARNINGS" }) :=
    .other (by decide) (by decide) (by decide)
  have houtput := Output.returned hwarning
    (.fed hinfo (by decide) (.returned hblank (.fed hother (by decide) .none)))
  exact (log_forwarded { files := {}, engine := () }).1 _ _ houtput

end FiberWeave.Remark
