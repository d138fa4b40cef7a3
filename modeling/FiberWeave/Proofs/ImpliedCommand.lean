import FiberWeave.CommandLine.Arguments

/-!
# Which command is meant

The command to instrument may be left out, also behind options of the program.  The place where a
command would stand is found by going over these options one by one, and their values may be any
words, even those of commands.

* `GlobalOption`, `GlobalOption.words` — the options that may stand in front of a command, in all
  the ways in which they can be written.
* `completed` — what stands from that place on, with the command to instrument put in front if no
  other is there.
* `withCommand_words`, `withCommand_flatMap_words` — options are passed over, one and then all,
  unless a value is attached to the letter of its option.
* `withCommand_attached` — such an option is taken for what stands in the place of the command.
* **`withCommandAfterName_words`** — the command is found or put in behind the options exactly if no
  value among them is attached to a letter, and else the command to instrument is put in front of the
  first such option, whatever follows.
-/

namespace FiberWeave.CommandLine

/-! ## Options in front of a command -/

/-- The long names of options that may stand in front of a command. -/
inductive GlobalName where
  | config
  | format
  deriving DecidableEq, Repr

def GlobalName.text : GlobalName → String
  | config => "--config"
  | format => "--format"

/-- An option that may stand in front of a command, with its value. -/
inductive GlobalOption where
  /-- A long name, and the value as the next word. -/
  | apart (name : GlobalName) (value : String)
  /-- A long name, an equals sign and the value in one word. -/
  | joined (name : GlobalName) (value : String)
  /-- The letter, and the value as the next word. -/
  | letter (value : String)
  /-- The letter with the value attached to it; its first character may be an equals sign, which then
  is no part of it. -/
  | attached (first : Char) (more : List Char)
  deriving DecidableEq, Repr

namespace GlobalOption

/-- The words in which an option is written. -/
def words : GlobalOption → List String
  | apart name value => [name.text, value]
  | joined name value => [name.text ++ "=" ++ value]
  | letter value => ["-f", value]
  | attached first more => [String.ofList ('-' :: 'f' :: first :: more)]

def isAttached : GlobalOption → Bool
  | attached .. => true
  | _ => false

/-- An option begins with a hyphen. -/
theorem exists_head?_words (o : GlobalOption) :
    ∃ word, o.words.head? = some word ∧ word.toList.head? = some '-' := by
  cases o with
  | apart name value => exact ⟨_, rfl, by cases name <;> rfl⟩
  | joined name value => exact ⟨_, rfl, by cases name <;> simp [GlobalName.text]⟩
  | letter value => exact ⟨_, rfl, rfl⟩
  | attached first more => exact ⟨_, rfl, by simp⟩

end GlobalOption

/-- The words that stand for a command or ask for a text in its place. -/
def explicitWords : List String :=
  ["instrument", "classify", "help", "-h", "--help", "-V", "--version"]

/-- What stands from the place of the command on, with the command to instrument put in front if the
first word does not stand for one. -/
def completed (rest : List String) : List String :=
  if rest.head?.any explicitWords.contains then rest else "instrument" :: rest

/-! ## Single words -/

theorem hasAttachedValue_iff (word : String) :
    hasAttachedValue word = true ↔ ∃ name value, word = GlobalName.text name ++ "=" ++ value := by
  have hprefix : ∀ start : String, start.toList.isPrefixOf word.toList = true ↔
      ∃ value, word = start ++ value := by
    intro start
    rw [List.isPrefixOf_iff_prefix]
    constructor
    · rintro ⟨value, hvalue⟩
      exact ⟨String.ofList value, by rw [← String.toList_inj]; simp [← hvalue]⟩
    · rintro ⟨value, rfl⟩
      exact ⟨value.toList, by simp⟩
  simp only [hasAttachedValue, List.any_cons, List.any_nil, Bool.or_false, Bool.or_eq_true, hprefix]
  constructor
  · rintro (⟨value, rfl⟩ | ⟨value, rfl⟩)
    · exact ⟨.config, value, rfl⟩
    · exact ⟨.format, value, rfl⟩
  · rintro ⟨name, value, rfl⟩
    cases name with
    | config => exact .inl ⟨value, rfl⟩
    | format => exact .inr ⟨value, rfl⟩

/-- The words that are known in the place of a command. -/
theorem isExplicit_iff (word : String) :
    (isCommandWord word || isTextRequest word) = true ↔ word ∈ explicitWords := by
  have hcommand : (Command.ofWord? word).isSome = true ↔ word = "instrument" ∨ word = "classify" := by
    unfold Command.ofWord?
    split <;> simp_all
  simp [isCommandWord, isTextRequest, explicitWords, helpWord, hcommand, or_assoc]

/-- A word that is no name by itself. -/
theorem withCommand_of_not_name {first : String}
    (hnames : first ≠ "--config" ∧ first ≠ "--format" ∧ first ≠ "-f") (rest : List String) :
    withCommand (first :: rest) =
      if hasAttachedValue first then first :: withCommand rest else completed (first :: rest) := by
  obtain ⟨hconfig, hformat, hletter⟩ := hnames
  rw [withCommand.eq_def]
  simp [hconfig, hformat, hletter, completed, ← isExplicit_iff]

/-! ## Options one by one -/

/-- An option is passed over together with its value, unless the value is attached to the letter. -/
theorem withCommand_words {o : GlobalOption} (h : o.isAttached = false) (rest : List String) :
    withCommand (o.words ++ rest) = o.words ++ withCommand rest := by
  cases o with
  | apart name value => cases name <;> simp [GlobalOption.words, GlobalName.text, withCommand]
  | letter value => simp [GlobalOption.words, withCommand]
  | attached first more => cases h
  | joined name value =>
      have hattached : hasAttachedValue (name.text ++ "=" ++ value) = true :=
        (hasAttachedValue_iff _).2 ⟨name, value, rfl⟩
      -- the word is longer than a name by itself
      have hnames : name.text ++ "=" ++ value ≠ "--config" ∧ name.text ++ "=" ++ value ≠ "--format" ∧
          name.text ++ "=" ++ value ≠ "-f" := by
        refine ⟨?_, ?_, ?_⟩ <;> intro heq <;> have hlist := congrArg String.toList heq <;>
          cases name <;> simp [GlobalName.text] at hlist
      change withCommand ((name.text ++ "=" ++ value) :: rest) = _
      rw [withCommand_of_not_name hnames, if_pos hattached]
      rfl

theorem withCommand_flatMap_words {options : List GlobalOption}
    (h : ∀ o ∈ options, o.isAttached = false) (rest : List String) :
    withCommand (options.flatMap GlobalOption.words ++ rest) =
      options.flatMap GlobalOption.words ++ withCommand rest := by
  induction options with
  | nil => rfl
  | cons o options ih =>
      rw [List.flatMap_cons, List.append_assoc, withCommand_words (h o (by simp)),
        ih fun o' ho' => h o' (.tail _ ho'), List.append_assoc]

/-- What begins with no option is completed if need be. -/
theorem withCommand_of_not_option {rest : List String}
    (hrest : ∀ o : GlobalOption, rest.head? ≠ o.words.head?) : withCommand rest = completed rest := by
  cases rest with
  | nil => rfl
  | cons first rest =>
      have hnames : first ≠ "--config" ∧ first ≠ "--format" ∧ first ≠ "-f" := by
        refine ⟨?_, ?_, ?_⟩
        · rintro rfl
          exact hrest (.apart .config "") rfl
        · rintro rfl
          exact hrest (.apart .format "") rfl
        · rintro rfl
          exact hrest (.letter "") rfl
      have hattached : ¬hasAttachedValue first = true := by
        rw [hasAttachedValue_iff]
        rintro ⟨name, value, rfl⟩
        exact hrest (.joined name value) rfl
      rw [withCommand_of_not_name hnames, if_neg hattached]

/-- A letter with a value attached to it is taken for what the command is to be put in front of. -/
theorem withCommand_attached (first : Char) (more : List Char) (rest : List String) :
    withCommand ((GlobalOption.attached first more).words ++ rest) =
      "instrument" :: ((GlobalOption.attached first more).words ++ rest) := by
  obtain ⟨word, hwords, hword⟩ : ∃ word : String, (GlobalOption.attached first more).words = [word] ∧
      word.toList = '-' :: 'f' :: first :: more := ⟨_, rfl, String.toList_ofList⟩
  have hnames : word ≠ "--config" ∧ word ≠ "--format" ∧ word ≠ "-f" := by
    refine ⟨?_, ?_, ?_⟩ <;> rintro rfl <;> simp at hword
  have hattached : ¬hasAttachedValue word = true := by
    rw [hasAttachedValue_iff]
    rintro ⟨name, value, rfl⟩
    cases name <;> simp [GlobalName.text] at hword
  have hexplicit : word ∉ explicitWords := by
    have hall : ∀ word ∈ explicitWords, word.toList.take 2 ≠ ['-', 'f'] := by decide
    intro hmem
    exact hall word hmem (by rw [hword]; rfl)
  rw [hwords]
  change withCommand (word :: rest) = "instrument" :: word :: rest
  rw [withCommand_of_not_name hnames, if_neg hattached]
  simp [completed, hexplicit]

/-! ## Argument lists -/

/-- Options up to the first one with a value attached to its letter. -/
theorem withCommand_append_attached {before : List GlobalOption}
    (hbefore : ∀ o ∈ before, o.isAttached = false) (first : Char) (more : List Char)
    (after : List GlobalOption) (rest : List String) :
    withCommand ((before ++ .attached first more :: after).flatMap GlobalOption.words ++ rest) =
      before.flatMap GlobalOption.words ++ "instrument" ::
        ((GlobalOption.attached first more :: after).flatMap GlobalOption.words ++ rest) := by
  rw [List.flatMap_append, List.append_assoc, withCommand_flatMap_words hbefore, List.flatMap_cons,
    List.append_assoc, withCommand_attached]

/-- **The command is found or put in behind the options that stand in front of it** exactly if none
of these has its value attached to a letter.  Otherwise the command to instrument is put in front of
the first option that has, and a command behind it counts as something else. -/
theorem withCommandAfterName_words (name : String) (options : List GlobalOption)
    (rest : List String) (hrest : ∀ o : GlobalOption, rest.head? ≠ o.words.head?) :
    (withCommandAfterName (name :: (options.flatMap GlobalOption.words ++ rest)) =
        name :: (options.flatMap GlobalOption.words ++ completed rest) ↔
      ∀ o ∈ options, o.isAttached = false) ∧
    ∀ before first more after, options = before ++ .attached first more :: after →
      (∀ o ∈ before, o.isAttached = false) →
        withCommandAfterName (name :: (options.flatMap GlobalOption.words ++ rest)) =
          name :: (before.flatMap GlobalOption.words ++ "instrument" ::
            ((GlobalOption.attached first more :: after).flatMap GlobalOption.words ++ rest)) := by
  simp only [withCommandAfterName, List.cons.injEq, true_and]
  refine ⟨⟨fun heq => ?_, fun hall => ?_⟩, ?_⟩
  · intro o ho
    cases hattached : o.isAttached with
    | false => rfl
    | true =>
        -- behind the options before the first such one, the two lists begin with different words
        obtain ⟨a, ha⟩ := Option.isSome_iff_exists.1 (List.find?_isSome.2 ⟨o, ho, hattached⟩)
        obtain ⟨hfirst, before, after, rfl, hbefore⟩ := List.find?_eq_some_iff_append.1 ha
        cases a with
        | apart | joined | letter => cases hfirst
        | attached first more =>
            rw [withCommand_append_attached (by simpa using hbefore), List.flatMap_append,
              List.append_assoc] at heq
            have hhead := (List.cons.inj (List.append_cancel_left heq)).1
            have hletter := congrArg (fun word : String => word.toList.head?) hhead
            simp at hletter
  · rw [withCommand_flatMap_words hall, withCommand_of_not_option hrest]
  · rintro before first more after rfl hbefore
    exact withCommand_append_attached hbefore first more after rest

theorem withCommandAfterName_words_attachedText :
    (∀ o : GlobalOption, ["classify", "classes"].head? ≠ o.words.head?) ∧
      withCommandAfterName ["fi", "--config", "help", "-ftext", "-f", "json", "classify", "classes"] =
        ["fi", "--config", "help", "instrument", "-ftext", "-f", "json", "classify", "classes"] ∧
      withCommandAfterName ["fi", "--config", "help", "-f", "json", "classify", "classes"] =
        ["fi", "--config", "help", "-f", "json", "classify", "classes"] := by
  have hrest : ∀ o : GlobalOption, ["classify", "classes"].head? ≠ o.words.head? := by
    intro o heq
    obtain ⟨word, hword, hhyphen⟩ := o.exists_head?_words
    obtain rfl := Option.some.inj (heq.trans hword)
    simp at hhyphen
  refine ⟨hrest, ?_, ?_⟩
  · exact (withCommandAfterName_words "fi"
      [.apart .config "help", .attached 't' ['e', 'x', 't'], .letter "json"] _ hrest).2
      [.apart .config "help"] 't' ['e', 'x', 't'] [.letter "json"] rfl (by decide)
  · exact (withCommandAfterName_words "fi" [.apart .config "help", .letter "json"] _ hrest).1.2
      (by decide)

end FiberWeave.CommandLine
