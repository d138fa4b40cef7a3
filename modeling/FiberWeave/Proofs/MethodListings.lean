import FiberWeave.Proofs.EngineMessages
import FiberWeave.Proofs.Growth
import FiberWeave.Proofs.TrimmedText
import Mathlib.Data.Finset.Defs

/-!
# Listed methods are read back

A text lists methods, one a line, in the way its author likes: with dots or slashes in the names of
classes, with blanks around, with blank lines and comments in between, and with line ends of either
kind.

* `MethodLists.Row` — the lines that name a method, and those that name none.
  `parseLine?_eq_some_iff`: what a line is read as.
* `MethodLists.Listing` — the texts made of such lines; `Listing.parse_eq`: what they are read as.
* `MethodLists.Spelled` — several texts that name exactly the methods of a finite set.
  `listing_plainText`: methods that lines can name have a text.
* **`enlarge_readBack`** — after any additions of texts of both kinds, each kind has exactly the methods
  that its own texts name.

The last dot of a line is the one in front of the method.  So a method without a dot and a class
without one can be told apart whatever else stands in them, even blanks; only the outer ends of a line
lose theirs.
-/

namespace FiberWeave.MethodLists

open Text

/-! ## Lines -/

/-- A method that a line can name.  Its class is written with slashes; blanks around a line are taken
off, and a line that begins with a hash names nothing. -/
structure Listable (l : ListedMethod) : Prop where
  class_ne : l.className ≠ ""
  slashes : '.' ∉ l.className.toList
  front : ∀ c ∈ l.className.toList.head?, isBlank c = false ∧ c ≠ '#'
  method_ne : l.method ≠ ""
  dotless : '.' ∉ l.method.toList
  back : ∀ c ∈ l.method.toList.getLast?, isBlank c = false
  unbroken : '\n' ∉ l.className.toList ∧ '\n' ∉ l.method.toList

/-- A line, and the method that it names if it names one. -/
inductive Row : (line : List Char) → (named : Option ListedMethod) → Prop
  /-- The class may be spelled with dots or slashes, and blanks may stand around. -/
  | method {l : ListedMethod} (hl : Listable l) {before spelled after : List Char}
      (hbefore : isBlankText before = true) (hafter : isBlankText after = true)
      (hclass : slashed spelled = l.className.toList) :
      Row (before ++ (spelled ++ '.' :: l.method.toList) ++ after) (some l)
  | blank {line : List Char} (h : isBlankText line = true) : Row line none
  | comment {before : List Char} (hbefore : isBlankText before = true) (text : List Char) :
      Row (before ++ '#' :: text) none
  | dotless {line : List Char} (h : '.' ∉ line) : Row line none

variable {l : ListedMethod} {line spelled before after text : List Char}
  {named : Option ListedMethod}

/-- A class begins with the same character in either spelling, up to a dot. -/
theorem Listable.exists_cons (hl : Listable l) (hclass : slashed spelled = l.className.toList) :
    ∃ c cs, spelled = c :: cs ∧ isBlank c = false ∧ c ≠ '#' := by
  cases spelled with
  | nil => exact absurd (String.toList_eq_nil_iff.1 hclass.symm) hl.class_ne
  | cons c cs =>
      have hfirst := hl.front (if c = '.' then '/' else c) (by rw [← hclass]; rfl)
      rw [isBlank_slash] at hfirst
      refine ⟨c, cs, rfl, hfirst.1, ?_⟩
      rintro rfl
      exact hfirst.2 rfl

theorem Listable.unpadded (hl : Listable l) (hclass : slashed spelled = l.className.toList) :
    Unpadded (spelled ++ '.' :: l.method.toList) where
  front c hc := by
    obtain ⟨d, cs, rfl, hblank, -⟩ := hl.exists_cons hclass
    rw [List.cons_append, List.head?_cons, Option.mem_some_iff] at hc
    exact hc ▸ hblank
  back c hc := by
    have hmethod : l.method.toList ≠ [] := mt String.toList_eq_nil_iff.1 hl.method_ne
    rw [List.getLast?_append_of_ne_nil _ (List.cons_ne_nil _ _), List.getLast?_cons_of_ne_nil hmethod]
      at hc
    exact hl.back c hc

/-- Slashes for dots bring in slashes only. -/
theorem mem_of_mem_slashed {c : Char} {cs : List Char} (hslash : c ≠ '/') (h : c ∈ slashed cs) :
    c ∈ cs := by
  obtain ⟨d, hd, heq⟩ := List.mem_map.1 h
  split at heq
  · exact absurd heq.symm hslash
  · exact heq ▸ hd

/-- What a line is read as, by what is left of it between its blanks. -/
theorem parseLine?_eq_some_iff_trim : parseLine? line = some l ↔
    ∃ spelled, trim line = spelled ++ '.' :: l.method.toList ∧
      slashed spelled = l.className.toList ∧ '.' ∉ l.method.toList ∧ l.method ≠ "" ∧
        ∃ c cs, spelled = c :: cs ∧ c ≠ '#' := by
  unfold parseLine?
  constructor
  · intro h
    split at h
    · cases h
    · cases h
    · rename_i hnil hhash
      split at h
      · rename_i c cs m ms hcut
        obtain rfl := Option.some.inj h
        obtain ⟨htext, hdot⟩ := cutLast?_eq_some_iff.1 hcut
        refine ⟨c :: cs, ?_, ?_, ?_, ?_, c, cs, rfl, ?_⟩
        · rw [htext, String.toList_ofList]
        · rw [String.toList_ofList]
        · rwa [String.toList_ofList]
        · simp
        · rintro rfl
          exact hhash _ htext
      · cases h
  · rintro ⟨spelled, htrim, hclass, hdot, hmethod, c, cs, rfl, hhash⟩
    obtain ⟨m, ms, hms⟩ := List.exists_cons_of_ne_nil (mt String.toList_eq_nil_iff.1 hmethod)
    have hcut : cutLast? '.' (c :: cs ++ '.' :: l.method.toList) =
        some (c :: cs, l.method.toList) := cutLast?_eq_some_iff.2 ⟨rfl, hdot⟩
    rw [htrim]
    split
    · contradiction
    · rename_i htext
      exact absurd (List.cons.inj htext).1 hhash
    · rw [hcut, hms]
      simp only [Option.some.injEq]
      rw [hclass, ← hms, String.ofList_toList, String.ofList_toList]

/-- **A line is read as a method** exactly if it names this method, and no line names a method that
lines cannot name. -/
theorem parseLine?_eq_some_iff (hline : '\n' ∉ line) :
    parseLine? line = some l ↔ Row line (some l) := by
  rw [parseLine?_eq_some_iff_trim]
  constructor
  · rintro ⟨spelled, htrim, hclass, hdot, hmethod, c, cs, rfl, hhash⟩
    obtain ⟨hcore, before, after, hbefore, hafter, rfl⟩ := trim_eq_iff.1 htrim
    refine .method ?_ hbefore hafter hclass
    constructor
    case class_ne =>
      intro hempty
      rw [hempty] at hclass
      cases hclass
    case slashes => exact hclass ▸ dot_not_mem_slashed _
    case front =>
      intro d hd
      rw [← hclass] at hd
      obtain rfl : (if c = '.' then '/' else c) = d := Option.some.inj hd
      refine ⟨(isBlank_slash c).trans (hcore.front c rfl), fun heq => ?_⟩
      split at heq
      · cases heq
      · exact hhash heq
    case method_ne => exact hmethod
    case dotless => exact hdot
    case back =>
      intro d hd
      refine hcore.back d ?_
      rw [List.getLast?_append_of_ne_nil _ (List.cons_ne_nil _ _), List.getLast?_cons, hd]
      rfl
    case unbroken =>
      refine ⟨fun hmem => hline ?_, fun hmem => hline (by simp [hmem])⟩
      rw [← hclass] at hmem
      exact List.mem_append_left _ (List.mem_append_right _
        (List.mem_append_left _ (mem_of_mem_slashed (by decide) hmem)))
  · rintro ⟨hl, hbefore, hafter, hclass⟩
    obtain ⟨c, cs, rfl, -, hhash⟩ := hl.exists_cons hclass
    exact ⟨c :: cs, trim_padded hbefore hafter (hl.unpadded hclass), hclass, hl.dotless,
      hl.method_ne, c, cs, rfl, hhash⟩

/-- A line without a method is read as none. -/
theorem Row.parseLine?_none (h : Row line none) : parseLine? line = none := by
  refine Option.eq_none_iff_forall_ne_some.2 fun l hsome => ?_
  obtain ⟨spelled, htrim, -, -, -, c, cs, rfl, hhash⟩ := parseLine?_eq_some_iff_trim.1 hsome
  cases h with
  | blank h =>
      rw [(trim_eq_nil_iff line).2 h] at htrim
      cases htrim
  | comment hbefore text =>
      -- the hash stays in front when the blanks are taken off
      have hfront : trimStart ('#' :: text) = '#' :: text := trimStart_of_front (by
        rintro _ ⟨⟩
        decide)
      obtain ⟨after, -, hend⟩ := exists_trimEnd ('#' :: text)
      rw [trim, trimStart_append hbefore, hfront] at htrim
      rw [htrim] at hend
      exact hhash (List.cons.inj hend).1.symm
  | dotless h =>
      obtain ⟨front, back, -, -, heq⟩ := exists_padding line
      rw [htrim] at heq
      exact h (heq ▸ by simp)

/-- **A line is read as what it names.** -/
theorem Row.parseLine?_eq (hline : '\n' ∉ line) (h : Row line named) : parseLine? line = named := by
  cases named with
  | none => exact h.parseLine?_none
  | some l => exact (parseLine?_eq_some_iff hline).2 h

/-! ## Texts -/

/-- Blanks behind a line do not matter. -/
theorem parseLine?_append (h : isBlankText after = true) (line : List Char) :
    parseLine? (line ++ after) = parseLine? line := by
  rw [parseLine?, parseLine?, trim_append h]

theorem filterMap_parseLine_cons (first : List Char) (later : List (List Char)) :
    (first :: later).filterMap parseLine? =
      (parseLine? first).toList ++ later.filterMap parseLine? := by
  rw [List.filterMap_cons]
  cases parseLine? first <;> rfl

theorem parse_last (hline : '\n' ∉ line) : parse line = (parseLine? line).toList := by
  cases line with
  | nil => rfl
  | cons c line =>
      rw [parse, lines_of_not_mem _ (List.cons_ne_nil _ _) hline, filterMap_parseLine_cons,
        List.filterMap_nil, List.append_nil]

/-- A line feed ends a line.  A carriage return in front of it is one of the blanks around the line,
so it makes no difference that it is not part of it. -/
theorem parse_ended (hline : '\n' ∉ line) (text : List Char) :
    parse (line ++ '\n' :: text) = (parseLine? line).toList ++ parse text := by
  by_cases hreturn : line.getLast? = some '\r'
  · obtain ⟨front, rfl⟩ := List.getLast?_eq_some_iff.1 hreturn
    have hfront : '\n' ∉ front := fun hmem => hline (List.mem_append_left _ hmem)
    have hsplit : front ++ ['\r'] ++ '\n' :: text = front ++ '\r' :: '\n' :: text := by simp
    rw [hsplit, parse, lines_returned hfront, filterMap_parseLine_cons,
      parseLine?_append (by decide)]
    rfl
  · rw [parse, lines_fed hline hreturn, filterMap_parseLine_cons]
    rfl

/-- A text, and the methods that its lines name.  Its last line need not be ended. -/
inductive Listing : (text : List Char) → (named : List ListedMethod) → Prop
  | last {line : List Char} {named : Option ListedMethod} (hline : '\n' ∉ line)
      (hrow : Row line named) : Listing line named.toList
  | fed {line text : List Char} {named : Option ListedMethod} {later : List ListedMethod}
      (hline : '\n' ∉ line) (hrow : Row line named) (hlater : Listing text later) :
      Listing (line ++ '\n' :: text) (named.toList ++ later)
  | returned {line text : List Char} {named : Option ListedMethod} {later : List ListedMethod}
      (hline : '\n' ∉ line) (hrow : Row line named) (hlater : Listing text later) :
      Listing (line ++ '\r' :: '\n' :: text) (named.toList ++ later)

/-- **A text is read as what its lines name**, in their order. -/
theorem Listing.parse_eq {named : List ListedMethod} (h : Listing text named) :
    parse text = named := by
  induction h with
  | last hline hrow => rw [parse_last hline, hrow.parseLine?_eq hline]
  | fed hline hrow _ ih => rw [parse_ended hline, hrow.parseLine?_eq hline, ih]
  | @returned line text named later hline hrow _ ih =>
      have hsplit : line ++ '\r' :: '\n' :: text = line ++ ['\r'] ++ '\n' :: text := by simp
      have hreturn : '\n' ∉ line ++ ['\r'] := by simp [hline]
      rw [hsplit, parse_ended hreturn, parseLine?_append (by decide), hrow.parseLine?_eq hline, ih]

example : parse "# generated\r\ncom.example.Service.call\n\n  org/acme.Client.fetch \r\nbroken".toList =
    [⟨"com/example/Service", "call"⟩, ⟨"org/acme/Client", "fetch"⟩] := by decide +kernel

/-! ## Several texts -/

/-- Texts that name the methods of a finite set, each in any of them and any number of times. -/
def Spelled (texts : List (List Char)) (named : Finset ListedMethod) : Prop :=
  ∃ lists, List.Forall₂ Listing texts lists ∧ ∀ l, l ∈ named ↔ ∃ list ∈ lists, l ∈ list

theorem Spelled.mem_iff {texts : List (List Char)} {named : Finset ListedMethod}
    (h : Spelled texts named) (l : ListedMethod) : l ∈ texts.flatMap parse ↔ l ∈ named := by
  obtain ⟨lists, hlists, hnamed⟩ := h
  rw [hnamed]
  clear hnamed
  induction hlists with
  | nil => simp
  | cons hfirst _ ih =>
      rw [List.flatMap_cons, List.mem_append, ih, hfirst.parse_eq]
      simp only [List.mem_cons, exists_eq_or_imp]

/-- The line of a method without anything around it. -/
def plainLine (l : ListedMethod) : List Char := l.className.toList ++ '.' :: l.method.toList

/-- Methods one a line. -/
def plainText (ls : List ListedMethod) : List Char := ls.flatMap fun l => plainLine l ++ ['\n']

/-- **Each list of methods that lines can name has a text.** -/
theorem listing_plainText {ls : List ListedMethod} (h : ∀ l ∈ ls, Listable l) :
    Listing (plainText ls) ls := by
  induction ls with
  | nil => exact .last List.not_mem_nil (.blank rfl)
  | cons l ls ih =>
      have hl := h l List.mem_cons_self
      have hrow : Row (plainLine l) (some l) := by
        have hclass := slashed_of_not_mem hl.slashes
        simpa [plainLine] using @Row.method l hl [] l.className.toList [] rfl rfl hclass
      have hline : '\n' ∉ plainLine l := by
        simp [plainLine, hl.unbroken.1, hl.unbroken.2]
      have hlater := ih fun l' hl' => h l' (.tail _ hl')
      simpa [plainText] using Listing.fed hline hrow hlater

/-! ## Additions -/

/-- The text of an addition to the suspendable methods. -/
def Addition.ofMethods? : Addition → Option (List Char)
  | suspendables text => some text
  | supers _ => none

/-- The text of an addition to the methods whose overrides are suspendable. -/
def Addition.ofSupers? : Addition → Option (List Char)
  | suspendables _ => none
  | supers text => some text

theorem flatMap_methods (additions : List Addition) :
    additions.flatMap Addition.methods = (additions.filterMap Addition.ofMethods?).flatMap parse := by
  induction additions with
  | nil => rfl
  | cons addition rest ih =>
      cases addition with
      | suspendables text => exact congrArg (parse text ++ ·) ih
      | supers text => exact ih

theorem flatMap_superMethods (additions : List Addition) : additions.flatMap Addition.superMethods =
    (additions.filterMap Addition.ofSupers?).flatMap parse := by
  induction additions with
  | nil => rfl
  | cons addition rest ih =>
      cases addition with
      | suspendables text => exact ih
      | supers text => exact congrArg (parse text ++ ·) ih

/-- The lists after additions to empty ones. -/
def ofAdditions (additions : List Addition) : MethodLists := ({} : MethodLists).enlarge additions

theorem isSuspendable_ofAdditions (additions : List Addition) (c m : String) :
    (ofAdditions additions).isSuspendable c m =
      ((additions.filterMap Addition.ofMethods?).flatMap parse).contains ⟨c, m⟩ := by
  rw [isSuspendable, ofAdditions, enlarge_eq, flatMap_methods]
  rfl

theorem isSuspendableSuper_ofAdditions (additions : List Addition) (c m : String) :
    (ofAdditions additions).isSuspendableSuper c m =
      ((additions.filterMap Addition.ofSupers?).flatMap parse).contains ⟨c, m⟩ := by
  rw [isSuspendableSuper, ofAdditions, enlarge_eq, flatMap_superMethods]
  rfl

/-- What there is to say of the lists after additions of both kinds in any order. -/
structure ReadBack (additions : List Addition) : Prop where
  /-- The suspendable methods are those that the texts of this kind name, whatever the others say. -/
  methods : ∀ named, Spelled (additions.filterMap Addition.ofMethods?) named →
    ∀ c m, (ofAdditions additions).isSuspendable c m = true ↔ ⟨c, m⟩ ∈ named
  /-- The methods whose overrides are suspendable are those that the texts of that kind name. -/
  supers : ∀ named, Spelled (additions.filterMap Addition.ofSupers?) named →
    ∀ c m, (ofAdditions additions).isSuspendableSuper c m = true ↔ ⟨c, m⟩ ∈ named
  /-- Neither kind has a part in the other, however its texts are written. -/
  methods_congr : ∀ others, others.filterMap Addition.ofMethods? =
    additions.filterMap Addition.ofMethods? → ∀ c m,
      (ofAdditions others).isSuspendable c m = (ofAdditions additions).isSuspendable c m
  supers_congr : ∀ others, others.filterMap Addition.ofSupers? =
    additions.filterMap Addition.ofSupers? → ∀ c m,
      (ofAdditions others).isSuspendableSuper c m = (ofAdditions additions).isSuspendableSuper c m

/-- **Listed methods are read back**, exactly and each kind for itself. -/
theorem enlarge_readBack (additions : List Addition) : ReadBack additions where
  methods named h c m := by
    rw [isSuspendable_ofAdditions, List.contains_iff_mem, h.mem_iff]
  supers named h c m := by
    rw [isSuspendableSuper_ofAdditions, List.contains_iff_mem, h.mem_iff]
  methods_congr others h c m := by
    rw [isSuspendable_ofAdditions, isSuspendable_ofAdditions, h]
  supers_congr others h c m := by
    rw [isSuspendableSuper_ofAdditions, isSuspendableSuper_ofAdditions, h]

end FiberWeave.MethodLists
