import FiberWeave.Proofs.Classification
import FiberWeave.Proofs.Exchanges
import FiberWeave.Proofs.SearchAgain
import Mathlib.Data.List.Forall2

/-!
# Classifying again after files were rewritten

A second classification searches the same directories and reads the same files.  Some of them were
rewritten, so that it records other facts; but it records them of the same classes, in the same
order, if rewriting a file keeps the name of its class.

* `Attempt.Both` — two attempts that end in one error, or in related results.
* `Carries` — what rewriting does to the bytes of class files, and to their facts.
* `looksAt`, `foundFiles_revised` — the second search finds the same files.
* `recordOf_revised`, **`recordsOf_revised`** — what is read from them is related to what was.
* `classes_recordAll_related` — so are the classes that are recorded.
* `distantBuild` — a build in which a path comes to lead to a class.
-/

namespace FiberWeave

open FileTree (Revised)

/-! ## Related results -/

namespace Attempt

variable {ε α β ι : Type} {r : α → β → Prop}

/-- Two attempts end in one error, or in results that are related. -/
inductive Both (r : α → β → Prop) : Except ε α → Except ε β → Prop where
  | error (e : ε) : Both r (.error e) (.error e)
  | ok {a : α} {b : β} (h : r a b) : Both r (.ok a) (.ok b)

theorem Both.mapM {f : ι → Except ε α} {g : ι → Except ε β} {xs : List ι}
    (h : ∀ x ∈ xs, Both r (f x) (g x)) : Both (List.Forall₂ r) (xs.mapM f) (xs.mapM g) := by
  induction xs with
  | nil => exact .ok .nil
  | cons x rest ih =>
      have hfirst := h x List.mem_cons_self
      have hrest := ih fun y hy => h y (List.mem_cons_of_mem _ hy)
      rw [List.mapM_cons, List.mapM_cons]
      generalize f x = first, g x = first' at hfirst
      generalize rest.mapM f = later, rest.mapM g = later' at hrest
      cases hfirst with
      | error e => exact .error e
      | ok hab =>
          cases hrest with
          | error e => exact .error e
          | ok hlater => exact .ok (.cons hab hlater)

theorem Both.map {α' β' : Type} {r' : α' → β' → Prop} {f : α → α'} {g : β → β'}
    {a : Except ε α} {b : Except ε β} (h : Both r a b) (hfg : ∀ a b, r a b → r' (f a) (g b)) :
    Both r' (a.map f) (b.map g) := by
  cases h with
  | error e => exact .error e
  | ok hab => exact .ok (hfg _ _ hab)

theorem Both.exists_ok {a : α} {b : Except ε β} (h : Both r (.ok a) b) :
    ∃ b', b = .ok b' ∧ r a b' := by
  cases h with
  | ok hab => exact ⟨_, rfl, hab⟩

/-- Attempts that end in what looks the same look the same. -/
theorem Both.map_congr {γ : Type} {f : α → γ} {g : β → γ} {a : Except ε α} {b : Except ε β}
    (h : Both (fun x y => g y = f x) a b) : b.map g = a.map f := by
  cases h with
  | error e => rfl
  | ok hxy => exact congrArg Except.ok hxy

end Attempt

theorem forall₂_reduceOption {α β : Type} {r : α → β → Prop} {xs : List (Option α)}
    {ys : List (Option β)} (h : List.Forall₂ (Option.Rel r) xs ys) :
    List.Forall₂ r xs.reduceOption ys.reduceOption := by
  induction h with
  | nil => exact .nil
  | cons hxy _ ih =>
      rw [reduceOption_cons, reduceOption_cons]
      cases hxy with
      | none => exact ih
      | some hab => exact .cons hab ih

/-- The first of related elements that pass a test are related. -/
theorem forall₂_find? {α β : Type} {r : α → β → Prop} {p : α → Bool} {q : β → Bool}
    (hpq : ∀ a b, r a b → q b = p a) {xs : List α} {ys : List β} (h : List.Forall₂ r xs ys) :
    Option.Rel r (xs.find? p) (ys.find? q) := by
  induction h with
  | nil => exact .none
  | @cons a b _ _ hab _ ih =>
      rw [List.find?_cons, List.find?_cons, hpq a b hab]
      cases p a with
      | true => exact .some hab
      | false => exact ih

/-! ## The classes of rewritten files -/

/-- Rewriting a class file as `R` says changes the facts of its class as `Q` says, and not its
name. -/
structure Carries (R : Bytes → Bytes → Prop) (Q : ClassFacts → ClassFacts → Prop) : Prop where
  refl : ∀ facts, Q facts facts
  name : ∀ facts facts', Q facts facts' → facts'.name = facts.name
  analyze : ∀ old new, R old new → ∃ facts facts', ClassFacts.analyze old = .ok facts ∧
    ClassFacts.analyze new = .ok facts' ∧ Q facts facts'

/-- Classes from one file, with facts that are related. -/
structure Recorded.Related (Q : ClassFacts → ClassFacts → Prop) (r r' : Recorded) : Prop where
  file : r'.file = r.file
  facts : Q r.facts r'.facts

variable {σ : Type} {R : Bytes → Bytes → Prop} {Q : ClassFacts → ClassFacts → Prop}

theorem Carries.toOption (h : Carries R Q) {old new : Bytes} (hnew : new = old ∨ R old new) :
    Option.Rel Q (ClassFacts.analyze old).toOption (ClassFacts.analyze new).toOption := by
  rcases hnew with rfl | hR
  · cases ClassFacts.analyze new with
    | error e => exact .none
    | ok facts => exact .some (h.refl facts)
  · obtain ⟨facts, facts', hold, hnew, hQ⟩ := h.analyze old new hR
    rw [hold, hnew]
    exact .some hQ

/-! ## Searching and reading -/

/-- The paths that a search of the build directory looks at. -/
def looksAt (settings : Settings) (t : FileTree) : List String :=
  match Scanner.start? t settings.buildDirectory with
  | none => []
  | some scanner => scanner.looksAt t

/-- What is read from the files that a search finds. -/
def recordsOf (settings : Settings) (engine : Engine σ) (w : Workspace σ) :
    Except Failure (List (Option Recorded)) :=
  (foundFiles settings w.files).mapM (recordOf engine w)

theorem classified_eq {settings : Settings} {engine : Engine σ} {w : Workspace σ}
    {scanner : Scanner} (hstart : Scanner.start? w.files settings.buildDirectory = some scanner) :
    classified settings engine w =
      (recordsOf settings engine w).map (databaseOf settings w.files scanner.root) := by
  rw [classified, recordsOf, foundFiles, hstart]

section Again

variable {settings : Settings} {t t' : FileTree} (v : Revised R t t')
  (hlisted : ∀ dir, t'.children dir = t.children dir)

include v hlisted

theorem start?_revised (root : String) : Scanner.start? t' root = Scanner.start? t root := by
  rw [Scanner.start?_eq, Scanner.start?_eq, v.directoryAt? (FileTree.free_of_children hlisted)]

/-- **The same files are found again.** -/
theorem foundFiles_revised (ht : t.WellFormed) (hnear : ∀ path ∈ looksAt settings t, ¬t.TooFar path) :
    foundFiles settings t' = foundFiles settings t := by
  have hfree := FileTree.free_of_children hlisted
  rw [foundFiles, foundFiles, start?_revised v hlisted]
  cases hstart : Scanner.start? t settings.buildDirectory with
  | none => rfl
  | some scanner =>
      rw [looksAt, hstart] at hnear
      exact Scanner.drain_congr (v.directoryAt? hfree) hlisted v.host scanner
        fun path hpath => v.isFile hfree ht (hnear path hpath)

end Again

section Read

variable {settings : Settings} {engine : Engine σ} {w w' : Workspace σ}
  (hcarries : Carries R Q) (hdefault : engine.analyze = ClassFacts.analyze)
  (v : Revised R w.files w'.files) (hfaults : w'.faults = w.faults)

include hcarries hdefault v hfaults

/-- What is read from a file is related to what was read from it before. -/
theorem recordOf_revised {file : ClassFileRef} (hfile : w.files.isFile file.path = true) :
    Attempt.Both (Option.Rel (Recorded.Related Q)) (recordOf engine w file)
      (recordOf engine w' file) := by
  unfold recordOf Workspace.examine
  rw [hfaults, hdefault]
  cases w.faults.examine file.path with
  | some e => exact .error _
  | none =>
      rcases v.readFile hfile with ⟨old, new, hold, hnew, hrelated⟩ | ⟨e, hold, hnew⟩
      · simp only [hold, hnew]
        have hfacts := hcarries.toOption hrelated
        generalize (ClassFacts.analyze old).toOption = facts,
          (ClassFacts.analyze new).toOption = facts' at hfacts
        cases hfacts with
        | none => exact .ok .none
        | some hQ => exact .ok (.some ⟨rfl, hQ⟩)
      · simp only [hold, hnew]
        exact .error _

/-- **What is read from the files of a search is related to what was read before.** -/
theorem recordsOf_revised (hlisted : ∀ dir, w'.files.children dir = w.files.children dir)
    (ht : w.files.WellFormed) (hnear : ∀ path ∈ looksAt settings w.files, ¬w.files.TooFar path) :
    Attempt.Both (List.Forall₂ (Option.Rel (Recorded.Related Q))) (recordsOf settings engine w)
      (recordsOf settings engine w') := by
  unfold recordsOf
  rw [foundFiles_revised v hlisted ht hnear]
  exact .mapM fun file hfile =>
    recordOf_revised hcarries hdefault v hfaults (isFile_of_mem_foundFiles hfile)

end Read

/-! ## Recording -/

namespace Database.Builder

theorem names_related (hcarries : Carries R Q) {b b' : Builder}
    (h : List.Forall₂ (Recorded.Related Q) b.classes b'.classes) : b'.names = b.names := by
  unfold names
  generalize b.classes = classes, b'.classes = classes' at h
  induction h with
  | nil => rfl
  | cons hr _ ih => rw [List.map_cons, List.map_cons, ih, hcarries.name _ _ hr.facts]

/-- A name finds related classes in related records. -/
theorem find?_related (hcarries : Carries R Q) {b b' : Builder}
    (h : List.Forall₂ (Recorded.Related Q) b.classes b'.classes) (name : String) :
    Option.Rel (Recorded.Related Q) (b.find? name) (b'.find? name) :=
  forall₂_find? (fun r r' hr => by rw [hcarries.name _ _ hr.facts]) h

/-- Related classes, recorded one after the other, make related records. -/
theorem classes_recordAll_related (hcarries : Carries R Q) {b b' : Builder}
    {calls calls' : List Recorded} (hcalls : List.Forall₂ (Recorded.Related Q) calls calls')
    (h : List.Forall₂ (Recorded.Related Q) b.classes b'.classes) :
    List.Forall₂ (Recorded.Related Q) (b.recordAll calls).classes (b'.recordAll calls').classes := by
  induction hcalls generalizing b b' with
  | nil => exact h
  | @cons r r' rest rest' hr _ ih =>
      refine @ih (b.record r) (b'.record r') ?_
      have hname := hcarries.name _ _ hr.facts
      have hnames := names_related hcarries h
      by_cases htaken : r.facts.name ∈ b.names
      · rwa [record_of_mem htaken, record_of_mem (by rwa [hname, hnames])]
      · rw [record_of_not_mem htaken, record_of_not_mem (by rwa [hname, hnames])]
        exact List.rel_append h (.cons hr .nil)

/-- Related classes make related records. -/
theorem classes_recorded_related (hcarries : Carries R Q) {calls calls' : List Recorded}
    (hcalls : List.Forall₂ (Recorded.Related Q) calls calls') :
    List.Forall₂ (Recorded.Related Q) (recordAll {} calls).classes (recordAll {} calls').classes :=
  classes_recordAll_related hcarries hcalls .nil

end Database.Builder

/-! ## A path with too many links -/

/-- A build with the class `A`, and more. The path `/build/Z.class` leads through 41 links to its file,
and `/build/sub/A.class` is one of them. -/
def distantBuild (more : List (Location × Entry)) : FileTree where
  entries := [
    (["l"], .link "."),
    (["A.bin"], .file (.bytes taskFile) Entry.fileMode),
    (["build"], .directory),
    (["build", "Z.class"],
      .link ("../" ++ String.join (List.replicate 39 "l/") ++ "build/sub/A.class")),
    (["build", "sub"], .directory),
    (["build", "sub", "A.class"], .link "../../A.bin")] ++ more

end FiberWeave
