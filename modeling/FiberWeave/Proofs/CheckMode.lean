import FiberWeave.Engine.Command
import FiberWeave.Proofs.Course
import FiberWeave.Proofs.Effects
import FiberWeave.Proofs.Rereading

/-!
# No class is lost while rewritten classes are checked

An external program may write anything.  With the option to check it, what it writes is put in the
place of a class file only if it is a class file of the same class.  So whatever a run makes of a
build, another classification records the same classes from the same files.

* `SameClass` — two class files of classes with one name.
* `EngineCommand.verify_of_answers` — what an engine answers with a program was checked.
* `revised_of_check` — what a run leaves is the tree with files rewritten to files of the same class.
* **`classify_after_check`** — no class is lost by a run, and no file with a class ends up without it.
* `classify_after_check_gains` — but a class may be recorded from another path, where a link with too
  many links behind it has fewer now.
-/

namespace FiberWeave

open FileTree (Revised)

/-- Two class files of classes with one name. -/
def SameClass (old new : Bytes) : Prop :=
  ∃ c c', ClassFile.parse old = .ok c ∧ ClassFile.parse new = .ok c' ∧ c'.name = c.name

theorem carries_sameClass : Carries SameClass fun facts facts' => facts'.name = facts.name where
  refl _ := rfl
  name _ _ h := h
  analyze old new h := by
    obtain ⟨c, c', hold, hnew, hname⟩ := h
    exact ⟨.ofClassFile c, .ofClassFile c', by simp [ClassFacts.analyze, hold],
      by simp [ClassFacts.analyze, hnew], hname⟩

/-! ## Checked answers -/

theorem exists_of_verify {name : String} {bytes : Bytes} (h : verify name bytes = .ok ()) :
    ∃ c, ClassFile.parse bytes = .ok c ∧ c.name = name := by
  unfold verify at h
  cases hparse : ClassFile.parse bytes with
  | error e => simp [hparse] at h
  | ok c =>
      refine ⟨c, rfl, ?_⟩
      by_contra hne
      simp [hparse, hne] at h

theorem Launch.verify_of_accept {name : String} {output bytes : Bytes}
    (h : Launch.verdict.accept name true output = .ok bytes) : verify name bytes = .ok () := by
  unfold Launch.verdict.accept at h
  cases houtput : output.isEmpty with
  | true => simp [houtput] at h
  | false =>
      cases hverify : verify name output with
      | error e => simp [houtput, hverify] at h
      | ok _ =>
          obtain rfl : output = bytes := by simpa [houtput, hverify] using h
          exact hverify

/-- What a program writes is taken only if it is a class file of the class. -/
theorem Launch.verify_of_verdict {launch : Launch} {program name : String} {bytes : Bytes}
    (h : launch.verdict program name true = .ok bytes) : verify name bytes = .ok () := by
  cases launch with
  | notStarted cause => cases h
  | notFinished cause => cases h
  | ended status output errors sent =>
      simp only [Launch.verdict] at h
      split at h
      · cases h
      · cases sent with
        | ok _ => exact Launch.verify_of_accept h
        | error cause =>
            simp only at h
            split at h
            · exact Launch.verify_of_accept h
            · cases h

namespace EngineCommand

variable {σ : Type} {command : EngineCommand}
  {launch : Call → FileTree × σ → Launch × (FileTree × σ)}

theorem verify_of_answers {request : Request} {bytes : Bytes}
    (h : (command.engine launch).Answers request (.ok bytes))
    (hcheck : request.options.check = true) : verify request.className bytes = .ok () := by
  obtain ⟨w, h⟩ := h
  simp only [engine] at h
  cases hpolicy : checkPolicy request.entry request.options with
  | error e => simp [hpolicy] at h
  | ok _ =>
      simp only [hpolicy, hcheck] at h
      exact Launch.verify_of_verdict h

/-- A program that does not touch files makes an engine that does not. -/
theorem keepsFiles (hlaunch : ∀ call s, (launch call s).2.1 = s.1) :
    (command.engine launch).KeepsFiles := by
  constructor
  all_goals
    intro request w
    simp only [engine]
    cases checkPolicy request.entry request.options with
    | error e => rfl
    | ok _ => first | exact hlaunch _ _ | rfl

end EngineCommand

/-! ## Runs -/

section Runs

variable {σ : Type} {command : EngineCommand}
  {launch : Call → FileTree × σ → Launch × (FileTree × σ)} {settings : Settings}

/-- What a run leaves is the tree with some files rewritten to files of the same class. -/
theorem revised_of_check (hlaunch : ∀ call s, (launch call s).2.1 = s.1)
    (hcheck : settings.options.check = true) (w : Workspace σ) :
    Revised SameClass w.files ((runPipeline settings (command.engine launch)).run w).2.files := by
  rw [runPipeline_run]
  cases hdb : classified settings (command.engine launch) w with
  | error failure =>
      obtain ⟨remarks, hhistory⟩ := history_of_error settings (command.engine launch) w hdb
      rw [hhistory]
      exact .refl w.files
  | ok db =>
      obtain ⟨told, hdone, hsep, hleaves, _⟩ :=
        history_became (EngineCommand.keepsFiles hlaunch) settings w hdb
      refine hleaves.revised hsep (exists_read_of_became hdone ?_)
      rintro ⟨item, outcome⟩ hd entry before after hdue hanswer
      obtain ⟨bytes, facts, hread, hfacts, hname⟩ := analyzed_of_mem_done hd
      obtain rfl := Except.ok.inj ((readFile_of_reread hdue.read).symm.trans hread)
      obtain ⟨c', hnew, hname'⟩ := exists_of_verify (EngineCommand.verify_of_answers hanswer hcheck)
      change ClassFacts.analyze before = .ok facts at hfacts
      unfold ClassFacts.analyze at hfacts
      cases hold : ClassFile.parse before with
      | error e => simp [hold] at hfacts
      | ok c =>
          obtain rfl : ClassFacts.ofClassFile c = facts := by simpa [hold] using hfacts
          exact ⟨c, c', hold, hnew, hname'.trans hname.symm⟩

end Runs

/-- The classes of a database with their files, in order. -/
def Database.recorded (db : Database) : List (String × ClassFileRef) :=
  db.entries.map fun e => (e.name, e.file)

/-- What was recorded is in the database. -/
theorem recorded_databaseOf (settings : Settings) (t : FileTree) (root : String)
    (found : List (Option Recorded)) : (databaseOf settings t root found).recorded =
      (Database.Builder.recordAll {} found.reduceOption).classes.map fun r =>
        (r.facts.name, r.file) := by
  rw [Database.recorded, databaseOf, Database.Builder.entries_finish, List.map_map]
  exact List.map_congr_left fun r _ =>
    Prod.ext (Knowledge.entryOf_classified _ r).name (Knowledge.entryOf_classified _ r).file

/-- Databases of related classes record the same. -/
theorem recorded_databaseOf_related {settings : Settings} {t t' : FileTree} {root : String}
    {found found' : List (Option Recorded)}
    (h : List.Forall₂ (Option.Rel (Recorded.Related fun facts facts' => facts'.name = facts.name))
      found found') :
    (databaseOf settings t' root found').recorded = (databaseOf settings t root found).recorded := by
  have hclasses := Database.Builder.classes_recorded_related carries_sameClass
    (forall₂_reduceOption h)
  rw [recorded_databaseOf, recorded_databaseOf]
  generalize (Database.Builder.recordAll {} found.reduceOption).classes = classes,
    (Database.Builder.recordAll {} found'.reduceOption).classes = classes' at hclasses
  induction hclasses with
  | nil => rfl
  | cons hr _ ih => rw [List.map_cons, List.map_cons, ih, hr.facts, hr.file]

/-- The same classes are recorded from the same files. -/
theorem recorded_again {σ : Type} {settings : Settings} {engine : Engine σ} {w again : Workspace σ}
    (hdefault : engine.analyze = ClassFacts.analyze) (v : Revised SameClass w.files again.files)
    (hfaults : again.faults = w.faults)
    (hlisted : ∀ dir, again.files.children dir = w.files.children dir) (ht : w.files.WellFormed)
    (hnear : ∀ path ∈ looksAt settings w.files, ¬w.files.TooFar path) :
    (classified settings engine again).map Database.recorded =
      (classified settings engine w).map Database.recorded := by
  have hstart := start?_revised v hlisted settings.buildDirectory
  cases hscanner : Scanner.start? w.files settings.buildDirectory with
  | none =>
      rw [hscanner] at hstart
      simp [classified, hstart, hscanner]
  | some scanner =>
      rw [hscanner] at hstart
      rw [classified_eq hstart, classified_eq hscanner]
      have hrecords := recordsOf_revised carries_sameClass hdefault v hfaults hlisted ht hnear
      have hdatabases : Attempt.Both (fun db db' : Database => db'.recorded = db.recorded)
          ((recordsOf settings engine w).map (databaseOf settings w.files scanner.root))
          ((recordsOf settings engine again).map
            (databaseOf settings again.files scanner.root)) :=
        hrecords.map fun _ _ hfound => recorded_databaseOf_related hfound
      exact hdatabases.map_congr

/-! ## What another classification records -/

section Again

variable {σ : Type} {command : EngineCommand}
  {launch : Call → FileTree × σ → Launch × (FileTree × σ)} {settings : Settings}

/-- **No class is lost** by a run that checks what the program writes, whatever the program does and
however the run ends. Every file with a class is one with a class of this name after it; and the
same classes are recorded from the same files, if directories list the same names and no path that
the search looks at has too many links to lead to its file. -/
theorem classify_after_check {w again : Workspace σ}
    (hlaunch : ∀ call s, (launch call s).2.1 = s.1) (hcheck : settings.options.check = true)
    (hafter : again.files = ((runPipeline settings (command.engine launch)).run w).2.files)
    (hfaults : again.faults = w.faults) :
    (∀ path bytes c, w.files.readFile path = .ok bytes → ClassFile.parse bytes = .ok c →
      ∃ bytes' c', again.files.readFile path = .ok bytes' ∧ ClassFile.parse bytes' = .ok c' ∧
        c'.name = c.name) ∧
    (w.files.WellFormed → (∀ dir, again.files.children dir = w.files.children dir) →
      (∀ path ∈ looksAt settings w.files, ¬w.files.TooFar path) →
      ((classify settings (command.engine launch)).run again).1.map Database.recorded =
        ((classify settings (command.engine launch)).run w).1.map Database.recorded) := by
  have v : Revised SameClass w.files again.files := by
    rw [hafter]
    exact revised_of_check hlaunch hcheck w
  constructor
  · intro path bytes c hread hparse
    rcases v.readFile (FileTree.isFile_of_readFile hread) with
      ⟨old, new, hold, hnew, hsame⟩ | ⟨e, hold, _⟩
    · obtain rfl := Except.ok.inj (hread.symm.trans hold)
      rcases hsame with rfl | ⟨c₀, c', hparse₀, hparse', hname⟩
      · exact ⟨new, c, hnew, hparse, rfl⟩
      · obtain rfl := Except.ok.inj (hparse.symm.trans hparse₀)
        exact ⟨new, c', hnew, hparse', hname⟩
    · rw [hread] at hold
      cases hold
  · intro ht hlisted hnear
    obtain ⟨_, hbefore⟩ := classify_run settings (command.engine launch) w
    obtain ⟨_, hagain⟩ := classify_run settings (command.engine launch) again
    rw [hbefore, hagain]
    exact recorded_again rfl v hfaults hlisted ht hnear

end Again

/-! ### A program that marks a class -/

def checkedBuild : Settings := { buildDirectory := "/build", options := { check := true } }

/-- What the program does that marks the class `A`. -/
def markTask (call : Call) (s : FileTree × Unit) : Launch × (FileTree × Unit) :=
  let output := if call.input = taskFile then (taskClass "A" "" true []).encode else call.input
  (.ended (.code 0) output [] (.ok ()), s)

/-- A build of one class, with a link to its file that is found first. -/
def linkedBuild : FileTree where
  entries := [
    (["build"], .directory),
    (["build", "B.class"], .link "A.class"),
    (["build", "A.class"], .file (.bytes taskFile) Entry.fileMode)]

/-- The link is rewritten to a file, which holds the class with its mark, and the class stays recorded
from there. -/
theorem classify_after_check_linkedBuild :
    let w := Workspace.fresh linkedBuild
    let engine := EngineCommand.engine ⟨"mark", []⟩ markTask
    let again := Workspace.fresh ((runPipeline checkedBuild engine).run w).2.files
    again.files.entries = [
      (["build"], .directory),
      (["build", "B.class"],
        .file (.bytes (taskClass "A" "" true []).encode) Entry.fileMode),
      (["build", "A.class"], .file (.bytes taskFile) Entry.fileMode)] ∧
    (∀ path bytes c, w.files.readFile path = .ok bytes → ClassFile.parse bytes = .ok c →
      ∃ bytes' c', again.files.readFile path = .ok bytes' ∧ ClassFile.parse bytes' = .ok c' ∧
        c'.name = c.name) ∧
    ((classify checkedBuild engine).run again).1.map Database.recorded =
      ((classify checkedBuild engine).run w).1.map Database.recorded := by
  intro w engine again
  have hnear : ∀ path ∈ looksAt checkedBuild w.files, ¬w.files.TooFar path := by
    have hresolve : ∀ path ∈ looksAt checkedBuild w.files,
        w.files.resolve path ≠ .error .tooManyLinks := by decide +kernel
    exact fun path hpath hfar => hresolve path hpath hfar.resolve
  have hwell : w.files.WellFormed := by decide +kernel
  have hlisted : ∀ dir, again.files.children dir = w.files.children dir := fun dir =>
    children_runPipeline (EngineCommand.keepsFiles fun _ _ => rfl) checkedBuild w (fun _ => rfl) dir
  obtain ⟨hfiles, hrecorded⟩ := @classify_after_check Unit ⟨"mark", []⟩ markTask checkedBuild w again
    (fun _ _ => rfl) rfl rfl rfl
  exact ⟨by decide +kernel, hfiles, hrecorded hwell hlisted hnear⟩

/-! ### A program that writes what it reads -/

/-- What the program does that writes what it reads. -/
def copyInput (call : Call) (s : FileTree × Unit) : Launch × (FileTree × Unit) :=
  (.ended (.code 0) call.input [] (.ok ()), s)

/-- What a run leaves that checks what the program writes. -/
def Workspace.afterCopying (t : FileTree) : Workspace Unit :=
  ((runPipeline checkedBuild (EngineCommand.engine ⟨"cat", []⟩ copyInput)).run (.fresh t)).2

theorem children_afterCopying (t : FileTree) (dir : Location) :
    (Workspace.afterCopying t).files.children dir = t.children dir :=
  children_runPipeline (EngineCommand.keepsFiles fun _ _ => rfl) checkedBuild (.fresh t)
    (fun _ => rfl) dir

/-- A class is recorded from another path if a run has made a link fewer on the way. -/
theorem classify_after_check_gains :
    let w := Workspace.fresh (distantBuild [])
    let again := Workspace.fresh (Workspace.afterCopying (distantBuild [])).files
    let engine := EngineCommand.engine ⟨"cat", []⟩ copyInput
    (∀ call s, (copyInput call s).2.1 = s.1) ∧ w.files.WellFormed ∧
      (∀ dir, again.files.children dir = w.files.children dir) ∧
      ((classify checkedBuild engine).run w).1.map Database.recorded =
        .ok [("A", ⟨"sub.A", "sub/A", "/build/sub/A.class"⟩)] ∧
      ((classify checkedBuild engine).run again).1.map Database.recorded =
        .ok [("A", ⟨"Z", "Z", "/build/Z.class"⟩)] := by
  intro w again engine
  have hwell : w.files.WellFormed := by decide +kernel
  -- evaluated together, as the two classifications have much in common
  have hrecorded : ((classify checkedBuild engine).run w).1.map Database.recorded =
        .ok [("A", ⟨"sub.A", "sub/A", "/build/sub/A.class"⟩)] ∧
      ((classify checkedBuild engine).run again).1.map Database.recorded =
        .ok [("A", ⟨"Z", "Z", "/build/Z.class"⟩)] := by decide +kernel
  exact ⟨fun _ _ => rfl, hwell, children_afterCopying _, hrecorded⟩

end FiberWeave
