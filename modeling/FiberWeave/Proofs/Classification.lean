import FiberWeave.Pipeline
import FiberWeave.Proofs.Frame
import FiberWeave.Proofs.Suspension
import Mathlib.Data.List.ReduceOption

/-!
# What a classification finds

A classification says what it does in messages and changes nothing else. Its database holds the
first class of each name among the files that the search for class files finds.

* `Scanner.isFile_of_mem_drain` — a search finds files only.
* `classified` — the result of a classification, from the tree alone; **`classify_run`**.
* `Sourced` — what is known of every entry of a database that a classification made.
* `entries_apart` — different entries come from different files.
* `Database.todo` — the entries that a work list is made from.
* `SlashNamed`, **`get?_self_iff`** — an entry is found under its own name exactly when that has no
  dots.
-/

namespace FiberWeave

/-! ## The files of a search -/

namespace Scanner

variable {t : FileTree} {s : Scanner}

theorem isFile_of_mem_note {dir name : String} (h : ∀ path ∈ s.pending, t.isFile path = true) :
    ∀ path ∈ (note t dir s name).pending, t.isFile path = true := by
  simp only [note]
  cases t.resolve (Path.join dir name) with
  | error e => exact h
  | ok loc =>
      simp only
      split
      · split
        · exact h
        · exact h
      · split
        · rename_i hfile
          intro path hpath
          rcases List.mem_append.1 hpath with hpath | hpath
          · exact h path hpath
          · obtain rfl := List.mem_singleton.1 hpath
            exact (Bool.and_eq_true_iff.1 hfile).1
        · exact h

theorem isFile_of_mem_expand {dir : String} (h : ∀ path ∈ s.pending, t.isFile path = true) :
    ∀ path ∈ (expand t s dir).pending, t.isFile path = true := by
  unfold expand
  cases t.namesIn dir with
  | error e => exact h
  | ok names =>
      simp only
      induction names generalizing s with
      | nil => exact h
      | cons name rest ih => exact ih (isFile_of_mem_note h)

/-- A search finds files only. -/
theorem isFile_of_mem_drain (h : ∀ path ∈ s.pending, t.isFile path = true) :
    ∀ file ∈ s.drain t, t.isFile file.path = true := by
  fun_induction drain t s with
  | case1 s ih =>
      intro file hfile
      rcases List.mem_append.1 hfile with hfile | hfile
      · obtain ⟨path, hpath, rfl⟩ := List.mem_map.1 hfile
        exact h path hpath
      · split at hfile
        · simp at hfile
        · rename_i dir queue hqueue
          exact ih dir queue hqueue (isFile_of_mem_expand (by simp)) file hfile

theorem isFile_of_start? {root : String} (hstart : start? t root = some s) :
    ∀ file ∈ s.drain t, t.isFile file.path = true := by
  refine isFile_of_mem_drain ?_
  unfold start? at hstart
  cases hresolve : t.resolve root with
  | error e => simp [hresolve] at hstart
  | ok loc =>
      simp only [hresolve] at hstart
      split at hstart
      · obtain rfl := Option.some.inj hstart
        simp
      · cases hstart

end Scanner

/-! ## Results -/

variable {σ : Type}

/-- The class in a file, if the file can be read and is a class file. -/
def recordOf (engine : Engine σ) (w : Workspace σ) (file : ClassFileRef) :
    Except Failure (Option Recorded) :=
  match w.examine file.path with
  | .error e => .error (.io file.path e)
  | .ok bytes => .ok ((engine.analyze bytes).toOption.map fun facts => ⟨file, facts⟩)

/-- The database of the classes in files. -/
def databaseOf (settings : Settings) (t : FileTree) (root : String)
    (found : List (Option Recorded)) : Database :=
  let classPath := ClassPath.ofPaths t (root :: settings.classPath)
  let builder := { Database.Builder.recordAll {} found.reduceOption with scanned := found.length }
  builder.finish classPath t (classPath.methodLists t)

/-- The result of a classification. -/
def classified (settings : Settings) (engine : Engine σ) (w : Workspace σ) :
    Except Failure Database :=
  match Scanner.start? w.files settings.buildDirectory with
  | none => .error (.invalidBuildDirectory settings.buildDirectory)
  | some scanner =>
      ((scanner.drain w.files).mapM (recordOf engine w)).map
        (databaseOf settings w.files scanner.root)

theorem reduceOption_cons {α : Type} (x : Option α) (xs : List (Option α)) :
    (x :: xs).reduceOption = x.toList ++ xs.reduceOption := by
  cases x with
  | none => exact List.reduceOption_cons_of_none xs
  | some a => exact List.reduceOption_cons_of_some a xs

/-- Reading a file counts it, and records the class in it if there is one. -/
theorem recordFile_run (engine : Engine σ) (b : Database.Builder) (file : ClassFileRef)
    (w : Workspace σ) : ∃ remarks, (recordFile engine b file).run w =
      ((recordOf engine w file).map fun r => b.noteScanned.recordAll r.toList,
        w.say remarks) := by
  unfold recordFile recordOf
  cases hread : w.examine file.path with
  | error e => exact ⟨[], by simp [hread]⟩
  | ok bytes =>
      simp only [Action.run_bind, Action.run_get, hread, Action.run_orEnd_ok]
      cases hfacts : engine.analyze bytes with
      | error e => exact ⟨_, rfl⟩
      | ok facts =>
          have hrecord : b.noteScanned.recordAll [⟨file, facts⟩] =
              (b.noteScanned.record? file facts).getD b.noteScanned := rfl
          cases hfree : b.noteScanned.record? file facts with
          | some b' =>
              refine ⟨[], ?_⟩
              simp [hrecord, hfree]
          | none =>
              simp only [hrecord, hfree, Option.getD_none, Option.map_some, Option.toList_some,
                Attempt.map_ok, Attempt.toOption_ok]
              exact ⟨_, rfl⟩

/-- Reading files counts them, and records the classes in them. -/
theorem foldlM_recordFile_run (engine : Engine σ) (b : Database.Builder)
    (files : List ClassFileRef) (w : Workspace σ) :
    ∃ remarks, (files.foldlM (recordFile engine) b).run w =
      ((files.mapM (recordOf engine w)).map fun found =>
        { scanned := b.scanned + found.length
          classes := (b.recordAll found.reduceOption).classes },
        w.say remarks) := by
  induction files generalizing b w with
  | nil =>
      refine ⟨[], ?_⟩
      rw [List.foldlM_nil, Action.run_pure, List.mapM_nil, Workspace.say_nil]
      rfl
  | cons file rest ih =>
      obtain ⟨first, hfirst⟩ := recordFile_run engine b file w
      rw [List.foldlM_cons, List.mapM_cons]
      cases hrecord : recordOf engine w file with
      | error failure =>
          rw [hrecord] at hfirst
          exact ⟨first, by rw [Action.run_bind, hfirst]; rfl⟩
      | ok r =>
          rw [hrecord] at hfirst
          obtain ⟨later, hlater⟩ := ih (b.noteScanned.recordAll r.toList) (w.say first)
          refine ⟨first ++ later, ?_⟩
          rw [Action.run_bind, hfirst]
          simp only [Attempt.map_ok]
          rw [hlater, Workspace.say_say]
          have hsame : recordOf engine (w.say first) = recordOf engine w := rfl
          rw [hsame]
          cases rest.mapM (recordOf engine w) with
          | error failure => rfl
          | ok found =>
              have hscanned : (b.noteScanned.recordAll r.toList).scanned + found.length =
                  b.scanned + (r :: found).length := by
                rw [Database.Builder.scanned_recordAll, List.length_cons, Nat.add_comm found.length,
                  ← Nat.add_assoc]
                rfl
              have hclasses :
                  ((b.noteScanned.recordAll r.toList).recordAll found.reduceOption).classes =
                    (b.recordAll (r :: found).reduceOption).classes := by
                rw [← Database.Builder.recordAll_append, ← reduceOption_cons]
                have hnoted : b.noteScanned.classes = b.classes := rfl
                exact Database.Builder.classes_recordAll_congr hnoted _
              simp only [hscanned, hclasses, Attempt.ok_bind, Attempt.pure_eq_ok, Attempt.map_ok]

/-- **A classification** says what it does, and gives what `classified` says. -/
theorem classify_run (settings : Settings) (engine : Engine σ) (w : Workspace σ) :
    ∃ remarks, (classify settings engine).run w =
      (classified settings engine w, w.say remarks) := by
  unfold classify classified
  cases hstart : Scanner.start? w.files settings.buildDirectory with
  | none => exact ⟨[], by simp [hstart]⟩
  | some scanner =>
      simp only [Action.run_bind, Action.run_files, hstart, Action.debug, Action.run_say,
        Workspace.say_say]
      generalize hsaid : w.say _ = w₁
      obtain ⟨remarks, hfold⟩ := foldlM_recordFile_run engine {} (scanner.drain w.files) w₁
      have hrecord : recordOf engine w₁ = recordOf engine w := by
        rw [← hsaid]
        rfl
      rw [hfold, hrecord, ← hsaid, Workspace.say_say]
      cases hfound : (scanner.drain w.files).mapM (recordOf engine w) with
      | error failure => exact ⟨_, rfl⟩
      | ok found =>
          simp only [Nat.zero_add, Attempt.map_ok]
          cases settings.options.verbose with
          | false => exact ⟨_, rfl⟩
          | true =>
              simp only [if_true, Action.run_bind, Action.run_say, Action.run_pure,
                Workspace.say_say]
              exact ⟨_, rfl⟩

/-! ## Entries and their files -/

/-- The files that a search of the build directory finds. -/
def foundFiles (settings : Settings) (t : FileTree) : List ClassFileRef :=
  match Scanner.start? t settings.buildDirectory with
  | none => []
  | some scanner => scanner.drain t

theorem isFile_of_mem_foundFiles {settings : Settings} {t : FileTree} {file : ClassFileRef}
    (h : file ∈ foundFiles settings t) : t.isFile file.path = true := by
  unfold foundFiles at h
  cases hstart : Scanner.start? t settings.buildDirectory with
  | none => simp [hstart] at h
  | some scanner =>
      rw [hstart] at h
      exact Scanner.isFile_of_start? hstart file h

theorem exists_of_mem_mapM {α β ε : Type} {f : α → Except ε β} {xs : List α} {ys : List β}
    (h : xs.mapM f = .ok ys) {y : β} (hy : y ∈ ys) : ∃ x ∈ xs, f x = .ok y := by
  induction xs generalizing ys with
  | nil =>
      obtain rfl := Except.ok.inj h
      simp at hy
  | cons x rest ih =>
      rw [List.mapM_cons] at h
      cases hx : f x with
      | error e => simp [hx] at h
      | ok y' =>
          cases hrest : rest.mapM f with
          | error e => simp [hx, hrest] at h
          | ok ys' =>
              simp only [hx, hrest, Except.ok.injEq, Attempt.ok_bind, Attempt.pure_eq_ok] at h
              subst h
              rcases List.mem_cons.1 hy with rfl | hy
              · exact ⟨x, List.mem_cons_self, hx⟩
              · obtain ⟨z, hz, hfz⟩ := ih hrest hy
                exact ⟨z, List.mem_cons_of_mem _ hz, hfz⟩

theorem exists_of_mapM_error {α β ε : Type} {f : α → Except ε β} {xs : List α} {e : ε}
    (h : xs.mapM f = .error e) : ∃ x ∈ xs, f x = .error e := by
  induction xs with
  | nil => cases h
  | cons x rest ih =>
      rw [List.mapM_cons] at h
      cases hx : f x with
      | error e' =>
          obtain rfl : e' = e := by simpa [hx] using h
          exact ⟨x, List.mem_cons_self, hx⟩
      | ok y =>
          cases hrest : rest.mapM f with
          | error e' =>
              obtain rfl : e' = e := by simpa [hx, hrest] using h
              obtain ⟨z, hz, hfz⟩ := ih hrest
              exact ⟨z, List.mem_cons_of_mem _ hz, hfz⟩
          | ok ys => simp [hx, hrest] at h

theorem readFile_of_examine {w : Workspace σ} {path : String} {bytes : Bytes}
    (h : w.examine path = .ok bytes) : w.files.readFile path = .ok bytes := by
  unfold Workspace.examine at h
  split at h
  · cases h
  · exact h

theorem readFile_of_reread {w : Workspace σ} {path : String} {bytes : Bytes}
    (h : w.reread path = .ok bytes) : w.files.readFile path = .ok bytes := by
  unfold Workspace.reread at h
  split at h
  · cases h
  · exact h

/-- What is known of an entry: the file it came from, the name found there, and that only what may
be rewritten is to be. -/
structure Sourced (settings : Settings) (engine : Engine σ) (w : Workspace σ) (e : ClassEntry) :
    Prop where
  found : e.file ∈ foundFiles settings w.files
  analyzed : ∃ bytes facts, w.files.readFile e.file.path = .ok bytes ∧
    engine.analyze bytes = .ok facts ∧ facts.name = e.name
  mayInstrument : e.requiresInstrumentation = true → ClassName.mayInstrument e.name = true

theorem mayInstrument_of_requires {k : Knowledge} {r : Recorded}
    (h : (k.entryOf r).requiresInstrumentation = true) :
    ClassName.mayInstrument r.facts.name = true := by
  have hrequires := (k.entryOf_classified r).requires_iff.1 (eq_of_beq h)
  simpa [RuledOut] using mt Or.inr hrequires.1

variable {settings : Settings} {engine : Engine σ} {w : Workspace σ} {db : Database}

/-- The entries of a database are those of the first classes of their names, out of a sequence of
classes that were found in files. -/
theorem entries_of_classified (h : classified settings engine w = .ok db) :
    ∃ (k : Knowledge) (calls : List Recorded),
      db.entries = (Database.Builder.recordAll {} calls).classes.map k.entryOf ∧
      ∀ r ∈ calls, ∃ file ∈ foundFiles settings w.files, recordOf engine w file = .ok (some r) := by
  unfold classified at h
  cases hstart : Scanner.start? w.files settings.buildDirectory with
  | none => simp [hstart] at h
  | some scanner =>
      cases hfound : (scanner.drain w.files).mapM (recordOf engine w) with
      | error failure => simp [hstart, hfound] at h
      | ok found =>
          obtain rfl : databaseOf settings w.files scanner.root found = db := by
            simpa [hstart, hfound] using h
          refine ⟨_, found.reduceOption, Database.Builder.entries_finish .., fun r hr => ?_⟩
          rw [foundFiles, hstart]
          exact exists_of_mem_mapM hfound (List.reduceOption_mem_iff.1 hr)

/-- The class in a file has the facts that its bytes have. -/
theorem recordOf_eq_some {file : ClassFileRef} {r : Recorded}
    (h : recordOf engine w file = .ok (some r)) : r.file = file ∧ ∃ bytes,
      w.files.readFile file.path = .ok bytes ∧ engine.analyze bytes = .ok r.facts := by
  unfold recordOf at h
  cases hread : w.examine file.path with
  | error e => simp [hread] at h
  | ok bytes =>
      cases hfacts : engine.analyze bytes with
      | error e => simp [hread, hfacts] at h
      | ok facts =>
          obtain rfl : (⟨file, facts⟩ : Recorded) = r := by
            simpa [hread, hfacts] using h
          exact ⟨rfl, bytes, readFile_of_examine hread, hfacts⟩

/-- The entries of a database come from the files that were found. -/
theorem sourced_of_classified (h : classified settings engine w = .ok db) :
    ∀ e ∈ db.entries, Sourced settings engine w e := by
  obtain ⟨k, calls, hentries, hcalls⟩ := entries_of_classified h
  intro e he
  rw [hentries] at he
  obtain ⟨r, hr, rfl⟩ := List.mem_map.1 he
  have hentry := k.entryOf_classified r
  have hcall := List.mem_of_find?_eq_some ((Database.Builder.mem_classes_recordAll calls r).1 hr)
  obtain ⟨file, hfile, hrecord⟩ := hcalls r hcall
  obtain ⟨rfl, bytes, hread, hfacts⟩ := recordOf_eq_some hrecord
  refine ⟨?_, ⟨bytes, r.facts, ?_, hfacts, hentry.name.symm⟩, fun hrequires => ?_⟩
  · rw [hentry.file]
    exact hfile
  · rw [hentry.file]
    exact hread
  · rw [hentry.name]
    exact mayInstrument_of_requires hrequires

/-- The entries of a database have different names. -/
theorem nodup_names_of_classified (h : classified settings engine w = .ok db) :
    (db.entries.map (·.name)).Nodup := by
  obtain ⟨k, calls, hentries, _⟩ := entries_of_classified h
  have hnodup := Database.Builder.nodup_names_recordAll (b := {}) List.nodup_nil calls
  have hnames : db.entries.map (·.name) = (Database.Builder.recordAll {} calls).names := by
    rw [hentries, List.map_map]
    exact List.map_congr_left fun r _ => (k.entryOf_classified r).name
  rwa [hnames]

/-- **Different entries come from different files**: what two paths to one file show is the same
class. -/
theorem entries_apart (h : classified settings engine w = .ok db) :
    db.entries.Pairwise fun e f => w.files.resolve e.file.path ≠ w.files.resolve f.file.path := by
  have hnames := List.pairwise_map.1 (nodup_names_of_classified h)
  refine hnames.imp_of_mem fun {e f} he hf hne hsame => hne ?_
  obtain ⟨bytes, facts, hread, hfacts, hname⟩ := (sourced_of_classified h e he).analyzed
  obtain ⟨bytes', facts', hread', hfacts', hname'⟩ := (sourced_of_classified h f hf).analyzed
  rw [FileTree.readFile_eq_of_resolve hsame, hread'] at hread
  obtain rfl := Except.ok.inj hread
  obtain rfl := Except.ok.inj (hfacts.symm.trans hfacts')
  exact hname.symm.trans hname'

/-- The entries that are to be rewritten. -/
def Database.todo (db : Database) : List ClassEntry :=
  db.entries.filter (·.requiresInstrumentation)

/-- The place of a class in the work list. -/
def ClassEntry.item (e : ClassEntry) : WorkItem := ⟨e.name, e.file⟩

@[simp] theorem ClassEntry.name_item (e : ClassEntry) : e.item.name = e.name := rfl

@[simp] theorem ClassEntry.file_item (e : ClassEntry) : e.item.file = e.file := rfl

theorem workList_eq (db : Database) : db.workList = db.todo.map ClassEntry.item := rfl

theorem paths_workList (db : Database) :
    (db.workList.map fun i => i.file.path) = db.todo.map fun e => e.file.path := by
  simp [Database.workList, Database.todo]

/-- The classes that are to be rewritten are in different files. -/
theorem separate_todo (h : classified settings engine w = .ok db) :
    w.files.Separate (db.todo.map fun e => e.file.path) := by
  refine ⟨fun path hpath => ?_, ?_⟩
  · obtain ⟨e, he, rfl⟩ := List.mem_map.1 hpath
    have hsourced := sourced_of_classified h e (List.mem_of_mem_filter he)
    exact FileTree.leadsToFile_of_isFile (isFile_of_mem_foundFiles hsourced.found)
  · rw [List.pairwise_map]
    exact (entries_apart h).sublist List.filter_sublist

/-! ## Entries and their names -/

/-- The class files that are found name their classes with slashes only. -/
def SlashNamed (settings : Settings) (engine : Engine σ) (w : Workspace σ) : Prop :=
  ∀ file ∈ foundFiles settings w.files, ∀ bytes facts, w.files.readFile file.path = .ok bytes →
    engine.analyze bytes = .ok facts → '.' ∉ facts.name.toList

theorem slashNamed_iff {settings : Settings} {engine : Engine σ} {w : Workspace σ} :
    SlashNamed settings engine w ↔ ∀ file ∈ foundFiles settings w.files,
      ∀ bytes ∈ (w.files.readFile file.path).toOption,
        ∀ facts ∈ (engine.analyze bytes).toOption, '.' ∉ facts.name.toList := by
  simp only [SlashNamed, Option.mem_def, Attempt.toOption_eq_some_iff]
  refine forall₂_congr fun file _ => forall_congr' fun bytes => ?_
  exact ⟨fun h hread facts => h facts hread, fun h facts hread => h hread facts⟩

instance (settings : Settings) (engine : Engine σ) (w : Workspace σ) :
    Decidable (SlashNamed settings engine w) :=
  decidable_of_iff' _ slashNamed_iff

/-- An entry is found under its own name exactly when that has no dots. -/
theorem get?_self_iff (h : classified settings engine w = .ok db) {e : ClassEntry}
    (he : e ∈ db.entries) : db.get? e.name = some e ↔ '.' ∉ e.name.toList := by
  rw [← ClassName.internal_eq_self_iff]
  constructor
  · intro hget
    exact (eq_of_beq (List.find?_some hget :)).symm
  · intro hname
    rw [Database.get?, hname]
    exact find?_key_of_mem (nodup_names_of_classified h) he

end FiberWeave
