import FiberWeave.Proofs.Classification
import FiberWeave.Proofs.LinkFree

/-!
# Classifying in another order

If the class files of a build directory are of different classes, no class is passed over for
another one, and what is decided about a class depends on which others there are, not on when they
were found.

* `Attempt.Parallel` — two attempts that both fail, or give related results;
  **`parallel_mapM_perm`** — the same steps in two orders are such.
* `ClassesApart` — no two class files that are found are of one class.
* `Database.Builder.classes_recordAll_of_nodup` — then all classes are recorded.
* `Database.Reordered` — a database with the same entries; `Database.Reordered.get?`.
* **`classified_reordered`** — a classification of a tree whose directories list their names in
  another order.
-/

namespace FiberWeave

open FileTree (Reordered)

/-! ## The same steps in two orders -/

namespace Attempt

variable {ε α β γ ι : Type} {r : α → β → Prop}

/-- Two attempts that both fail, for whatever reasons, or give related results. -/
inductive Parallel (r : α → β → Prop) : Except ε α → Except ε β → Prop where
  | error (e e' : ε) : Parallel r (.error e) (.error e')
  | ok {a : α} {b : β} (h : r a b) : Parallel r (.ok a) (.ok b)

theorem Parallel.elim {a : Except ε α} {b : Except ε β} (h : Parallel r a b) :
    (∃ e e', a = .error e ∧ b = .error e') ∨ ∃ x y, a = .ok x ∧ b = .ok y ∧ r x y := by
  cases h with
  | error e e' => exact .inl ⟨e, e', rfl, rfl⟩
  | ok hab => exact .inr ⟨_, _, rfl, rfl, hab⟩

theorem Parallel.map {α' β' : Type} {r' : α' → β' → Prop} {f : α → α'} {g : β → β'}
    {a : Except ε α} {b : Except ε β} (h : Parallel r a b)
    (hfg : ∀ x y, a = .ok x → b = .ok y → r x y → r' (f x) (g y)) :
    Parallel r' (a.map f) (b.map g) := by
  cases h with
  | error e e' => exact .error e e'
  | ok hab => exact .ok (hfg _ _ rfl rfl hab)

theorem Parallel.trans {s : β → γ → Prop} {q : α → γ → Prop} {a : Except ε α} {b : Except ε β}
    {c : Except ε γ} (h : Parallel r a b) (h' : Parallel s b c)
    (hrs : ∀ x y z, r x y → s y z → q x z) : Parallel q a c := by
  cases h with
  | error e e' =>
      cases h' with
      | error _ e'' => exact .error e e''
  | ok hab =>
      cases h' with
      | ok hbc => exact .ok (hrs _ _ _ hab hbc)

theorem mapM_congr {f g : ι → Except ε α} {xs : List ι} (h : ∀ x ∈ xs, g x = f x) :
    xs.mapM g = xs.mapM f := by
  induction xs with
  | nil => rfl
  | cons x rest ih =>
      rw [List.mapM_cons, List.mapM_cons, h x List.mem_cons_self,
        ih fun y hy => h y (List.mem_cons_of_mem _ hy)]

/-- **The same steps in two orders** both fail, or give the same results in two orders. -/
theorem parallel_mapM_perm (f : ι → Except ε α) {xs ys : List ι} (h : xs.Perm ys) :
    Parallel List.Perm (xs.mapM f) (ys.mapM f) := by
  induction h with
  | nil => exact .ok .nil
  | @cons x xs ys _ ih =>
      rw [List.mapM_cons, List.mapM_cons]
      cases f x with
      | error e => exact .error e e
      | ok a =>
          generalize xs.mapM f = later, ys.mapM f = later' at ih
          cases ih with
          | error e e' => exact .error e e'
          | ok hlater => exact .ok (hlater.cons a)
  | swap x y xs =>
      simp only [List.mapM_cons]
      cases f x with
      | error e =>
          cases f y with
          | error e' => exact .error e' e
          | ok b => exact .error e e
      | ok a =>
          cases f y with
          | error e => exact .error e e
          | ok b =>
              cases xs.mapM f with
              | error e => exact .error e e
              | ok later => exact .ok (.swap a b later)
  | trans _ _ ih ih' => exact ih.trans ih' fun _ _ _ => List.Perm.trans

end Attempt

/-! ## Recording different classes -/

namespace Database.Builder

/-- Classes of different names are all recorded. -/
theorem classes_recordAll_of_nodup {b : Builder} {calls : List Recorded}
    (h : (b.names ++ calls.map (·.facts.name)).Nodup) :
    (b.recordAll calls).classes = b.classes ++ calls := by
  induction calls generalizing b with
  | nil => simp [recordAll]
  | cons r rest ih =>
      have hfree : r.facts.name ∉ b.names := fun hmem =>
        (List.nodup_append'.1 h).2.2 hmem List.mem_cons_self
      have hrest : ((b.record r).names ++ rest.map (·.facts.name)).Nodup := by
        rw [record_of_not_mem hfree]
        simpa [names] using h
      calc ((b.record r).recordAll rest).classes
          = (b.record r).classes ++ rest := ih hrest
        _ = b.classes ++ r :: rest := by rw [record_of_not_mem hfree]; simp

variable {b b' : Builder} {cp : ClassPath} {t t' : FileTree}

/-- What decisions draw on is what names find. -/
theorem knowledge_congr (hfind : ∀ name, b'.find? name = b.find? name)
    (hfacts : ∀ name, cp.facts? t' name = cp.facts? t name) (lists : MethodLists) :
    b'.knowledge cp t' lists = b.knowledge cp t lists := by
  have hhierarchy : b'.hierarchy cp t' = b.hierarchy cp t := by
    rw [hierarchy, hierarchy, Hierarchy.mk.injEq]
    funext name
    rw [hfind, hfacts]
  rw [knowledge, knowledge, hhierarchy]

end Database.Builder

/-! ## Databases in another order -/

/-- The same entries in another order. -/
structure Database.Reordered (db db' : Database) : Prop where
  scanned : db'.scanned = db.scanned
  entries : db'.entries.Perm db.entries
  classPath : db'.classPath = db.classPath

theorem Database.Reordered.get? {db db' : Database} (h : db.Reordered db')
    (hnames : (db.entries.map (·.name)).Nodup) (name : String) : db'.get? name = db.get? name :=
  find?_key_perm h.entries hnames _

theorem Database.Reordered.workList {db db' : Database} (h : db.Reordered db') :
    db'.workList.Perm db.workList := (h.entries.filter _).map _

variable {σ : Type} {settings : Settings} {engine : Engine σ} {w : Workspace σ} {t' : FileTree}

theorem databaseOf_reordered {t t' : FileTree} (h : t.Reordered t') (ht : t.WellFormed)
    (root : String) {found found' : List (Option Recorded)} (hfound : found'.Perm found)
    (hnames : (found.reduceOption.map (·.facts.name)).Nodup) :
    (databaseOf settings t root found).Reordered (databaseOf settings t' root found') := by
  have halike := h.alike ht.distinct
  have hcalls : found'.reduceOption.Perm found.reduceOption := hfound.filterMap id
  have hnames' : (found'.reduceOption.map (·.facts.name)).Nodup :=
    (hcalls.map _).nodup_iff.2 hnames
  have hclasses := Database.Builder.classes_recordAll_of_nodup (b := {}) hnames
  have hclasses' := Database.Builder.classes_recordAll_of_nodup (b := {}) hnames'
  simp only [databaseOf, ClassPath.ofPaths_reordered h ht, ClassPath.methodLists_alike halike]
  refine ⟨hfound.length_eq, ?_, rfl⟩
  rw [Database.Builder.entries_finish, Database.Builder.entries_finish]
  simp only [hclasses, hclasses']
  rw [Database.Builder.knowledge_congr (fun name => ?_) (ClassPath.facts?_alike halike _)]
  · exact hcalls.map _
  · exact find?_key_perm hcalls hnames name

/-! ## Classifications -/

/-- The name of the class in the file at a path, if it is a class file. -/
def FileTree.classAt? (t : FileTree) (path : String) : Option String :=
  (t.readFile path).toOption.bind fun bytes => (ClassFacts.analyze bytes).toOption.map (·.name)

/-- No two class files that are found are of one class. -/
def ClassesApart (settings : Settings) (t : FileTree) : Prop :=
  ((foundFiles settings t).filterMap fun file => t.classAt? file.path).Nodup

theorem name_recordOf (hanalyze : engine.analyze = ClassFacts.analyze) {file : ClassFileRef}
    {r : Option Recorded} (h : recordOf engine w file = .ok r) :
    r.map (·.facts.name) = w.files.classAt? file.path := by
  unfold recordOf at h
  cases hread : w.examine file.path with
  | error e => simp [hread] at h
  | ok bytes =>
      obtain rfl : (ClassFacts.analyze bytes).toOption.map (fun facts => ⟨file, facts⟩) = r := by
        simpa [hread, hanalyze] using h
      rw [FileTree.classAt?, readFile_of_examine hread, Attempt.toOption_ok, Option.bind_some,
        Option.map_map]
      rfl

/-- The classes that are recorded are those in the files. -/
theorem names_records (hanalyze : engine.analyze = ClassFacts.analyze) {files : List ClassFileRef}
    {found : List (Option Recorded)} (h : files.mapM (recordOf engine w) = .ok found) :
    found.reduceOption.map (·.facts.name) =
      files.filterMap fun file => w.files.classAt? file.path := by
  induction files generalizing found with
  | nil =>
      obtain rfl := Except.ok.inj h
      rfl
  | cons file rest ih =>
      rw [List.mapM_cons] at h
      cases hfile : recordOf engine w file with
      | error e => simp [hfile] at h
      | ok r =>
          cases hrest : rest.mapM (recordOf engine w) with
          | error e => simp [hfile, hrest] at h
          | ok later =>
              obtain rfl : r :: later = found := by simpa [hfile, hrest] using h
              have hname := name_recordOf hanalyze hfile
              rw [reduceOption_cons, List.map_append, ih hrest, List.filterMap_cons, ← hname]
              cases r <;> rfl

/-- **A classification does not depend on the order** in which directories list their names. -/
theorem classified_reordered (hanalyze : engine.analyze = ClassFacts.analyze)
    (ht : w.files.WellFormed)
    (hfree : ∀ root, w.files.resolve settings.buildDirectory = .ok root → w.files.LinkFree root)
    (hapart : ClassesApart settings w.files) (h : w.files.Reordered t') :
    Attempt.Parallel Database.Reordered (classified settings engine w)
      (classified settings engine { w with files := t' }) := by
  have halike := h.alike ht.distinct
  unfold classified
  cases hstart : Scanner.start? w.files settings.buildDirectory with
  | none =>
      have hstart' : Scanner.start? t' settings.buildDirectory = none := by
        simp only [Scanner.start?, halike.resolve, halike.isDirectoryAt]
        exact hstart
      simp only [hstart']
      exact .error _ _
  | some scanner =>
      obtain ⟨hstart', hfiles⟩ := Scanner.drain_reordered h ht hfree hstart
      have hrecord : recordOf engine { w with files := t' } = recordOf engine w := by
        funext file
        simp only [recordOf, Workspace.examine, halike.readFile]
      simp only [hstart', hrecord]
      refine (Attempt.parallel_mapM_perm (recordOf engine w) hfiles.symm).map
        fun found found' hfound _ hperm => ?_
      refine databaseOf_reordered h ht _ hperm.symm ?_
      rw [names_records hanalyze hfound]
      rwa [ClassesApart, foundFiles, hstart] at hapart

end FiberWeave
