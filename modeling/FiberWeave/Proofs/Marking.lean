import FiberWeave.Proofs.ClassPathAgain
import FiberWeave.Proofs.Rereading
import FiberWeave.Proofs.Suspension

/-!
# Classifying again after classes were marked

A rewritten class says of itself that it was rewritten, and says what it said before otherwise.  No
rule about suspension asks for the mark of another class; so the entries of a second classification
are those of the first, but for the marks and for what follows from them: a marked class needs not
be rewritten.

* `Marks`, `MarksBytes` — facts and class files before and after.
* `Agree` — two ways to find classes that differ in marks only; `Agree.inherits_iff`,
  `Agree.callSuspends_iff`, `Agree.methodSuspends_iff` — the rules do not tell them apart.
* `Settled`, **`Knowledge.entryOf_again`** — the entry of a class before and after.
* `consults` — what a run looks at. `PlainSources` — that nothing is a class file that a class path is
  made from: no list of methods, no jar and no ignore file.
* **`classified_again`** — the database of a second classification.
-/

namespace FiberWeave

open FileTree (Revised)

/-! ## Marks -/

/-- The facts of a class that was rewritten. -/
def ClassFacts.marked (facts : ClassFacts) : ClassFacts := { facts with instrumented := true }

/-- The facts of a class that was left alone or rewritten. -/
def Marks (facts facts' : ClassFacts) : Prop := facts' = facts ∨ facts' = facts.marked

/-- Class files of which the second one is the first one rewritten. -/
def MarksBytes (old new : Bytes) : Prop :=
  ∃ facts, ClassFacts.analyze old = .ok facts ∧ ClassFacts.analyze new = .ok facts.marked

namespace Marks

variable {facts facts' : ClassFacts}

theorem refl (facts : ClassFacts) : Marks facts facts := .inl rfl

theorem name (h : Marks facts facts') : facts'.name = facts.name := by
  rcases h with rfl | rfl <;> rfl

theorem supertypes (h : Marks facts facts') : facts'.supertypes = facts.supertypes := by
  rcases h with rfl | rfl <;> rfl

theorem methods (h : Marks facts facts') : facts'.methods = facts.methods := by
  rcases h with rfl | rfl <;> rfl

theorem declares_iff (h : Marks facts facts') {name descriptor : String} :
    Declares facts' name descriptor ↔ Declares facts name descriptor := by
  simp only [Declares, ClassFacts.method?, h.methods]

/-- A class without the mark was left alone. -/
theorem eq_of_not_instrumented (h : Marks facts facts') (hmark : facts'.instrumented = false) :
    facts' = facts := by
  rcases h with rfl | rfl
  · rfl
  · cases hmark

end Marks

theorem carries_marks : Carries MarksBytes Marks where
  refl := Marks.refl
  name _ _ h := h.name
  analyze _ _ h := by
    obtain ⟨facts, hold, hnew⟩ := h
    exact ⟨facts, facts.marked, hold, hnew, .inr rfl⟩

/-- What is no class file is not rewritten. -/
theorem not_marksBytes {data : Bytes} (h : (ClassFacts.analyze data).toOption = none) (new : Bytes) :
    ¬MarksBytes data new := by
  rintro ⟨facts, hold, _⟩
  simp [hold] at h

/-! ## The rules -/

/-- The other classes that a class mentions: its supertypes and the owners of methods it calls. -/
def ClassFacts.mentions (facts : ClassFacts) : List String :=
  facts.supertypes ++ facts.methods.flatMap fun m => m.calls.map fun call => call.target.owner

/-- Two ways to find classes, which differ in marks only as far as some names go. These are all
names that lead on from them. -/
structure Agree (names : List String) (find find' : String → Option ClassFacts) : Prop where
  related : ∀ name ∈ names, Option.Rel Marks (find name) (find' name)
  closed : ∀ name facts, find name = some facts → ∀ s ∈ facts.supertypes, s ∈ names

namespace Agree

variable {names : List String} {find find' : String → Option ClassFacts} {lists : MethodLists}
  {facts facts' : ClassFacts} {name descriptor x : String}

theorem found (h : Agree names find find') (hx : x ∈ names) (hfind : find x = some facts) :
    ∃ facts', find' x = some facts' ∧ Marks facts facts' := by
  have hrelated := h.related x hx
  rw [hfind] at hrelated
  generalize find' x = answer at hrelated
  cases hrelated with
  | some hmarks => exact ⟨_, rfl, hmarks⟩

theorem found_back (h : Agree names find find') (hx : x ∈ names) (hfind : find' x = some facts') :
    ∃ facts, find x = some facts ∧ Marks facts facts' := by
  have hrelated := h.related x hx
  rw [hfind] at hrelated
  generalize find x = answer at hrelated
  cases hrelated with
  | some hmarks => exact ⟨_, rfl, hmarks⟩

theorem mem_of_above (h : Agree names find find') (hfacts : ∀ s ∈ facts.supertypes, s ∈ names)
    (hx : Above find facts x) : x ∈ names := by
  cases hx with
  | direct hs => exact hfacts x hs
  | further _ hf hs => exact h.closed _ _ hf x hs

theorem above_iff (h : Agree names find find') (hfacts : ∀ s ∈ facts.supertypes, s ∈ names)
    (hmarks : Marks facts facts') : Above find' facts' x ↔ Above find facts x := by
  constructor
  · intro hx
    induction hx with
    | direct hs => exact .direct (hmarks.supertypes ▸ hs)
    | further _ hf hs ih =>
        obtain ⟨f, hf, hsame⟩ := h.found_back (h.mem_of_above hfacts ih) hf
        exact .further ih hf (hsame.supertypes ▸ hs)
  · intro hx
    induction hx with
    | direct hs => exact .direct (hmarks.supertypes.symm ▸ hs)
    | further hx hf hs ih =>
        obtain ⟨f, hf, hsame⟩ := h.found (h.mem_of_above hfacts hx) hf
        exact .further ih hf (hsame.supertypes.symm ▸ hs)

theorem inherits_iff (h : Agree names find find') (hfacts : ∀ s ∈ facts.supertypes, s ∈ names)
    (hmarks : Marks facts facts') :
    Inherits find' lists facts' name descriptor ↔ Inherits find lists facts name descriptor := by
  refine exists_congr fun x => ?_
  rw [h.above_iff hfacts hmarks]
  refine and_congr_right fun hx => or_congr_right ?_
  constructor
  · rintro ⟨f', hf', hpasses⟩
    obtain ⟨f, hf, hsame⟩ := h.found_back (h.mem_of_above hfacts hx) hf'
    exact ⟨f, hf, hpasses.imp_left hsame.declares_iff.1⟩
  · rintro ⟨f, hf, hpasses⟩
    obtain ⟨f', hf', hsame⟩ := h.found (h.mem_of_above hfacts hx) hf
    exact ⟨f', hf', hpasses.imp_left hsame.declares_iff.2⟩

/-- A method is suspendable as before. -/
theorem methodSuspends_iff (h : Agree names find find')
    (hfacts : ∀ s ∈ facts.supertypes, s ∈ names) (m : MethodFacts) :
    MethodSuspends find' lists facts m ↔ MethodSuspends find lists facts m := by
  simp only [MethodSuspends, h.inherits_iff hfacts (.refl facts)]

/-- A call suspends as before. -/
theorem callSuspends_iff (h : Agree names find find') {target : MemberRef}
    (howner : target.owner ∈ names) :
    CallSuspends find' lists target ↔ CallSuspends find lists target := by
  refine or_congr_right (or_congr_right ?_)
  constructor
  · rintro ⟨owner', hfind', hsuspends⟩
    obtain ⟨owner, hfind, hsame⟩ := h.found_back howner hfind'
    exact ⟨owner, hfind, hsuspends.imp hsame.declares_iff.1
      (h.inherits_iff (h.closed _ _ hfind) hsame).1⟩
  · rintro ⟨owner, hfind, hsuspends⟩
    obtain ⟨owner', hfind', hsame⟩ := h.found howner hfind
    exact ⟨owner', hfind', hsuspends.imp hsame.declares_iff.2
      (h.inherits_iff (h.closed _ _ hfind) hsame).2⟩

end Agree

/-! ## Entries -/

/-- The entry of a class before and after: it is the same, or the class needs not be rewritten. -/
structure Settled (e e' : ClassEntry) : Prop where
  name : e'.name = e.name
  file : e'.file = e.file
  requires : e'.requiresInstrumentation = true → e' = e

namespace Knowledge

variable {k k' : Knowledge} {names : List String}

theorem judge_again (h : Agree names k.hierarchy.facts? k'.hierarchy.facts?)
    (hlists : k'.lists = k.lists) {facts : ClassFacts} (hnames : ∀ s ∈ facts.mentions, s ∈ names)
    {m : MethodFacts} (hm : m ∈ facts.methods) : k'.judge facts m = k.judge facts m := by
  have hfacts : ∀ s ∈ facts.supertypes, s ∈ names := fun s hs =>
    hnames s (List.mem_append_left _ hs)
  have hcalls : ∀ call ∈ m.calls, call.target.owner ∈ names := fun call hcall =>
    hnames _ (List.mem_append_right _ (List.mem_flatMap.2 ⟨m, hm, List.mem_map_of_mem hcall⟩))
  refine judge_congr ?_ fun call hcall => ?_
  · rw [hlists, h.methodSuspends_iff hfacts m]
  · rw [hlists, h.callSuspends_iff (hcalls call hcall)]

/-- **The entry of a class** is as before, if the class is not marked. -/
theorem entryOf_again (h : Agree names k.hierarchy.facts? k'.hierarchy.facts?)
    (hlists : k'.lists = k.lists) {r r' : Recorded} (hr : Recorded.Related Marks r r')
    (hnames : ∀ s ∈ r.facts.mentions, s ∈ names) : Settled (k.entryOf r) (k'.entryOf r') := by
  have hentry := k.entryOf_classified r
  have hentry' := k'.entryOf_classified r'
  refine ⟨?_, ?_, fun hrequires => ?_⟩
  · rw [hentry.name, hentry'.name, hr.facts.name]
  · rw [hentry.file, hentry'.file, hr.file]
  · have hfacts : r'.facts = r.facts :=
      hr.facts.eq_of_not_instrumented (hentry'.requires_iff.1 (eq_of_beq hrequires)).2.1
    obtain rfl : r' = r := by
      cases r
      cases r'
      exact (Recorded.mk.injEq ..).mpr ⟨hr.file, hfacts⟩
    have hjudged : r'.facts.methods.map (k'.judge r'.facts) =
        r'.facts.methods.map (k.judge r'.facts) :=
      List.map_congr_left fun m hm => judge_again h hlists hnames hm
    rw [entryOf, entryOf, hjudged]

end Knowledge

/-! ## What a run looks at -/

namespace FileTree

/-- The classes that class files in a tree mention. -/
def mentioned (t : FileTree) : List String :=
  t.allBytes.flatMap fun bytes =>
    match ClassFacts.analyze bytes with
    | .ok facts => facts.mentions
    | .error _ => []

variable {t : FileTree} {bytes : Bytes} {facts : ClassFacts} {path s : String}

theorem mem_mentioned (h : bytes ∈ t.allBytes) (hfacts : ClassFacts.analyze bytes = .ok facts)
    (hs : s ∈ facts.mentions) : s ∈ t.mentioned :=
  List.mem_flatMap.2 ⟨bytes, h, by simpa [hfacts] using hs⟩

theorem mem_allBytes_of_readFile (h : t.readFile path = .ok bytes) : bytes ∈ t.allBytes := by
  obtain ⟨goal, hresolve, content, mode, he⟩ := isFile_iff.1 (isFile_of_readFile h)
  have hread : Entry.mayRead mode = true :=
    mayRead_of_readFile h (by simp [modeAt, stat, hresolve, he])
  obtain rfl : content.toBytes = bytes := by
    simpa [readFile, contentAt, stat, hresolve, he, hread] using h
  exact (ClassPath.mem_allBytes_of_get? he).1

end FileTree

/-- The places in which a run looks classes up: the build directory and the class path. -/
def places (settings : Settings) (t : FileTree) : List String :=
  match Scanner.start? t settings.buildDirectory with
  | none => []
  | some scanner => scanner.root :: settings.classPath

/-- The class path of a run. -/
def classPathOf (settings : Settings) (t : FileTree) : ClassPath :=
  ClassPath.ofPaths t (places settings t)

/-- The names of the lists of methods. -/
def listNames : List String := [MethodLists.suspendablesResource, MethodLists.supersResource]

/-- The resources that a run may look up: lists of methods, and classes that others mention. -/
def wanted (t : FileTree) : List String := listNames ++ t.mentioned.map ClassName.filePath

/-- The ignore files that a run may read. -/
def rulePaths (settings : Settings) (t : FileTree) : List String :=
  (places settings t).flatMap t.ignoreFiles

/-- The jars of a class path. -/
def ClassPath.jars (cp : ClassPath) : List String :=
  cp.entries.filterMap fun
    | .directory _ => none
    | .jar path => some path

/-- The paths that a run may look at. -/
def consults (settings : Settings) (t : FileTree) : List String :=
  looksAt settings t ++ (places settings t ++ (rulePaths settings t ++
    (classPathOf settings t).looksAt (wanted t)))

theorem places_subset_consults (settings : Settings) (t : FileTree) :
    places settings t ⊆ consults settings t := fun _ h =>
  List.mem_append_right _ (List.mem_append_left _ h)

theorem rulePaths_subset_consults (settings : Settings) (t : FileTree) :
    rulePaths settings t ⊆ consults settings t := fun _ h =>
  List.mem_append_right _ (List.mem_append_right _ (List.mem_append_left _ h))

theorem looksAt_subset_consults (settings : Settings) (t : FileTree) :
    (classPathOf settings t).looksAt (wanted t) ⊆ consults settings t := fun _ h =>
  List.mem_append_right _ (List.mem_append_right _ (List.mem_append_right _ h))

/-- Nothing is a class file that the class path of a run is made from. -/
structure PlainSources (settings : Settings) (t : FileTree) : Prop where
  /-- No list of methods is. -/
  lists : ∀ name ∈ listNames, ∀ data ∈ (classPathOf settings t).resources t name,
    (ClassFacts.analyze data).toOption = none
  /-- No jar and no ignore file is. -/
  files : ∀ path ∈ (classPathOf settings t).jars ++ rulePaths settings t,
    ∀ data ∈ (t.readFile path).toOption, (ClassFacts.analyze data).toOption = none

instance (settings : Settings) (t : FileTree) : Decidable (PlainSources settings t) :=
  decidable_of_iff
    ((∀ name ∈ listNames, ∀ data ∈ (classPathOf settings t).resources t name,
        (ClassFacts.analyze data).toOption = none) ∧
      ∀ path ∈ (classPathOf settings t).jars ++ rulePaths settings t,
        ∀ data ∈ (t.readFile path).toOption, (ClassFacts.analyze data).toOption = none)
    ⟨fun h => ⟨h.1, h.2⟩, fun h => ⟨h.lists, h.files⟩⟩

section Sources

variable {settings : Settings} {t : FileTree} {path : String}
  (hplain : PlainSources settings t) (hnear : ∀ path ∈ consults settings t, ¬t.TooFar path)

include hplain hnear

theorem lasting_of_plain (hpath : path ∈ (classPathOf settings t).jars ++ rulePaths settings t)
    (hlooks : path ∈ consults settings t) : t.Lasting MarksBytes path :=
  ⟨hnear path hlooks, fun data hdata => not_marksBytes
    (hplain.files path hpath data (Attempt.toOption_eq_some_iff.2 hdata))⟩

theorem lasting_rules (hpath : path ∈ rulePaths settings t) : t.Lasting MarksBytes path :=
  lasting_of_plain hplain hnear (List.mem_append_right _ hpath)
    (rulePaths_subset_consults settings t hpath)

theorem lasting_jar (hjar : .jar path ∈ (classPathOf settings t).entries) :
    t.Lasting MarksBytes path := by
  have hlooks : path ∈ (classPathOf settings t).looksAt (wanted t) :=
    List.mem_flatMap.2 ⟨_, hjar, List.mem_singleton_self path⟩
  have hpath : path ∈ (classPathOf settings t).jars := List.mem_filterMap.2 ⟨_, hjar, rfl⟩
  exact lasting_of_plain hplain hnear (List.mem_append_left _ hpath)
    (looksAt_subset_consults settings t hlooks)

end Sources

/-! ## The whole database -/

section Database

variable {settings : Settings} {t t' : FileTree}

theorem places_eq {scanner : Scanner}
    (hstart : Scanner.start? t settings.buildDirectory = some scanner) :
    places settings t = scanner.root :: settings.classPath := by
  rw [places, hstart]

variable (v : Revised MarksBytes t t') (hlocations : t'.locations = t.locations)
  (ht : t.WellFormed)

include v hlocations ht

/-- A class that some class mentions is found again, with a mark perhaps. -/
theorem ClassPath.facts?_again {cp : ClassPath}
    (hnear : ∀ path ∈ cp.looksAt (wanted t), ¬t.TooFar path)
    (hjars : ∀ path, .jar path ∈ cp.entries → t.Lasting MarksBytes path) {name : String}
    (hname : name ∈ t.mentioned) : Option.Rel Marks (cp.facts? t name) (cp.facts? t' name) := by
  have hwanted : ClassName.filePath name ∈ wanted t :=
    List.mem_append_right _ (List.mem_map_of_mem hname)
  have hdata := cp.resource?_revised v hlocations ht hwanted hnear hjars
  simp only [facts?, class?, bind]
  generalize cp.resource? t (ClassName.filePath name) = data,
    cp.resource? t' (ClassName.filePath name) = data' at hdata
  cases hdata with
  | none => exact .none
  | some hrelated => exact carries_marks.toOption hrelated

/-- The lists of methods say what they said. -/
theorem ClassPath.methodLists_again (hplain : PlainSources settings t)
    (hnear : ∀ path ∈ (classPathOf settings t).looksAt (wanted t), ¬t.TooFar path)
    (hjars : ∀ path, .jar path ∈ (classPathOf settings t).entries → t.Lasting MarksBytes path) :
    (classPathOf settings t).methodLists t' = (classPathOf settings t).methodLists t := by
  have hsame : ∀ name ∈ listNames,
      (classPathOf settings t).resources t' name = (classPathOf settings t).resources t name := by
    intro name hname
    exact ClassPath.resources_revised v hlocations ht (List.mem_append_left _ hname) hnear hjars
      fun data hdata => not_marksBytes (hplain.lists name hname data hdata)
  rw [methodLists, methodLists, hsame _ (by simp [listNames]), hsame _ (by simp [listNames])]

/-- Recorded classes and those on the class path are found again. -/
theorem Database.Builder.agree {b b' : Builder} {cp : ClassPath}
    (hclasses : List.Forall₂ (Recorded.Related Marks) b.classes b'.classes)
    (hmentions : ∀ r ∈ b.classes, ∀ s ∈ r.facts.mentions, s ∈ t.mentioned)
    (hnear : ∀ path ∈ cp.looksAt (wanted t), ¬t.TooFar path)
    (hjars : ∀ path, .jar path ∈ cp.entries → t.Lasting MarksBytes path) :
    Agree t.mentioned (b.hierarchy cp t).facts? (b'.hierarchy cp t').facts? := by
  constructor
  case related =>
    intro name hname
    have hfound := find?_related carries_marks hclasses name
    rw [facts?_hierarchy, facts?_hierarchy]
    generalize b.find? name = found, b'.find? name = found' at hfound
    cases hfound with
    | none => exact ClassPath.facts?_again v hlocations ht hnear hjars hname
    | some hr => exact .some hr.facts
  case closed =>
    intro name facts hfind s hs
    rw [facts?_hierarchy] at hfind
    cases hfound : b.find? name with
    | some r =>
        obtain rfl : r.facts = facts := by simpa [hfound] using hfind
        exact hmentions r (List.mem_of_find?_eq_some hfound) s (List.mem_append_left _ hs)
    | none =>
        obtain ⟨bytes, hbytes, hanalyze⟩ : ∃ bytes, cp.class? t name = some bytes ∧
            (ClassFacts.analyze bytes).toOption = some facts := by
          simpa [hfound, ClassPath.facts?, Option.bind_eq_some_iff] using hfind
        exact FileTree.mem_mentioned (ClassPath.class?_mem hbytes)
          (Attempt.toOption_eq_some_iff.1 hanalyze) (List.mem_append_left _ hs)

/-- The entries of recorded classes, before and after. -/
theorem Database.Builder.entries_again {b b' : Builder} {cp : ClassPath}
    (hclasses : List.Forall₂ (Recorded.Related Marks) b.classes b'.classes)
    (hmentions : ∀ r ∈ b.classes, ∀ s ∈ r.facts.mentions, s ∈ t.mentioned)
    (hnear : ∀ path ∈ cp.looksAt (wanted t), ¬t.TooFar path)
    (hjars : ∀ path, .jar path ∈ cp.entries → t.Lasting MarksBytes path) (lists : MethodLists) :
    List.Forall₂ Settled (b.finish cp t lists).entries (b'.finish cp t' lists).entries := by
  have hagree : Agree t.mentioned (b.knowledge cp t lists).hierarchy.facts?
      (b'.knowledge cp t' lists).hierarchy.facts? :=
    agree v hlocations ht hclasses hmentions hnear hjars
  rw [entries_finish, entries_finish, List.forall₂_map_left_iff, List.forall₂_map_right_iff]
  exact ((List.forall₂_and_left b.classes b'.classes).2 ⟨hmentions, hclasses⟩).imp
    fun r r' ⟨hr, hrelated⟩ => Knowledge.entryOf_again hagree rfl hrelated hr

/-- The databases of classes in files, before and after. -/
theorem entries_databaseOf_again {scanner : Scanner} {found found' : List (Option Recorded)}
    (hstart : Scanner.start? t settings.buildDirectory = some scanner)
    (hfound : List.Forall₂ (Option.Rel (Recorded.Related Marks)) found found')
    (hmentions : ∀ r ∈ found.reduceOption, ∀ s ∈ r.facts.mentions, s ∈ t.mentioned)
    (hplain : PlainSources settings t) (hnear : ∀ path ∈ consults settings t, ¬t.TooFar path) :
    List.Forall₂ Settled (databaseOf settings t scanner.root found).entries
      (databaseOf settings t' scanner.root found').entries := by
  have hplaces : ∀ path ∈ scanner.root :: settings.classPath, ¬t.TooFar path := by
    intro path hpath
    rw [← places_eq hstart] at hpath
    exact hnear path (places_subset_consults settings t hpath)
  have hlooks : ∀ path ∈ (classPathOf settings t).looksAt (wanted t), ¬t.TooFar path :=
    fun path hpath => hnear path (looksAt_subset_consults settings t hpath)
  have hrules : ∀ rules ∈ (scanner.root :: settings.classPath).flatMap t.ignoreFiles,
      t.Lasting MarksBytes rules := by
    rw [← places_eq hstart]
    exact fun rules hmem => lasting_rules hplain hnear hmem
  have hjars : ∀ path, .jar path ∈ (classPathOf settings t).entries → t.Lasting MarksBytes path :=
    fun path hpath => lasting_jar hplain hnear hpath
  have hclassPath : ClassPath.ofPaths t (scanner.root :: settings.classPath) =
      classPathOf settings t := by rw [classPathOf, places_eq hstart]
  have hclasses := Database.Builder.classes_recorded_related carries_marks
    (forall₂_reduceOption hfound)
  have hrecorded : ∀ r ∈ (Database.Builder.recordAll {} found.reduceOption).classes,
      ∀ s ∈ r.facts.mentions, s ∈ t.mentioned := fun r hr =>
    hmentions r (List.mem_of_find?_eq_some ((Database.Builder.mem_classes_recordAll _ r).1 hr))
  rw [databaseOf, databaseOf, ClassPath.ofPaths_revised v hlocations ht hplaces hrules, hclassPath,
    ClassPath.methodLists_again v hlocations ht hplain hlooks hjars]
  exact Database.Builder.entries_again v hlocations ht hclasses hrecorded hlooks hjars _

end Database

/-- **The database of a second classification** has the entries of the first one, but for classes
that need not be rewritten now. -/
theorem classified_again {σ : Type} {settings : Settings} {engine : Engine σ} {w again : Workspace σ}
    (hdefault : engine.analyze = ClassFacts.analyze) (v : Revised MarksBytes w.files again.files)
    (hfaults : again.faults = w.faults) (hlocations : again.files.locations = w.files.locations)
    (ht : w.files.WellFormed) (hplain : PlainSources settings w.files)
    (hnear : ∀ path ∈ consults settings w.files, ¬w.files.TooFar path) {db : Database}
    (hdb : classified settings engine w = .ok db) :
    ∃ db', classified settings engine again = .ok db' ∧
      List.Forall₂ Settled db.entries db'.entries := by
  have hlisted := FileTree.children_of_locations hlocations
  have hstart := start?_revised v hlisted settings.buildDirectory
  cases hscanner : Scanner.start? w.files settings.buildDirectory with
  | none => simp [classified, hscanner] at hdb
  | some scanner =>
      rw [hscanner] at hstart
      rw [classified_eq hscanner] at hdb
      rw [classified_eq hstart]
      have hrecords := recordsOf_revised carries_marks hdefault v hfaults hlisted ht fun path hpath =>
        hnear path (List.mem_append_left _ hpath)
      cases hfound : recordsOf settings engine w with
      | error failure => simp [hfound] at hdb
      | ok found =>
          rw [hfound] at hrecords hdb
          obtain rfl := Except.ok.inj hdb
          obtain ⟨found', hfound', hrelated⟩ := hrecords.exists_ok
          refine ⟨_, by rw [hfound']; rfl, ?_⟩
          refine entries_databaseOf_again v hlocations ht hscanner hrelated ?_ hplain hnear
          intro r hr s hs
          obtain ⟨file, _, hrecord⟩ := exists_of_mem_mapM hfound (List.reduceOption_mem_iff.1 hr)
          obtain ⟨_, bytes, hread, hfacts⟩ := recordOf_eq_some hrecord
          rw [hdefault] at hfacts
          exact FileTree.mem_mentioned (FileTree.mem_allBytes_of_readFile hread) hfacts hs

end FiberWeave
