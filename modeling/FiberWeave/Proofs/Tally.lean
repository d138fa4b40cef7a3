import FiberWeave.Proofs.Classification

/-!
# What becomes of every scanned file

A classification counts each file that the search finds.  The class in it is recorded, or there is
one message that says why not: the file is no class file, or its class was recorded before.

* `Remark.isCopy`, `Remark.isSkip` — the two kinds of message, and their wording.
* `Tallied` — files, recorded classes and these messages add up.
* `recordFile_tallied`, `foldlM_tallied`, `classify_tallied` — they do in one step, in a row of
  steps and in a classification with all that it says.
* **`classify_accounts`** — the entries are those of the first files of their names, the work list
  is the part of them that is to be rewritten, and no file is lost or counted twice.
-/

namespace FiberWeave

/-! ## The two kinds of message -/

namespace Remark

/-- Whether a message is about a class that was recorded before. -/
def isCopy (r : Remark) : Bool :=
  r.level == .debug &&
    ((Text.stripStart? "Class ".toList r.text.toList).bind
      (Text.stripEnd? " found more than once; keeping the first copy".toList)).isSome

/-- Whether a message is about a file that is no class file. -/
def isSkip (r : Remark) : Bool :=
  r.level == .warning &&
    (Text.stripStart? "Skipping unreadable class file ".toList r.text.toList).isSome

theorem isCopy_iff (r : Remark) :
    r.isCopy = true ↔ r.level = .debug ∧
      ∃ name : String, r.text = s!"Class {name} found more than once; keeping the first copy" := by
  simp only [isCopy, Bool.and_eq_true, beq_iff_eq, Option.isSome_iff_exists,
    Option.bind_eq_some_iff, Text.stripStart?_eq_some_iff, Text.stripEnd?_eq_some_iff]
  refine and_congr_right fun _ => ?_
  constructor
  · rintro ⟨name, rest, htext, rfl⟩
    refine ⟨String.ofList name, ?_⟩
    rw [← String.toList_inj, htext]
    simp [toString]
  · rintro ⟨name, htext⟩
    refine ⟨name.toList, _, ?_, rfl⟩
    rw [htext]
    simp [toString]

theorem isSkip_iff (r : Remark) :
    r.isSkip = true ↔ r.level = .warning ∧
      ∃ rest, r.text = "Skipping unreadable class file " ++ rest := by
  simp only [isSkip, Bool.and_eq_true, beq_iff_eq, Option.isSome_iff_exists,
    Text.stripStart?_eq_some_iff]
  refine and_congr_right fun _ => ?_
  constructor
  · rintro ⟨rest, htext⟩
    refine ⟨String.ofList rest, ?_⟩
    rw [← String.toList_inj, htext]
    simp
  · rintro ⟨rest, htext⟩
    refine ⟨rest.toList, ?_⟩
    rw [htext]
    simp

theorem isCopy_of_level {r : Remark} (h : r.level ≠ .debug) : r.isCopy = false := by
  rw [Bool.eq_false_iff, ne_eq, isCopy_iff]
  exact fun hcopy => h hcopy.1

theorem isSkip_of_level {r : Remark} (h : r.level ≠ .warning) : r.isSkip = false := by
  rw [Bool.eq_false_iff, ne_eq, isSkip_iff]
  exact fun hskip => h hskip.1

/-- A message that is of neither kind. -/
def IsOther (r : Remark) : Prop := r.isCopy = false ∧ r.isSkip = false

theorem isOther_of_info {r : Remark} (h : r.level = .info) : r.IsOther :=
  ⟨isCopy_of_level (by rw [h]; decide), isSkip_of_level (by rw [h]; decide)⟩

/-- A message that begins with another letter. -/
theorem isOther_of_head? {r : Remark} (hcopy : r.text.toList.head? ≠ some 'C')
    (hskip : r.text.toList.head? ≠ some 'S') : r.IsOther := by
  constructor
  · rw [Bool.eq_false_iff, ne_eq, isCopy_iff]
    rintro ⟨-, name, htext⟩
    exact hcopy (by simp [htext, toString])
  · rw [Bool.eq_false_iff, ne_eq, isSkip_iff]
    rintro ⟨-, rest, htext⟩
    exact hskip (by simp [htext])

theorem isOther_found (count : Nat) (root : String) :
    IsOther { level := .debug, text := s!"Found {count} class files under {root}" } :=
  isOther_of_head? (by simp [toString]) (by simp [toString])

theorem isOther_ignoredRemark (path : String) : (ignoredRemark path).IsOther :=
  isOther_of_head? (by simp [ignoredRemark]) (by simp [ignoredRemark])

theorem isOther_of_mem_describe {entry : ClassEntry} {r : Remark} (h : r ∈ describe entry) :
    r.IsOther := by
  unfold describe at h
  split at h
  · cases h
  · rcases List.mem_cons.1 h with rfl | h
    · exact isOther_of_info rfl
    · obtain ⟨point, -, h⟩ := List.mem_flatMap.1 h
      rcases List.mem_cons.1 h with rfl | h
      · exact isOther_of_info rfl
      · split at h
        · cases h
        · obtain rfl := List.mem_singleton.1 h
          exact isOther_of_head? (by simp [toString]) (by simp [toString])

end Remark

/-! ## Sums -/

/-- The number of messages in a list that say why a class was not recorded. -/
def passedOver (remarks : List Remark) : Nat :=
  remarks.countP Remark.isCopy + remarks.countP Remark.isSkip

theorem passedOver_append (remarks later : List Remark) :
    passedOver (remarks ++ later) = passedOver remarks + passedOver later := by
  simp only [passedOver, List.countP_append]
  omega

theorem passedOver_of_isOther {remarks : List Remark} (h : ∀ r ∈ remarks, r.IsOther) :
    passedOver remarks = 0 := by
  have hcopy : remarks.countP Remark.isCopy = 0 :=
    List.countP_eq_zero.2 fun r hr => by simp [(h r hr).1]
  have hskip : remarks.countP Remark.isSkip = 0 :=
    List.countP_eq_zero.2 fun r hr => by simp [(h r hr).2]
  rw [passedOver, hcopy, hskip]

theorem passedOver_ignored (paths : List String) : passedOver (paths.map ignoredRemark) = 0 :=
  passedOver_of_isOther (List.forall_mem_map.2 fun path _ => Remark.isOther_ignoredRemark path)

/-- What so many files do to a builder, with these messages: each is counted, and each is recorded or
passed over. -/
structure Tallied (b b' : Database.Builder) (files : Nat) (remarks : List Remark) : Prop where
  scanned : b'.scanned = b.scanned + files
  recorded : b'.classes.length + passedOver remarks = b.classes.length + files

theorem Tallied.refl (b : Database.Builder) : Tallied b b 0 [] := ⟨rfl, rfl⟩

theorem Tallied.trans {b b' b'' : Database.Builder} {files more : Nat}
    {remarks later : List Remark} (h : Tallied b b' files remarks)
    (h' : Tallied b' b'' more later) : Tallied b b'' (files + more) (remarks ++ later) where
  scanned := by rw [h'.scanned, h.scanned, Nat.add_assoc]
  recorded := by
    have hfirst := h.recorded
    have hnext := h'.recorded
    rw [passedOver_append]
    omega

theorem tallied_skip (b : Database.Builder) {r : Remark} (h : r.isSkip = true) :
    Tallied b b.noteScanned 1 [r] where
  scanned := rfl
  recorded := by
    have hcopy : r.isCopy = false :=
      Remark.isCopy_of_level (by rw [((Remark.isSkip_iff r).1 h).1]; decide)
    simp [passedOver, h, hcopy, Database.Builder.noteScanned]

theorem tallied_copy (b : Database.Builder) {r : Remark} (h : r.isCopy = true) :
    Tallied b b.noteScanned 1 [r] where
  scanned := rfl
  recorded := by
    have hskip : r.isSkip = false :=
      Remark.isSkip_of_level (by rw [((Remark.isCopy_iff r).1 h).1]; decide)
    simp [passedOver, h, hskip, Database.Builder.noteScanned]

theorem tallied_record {b b' : Database.Builder} {file : ClassFileRef} {facts : ClassFacts}
    (h : b.noteScanned.record? file facts = some b') : Tallied b b' 1 [] := by
  obtain ⟨-, rfl⟩ := Database.Builder.record?_eq_some_iff.1 h
  exact ⟨rfl, by simp [passedOver, Database.Builder.noteScanned]⟩

section Steps

variable {σ : Type} {engine : Engine σ} {b b' : Database.Builder} {w w' : Workspace σ}

/-- A file that was read is recorded, or there is one message about it. -/
theorem recordFile_tallied {file : ClassFileRef}
    (h : (recordFile engine b file).run w = (.ok b', w')) :
    ∃ remarks, w' = w.say remarks ∧ Tallied b b' 1 remarks := by
  unfold recordFile at h
  cases hread : w.examine file.path with
  | error e =>
      simp only [Action.run_bind, Action.run_get, hread, Action.run_orEnd_error] at h
      cases h
  | ok bytes =>
      simp only [Action.run_bind, Action.run_get, hread, Action.run_orEnd_ok] at h
      cases hfacts : engine.analyze bytes with
      | error e =>
          simp only [hfacts, Action.warn, Action.run_bind, Action.run_say, Action.run_pure] at h
          obtain ⟨rfl, rfl⟩ := h
          have hskip : ∃ rest, "Skipping unreadable class file " ++ file.path ++ ": " ++ e.message =
              "Skipping unreadable class file " ++ rest :=
            ⟨file.path ++ (": " ++ e.message), by rw [String.append_assoc, String.append_assoc]⟩
          exact ⟨_, rfl, tallied_skip b ((Remark.isSkip_iff _).2 ⟨rfl, hskip⟩)⟩
      | ok facts =>
          cases hrecord : b.noteScanned.record? file facts with
          | some recorded =>
              simp only [hfacts, hrecord, Action.run_pure] at h
              obtain ⟨rfl, rfl⟩ := h
              exact ⟨[], (w.say_nil).symm, tallied_record hrecord⟩
          | none =>
              simp only [hfacts, hrecord, Action.debug, Action.run_bind, Action.run_say,
                Action.run_pure] at h
              obtain ⟨rfl, rfl⟩ := h
              exact ⟨_, rfl, tallied_copy b ((Remark.isCopy_iff _).2 ⟨rfl, _, rfl⟩)⟩

/-- What ends a row of steps well ends its first step well. -/
theorem exists_of_run_bind {α β : Type} {m : Action σ α} {f : α → Action σ β} {c : β}
    (h : (m >>= f).run w = (.ok c, w')) :
    ∃ a w₁, m.run w = (.ok a, w₁) ∧ (f a).run w₁ = (.ok c, w') := by
  rw [Action.run_bind] at h
  cases hfirst : m.run w with
  | mk result w₁ =>
      rw [hfirst] at h
      cases result with
      | error => cases h
      | ok a => exact ⟨a, w₁, rfl, h⟩

/-- Files that were read are recorded, or there is one message about each that is not. -/
theorem foldlM_tallied {files : List ClassFileRef}
    (h : (files.foldlM (recordFile engine) b).run w = (.ok b', w')) :
    ∃ remarks, w' = w.say remarks ∧ Tallied b b' files.length remarks := by
  induction files generalizing b w with
  | nil =>
      obtain ⟨rfl, rfl⟩ := h
      exact ⟨[], (w'.say_nil).symm, .refl b'⟩
  | cons file rest ih =>
      rw [List.foldlM_cons] at h
      obtain ⟨b₁, w₁, hfirst, hrest⟩ := exists_of_run_bind h
      obtain ⟨remarks, rfl, hone⟩ := recordFile_tallied hfirst
      obtain ⟨later, rfl, hmore⟩ := ih hrest
      refine ⟨remarks ++ later, w.say_say remarks later, ?_⟩
      rw [List.length_cons, Nat.add_comm]
      exact hone.trans hmore

theorem eq_say_of_run {remarks : List Remark} {u : Unit}
    (h : (Action.say remarks).run w = (.ok u, w')) : w' = w.say remarks :=
  (Prod.mk.inj h).2.symm

/-- Telling all about a database adds other messages only. -/
theorem exists_described {db made : Database} {verbose : Bool}
    (h : (do
        if verbose then Action.say (made.entries.flatMap describe)
        return made : Action σ Database).run w = (.ok db, w')) :
    db = made ∧ ∃ remarks, w' = w.say remarks ∧ ∀ r ∈ remarks, r.IsOther := by
  cases verbose with
  | false =>
      obtain ⟨hdb, hw⟩ := Prod.mk.inj h
      exact ⟨(Except.ok.inj hdb).symm, [], by rw [w.say_nil, hw], nofun⟩
  | true =>
      obtain ⟨_, w₁, hsaid, hend⟩ := exists_of_run_bind h
      obtain ⟨hdb, hw⟩ := Prod.mk.inj hend
      refine ⟨(Except.ok.inj hdb).symm, _, hw.symm.trans (eq_say_of_run hsaid), fun r hr => ?_⟩
      obtain ⟨entry, -, hr⟩ := List.mem_flatMap.1 hr
      exact Remark.isOther_of_mem_describe hr

/-- The entries of a database and the messages of the classification that made it. -/
theorem classify_tallied {settings : Settings} {db : Database}
    (h : (classify settings engine).run w = (.ok db, w')) :
    ∃ remarks, w' = w.say remarks ∧ db.scanned = (foundFiles settings w.files).length ∧
      db.scanned = db.entries.length + passedOver remarks := by
  unfold classify at h
  obtain ⟨t, w₁, ht, h⟩ := exists_of_run_bind h
  obtain ⟨rfl, rfl⟩ := ht
  unfold foundFiles
  cases hstart : Scanner.start? w.files settings.buildDirectory with
  | none =>
      rw [hstart] at h
      cases h
  | some scanner =>
      rw [hstart] at h
      dsimp only at h
      obtain ⟨_, w₁, hfound, h⟩ := exists_of_run_bind h
      obtain ⟨_, w₂, hignored, h⟩ := exists_of_run_bind h
      obtain ⟨builder, w₃, hfold, h⟩ := exists_of_run_bind h
      obtain ⟨passed, rfl, htally⟩ := foldlM_tallied hfold
      obtain rfl := eq_say_of_run hignored
      obtain rfl := eq_say_of_run hfound
      obtain ⟨rfl, described, rfl, hdescribed⟩ := exists_described h
      rw [Workspace.say_say, Workspace.say_say, Workspace.say_say]
      refine ⟨_, rfl, ?_, ?_⟩
      · exact htally.scanned.trans (Nat.zero_add _)
      · have hfound : passedOver [_] = 0 :=
          passedOver_of_isOther (List.forall_mem_singleton.2
            (Remark.isOther_found (scanner.drain w.files).length scanner.root))
        rw [Database.Builder.entries_finish, List.length_map, passedOver_append, hfound,
          passedOver_append, passedOver_ignored, passedOver_append,
          passedOver_of_isOther hdescribed]
        have hscanned := htally.scanned
        have hrecorded := htally.recorded
        change builder.scanned = _
        simp only [List.length_nil, Nat.zero_add] at hscanned hrecorded
        omega

/-! ## Databases -/

/-- Recording keeps classes in their order. -/
theorem exists_sublist_recordAll (b : Database.Builder) (calls : List Recorded) :
    ∃ kept, (b.recordAll calls).classes = b.classes ++ kept ∧ kept.Sublist calls := by
  induction calls generalizing b with
  | nil => exact ⟨[], (List.append_nil _).symm, .slnil⟩
  | cons r rest ih =>
      have hstep : b.recordAll (r :: rest) = (b.record r).recordAll rest := rfl
      rw [hstep]
      by_cases hr : r.facts.name ∈ b.names
      · rw [Database.Builder.record_of_mem hr]
        obtain ⟨kept, hclasses, hkept⟩ := ih b
        exact ⟨kept, hclasses, hkept.cons r⟩
      · rw [Database.Builder.record_of_not_mem hr]
        obtain ⟨kept, hclasses, hkept⟩ := ih { b with classes := b.classes ++ [r] }
        refine ⟨r :: kept, ?_, hkept.cons_cons r⟩
        rw [hclasses, List.append_assoc]
        rfl

theorem sublist_recordAll (calls : List Recorded) :
    (Database.Builder.recordAll {} calls).classes.Sublist calls := by
  obtain ⟨kept, hclasses, hkept⟩ := exists_sublist_recordAll {} calls
  rw [hclasses]
  exact hkept

/-- The entries of a database, by the classes in the files. -/
theorem forall₂_classified (settings : Settings) (t : FileTree) (root : String)
    (found : List (Option Recorded)) :
    List.Forall₂ (Classified
        (Database.Builder.factsAfter found.reduceOption
          (databaseOf settings t root found).classPath t)
        ((databaseOf settings t root found).classPath.methodLists t))
      (Database.Builder.recordAll {} found.reduceOption).classes
      (databaseOf settings t root found).entries := by
  let cp := ClassPath.ofPaths t (root :: settings.classPath)
  let k := (Database.Builder.recordAll {} found.reduceOption).knowledge cp t (cp.methodLists t)
  have hentries : (databaseOf settings t root found).entries =
      (Database.Builder.recordAll {} found.reduceOption).classes.map k.entryOf :=
    Database.Builder.entries_finish ..
  rw [hentries, List.forall₂_map_right_iff, List.forall₂_same,
    ← Database.Builder.facts?_hierarchy_recordAll]
  exact fun r _ => k.entryOf_classified r

/-- **No scanned file is lost or counted twice.**  The files that the search finds are all counted;
each is recorded, or there is one message that says that it is no class file or that its class was
found before.  What is recorded is, in the order of the search, the first class of each name, and
each entry says what is known of that class.  The work list is what of them is to be rewritten. -/
theorem classify_accounts {settings : Settings} {db : Database}
    (h : (classify settings engine).run w = (.ok db, w')) :
    ∃ (found : List (Option Recorded)) (firsts : List Recorded) (remarks : List Remark),
      (foundFiles settings w.files).mapM (recordOf engine w) = .ok found ∧
      w' = w.say remarks ∧
      db.scanned = (foundFiles settings w.files).length ∧
      db.scanned = db.entries.length + remarks.countP Remark.isCopy +
        remarks.countP Remark.isSkip ∧
      firsts.Sublist found.reduceOption ∧ (firsts.map (·.facts.name)).Nodup ∧
      (∀ r, r ∈ firsts ↔
        (found.reduceOption.find? fun c => c.facts.name == r.facts.name) = some r) ∧
      List.Forall₂ (Classified
        (Database.Builder.factsAfter found.reduceOption db.classPath w.files)
        (db.classPath.methodLists w.files)) firsts db.entries ∧
      db.workList = (db.entries.filter fun e =>
        e.classification == .requiresInstrumentation).map (fun e => ⟨e.name, e.file⟩) ∧
      (db.workList.map (·.name)).Nodup ∧ (db.workList.map (·.file.path)).Nodup := by
  obtain ⟨remarks, rfl, hscanned, htally⟩ := classify_tallied h
  have hdb : classified settings engine w = .ok db := by
    obtain ⟨_, hrun⟩ := classify_run settings engine w
    exact (Prod.mk.inj (hrun.symm.trans h)).1
  have hnames : (db.workList.map (·.name)).Nodup := by
    rw [workList_eq, List.map_map]
    exact (nodup_names_of_classified hdb).sublist (List.filter_sublist.map _)
  have hpaths : (db.workList.map (·.file.path)).Nodup := by
    rw [paths_workList]
    refine (List.pairwise_map.2 ?_)
    exact ((entries_apart hdb).sublist List.filter_sublist).imp fun hapart hpath =>
      hapart (by rw [hpath])
  unfold classified at hdb
  cases hstart : Scanner.start? w.files settings.buildDirectory with
  | none =>
      rw [hstart] at hdb
      cases hdb
  | some scanner =>
      rw [hstart] at hdb
      dsimp only at hdb
      have hfiles : foundFiles settings w.files = scanner.drain w.files := by
        rw [foundFiles, hstart]
      cases hfound : (scanner.drain w.files).mapM (recordOf engine w) with
      | error failure =>
          rw [hfound] at hdb
          cases hdb
      | ok found =>
          rw [hfound] at hdb
          obtain rfl : databaseOf settings w.files scanner.root found = db := Except.ok.inj hdb
          refine ⟨found, (Database.Builder.recordAll {} found.reduceOption).classes, remarks,
            by rw [hfiles, hfound], rfl, hscanned, ?_, sublist_recordAll _, ?_,
            Database.Builder.mem_classes_recordAll _, forall₂_classified .., rfl, hnames, hpaths⟩
          · rw [htally, passedOver, Nat.add_assoc]
          · exact Database.Builder.nodup_names_recordAll (b := {}) List.nodup_nil _

end Steps

/-- A build with two files of one class, a file that is no class file, and a file of another class. -/
def lettersBuild : FileTree where
  entries := [
    (["build"], .directory),
    (["build", "A.class"], .file (.bytes [0x41]) Entry.fileMode),
    (["build", "B.class"], .file (.bytes [0x41]) Entry.fileMode),
    (["build", "D.class"], .file (.bytes []) Entry.fileMode),
    (["build", "sub"], .directory),
    (["build", "sub", "C.class"], .file (.bytes [0x43]) Entry.fileMode)]

/-- An engine for classes that are named by one letter. -/
def lettersEngine : Engine Unit where
  analyze bytes :=
    match bytes with
    | [] => .error (.truncated 0)
    | first :: _ => .ok { name := String.singleton (Char.ofNat first.toNat) }
  rewrite := Engine.classifyOnly.rewrite

theorem classify_accounts_lettersBuild :
    let w : Workspace Unit := { files := lettersBuild, engine := () }
    ∃ db w', (classify { buildDirectory := "/build" } lettersEngine).run w = (.ok db, w') ∧
      ∃ (found : List (Option Recorded)) (firsts : List Recorded) (remarks : List Remark),
        w' = w.say remarks ∧ db.scanned = 4 ∧ db.entries.length = 2 ∧
        remarks.countP Remark.isCopy = 1 ∧ remarks.countP Remark.isSkip = 1 ∧
        firsts.Sublist found.reduceOption ∧ firsts.length = 2 := by
  intro w
  have hok : ((classify { buildDirectory := "/build" } lettersEngine).run w).1.toOption.map
      (fun db => (db.scanned, db.entries.length)) = some (4, 2) := by decide +kernel
  have hlog : ((classify { buildDirectory := "/build" } lettersEngine).run w).2.log.countP
      Remark.isCopy = 1 := by decide +kernel
  generalize hrun : (classify { buildDirectory := "/build" } lettersEngine).run w = result
    at hok hlog
  obtain ⟨answer, w'⟩ := result
  cases answer with
  | error failure => cases hok
  | ok db =>
      obtain ⟨hscanned, hentries⟩ := Prod.mk.inj (Option.some.inj hok)
      obtain ⟨found, firsts, remarks, -, hsaid, -, htally, hsublist, -, -, hclassified, -⟩ :=
        classify_accounts hrun
      have hcopies : remarks.countP Remark.isCopy = 1 := by
        rw [hsaid] at hlog
        exact hlog
      refine ⟨db, w', rfl, found, firsts, remarks, hsaid, hscanned, hentries, hcopies, ?_,
        hsublist, ?_⟩
      · rw [hscanned, hentries, hcopies] at htally
        omega
      · rw [hclassified.length_eq, hentries]

end FiberWeave
