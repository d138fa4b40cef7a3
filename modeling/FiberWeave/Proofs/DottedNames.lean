import FiberWeave.Proofs.Progress

/-!
# Classes with dots in their names

Entries stand under the names that their class files give them, but they are looked up with slashes
for dots. A class file may name its class with dots; such a class is on the work list, and is not
found there again.

* `Lost`, `Shadowed` — a class that is not found at all, or for which another one is found.
* `Treats.unclassified_iff`, `Treats.skipped_iff` — what becomes of such classes.
* `LookedUp` — what a run makes of its lookups.
* **`runPipeline_lookedUp`** — a work list and its database agree on a class exactly if its name has
  no dot, and this is the only reason for which a run misses or skips a class.
-/

namespace FiberWeave

variable {σ : Type}

/-! ## Lookups -/

/-- No class stands under the name of the class with slashes for dots, and it has dots. -/
def Lost (db : Database) (e : ClassEntry) : Prop :=
  '.' ∈ e.name.toList ∧ ∀ f ∈ db.entries, f.name ≠ ClassName.internal e.name

/-- Another class stands under the name of the class with slashes for dots, and needs no rewrite. -/
def Shadowed (db : Database) (e : ClassEntry) : Prop :=
  '.' ∈ e.name.toList ∧ ∃ f ∈ db.entries, f.name = ClassName.internal e.name ∧
    f.requiresInstrumentation = false

variable {settings : Settings} {engine : Engine σ} {db : Database} {e : ClassEntry}
  {w : Workspace σ}

theorem get?_eq_none_iff_lost (hdb : classified settings engine w = .ok db)
    (he : e ∈ db.entries) : db.get? e.name = none ↔ Lost db e := by
  have hnone : db.get? e.name = none ↔ ∀ f ∈ db.entries, f.name ≠ ClassName.internal e.name := by
    simp [Database.get?]
  rw [Lost, ← hnone]
  refine ⟨fun hget => ⟨?_, hget⟩, fun h => h.2⟩
  by_contra hdot
  simp [(get?_self_iff hdb he).2 hdot] at hget

theorem get?_requires_iff_shadowed (hdb : classified settings engine w = .ok db)
    (he : e ∈ db.todo) : (∃ f, db.get? e.name = some f ∧ f.requiresInstrumentation = false) ↔
      Shadowed db e := by
  obtain ⟨he, hrequires⟩ := List.mem_filter.1 he
  constructor
  · rintro ⟨f, hget, hf⟩
    refine ⟨?_, f, List.mem_of_find?_eq_some hget, eq_of_beq (List.find?_some hget :), hf⟩
    by_contra hdot
    rw [(get?_self_iff hdb he).2 hdot] at hget
    obtain rfl := Option.some.inj hget
    simp [hrequires] at hf
  · rintro ⟨_, f, hmem, hname, hf⟩
    refine ⟨f, ?_, hf⟩
    rw [Database.get?, ← hname]
    exact find?_key_of_mem (nodup_names_of_classified hdb) hmem

/-! ## One class -/

variable {item : WorkItem} {w' : Workspace σ} {result : Except Failure Outcome}

/-- A class is missed exactly if it is included and there is no entry to be found. -/
theorem Treats.unclassified_iff (h : Treats settings engine db item w result w')
    (hname : ClassName.mayInstrument item.name = true) (name : String) :
    result = .error (.unclassified name) ↔ item.name = name ∧
      settings.inclusions.includes item.name = true ∧ db.get? item.name = none := by
  cases h with
  | excluded remarks hincl => simp [hincl]
  | never remarks hincl hname' => simp [hname] at hname'
  | unclassified hincl _ hentry => simp [hincl, hentry]
  | idle remarks _ _ hentry => simp [hentry]
  | unread _ _ hentry => simp [hentry]
  | rewritten remarks hdue => simp [hdue.classified]
  | unplaced remarks hdue => simp [hdue.classified]
  | fatal remarks remarks' hdue => simp [hdue.classified]
  | tolerated remarks remarks' hdue => simp [hdue.classified]

/-- A class is skipped exactly if it is included and an entry is found that needs no rewrite. -/
theorem Treats.skipped_iff (h : Treats settings engine db item w result w')
    (hname : ClassName.mayInstrument item.name = true) :
    result = .ok .skipped ↔ settings.inclusions.includes item.name = true ∧
      ∃ f, db.get? item.name = some f ∧ f.requiresInstrumentation = false := by
  cases h with
  | excluded remarks hincl => simp [hincl]
  | never remarks hincl hname' => simp [hname] at hname'
  | unclassified hincl _ hentry => simp [hentry]
  | idle remarks hincl _ hentry hrequires => simp [hincl, hentry, hrequires]
  | unread _ _ hentry hrequires => simp [hentry, hrequires]
  | rewritten remarks hdue => simp [hdue.classified, hdue.requires]
  | unplaced remarks hdue => simp [hdue.classified, hdue.requires]
  | fatal remarks remarks' hdue => simp [hdue.classified, hdue.requires]
  | tolerated remarks remarks' hdue => simp [hdue.classified, hdue.requires]

/-! ## Work lists -/

/-- The treatment of a work list ends by missing a class exactly if it gets to an included class
without an entry to be found. -/
theorem treatAll_unclassified_iff (settings : Settings) (engine : Engine σ) (db : Database)
    (entries : List ClassEntry)
    (hnames : ∀ e ∈ entries, ClassName.mayInstrument e.name = true) (w : Workspace σ)
    (name : String) :
    let h := treatAll settings engine db (entries.map ClassEntry.item) w
    h.failure = some (.unclassified name) ↔ ∃ earlier e later, entries = earlier ++ e :: later ∧
      h.done.map Prod.fst = earlier.map ClassEntry.item ∧ e.name = name ∧
      settings.inclusions.includes e.name = true ∧ db.get? e.name = none := by
  induction entries generalizing w with
  | nil => simp [treatAll]
  | cons first rest ih =>
      have hfirst := hnames first List.mem_cons_self
      have htreats := applyItem_treats settings engine db first.item w
      rw [List.map_cons, treatAll]
      rcases hrun : (applyItem settings engine db first.item).run w with ⟨result, w'⟩
      rw [hrun] at htreats
      have hmissed := htreats.unclassified_iff hfirst name
      cases result with
      | error failure =>
          simp only [Option.some.injEq, List.map_nil]
          constructor
          · rintro rfl
            exact ⟨[], first, rest, rfl, rfl, hmissed.1 rfl⟩
          · rintro ⟨earlier, e, later, hsplit, hearlier, hcause⟩
            obtain rfl : earlier = [] := by simpa using hearlier.symm
            obtain ⟨rfl, rfl⟩ := List.cons.inj hsplit
            exact Except.error.inj (hmissed.2 hcause)
      | ok outcome =>
          have ih := ih (fun e he => hnames e (List.mem_cons_of_mem _ he)) w'
          simp only [List.map_cons] at ih ⊢
          rw [ih]
          constructor
          · rintro ⟨earlier, e, later, rfl, hearlier, hcause⟩
            exact ⟨first :: earlier, e, later, rfl, by rw [List.map_cons, hearlier], hcause⟩
          · rintro ⟨earlier, e, later, hsplit, hearlier, hcause⟩
            cases earlier with
            | nil => simp at hearlier
            | cons e' earlier =>
                obtain ⟨rfl, rfl⟩ := List.cons.inj hsplit
                exact ⟨earlier, e, later, rfl, (List.cons.inj hearlier).2, hcause⟩

/-- The classes that are skipped are the included ones for which an entry is found that needs no
rewrite. -/
theorem treatAll_skipped_iff (settings : Settings) (engine : Engine σ) (db : Database)
    (items : List WorkItem) (hnames : ∀ i ∈ items, ClassName.mayInstrument i.name = true)
    (w : Workspace σ) : ∀ d ∈ (treatAll settings engine db items w).done,
      d.2 = .skipped ↔ settings.inclusions.includes d.1.name = true ∧
        ∃ f, db.get? d.1.name = some f ∧ f.requiresInstrumentation = false := by
  induction items generalizing w with
  | nil => simp [treatAll]
  | cons item rest ih =>
      have hitem := hnames item List.mem_cons_self
      have htreats := applyItem_treats settings engine db item w
      rw [treatAll]
      rcases hrun : (applyItem settings engine db item).run w with ⟨result, w'⟩
      rw [hrun] at htreats
      cases result with
      | error failure => simp
      | ok outcome =>
          have hrest := ih (fun i hi => hnames i (List.mem_cons_of_mem _ hi)) w'
          refine List.forall_mem_cons.2 ⟨?_, hrest⟩
          rw [← htreats.skipped_iff hitem]
          simp

/-! ## Runs -/

/-- What a run makes of its lookups in the database. -/
structure LookedUp (settings : Settings) (engine : Engine σ) (w : Workspace σ) (db : Database) :
    Prop where
  /-- The work list is made from the entries that are to be rewritten. -/
  workList : db.workList = db.todo.map ClassEntry.item
  /-- Such an entry is found under its own name exactly if that has no dot. -/
  get?_iff : ∀ e ∈ db.todo, (db.get? e.name = some e ↔ '.' ∉ e.name.toList)
  /-- A run misses a class exactly if it gets to an included one that is lost. -/
  unclassified_iff : ∀ name,
    ((runPipeline settings engine).run w).1 = .error (.unclassified name) ↔
      ∃ earlier e later, db.todo = earlier ++ e :: later ∧
        (history settings engine w).done.map Prod.fst = earlier.map ClassEntry.item ∧
        e.name = name ∧ settings.inclusions.includes e.name = true ∧ Lost db e
  /-- A run skips a class exactly if it gets to an included one that is shadowed. -/
  skipped_iff : ∀ e ∈ db.todo, ∀ outcome, (e.item, outcome) ∈ (history settings engine w).done →
    (outcome = .skipped ↔ settings.inclusions.includes e.name = true ∧ Shadowed db e)
  /-- What is reported of a class is what became of it. -/
  report : ∀ report, ((runPipeline settings engine).run w).1 = .ok report →
    report.classes = (history settings engine w).done.map lineOf

/-- A classification misses no class. -/
theorem classified_ne_unclassified (settings : Settings) (engine : Engine σ) (w : Workspace σ)
    (name : String) : classified settings engine w ≠ .error (.unclassified name) := by
  intro h
  unfold classified at h
  cases hstart : Scanner.start? w.files settings.buildDirectory with
  | none => simp [hstart] at h
  | some scanner =>
      cases hfound : (scanner.drain w.files).mapM (recordOf engine w) with
      | ok found => simp [hstart, hfound] at h
      | error failure =>
          obtain rfl : failure = .unclassified name := by simpa [hstart, hfound] using h
          obtain ⟨file, _, hfile⟩ := exists_of_mapM_error hfound
          unfold recordOf at hfile
          cases hread : w.examine file.path <;> simp [hread] at hfile

/-- **A work list and its database agree on a class exactly if its name has no dot.**  A run never
misses or skips a class for another reason. -/
theorem runPipeline_lookedUp (settings : Settings) (engine : Engine σ) (w : Workspace σ) :
    match ((classify settings engine).run w).1 with
    | .error failure => ((runPipeline settings engine).run w).1 = .error failure ∧
        ∀ name, failure ≠ .unclassified name
    | .ok db => LookedUp settings engine w db := by
  obtain ⟨_, hclassify⟩ := classify_run settings engine w
  have hresult := runPipeline_result settings engine w
  rw [hclassify]
  cases hdb : classified settings engine w with
  | error failure =>
      rw [hdb] at hresult
      exact ⟨hresult, fun name hname => classified_ne_unclassified settings engine w name
        (hname ▸ hdb)⟩
  | ok db =>
      rw [hdb] at hresult
      obtain ⟨remarks, hhistory⟩ := history_of_classified settings engine w hdb
      have hentries : ∀ e ∈ db.todo, e ∈ db.entries := fun e he => List.mem_of_mem_filter he
      have hnames : ∀ e ∈ db.todo, ClassName.mayInstrument e.name = true := fun e he =>
        (sourced_of_classified hdb e (hentries e he)).mayInstrument (List.mem_filter.1 he).2
      refine ⟨rfl, fun e he => get?_self_iff hdb (hentries e he), fun name => ?_,
        fun e he outcome hdone => ?_, fun _ => classes_of_ok settings engine w⟩
      · have hfailure : ((runPipeline settings engine).run w).1 = .error (.unclassified name) ↔
            (history settings engine w).failure = some (.unclassified name) := by
          rw [hresult]
          simp only [History.result]
          cases (history settings engine w).failure <;> simp
        rw [hfailure, hhistory, workList_eq]
        refine (treatAll_unclassified_iff settings engine db db.todo hnames _ name).trans ?_
        refine exists_congr fun earlier => exists_congr fun e => exists_congr fun later => ?_
        refine and_congr_right fun hsplit => ?_
        have he : e ∈ db.entries := hentries e (hsplit ▸ by simp)
        rw [get?_eq_none_iff_lost hdb he]
      · rw [hhistory] at hdone
        have hitems : ∀ i ∈ db.workList, ClassName.mayInstrument i.name = true := by
          rw [workList_eq]
          exact List.forall_mem_map.2 hnames
        rw [← get?_requires_iff_shadowed hdb he]
        exact treatAll_skipped_iff settings engine db db.workList hitems _ _ hdone

end FiberWeave
