import FiberWeave.Proofs.Progress
import Mathlib.Data.List.Forall2

/-!
# What a run does with its work list

What becomes of each class of the work list follows from the tree at the beginning and from what the
engine answers; it does not depend on what was done to the classes before it. The classes carry
names with slashes, so that their entries are found.

* `verdict` — what becomes of a class, from its file at the beginning and an answer.
* `Treats.eq_verdict` — the treatment of one class gives that.
* `treatAll_verdict` — the treatment of a work list gives that of each class, by induction on it, up
  to the first class that ends the run.
* `Specified` — what a run is to do with its work list.
* **`runPipeline_specified`** — a run does it.
-/

namespace FiberWeave

open FileTree (Rewrite Frame Separate)

variable {σ : Type}

/-! ## One class -/

/-- What an engine answers. -/
abbrev Answer := Except RewriteFailure Bytes

/-- What becomes of a class that the engine gives an answer about, if it is asked. -/
def verdict (settings : Settings) (w : Workspace σ) (e : ClassEntry) (answer : Answer) :
    Except Failure Outcome :=
  if settings.inclusions.includes e.name then
    match w.reread e.file.path, answer with
    | .error cause, _ => .error (.io e.file.path cause)
    | .ok before, .ok after =>
        match (w.replace e.file.path after).1 with
        | .ok _ => .ok (.rewritten (Digest.ofBytes before) (Digest.ofBytes after))
        | .error cause => .error (.io e.file.path cause)
    | .ok _, .error failure =>
        if e.hasSuspendPoints then .error (.rewrite e.name failure)
        else .ok (.toleratedFailure failure.message)
  else .ok .excluded

/-- The request about a class, with its answer. There is none if the class is not included or its
file cannot be read. -/
def asked (settings : Settings) (db : Database) (w : Workspace σ) (e : ClassEntry)
    (answer : Answer) : List Exchange :=
  if settings.inclusions.includes e.name then
    match w.reread e.file.path with
    | .error _ => []
    | .ok before => [⟨requestFor settings db e.item e before, answer⟩]
  else []

/-- What is rewritten by the answer about a class. -/
def rewriteOf (settings : Settings) (e : ClassEntry) (answer : Answer) : List Rewrite :=
  if settings.inclusions.includes e.name then
    match answer with
    | .error _ => []
    | .ok after => [⟨e.file.path, after⟩]
  else []

variable {settings : Settings} {engine : Engine σ} {db : Database} {e : ClassEntry}
  {w₀ : Workspace σ} {w w' : Workspace (σ × List Exchange)} {rewrites : List Rewrite}
  {paths : List String} {result : Except Failure Outcome}

/-- The class is in the database, under its own name, and may be rewritten. -/
structure Ready (db : Database) (e : ClassEntry) : Prop where
  found : db.get? e.name = some e
  requires : e.requiresInstrumentation = true
  mayInstrument : ClassName.mayInstrument e.name = true

/-- The engine is asked about the entry itself, and about the file as it was at the beginning. -/
theorem Ready.asked (h : Ready db e) {entry : ClassEntry} {before : Bytes}
    (hdue : Due settings db e.item w entry before)
    (hreread : w.reread e.file.path = w₀.reread e.file.path) :
    entry = e ∧ settings.inclusions.includes e.name = true ∧
      w₀.reread e.file.path = .ok before :=
  ⟨Option.some.inj (hdue.classified.symm.trans h.found), hdue.included, hreread ▸ hdue.read⟩

/-- The treatment of a class that is ready gives the verdict on some answer. -/
theorem Treats.eq_verdict (h : Treats settings engine.recorded db e.item w result w')
    (hready : Ready db e) (hkeeps : engine.KeepsFiles) (p : Progress w₀ w rewrites)
    (hsep : Separate w₀.files (rewrites.map Rewrite.path ++ e.file.path :: paths)) :
    ∃ answer, result = verdict settings w₀ e answer ∧
      w'.engine.2 = w.engine.2 ++ asked settings db w₀ e answer ∧
      (∀ outcome, result = .ok outcome →
        Progress w₀ w' (rewrites ++ rewriteOf settings e answer)) := by
  have hreread := p.reread hsep
  cases h with
  | excluded remarks hincl =>
      rw [ClassEntry.name_item] at hincl
      exact ⟨.ok [], by simp [verdict, hincl], by simp [asked, hincl], fun _ _ => by
        simpa [rewriteOf, hincl] using p.say remarks⟩
  | never _ _ hname =>
      rw [ClassEntry.name_item, hready.mayInstrument] at hname
      cases hname
  | unclassified _ _ hentry =>
      rw [ClassEntry.name_item, hready.found] at hentry
      cases hentry
  | idle _ _ _ hentry hrequires =>
      obtain rfl := Option.some.inj (hentry.symm.trans hready.found)
      rw [hready.requires] at hrequires
      cases hrequires
  | unread hincl _ _ _ hread =>
      rw [ClassEntry.name_item] at hincl
      rw [ClassEntry.file_item, hreread] at hread
      exact ⟨.ok [], by simp [verdict, hincl, hread], by simp [asked, hincl, hread],
        by simp⟩
  | @rewritten entry before after _ _ remarks hdue hanswer hput =>
      obtain ⟨rfl, hincl, hread⟩ := hready.asked hdue hreread
      obtain ⟨hasked, hrecord⟩ := p.answered hkeeps hanswer
      obtain ⟨hok, rfl⟩ := Prod.mk.inj hput
      have hok₀ := (hasked.replace_result hsep after).symm.trans hok
      have hrewrites : rewriteOf settings entry (.ok after) = [⟨entry.file.path, after⟩] := by
        simp [rewriteOf, hincl]
      refine ⟨.ok after, by simp [verdict, hincl, hread, hok₀], ?_, fun _ _ => ?_⟩
      · simpa [asked, hincl, hread] using hrecord
      · rw [hrewrites]
        exact hasked.rewrite hsep hok
  | @unplaced entry before after cause _ _ remarks hdue hanswer hput =>
      obtain ⟨rfl, hincl, hread⟩ := hready.asked hdue hreread
      obtain ⟨hasked, hrecord⟩ := p.answered hkeeps hanswer
      obtain ⟨herror, rfl⟩ := Prod.mk.inj hput
      have herror₀ := (hasked.replace_result hsep after).symm.trans herror
      refine ⟨.ok after, by simp [verdict, hincl, hread, herror₀], ?_, by simp⟩
      simpa [asked, hincl, hread] using hrecord
  | @fatal entry before failure _ remarks remarks' hdue hanswer hpoints =>
      obtain ⟨rfl, hincl, hread⟩ := hready.asked hdue hreread
      obtain ⟨hasked, hrecord⟩ := p.answered hkeeps hanswer
      refine ⟨.error failure, by simp [verdict, hincl, hread, hpoints], ?_, by simp⟩
      simpa [asked, hincl, hread] using hrecord
  | @tolerated entry before failure _ remarks remarks' hdue hanswer hpoints =>
      obtain ⟨rfl, hincl, hread⟩ := hready.asked hdue hreread
      obtain ⟨hasked, hrecord⟩ := p.answered hkeeps hanswer
      refine ⟨.error failure, by simp [verdict, hincl, hread, hpoints], ?_,
        fun _ _ => ?_⟩
      · simpa [asked, hincl, hread] using hrecord
      · simpa [rewriteOf, hincl] using hasked.say remarks'

theorem paths_rewriteOf (settings : Settings) (e : ClassEntry) (answer : Answer) :
    ((rewriteOf settings e answer).map Rewrite.path).Sublist [e.file.path] := by
  unfold rewriteOf
  split
  · cases answer with
    | ok after => exact List.Sublist.refl _
    | error failure => exact List.nil_sublist _
  · exact List.nil_sublist _

/-- A class that was treated is left behind, whether or not it was rewritten. -/
theorem separate_rewriteOf {t : FileTree} {answer : Answer}
    (hsep : Separate t (rewrites.map Rewrite.path ++ e.file.path :: paths)) :
    Separate t ((rewrites ++ rewriteOf settings e answer).map Rewrite.path ++ paths) := by
  refine hsep.sublist ?_
  rw [List.map_append, List.append_assoc]
  exact ((paths_rewriteOf settings e answer).append_right paths).append_left _

/-! ## Work lists -/

/-- The elements of a list up to and including the first one of a kind. -/
def upToFirst {α : Type} (p : α → Bool) : List α → List α
  | [] => []
  | x :: rest => if p x then [x] else x :: upToFirst p rest

theorem upToFirst_map {α β : Type} (p : β → Bool) (f : α → β) (xs : List α) :
    upToFirst p (xs.map f) = (upToFirst (fun x => p (f x)) xs).map f := by
  induction xs with
  | nil => rfl
  | cons x rest ih =>
      simp only [List.map_cons, upToFirst, ih]
      split <;> rfl

/-- Elements that give nothing may be left out. -/
theorem flatMap_upToFirst_filter {α β : Type} (q p : α → Bool) {f : α → List β}
    (hf : ∀ x, q x = false → f x = []) (xs : List α) :
    (upToFirst (fun x => q x && p x) xs).flatMap f =
      (upToFirst p (xs.filter q)).flatMap f := by
  induction xs with
  | nil => rfl
  | cons x rest ih =>
      cases hq : q x with
      | false => simp [upToFirst, hq, hf x hq, ih]
      | true =>
          cases hp : p x with
          | true => simp [upToFirst, hq, hp]
          | false => simp [upToFirst, hq, hp, ih]

/-- Whether the verdict on a class ends the run. -/
def ends (settings : Settings) (w : Workspace σ) (x : ClassEntry × Answer) : Bool :=
  !(verdict settings w x.1 x.2).isOk

/-- The treatment of a work list gives the verdict on each class, up to the first one that ends the
run, and the engine is asked about these classes only. -/
theorem treatAll_verdict (settings : Settings) (hkeeps : engine.KeepsFiles)
    (entries : List ClassEntry)
    (hready : ∀ e ∈ entries, Ready db e) (p : Progress w₀ w rewrites)
    (hsep : Separate w₀.files
      (rewrites.map Rewrite.path ++ entries.map fun e => e.file.path)) :
    let h := treatAll settings engine.recorded db (entries.map ClassEntry.item) w
    ∃ told : List (ClassEntry × Answer), told.map Prod.fst = entries ∧
      h.after.engine.2 = w.engine.2 ++
        (upToFirst (ends settings w₀) told).flatMap (fun x => asked settings db w₀ x.1 x.2) ∧
      (h.failure = none ↔ ∀ x ∈ told, ends settings w₀ x = false) ∧
      (h.failure = none →
        List.Forall₂ (fun x d => d.1 = x.1.item ∧ verdict settings w₀ x.1 x.2 = .ok d.2)
          told h.done ∧
        Progress w₀ h.after (rewrites ++ told.flatMap fun x => rewriteOf settings x.1 x.2)) := by
  induction entries generalizing w rewrites with
  | nil =>
      exact ⟨[], rfl, by simp [treatAll, upToFirst], by simp [treatAll], fun _ =>
        ⟨.nil, by simpa [treatAll] using p⟩⟩
  | cons e rest ih =>
      have htreats := applyItem_treats settings engine.recorded db e.item w
      rw [List.map_cons, treatAll]
      rcases hrun : (applyItem settings engine.recorded db e.item).run w with ⟨result, w'⟩
      rw [hrun] at htreats
      obtain ⟨answer, rfl, hasked, hprogress⟩ :=
        htreats.eq_verdict (hready e List.mem_cons_self) hkeeps p hsep
      cases hverdict : verdict settings w₀ e answer with
      | error failure =>
          have hends : ends settings w₀ (e, answer) = true := by rw [ends, hverdict]; rfl
          refine ⟨(e, answer) :: rest.map fun e => (e, .ok []), ?_, ?_, ?_, ?_⟩
          · simp [Function.comp_def]
          · simpa [upToFirst, hends] using hasked
          · simp [hends]
          · simp
      | ok outcome =>
          have hends : ends settings w₀ (e, answer) = false := by rw [ends, hverdict]; rfl
          obtain ⟨told, htold, hexchanges, hfailure, hdone⟩ := ih
            (fun e he => hready e (List.mem_cons_of_mem _ he)) (hprogress outcome hverdict)
            (separate_rewriteOf hsep)
          refine ⟨(e, answer) :: told, by rw [List.map_cons, htold], ?_, ?_, fun hnone => ?_⟩
          · simp only [upToFirst, hends, Bool.false_eq_true, if_false, List.flatMap_cons]
            rw [hexchanges, ← List.append_assoc]
            exact congrArg (· ++ _) hasked
          · rw [List.forall_mem_cons]
            simp only [hends, true_and]
            exact hfailure
          · obtain ⟨hlines, p'⟩ := hdone hnone
            refine ⟨.cons ⟨rfl, hverdict⟩ hlines, ?_⟩
            rw [List.flatMap_cons, ← List.append_assoc]
            exact p'

/-! ## Runs -/

/-- Whether a class ends the run: its file cannot be read, or its rewrite fails although it has
calls that may suspend, or its rewrite cannot be put in place. -/
def isFatal (w : Workspace σ) (e : ClassEntry) (answer : Answer) : Bool :=
  match w.reread e.file.path, answer with
  | .error _, _ => true
  | .ok _, .error _ => e.hasSuspendPoints
  | .ok _, .ok after => !(w.replace e.file.path after).1.isOk

/-- What is reported of a class: what was decided about it, and the digests of its file before and
after the run. -/
inductive Reported (settings : Settings) (before after : FileTree) (e : ClassEntry)
    (answer : Answer) : Outcome → Prop where
  | excluded (hincl : settings.inclusions.includes e.name = false) :
      Reported settings before after e answer .excluded
  | toleratedFailure {failure : RewriteFailure}
      (hincl : settings.inclusions.includes e.name = true) (hanswer : answer = .error failure)
      (hpoints : e.suspendPoints = []) :
      Reported settings before after e answer (.toleratedFailure failure.message)
  | rewritten {old new : Bytes} (hincl : settings.inclusions.includes e.name = true)
      (hanswer : answer = .ok new) (hbefore : before.readFile e.file.path = .ok old)
      (hafter : after.readFile e.file.path = .ok new) :
      Reported settings before after e answer
        (.rewritten (Digest.ofBytes old) (Digest.ofBytes new))

/-- A run treats the classes that are to be rewritten as it should, where `answer` says what the
engine makes of each. -/
structure Specified (settings : Settings) (engine : Engine σ) (w : Workspace σ) (db : Database)
    (answer : String → Answer) : Prop where
  /-- The engine is asked about the included classes in order, up to and including the first one
  that ends the run, each time with the bytes that the file held at the beginning. -/
  requests : exchanges settings engine w =
    (upToFirst (fun e => isFatal w e (answer e.name))
      (db.todo.filter fun e => settings.inclusions.includes e.name)).flatMap
      fun e => asked settings db w e (answer e.name)
  /-- The run ends well if no included class ends it. -/
  ok_iff : (∃ report, ((runPipeline settings engine).run w).1 = .ok report) ↔
    ∀ e ∈ db.todo, settings.inclusions.includes e.name = true → isFatal w e (answer e.name) = false
  /-- Then each class has its line in the report, in order. -/
  lines : ∀ report, ((runPipeline settings engine).run w).1 = .ok report →
    List.Forall₂ (fun e line => line.className = e.name ∧ line.path = e.file.path ∧
        Reported settings w.files ((runPipeline settings engine).run w).2.files e (answer e.name)
          line.outcome)
      db.todo report.classes
  /-- The counters count the lines, and the rest of the report is about the database. -/
  counters : ∀ report, ((runPipeline settings engine).run w).1 = .ok report →
    report = { reportOf settings db with
      rewritten := report.classes.countP fun c => c.outcome.isRewritten
      excluded := report.classes.countP fun c => c.outcome.isExcluded
      toleratedFailures := report.classes.countP fun c => c.outcome.isTolerated
      classes := report.classes }

theorem ends_eq (settings : Settings) (w : Workspace σ) (e : ClassEntry) (answer : Answer) :
    ends settings w (e, answer) = (settings.inclusions.includes e.name && isFatal w e answer) := by
  unfold ends verdict isFatal
  cases settings.inclusions.includes e.name with
  | false => rfl
  | true =>
      cases w.reread e.file.path with
      | error cause => cases answer <;> rfl
      | ok before =>
          cases answer with
          | ok after =>
              simp only [if_true, Bool.true_and]
              cases (w.replace e.file.path after).1 <;> rfl
          | error failure =>
              simp only [if_true, Bool.true_and]
              cases e.hasSuspendPoints <;> rfl

theorem paths_rewrites (settings : Settings) (told : List (ClassEntry × Answer)) :
    ((told.flatMap fun x => rewriteOf settings x.1 x.2).map Rewrite.path).Sublist
      (told.map fun x => x.1.file.path) := by
  induction told with
  | nil => exact List.Sublist.refl _
  | cons x rest ih =>
      rw [List.flatMap_cons, List.map_append, List.map_cons]
      exact (paths_rewriteOf settings x.1 x.2).append ih

/-- The verdict on a class is what is reported of it. -/
theorem reported_of_verdict {w : Workspace σ} {after : FileTree} {answer : Answer}
    {outcome : Outcome} (h : verdict settings w e answer = .ok outcome)
    (hafter : ∀ r ∈ rewriteOf settings e answer, ∀ old, w.files.readFile r.path = .ok old →
      after.readFile r.path = .ok r.bytes) :
    Reported settings w.files after e answer outcome := by
  unfold verdict at h
  cases hincl : settings.inclusions.includes e.name with
  | false =>
      obtain rfl : .excluded = outcome := by simpa [hincl] using h
      exact .excluded hincl
  | true =>
      cases hread : w.reread e.file.path with
      | error cause => simp [hincl, hread] at h
      | ok old =>
          have hbefore := readFile_of_reread hread
          cases answer with
          | error failure =>
              cases hpoints : e.hasSuspendPoints with
              | true => simp [hincl, hread, hpoints] at h
              | false =>
                  obtain rfl : .toleratedFailure failure.message = outcome := by
                    simpa [hincl, hread, hpoints] using h
                  exact .toleratedFailure hincl rfl
                    (by simpa [ClassEntry.hasSuspendPoints] using hpoints)
          | ok new =>
              cases hput : (w.replace e.file.path new).1 with
              | error cause => simp [hincl, hread, hput] at h
              | ok _ =>
                  obtain rfl : .rewritten (Digest.ofBytes old) (Digest.ofBytes new) = outcome := by
                    simpa [hincl, hread, hput] using h
                  refine .rewritten hincl rfl hbefore (hafter ⟨e.file.path, new⟩ ?_ old hbefore)
                  simp [rewriteOf, hincl]

/-- Answers that were given one after the other are given by name, as no name comes twice. -/
theorem exists_answer (told : List (ClassEntry × Answer))
    (hnames : (told.map fun x => x.1.name).Nodup) :
    ∃ answer : String → Answer, told = (told.map Prod.fst).map fun e => (e, answer e.name) := by
  refine ⟨fun name => ((told.find? fun x => x.1.name == name).map Prod.snd).getD (.ok []), ?_⟩
  rw [List.map_map]
  conv_lhs => rw [← List.map_id told]
  refine List.map_congr_left fun x hx => ?_
  have hfind := find?_key_of_mem hnames hx
  simp [hfind]

theorem ready_of_mem_todo {w : Workspace σ} (hdb : classified settings engine w = .ok db)
    (hnames : SlashNamed settings engine w) : ∀ e ∈ db.todo, Ready db e := by
  intro e he
  obtain ⟨he, hrequires⟩ := List.mem_filter.1 he
  have hsourced := sourced_of_classified hdb e he
  obtain ⟨bytes, facts, hread, hfacts, hname⟩ := hsourced.analyzed
  have hslash : '.' ∉ e.name.toList := hname ▸ hnames e.file hsourced.found bytes facts hread hfacts
  exact ⟨(get?_self_iff hdb he).2 hslash, hrequires, hsourced.mayInstrument hrequires⟩

theorem nodup_names_todo {w : Workspace σ} (hdb : classified settings engine w = .ok db) :
    (db.todo.map (·.name)).Nodup :=
  (nodup_names_of_classified hdb).sublist (List.filter_sublist.map _)

/-- Whatever the engine answers, what is rewritten of a work list are files that are there. -/
theorem leadToFiles_rewrites {w : Workspace σ} (hdb : classified settings engine w = .ok db)
    (answer : String → Answer) :
    FileTree.LeadToFiles w.files
      ((db.todo.map fun e => (e, answer e.name)).flatMap fun x => rewriteOf settings x.1 x.2) := by
  have hpaths := paths_rewrites settings (db.todo.map fun e => (e, answer e.name))
  have hsep := (separate_todo hdb).sublist (by simpa [Function.comp_def] using hpaths)
  rw [← List.append_nil (List.map _ _)] at hsep
  exact hsep.leadToFiles

/-- After a classification, a run treats its work list as specified. -/
theorem specified_of_classified {w : Workspace σ} (hkeeps : engine.KeepsFiles)
    (hdb : classified settings engine w = .ok db) (hnames : SlashNamed settings engine w) :
    ∃ answer, Specified settings engine w db answer := by
  obtain ⟨remarks, hhistory⟩ := history_of_classified settings engine.recorded w.recording hdb
  have hstart : Progress w (w.recording.say remarks) [] := (Progress.refl w _).say remarks
  obtain ⟨told, htold, hexchanges, hfailure, hsettled⟩ := treatAll_verdict settings hkeeps
    db.todo (ready_of_mem_todo hdb hnames) hstart (separate_todo hdb)
  obtain ⟨hdone, hfailed⟩ := history_recorded settings engine w
  rw [← workList_eq, ← hhistory] at hexchanges hfailure hsettled
  rw [hfailed] at hfailure hsettled
  rw [hdone] at hsettled
  have htoldNames : (told.map fun x => x.1.name).Nodup := by
    have hnodup := nodup_names_todo hdb
    rwa [← htold, List.map_map] at hnodup
  obtain ⟨answer, hanswer⟩ := exists_answer told htoldNames
  rw [htold] at hanswer
  subst hanswer
  have hends : ∀ e, ends settings w (e, answer e.name) =
      (settings.inclusions.includes e.name && isFatal w e (answer e.name)) :=
    fun e => ends_eq settings w e (answer e.name)
  refine ⟨answer, ?requests, ?ok_iff, ?lines, ?counters⟩
  case requests =>
    rw [exchanges_eq, hexchanges, upToFirst_map, List.flatMap_map]
    simp only [hends]
    exact flatMap_upToFirst_filter _ _ (fun e he => by simp [asked, he]) _
  case ok_iff =>
    simp only [runPipeline_eq_ok_iff, hdb, Except.ok.injEq, exists_eq_left', exists_and_left,
      exists_eq, and_true, hfailure, List.forall_mem_map, hends, Bool.and_eq_false_imp]
  case lines =>
    intro report hreport
    obtain ⟨db', _, hnone, rfl⟩ := (runPipeline_eq_ok_iff settings engine w).1 hreport
    obtain ⟨hlines, hprogress⟩ := hsettled hnone
    rw [pushAll_eq]
    change List.Forall₂ _ db.todo ((history settings engine w).done.map lineOf)
    rw [List.forall₂_map_right_iff]
    rw [List.forall₂_map_left_iff] at hlines
    have hmem := (List.forall₂_and_left _ _).2 ⟨fun e (he : e ∈ db.todo) => he, hlines⟩
    refine hmem.imp fun e d hline => ?_
    obtain ⟨he, hitem, hverdict⟩ := hline
    refine ⟨congrArg WorkItem.name hitem, congrArg (fun i => i.file.path) hitem, ?_⟩
    refine reported_of_verdict hverdict fun r hr old hold => ?_
    rw [files_runPipeline]
    refine hprogress.frame.readFile_rewritten (leadToFiles_rewrites hdb answer) ?_ hold
    exact List.mem_flatMap.2 ⟨_, List.mem_map_of_mem he, hr⟩
  case counters =>
    intro report hreport
    obtain ⟨db', hdb', _, rfl⟩ := (runPipeline_eq_ok_iff settings engine w).1 hreport
    obtain rfl := Except.ok.inj (hdb.symm.trans hdb')
    rw [pushAll_eq]
    simp [reportOf, RunReport.start, List.countP_map, Function.comp_def, lineOf]

/-- **A run treats its work list as specified**, if its classes carry names with slashes.  What it
asks the engine is known from the same run with a record, which does the same. -/
theorem runPipeline_specified {engine : Engine σ} (hkeeps : engine.KeepsFiles)
    (settings : Settings) (w : Workspace σ) (hnames : SlashNamed settings engine w) :
    Simulates (runPipeline settings engine.recorded) (runPipeline settings engine) ∧
      match ((classify settings engine).run w).1 with
      | .error failure => ((runPipeline settings engine).run w).1 = .error failure ∧
          exchanges settings engine w = []
      | .ok db => ∃ answer, Specified settings engine w db answer := by
  refine ⟨runPipeline_recorded settings engine, ?_⟩
  obtain ⟨_, hclassify⟩ := classify_run settings engine w
  have hresult := runPipeline_result settings engine w
  rw [hclassify]
  cases hdb : classified settings engine w with
  | error failure =>
      obtain ⟨remarks, hhistory⟩ := history_of_error settings engine.recorded w.recording hdb
      rw [hdb] at hresult
      refine ⟨hresult, ?_⟩
      rw [exchanges_eq, hhistory]
      rfl
  | ok db => exact specified_of_classified hkeeps hdb hnames

/-- Of a build of several classes: `A` and `B` are rewritten, the rewrites of `C` and `Z` fail without
harm, and `D` is not included. If `E` is, its rewrite fails and ends the run, as it calls a method
that may suspend. -/
theorem runPipeline_specified_crowdedBuild :
    let settings := crowdedSettings ["A", "B", "C", "Z"]
    let strict := crowdedSettings ["A", "B", "C", "E", "Z"]
    let engine := crowdedEngine ["A", "B"]
    let w := Workspace.fresh crowdedBuild
    ((runPipeline settings engine).run w).1.map (fun report =>
        (report.workList, report.rewritten, report.excluded, report.toleratedFailures)) =
      .ok (["A", "B", "C", "D", "E", "Z"], 2, 2, 2) ∧
    ((runPipeline strict engine).run w).1 = .error (.rewrite "E" .noOutput) ∧
    engine.KeepsFiles ∧ ∀ s ∈ [settings, strict], SlashNamed s engine w ∧
      Simulates (runPipeline s engine.recorded) (runPipeline s engine) ∧
      match ((classify s engine).run w).1 with
      | .error failure => ((runPipeline s engine).run w).1 = .error failure ∧
          exchanges s engine w = []
      | .ok db => ∃ answer, Specified s engine w db answer := by
  intro settings strict engine w
  have hkeeps : engine.KeepsFiles := Engine.keepsFiles_byName _
  have hnames : ∀ s ∈ [settings, strict], SlashNamed s engine w := by decide +kernel
  refine ⟨by decide +kernel, by decide +kernel, hkeeps, fun s hs => ⟨hnames s hs, ?_⟩⟩
  exact runPipeline_specified hkeeps s w (hnames s hs)

end FiberWeave
