import FiberWeave.Proofs.Progress
import Mathlib.Data.List.Forall2

/-!
# What a run changes

However a run ends, the classes that it rewrote are what the engine made of them, and no other entry
of the tree differs from before.

* `Outcome.isRewritten`, `Put` — a class that was rewritten, and the bytes that the engine answered.
* `Treats.progress` — what the treatment of one class changes.
* `treatAll_progress` — what the treatment of a work list changes, by induction on it.
* `Effects` — what a run changes, and what it leaves alone.
* **`runPipeline_effects`** — every run changes and leaves alone what that says.
-/

namespace FiberWeave

open FileTree (Rewrite Frame Separate LeadsToFile)

variable {σ : Type}

/-! ## Rewritten classes -/

/-- The outcome says that the bytes of the rewrite were put in place of the class, and the engine
had answered them. -/
structure Put (exchanges : List Exchange) (done : WorkItem × Outcome) (r : Rewrite) : Prop where
  path : r.path = done.1.file.path
  outcome : ∃ before, done.2 = .rewritten before (Digest.ofBytes r.bytes)
  answered : ∃ x ∈ exchanges, x.request.className = done.1.name ∧ x.answer = .ok r.bytes

theorem Put.mono {exchanges later : List Exchange} (hlater : exchanges <+: later)
    {done : WorkItem × Outcome} {r : Rewrite} (h : Put exchanges done r) : Put later done r := by
  obtain ⟨x, hx, hanswer⟩ := h.answered
  exact ⟨h.path, h.outcome, x, hlater.subset hx, hanswer⟩

/-! ## One class -/

variable {settings : Settings} {engine : Engine σ} {db : Database} {item : WorkItem}
  {w₀ : Workspace σ} {w w' : Workspace (σ × List Exchange)} {rewrites : List Rewrite}
  {paths : List String}

/-- What the treatment of one class changes: the record of exchanges grows, and a file is rewritten
only if the outcome says so. -/
theorem Treats.progress {result : Except Failure Outcome}
    (h : Treats settings engine.recorded db item w result w') (hkeeps : engine.KeepsFiles)
    (hremove : (w₀.faults.replace item.file.path).remove = none) (p : Progress w₀ w rewrites)
    (hsep : Separate w₀.files (rewrites.map Rewrite.path ++ item.file.path :: paths)) :
    w.engine.2 <+: w'.engine.2 ∧
      ((∃ outcome r, result = .ok outcome ∧ outcome.isRewritten = true ∧
          Put w'.engine.2 (item, outcome) r ∧ Progress w₀ w' (rewrites ++ [r])) ∨
        (∀ outcome, result = .ok outcome → outcome.isRewritten = false) ∧
          Progress w₀ w' rewrites) := by
  cases h with
  | excluded remarks => exact ⟨List.prefix_rfl, .inr ⟨by simp [Outcome.isRewritten], p.say _⟩⟩
  | never remarks => exact ⟨List.prefix_rfl, .inr ⟨by simp [Outcome.isRewritten], p.say _⟩⟩
  | unclassified => exact ⟨List.prefix_rfl, .inr ⟨by simp, p⟩⟩
  | idle remarks => exact ⟨List.prefix_rfl, .inr ⟨by simp [Outcome.isRewritten], p.say _⟩⟩
  | unread => exact ⟨List.prefix_rfl, .inr ⟨by simp, p⟩⟩
  | @rewritten entry before after _ _ remarks hdue hanswer hput =>
      obtain ⟨hasked, hrecord⟩ := p.answered hkeeps hanswer
      obtain ⟨hok, rfl⟩ := Prod.mk.inj hput
      refine ⟨⟨_, hrecord.symm⟩, .inl ⟨_, ⟨item.file.path, after⟩, rfl, rfl, ?_, ?_⟩⟩
      · refine ⟨rfl, ⟨_, rfl⟩, ⟨requestFor settings db item entry before, .ok after⟩, ?_, rfl, rfl⟩
        exact hrecord ▸ List.mem_append_right _ (List.mem_singleton.2 rfl)
      · exact hasked.rewrite hsep hok
  | unplaced remarks hdue hanswer hput =>
      obtain ⟨hasked, hrecord⟩ := p.answered hkeeps hanswer
      obtain ⟨herror, rfl⟩ := Prod.mk.inj hput
      exact ⟨⟨_, hrecord.symm⟩, .inr ⟨by simp, hasked.unplaced hremove herror⟩⟩
  | fatal remarks remarks' hdue hanswer =>
      obtain ⟨hasked, hrecord⟩ := p.answered hkeeps hanswer
      exact ⟨⟨_, hrecord.symm⟩, .inr ⟨by simp, hasked.say _⟩⟩
  | tolerated remarks remarks' hdue hanswer =>
      obtain ⟨hasked, hrecord⟩ := p.answered hkeeps hanswer
      exact ⟨⟨_, hrecord.symm⟩, .inr ⟨by simp [Outcome.isRewritten], hasked.say _⟩⟩

/-! ## Work lists -/

/-- What the treatment of a work list changes. -/
theorem treatAll_progress (hkeeps : engine.KeepsFiles)
    (hremove : ∀ path, (w₀.faults.replace path).remove = none) (items : List WorkItem)
    (p : Progress w₀ w rewrites)
    (hsep : Separate w₀.files (rewrites.map Rewrite.path ++ items.map fun i => i.file.path)) :
    let h := treatAll settings engine.recorded db items w
    w.engine.2 <+: h.after.engine.2 ∧ ∃ later,
      List.Forall₂ (Put h.after.engine.2) (h.done.filter fun d => d.2.isRewritten) later ∧
      Progress w₀ h.after (rewrites ++ later) := by
  induction items generalizing w rewrites with
  | nil => exact ⟨List.prefix_rfl, [], .nil, by rw [List.append_nil]; exact p⟩
  | cons item rest ih =>
      have htreats := applyItem_treats settings engine.recorded db item w
      rw [treatAll]
      rcases hrun : (applyItem settings engine.recorded db item).run w with ⟨result, w'⟩
      rw [hrun] at htreats
      obtain ⟨hgrown, heffect⟩ := htreats.progress hkeeps (hremove _) p hsep
      cases result with
      | error failure =>
          rcases heffect with ⟨outcome, r, herror, _⟩ | ⟨_, p'⟩
          · cases herror
          · exact ⟨hgrown, [], .nil, by rw [List.append_nil]; exact p'⟩
      | ok outcome =>
          rcases heffect with ⟨_, r, hok, hrewritten, hput, p'⟩ | ⟨hnot, p'⟩
          · obtain rfl := Except.ok.inj hok
            have hsep' : Separate w₀.files
                ((rewrites ++ [r]).map Rewrite.path ++ rest.map fun i => i.file.path) := by
              rw [List.map_append, List.map_singleton, hput.path, List.append_assoc]
              exact hsep
            obtain ⟨hlater, later, hputs, p''⟩ := ih p' hsep'
            refine ⟨hgrown.trans hlater, r :: later, ?_, by
              rw [List.append_assoc] at p''
              exact p''⟩
            simp only [List.filter_cons, hrewritten, if_true]
            exact .cons (hput.mono hlater) hputs
          · have hfewer := (List.sublist_cons_self item.file.path
              (rest.map fun i => i.file.path)).append_left (rewrites.map Rewrite.path)
            obtain ⟨hlater, later, hputs, p''⟩ := ih p' (hsep.sublist hfewer)
            refine ⟨hgrown.trans hlater, later, ?_, p''⟩
            simp only [List.filter_cons, hnot outcome rfl, Bool.false_eq_true, if_false]
            exact hputs

theorem exists_of_mem_forall₂ {α β : Type} {R : α → β → Prop} {xs : List α} {ys : List β}
    (h : List.Forall₂ R xs ys) {y : β} (hy : y ∈ ys) : ∃ x ∈ xs, R x y := by
  induction h with
  | nil => simp at hy
  | cons hxy _ ih =>
      rcases List.mem_cons.1 hy with rfl | hy
      · exact ⟨_, List.mem_cons_self, hxy⟩
      · obtain ⟨x, hx, hR⟩ := ih hy
        exact ⟨x, List.mem_cons_of_mem _ hx, hR⟩

theorem paths_of_put {exchanges : List Exchange} {done : List (WorkItem × Outcome)}
    {rewrites : List Rewrite} (h : List.Forall₂ (Put exchanges) done rewrites) :
    rewrites.map Rewrite.path = done.map fun d => d.1.file.path := by
  induction h with
  | nil => rfl
  | cons hput _ ih => rw [List.map_cons, List.map_cons, hput.path, ih]

/-- The rewrites of a work list are at different paths of it. -/
theorem separate_of_put {t : FileTree} {items : List WorkItem} {exchanges : List Exchange}
    {done : List (WorkItem × Outcome)} {rewrites : List Rewrite}
    (hsep : Separate t (items.map fun i => i.file.path)) (hdone : done.map Prod.fst <+: items)
    (h : List.Forall₂ (Put exchanges) (done.filter fun d => d.2.isRewritten) rewrites) :
    Separate t (rewrites.map Rewrite.path) := by
  refine hsep.sublist ?_
  have hpaths : (done.map fun d => d.1.file.path) =
      (done.map Prod.fst).map fun i => i.file.path := by
    rw [List.map_map]
    rfl
  have hfewer : (done.filter fun d => d.2.isRewritten).Sublist done := List.filter_sublist
  rw [paths_of_put h]
  refine (hfewer.map _).trans ?_
  rw [hpaths]
  exact hdone.sublist.map _

/-! ## Runs -/

/-- What a run that keeps a record changes, before its classes are treated and by treating them. -/
theorem history_progress (hkeeps : engine.KeepsFiles) (settings : Settings) (w : Workspace σ)
    (hremove : ∀ path, (w.faults.replace path).remove = none) :
    let h := history settings engine.recorded w.recording
    ∃ rewrites, List.Forall₂ (Put h.after.engine.2) (h.done.filter fun d => d.2.isRewritten)
        rewrites ∧ Progress w h.after rewrites ∧ Separate w.files (rewrites.map Rewrite.path) := by
  have hclassified := classified_recorded settings engine w
  cases hdb : classified settings engine w with
  | error failure =>
      obtain ⟨remarks, hhistory⟩ := history_of_error settings engine.recorded w.recording
        (hclassified.trans hdb)
      rw [hhistory]
      exact ⟨[], .nil, (Progress.refl w _).say remarks, ⟨by simp, .nil⟩⟩
  | ok db =>
      obtain ⟨remarks, hhistory⟩ := history_of_classified settings engine.recorded w.recording
        (hclassified.trans hdb)
      have hsep := separate_todo hdb
      rw [← paths_workList] at hsep
      rw [hhistory]
      obtain ⟨_, rewrites, hputs, hprogress⟩ := treatAll_progress hkeeps hremove db.workList
        ((Progress.refl w _).say remarks) hsep
      exact ⟨rewrites, hputs, hprogress, separate_of_put hsep (treated_first ..) hputs⟩

/-- A run changed the entries that the rewrites say, and nothing else. -/
structure Effects (settings : Settings) (engine : Engine σ) (w : Workspace σ)
    (rewrites : List Rewrite) : Prop where
  /-- The report of a run that ends well says what became of each class. -/
  report : ∀ report, ((runPipeline settings engine).run w).1 = .ok report →
    report.classes = (history settings engine w).done.map lineOf
  /-- The rewrites are those of the classes that were rewritten, with the answers of the engine. -/
  outcomes : List.Forall₂ (Put (exchanges settings engine w))
    ((history settings engine w).done.filter fun d => d.2.isRewritten) rewrites
  /-- The entries that their paths name hold the answers, with the modes of the files that the paths
  led to. No other entry is changed, added or removed. -/
  frame : Frame w.files ((runPipeline settings engine).run w).2.files rewrites
  /-- A link was replaced, and not what it led to. -/
  targets : ∀ r ∈ rewrites, ∀ goal loc, LeadsToFile w.files r.path goal →
    w.files.slot r.path = .ok loc → goal ≠ loc →
    ((runPipeline settings engine).run w).2.files.get? goal = w.files.get? goal
  /-- A class file with no class, or with a class that was not rewritten, holds what it did. -/
  others : ∀ file ∈ foundFiles settings w.files,
    (∀ bytes facts, w.files.readFile file.path = .ok bytes → engine.analyze bytes = .ok facts →
      ∀ d ∈ (history settings engine w).done, d.2.isRewritten = true → facts.name ≠ d.1.name) →
    ((runPipeline settings engine).run w).2.files.readFile file.path = w.files.readFile file.path
  /-- So does another copy of a class that was rewritten. -/
  copies : ∀ file ∈ foundFiles settings w.files, ∀ loc, w.files.slot file.path = .ok loc →
    w.files.HoldsFile loc → (∀ r ∈ rewrites, w.files.slot r.path ≠ .ok loc) →
    ((runPipeline settings engine).run w).2.files.readFile file.path = w.files.readFile file.path

/-- A class that was treated is the one that its file held at the beginning. -/
theorem analyzed_of_mem_done {d : WorkItem × Outcome} {w : Workspace σ}
    (hd : d ∈ (history settings engine w).done) : ∃ bytes facts,
      w.files.readFile d.1.file.path = .ok bytes ∧ engine.analyze bytes = .ok facts ∧
      facts.name = d.1.name := by
  cases hdb : classified settings engine w with
  | error failure =>
      obtain ⟨remarks, hhistory⟩ := history_of_error settings engine w hdb
      simp [hhistory] at hd
  | ok db =>
      obtain ⟨remarks, hhistory⟩ := history_of_classified settings engine w hdb
      rw [hhistory] at hd
      have hitem := (treated_first ..).subset (List.mem_map_of_mem hd)
      obtain ⟨e, he, hitem⟩ := List.mem_map.1 hitem
      rw [← hitem]
      exact (sourced_of_classified hdb e (List.mem_of_mem_filter he)).analyzed

/-- **A run changes nothing but what it rewrites**, however it ends. -/
theorem runPipeline_effects {engine : Engine σ} (hkeeps : engine.KeepsFiles) (settings : Settings)
    (w : Workspace σ) (hremove : ∀ path, (w.faults.replace path).remove = none) :
    ∃ rewrites, Effects settings engine w rewrites := by
  obtain ⟨rewrites, hputs, hprogress, hsep⟩ := history_progress hkeeps settings w hremove
  have hdone := (history_recorded settings engine w).1
  have hafter := files_runPipeline settings engine w
  rw [← exchanges_eq, hdone] at hputs
  have hfiles : FileTree.LeadToFiles w.files rewrites := by
    rw [← List.append_nil (rewrites.map Rewrite.path)] at hsep
    exact hsep.leadToFiles
  refine ⟨rewrites, fun _ => classes_of_ok settings engine w, hputs, ?frame, ?targets, ?others,
    ?copies⟩
  case frame =>
    rw [hafter]
    exact hprogress.frame
  case targets =>
    intro r hr goal loc hleads hslot hne
    have hapart := hsep.apart
    rw [List.pairwise_map] at hapart
    rw [hafter]
    exact hprogress.frame.target hfiles hapart hr hleads hslot hne
  case others =>
    intro file hfile hname
    obtain ⟨goal, hleads⟩ := FileTree.leadsToFile_of_isFile (isFile_of_mem_foundFiles hfile)
    rw [hafter]
    refine FileTree.readFile_eq_of_stat (hprogress.frame.stat hfiles hleads fun hgoal => ?_)
    -- a file that was rewritten holds the class that the outcome names
    obtain ⟨r, hr, hresolve⟩ := FileTree.mem_goals.1 hgoal
    obtain ⟨d, hd, hput⟩ := exists_of_mem_forall₂ hputs hr
    obtain ⟨hd, hrewritten⟩ := List.mem_filter.1 hd
    obtain ⟨bytes, facts, hread, hfacts, hsame⟩ := analyzed_of_mem_done hd
    rw [← hput.path, FileTree.readFile_eq_of_resolve (hresolve.trans hleads.resolve.symm)] at hread
    exact hname bytes facts hread hfacts d hd hrewritten hsame
  case copies =>
    intro file hfile loc hslot hholds hapart
    obtain ⟨goal, hleads⟩ := FileTree.leadsToFile_of_isFile (isFile_of_mem_foundFiles hfile)
    obtain rfl := hleads.eq_of_holdsFile hslot hholds
    have hover := hprogress.frame.overlay hfiles
    have hget := hprogress.frame.others goal hapart
    obtain ⟨content, mode, he⟩ := hholds
    have hslot' : ((history settings engine.recorded w.recording).after.files).slot file.path =
        .ok goal := by
      rw [hover.slot_of_holdsFile hleads.resolve hleads.holdsFile, hslot]
    have hresolve' := FileTree.resolve_of_slot hslot' ⟨content, mode, by rw [hget, he]⟩
    rw [hafter]
    refine FileTree.readFile_eq_of_stat ?_
    simp only [FileTree.stat, hresolve', hleads.resolve, hget, Attempt.ok_bind]

/-- The steps fail that would move a file over this path. -/
def FileFaults.unmovable (path : String) : FileFaults where
  replace other := if other = path then { rename := some .permissionDenied } else {}

theorem FileFaults.remove_unmovable (path other : String) :
    ((unmovable path).replace other).remove = none := by
  simp only [unmovable]
  split <;> rfl

/-- Before the run ends at `E`, whose file cannot be replaced, it has rewritten `A` and `B`; the link
of `B` has become a file. The rewrite of `C` has failed without harm, and `D` is not included. -/
theorem runPipeline_effects_crowdedBuild :
    let settings := crowdedSettings ["A", "B", "C", "E", "Z"]
    let engine := crowdedEngine ["A", "B", "E", "Z"]
    let w : Workspace Unit :=
      { Workspace.fresh crowdedBuild with faults := .unmovable "/build/E.class" }
    (((runPipeline settings engine).run w).1 = .error (.io "/build/E.class" .permissionDenied) ∧
      ((runPipeline settings engine).run w).2.files.entries = [
        (["lib"], .directory),
        (["lib", "B.bin"], .file (.bytes (taskOf "B" false)) 0o600),
        (["build"], .directory),
        (["build", "A.class"], .file (.bytes (taskOf "A" true)) Entry.fileMode),
        (["build", "A.class.1.0.tmp"], .file (.bytes []) Entry.fileMode),
        (["build", "B.class"], .file (.bytes (taskOf "B" true)) 0o600),
        (["build", "C.class"], .file (.bytes (taskOf "C" false)) Entry.fileMode),
        (["build", "D.class"], .file (.bytes (taskOf "D" false)) Entry.fileMode),
        (["build", "E.class"], .file (.bytes (taskOf "E" false)) Entry.fileMode),
        (["build", "Z.class"], .file (.bytes (taskOf "Z" false)) Entry.fileMode)]) ∧
      engine.KeepsFiles ∧ (∀ path, (w.faults.replace path).remove = none) ∧
      ∃ rewrites, Effects settings engine w rewrites := by
  intro settings engine w
  have hkeeps : engine.KeepsFiles := Engine.keepsFiles_byName _
  have hremove : ∀ path, (w.faults.replace path).remove = none := FileFaults.remove_unmovable _
  exact ⟨by decide +kernel, hkeeps, hremove, runPipeline_effects hkeeps settings w hremove⟩

end FiberWeave
