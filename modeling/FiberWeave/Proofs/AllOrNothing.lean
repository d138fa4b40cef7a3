import FiberWeave.Pipeline
import FiberWeave.Proofs.Frame

/-!
# Replacing a file is all or nothing

Whoever looks at a path while its file is replaced finds the old file or the new one, and whatever
else there is in the tree is left alone.  All that comes and goes is a temporary file, under a name
that was free.

* `Replace.Pending` — the trees before the temporary file is moved; `Replace.Replaced` — those after.
* `Replace.run_trees`, `Replace.replaced_of_ok`, `Replace.pending_of_error` — the trees on the way
  and at the end.
* `Replace.Prevented`, `Replace.run_prevented` — what keeps a file from being replaced;
  `Replace.Unhindered`, `Replace.run_eq_ok_iff` — when nothing does.
* **`putClass_allOrNothing`** — a run that puts a class in its place, seen step by step.

The tree is any tree, and so are the steps that fail.  What counts as replaced is the entry that the
path names: a link gives way to a file, and what it led to stays.
-/

namespace FiberWeave

namespace Replace

open FileTree

/-! ## The trees on the way -/

/-- A tree in which the file at a path is still to be replaced.  What was there is there, the path
finds what it did, and what was added has the name of a temporary file. -/
structure Pending (processId : Nat) (path : String) (t t' : FileTree) : Prop where
  workingDirectory : t'.workingDirectory = t.workingDirectory
  host : t'.host = t.host
  keeps : ∀ loc e, t.get? loc = some e → t'.get? loc = some e
  adds : ∀ loc, t.get? loc = none → t'.get? loc ≠ none →
    ∃ attempt < attempts, t.slot (temporaryName path processId attempt) = .ok loc
  stat : t'.stat path = t.stat path

/-- A tree in which the file at a path has been replaced.  The entry that the path names is a file
with the new bytes and the mode of what the path led to, and that is all that differs. -/
structure Replaced (path : String) (bytes : Bytes) (t t' : FileTree) (loc : Location) (mode : Nat) :
    Prop where
  slot : t.slot path = .ok loc
  present : (t.get? loc).isSome = true
  modeAt : t.modeAt path = .ok mode
  files : t' = t.put loc (.file (.bytes bytes) mode)
  stat : t.isFile path = true → t'.stat path = .ok (.file (.bytes bytes) mode)

variable {faults : Faults} {processId : Nat} {t t' : FileTree} {path : String} {bytes : Bytes}

theorem Pending.refl (processId : Nat) (path : String) (t : FileTree) :
    Pending processId path t t :=
  ⟨rfl, rfl, fun _ _ he => he, fun _ hfree htaken => absurd hfree htaken, rfl⟩

/-- With its temporary file beside it, a file is still to be replaced. -/
theorem pending_of_hasFile {temporary : Location} {mode : Nat} (hmode : t.modeAt path = .ok mode)
    (htemporary : IsTemporary processId t path temporary) (h : HasFile t temporary t') :
    Pending processId path t t' := by
  obtain ⟨data, _, rfl⟩ := h
  have hover := overlay_put htemporary.free data
  have hget := fun other entry => get?_put t temporary other entry (ne_nil_of_free htemporary.free)
  refine ⟨rfl, rfl, fun loc e he => ?_, fun loc hfree htaken => ?_, ?_⟩
  · rw [hget, if_neg (ne_of_free htemporary.free he), he]
  · by_cases hloc : loc = temporary
    · exact hloc ▸ htemporary.named
    · rw [hget, if_neg hloc] at htaken
      exact absurd hfree htaken
  · obtain ⟨goal, hresolve, hgoal⟩ := resolve_of_modeAt hmode
    obtain ⟨e, he⟩ := Option.isSome_iff_exists.1 hgoal
    simp only [FileTree.stat, (hover _).resolve hresolve List.not_mem_nil, hresolve, Attempt.ok_bind]
    rw [hget, if_neg (ne_of_free htemporary.free he)]

/-- Giving up removes the temporary file, or leaves it. -/
theorem mem_giveUp_trees {temporary : Location} {trees : List FileTree} {last : FileTree}
    {cause : OsError} (hfree : t.get? temporary = none)
    (htrees : ∀ t' ∈ trees, HasFile t temporary t') (hlast : HasFile t temporary last)
    (h : t' ∈ (giveUp faults temporary trees last cause).trees) :
    HasFile t temporary t' ∨ t' = t := by
  unfold giveUp at h
  cases hremove : faults.remove with
  | some e =>
      simp only [hremove, List.mem_append, List.mem_singleton] at h
      rcases h with h | rfl
      · exact .inl (htrees t' h)
      · exact .inl hlast
  | none =>
      simp only [hremove, List.mem_append, List.mem_singleton] at h
      rcases h with h | rfl
      · exact .inl (htrees t' h)
      · obtain ⟨data, mode, rfl⟩ := hlast
        exact .inr (remove_put_of_free hfree _)

/-- A path to a file finds the file that is put where the path leads. -/
theorem stat_put {loc : Location} (hfile : t.isFile path = true) (hslot : t.slot path = .ok loc)
    (hplain : t.isDirectoryAt loc = false) (mode : Nat) :
    (t.put loc (.file (.bytes bytes) mode)).stat path = .ok (.file (.bytes bytes) mode) := by
  obtain ⟨goal, hleads⟩ := leadsToFile_of_isFile hfile
  have hput := withFile_put t (ne_nil_of_not_directory hplain) bytes mode
  have hover : Overlay t (t.put loc (.file (.bytes bytes) mode)) [goal] := by
    refine ⟨rfl, by simpa using hleads.holdsFile, fun other e he => ?_⟩
    by_cases hother : other = loc
    · subst hother
      exact .inr ⟨goal, by simp, hleads.pointsTo hslot, hput.holdsFile⟩
    · exact .inl (by rw [hput.get?, if_neg hother, he])
  have hslot' := (hover.slot_of_holdsFile hleads.resolve hleads.holdsFile).trans hslot
  have hresolve := resolve_of_slot hslot' hput.holdsFile
  simp only [FileTree.stat, hresolve, hput.get?_self, Attempt.ok_bind, Attempt.pure_eq_ok]

theorem replaced_put {loc : Location} {mode : Nat} (hinspect : inspect faults t path = .ok mode)
    (hslot : t.slot path = .ok loc) (hpresent : (t.get? loc).isSome = true)
    (hplain : t.isDirectoryAt loc = false) :
    Replaced path bytes t (t.put loc (.file (.bytes bytes) mode)) loc mode :=
  ⟨hslot, hpresent, (inspect_eq_ok hinspect).2, rfl, fun hfile => stat_put hfile hslot hplain mode⟩

/-- **On the way, a file is still to be replaced, or it has been.** -/
theorem run_trees (h : t' ∈ (run faults processId t path bytes).trees) :
    Pending processId path t t' ∨ (run faults processId t path bytes).result = .ok () ∧
      ∃ loc mode, Replaced path bytes t t' loc mode := by
  have hcourse := run_course faults processId t path bytes
  generalize run faults processId t path bytes = r at h hcourse ⊢
  cases hcourse with
  | refused => exact absurd h List.not_mem_nil
  | givenUp _ hinspect htemporary htrees hlast =>
      refine .inl ?_
      rcases mem_giveUp_trees htemporary.free htrees hlast h with hfile | rfl
      · exact pending_of_hasFile (inspect_eq_ok hinspect).2 htemporary hfile
      · exact .refl processId path _
  | @moved _ loc mode _ hinspect htemporary htrees _ hslot hpresent hplain =>
      rcases List.mem_append.1 h with h | h
      · exact .inl (pending_of_hasFile (inspect_eq_ok hinspect).2 htemporary (htrees t' h))
      · obtain rfl := List.mem_singleton.1 h
        exact .inr ⟨rfl, loc, mode, replaced_put hinspect hslot hpresent hplain⟩

/-! ## The tree at the end -/

theorem Replacement.final_eq (r : Replacement) (t : FileTree) :
    r.final t = t ∨ r.final t ∈ r.trees := by
  unfold Replacement.final
  cases hlast : r.trees.getLast? with
  | none => exact .inl rfl
  | some last => exact .inr (List.mem_of_getLast? hlast)

theorem pending_of_error {e : OsError} (h : (run faults processId t path bytes).result = .error e) :
    Pending processId path t ((run faults processId t path bytes).final t) := by
  rcases (run faults processId t path bytes).final_eq t with hsame | hmem
  · rw [hsame]
    exact .refl processId path t
  · refine (run_trees hmem).resolve_right fun hdone => ?_
    simp [h] at hdone

theorem replaced_of_ok (h : (run faults processId t path bytes).result = .ok ()) :
    ∃ loc mode, Replaced path bytes t ((run faults processId t path bytes).final t) loc mode := by
  have hcourse := run_course faults processId t path bytes
  generalize run faults processId t path bytes = r at h hcourse ⊢
  cases hcourse with
  | refused => cases h
  | givenUp => simp [giveUp_result] at h
  | @moved _ loc mode _ hinspect _ _ _ hslot hpresent hplain =>
      rw [Replacement.final, List.getLast?_concat, Option.getD_some]
      exact ⟨loc, mode, replaced_put hinspect hslot hpresent hplain⟩

/-- A name that is taken stays so, and the next one is used. -/
example : (replaceFile {} 1 { entries := [(["B"], .file (.bytes [0]) 0o640),
      (["B.1.0.tmp"], .file (.bytes [7]) 0o600)] } "/B" [1, 2]).2.entries =
    [(["B"], .file (.bytes [1, 2]) 0o640), (["B.1.0.tmp"], .file (.bytes [7]) 0o600)] := by
  decide +kernel

/-! ## What decides -/

/-- What keeps a file from being replaced. -/
inductive Prevented (faults : Faults) (processId : Nat) (t : FileTree) (path : String) : Prop where
  | missing {e : OsError} (h : t.stat path = .error e)
  | directory {loc : Location} (hslot : t.slot path = .ok loc) (h : t.isDirectoryAt loc = true)
  /-- All names for a temporary file are taken. -/
  | taken (h : ∀ attempt < attempts, t.isPresent (temporaryName path processId attempt) = true)
  | faulty (h : faults.inspect ≠ none ∨ faults.write ≠ none ∨ faults.flush ≠ none ∨
      faults.setMode ≠ none ∨ faults.rename ≠ none)

theorem faults_of_outcome (h : faults.outcome = .ok ()) : faults.write = none ∧
    faults.flush = none ∧ faults.setMode = none ∧ faults.rename = none := by
  unfold Faults.outcome at h
  split at h <;> simp_all

theorem run_prevented (h : Prevented faults processId t path) :
    (run faults processId t path bytes).result ≠ .ok () := by
  intro hok
  have hcourse := run_course faults processId t path bytes
  generalize run faults processId t path bytes = r at hok hcourse
  cases hcourse with
  | refused => cases hok
  | givenUp => simp [giveUp_result] at hok
  | moved hinspect htemporary _ houtcome hslot _ hplain =>
      obtain ⟨hnone, hmode⟩ := inspect_eq_ok hinspect
      cases h with
      | missing h => simp [FileTree.modeAt, h] at hmode
      | directory hslot' h =>
          obtain rfl := Except.ok.inj (hslot'.symm.trans hslot)
          simp [hplain] at h
      | taken h =>
          obtain ⟨attempt, hattempt, hnamed⟩ := htemporary.named
          have hpresent := h attempt hattempt
          simp [isPresent, hnamed, htemporary.free] at hpresent
      | faulty h => simp [hnone, faults_of_outcome houtcome] at h

/-- Nothing keeps a file from being replaced: some attempt makes a temporary file, after others that
find their names taken, and no other step fails. -/
structure Unhindered (faults : Faults) (processId : Nat) (t : FileTree) (path : String) : Prop where
  inspect : faults.inspect = none
  make : ∃ i < attempts, (∀ j < i, tryCreate faults processId t path j = .error .alreadyExists) ∧
    ∃ made, tryCreate faults processId t path i = .ok made
  rest : faults.outcome = .ok ()

/-- A temporary file is made by the first attempt that does not find its name taken. -/
theorem createBeside_iff {attempt left : Nat} :
    (∃ made, createBeside faults processId t path attempt left = .ok made) ↔
      ∃ i, attempt ≤ i ∧ i < attempt + left ∧
        (∀ j, attempt ≤ j → j < i →
          tryCreate faults processId t path j = .error .alreadyExists) ∧
        ∃ made, tryCreate faults processId t path i = .ok made := by
  induction left generalizing attempt with
  | zero =>
      refine iff_of_false (by simp [createBeside]) ?_
      rintro ⟨i, hle, hlt, -⟩
      omega
  | succ left ih =>
      rw [createBeside]
      cases hfirst : tryCreate faults processId t path attempt with
      | ok made =>
          exact iff_of_true ⟨made, rfl⟩ ⟨attempt, by omega, by omega, by omega, made, hfirst⟩
      | error e =>
          cases e with
          | alreadyExists =>
              refine ih.trans ⟨?_, ?_⟩
              · rintro ⟨i, hle, hlt, hbefore, hmade⟩
                refine ⟨i, by omega, by omega, fun j hj hji => ?_, hmade⟩
                rcases Nat.eq_or_lt_of_le hj with rfl | hj
                · exact hfirst
                · exact hbefore j hj hji
              · rintro ⟨i, hle, hlt, hbefore, hmade⟩
                have hne : i ≠ attempt := by
                  rintro rfl
                  simp [hfirst] at hmade
                exact ⟨i, by omega, by omega, fun j hj => hbefore j (by omega), hmade⟩
          | _ =>
              refine iff_of_false (by simp) ?_
              rintro ⟨i, hle, -, hbefore, made, hmade⟩
              rcases Nat.eq_or_lt_of_le hle with rfl | hlt
              · cases hfirst.symm.trans hmade
              · cases hfirst.symm.trans (hbefore attempt (Nat.le_refl _) hlt)

/-- **What decides whether a file is replaced.** -/
theorem run_eq_ok_iff (hfile : t.isFile path = true) :
    (run faults processId t path bytes).result = .ok () ↔
      Unhindered faults processId t path := by
  obtain ⟨goal, hleads⟩ := leadsToFile_of_isFile hfile
  obtain ⟨content, mode, he⟩ := hleads.holdsFile
  have hmode : t.modeAt path = .ok mode := by simp [modeAt, FileTree.stat, hleads.resolve, he]
  have hmake : (∃ made, createBeside faults processId t path 0 attempts = .ok made) ↔ _ :=
    createBeside_iff
  simp only [Nat.zero_le, Nat.zero_add, true_and, true_implies] at hmake
  rw [run_result hleads.resolve hleads.holdsFile, inspect, hmode]
  constructor
  · intro hok
    cases hinspect : faults.inspect with
    | some e => simp [hinspect] at hok
    | none =>
        cases hcreate : createBeside faults processId t path 0 attempts with
        | error e => simp [hinspect, hcreate] at hok
        | ok made => exact ⟨hinspect, hmake.1 ⟨made, hcreate⟩, by simpa [hinspect, hcreate] using hok⟩
  · intro h
    obtain ⟨made, hcreate⟩ := hmake.2 h.make
    simp [h.inspect, hcreate, h.rest]

end Replace

/-! ## Putting a class in its place -/

open Replace in
/-- **Putting a class in its place is all or nothing.**  At each step its file is the old one or the
new one.  In the end it has been replaced and nothing else differs, or the run ends with an error at
its path, and nothing differs at all as far as the temporary file can be removed.  A missing file, a
directory, a lack of names and a step that fails make it end so; a file is replaced exactly if that is
unhindered. -/
theorem putClass_allOrNothing {σ : Type} (w : Workspace σ) (path : String) (bytes : Bytes) :
    let r := Replace.run (w.faults.replace path) w.processId w.files path bytes
    ∃ result, (putClass path bytes : Action σ Unit).run w =
        (result, { w with files := r.final w.files }) ∧
      (∀ t ∈ r.trees, Pending w.processId path w.files t ∨
        result = .ok () ∧ ∃ loc mode, Replaced path bytes w.files t loc mode) ∧
      (result = .ok () → ∃ loc mode, Replaced path bytes w.files (r.final w.files) loc mode) ∧
      (∀ failure, result = .error failure → (∃ e, failure = .io path e) ∧
        Pending w.processId path w.files (r.final w.files) ∧
        ((w.faults.replace path).remove = none → r.final w.files = w.files)) ∧
      (Prevented (w.faults.replace path) w.processId w.files path → result ≠ .ok ()) ∧
      (w.files.isFile path = true →
        (result = .ok () ↔ Unhindered (w.faults.replace path) w.processId w.files path)) := by
  intro r
  have hrun : (putClass path bytes : Action σ Unit).run w =
      (Action.orEnd path r.result).run { w with files := r.final w.files } := rfl
  cases hresult : r.result with
  | ok _ =>
      rw [hresult, Action.run_orEnd_ok] at hrun
      refine ⟨_, hrun, fun t ht => ?_, fun _ => replaced_of_ok hresult, nofun,
        fun h _ => run_prevented h hresult, fun hfile => ?_⟩
      · exact (run_trees ht).imp_right fun h => ⟨rfl, h.2⟩
      · exact iff_of_true rfl ((run_eq_ok_iff hfile).1 hresult)
  | error e =>
      rw [hresult, Action.run_orEnd_error] at hrun
      refine ⟨_, hrun, fun t ht => .inl ?_, nofun, fun failure hfailure => ?_, fun _ => nofun,
        fun hfile => iff_of_false nofun fun h => ?_⟩
      · refine (run_trees ht).resolve_right fun hdone => ?_
        cases hresult.symm.trans hdone.1
      · obtain rfl := Except.error.inj hfailure
        exact ⟨⟨e, rfl⟩, pending_of_error hresult, fun hremove => run_error hremove hresult⟩
      · cases hresult.symm.trans ((run_eq_ok_iff hfile).2 h)

end FiberWeave
