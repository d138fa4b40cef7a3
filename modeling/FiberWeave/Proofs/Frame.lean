import FiberWeave.Proofs.Replacement
import Mathlib.Data.List.Pairwise

/-!
# What changes when several files are replaced

A frame lists the paths at which files were put, and says that nothing else differs from the tree at
the beginning. The paths lead to different files, so that no step meets what an earlier one put.

* `LeadsToFile` — a path and the file that it leads to.
* `Frame` — which entries of a tree differ from an earlier tree, and how.
* `Frame.overlay` — such a tree is one in which entries were replaced by files.
* **`Frame.rewrite`** — one more file replaced.
* `Frame.stat`, `Frame.target` — the other files, and what a rewritten link led to, are as before.
* `Frame.run_result`, `Frame.readFile_rewritten` — what the next replacement gives, and how a file
  that was rewritten reads.
-/

namespace FiberWeave.FileTree

/-! ## Paths and the files they lead to -/

/-- The path leads to a file, at the location `goal`. -/
structure LeadsToFile (t : FileTree) (path : String) (goal : Location) : Prop where
  resolve : t.resolve path = .ok goal
  holdsFile : t.HoldsFile goal

theorem PointsTo.unique {t : FileTree} {loc goal other : Location} (h : t.PointsTo loc goal)
    (h' : t.PointsTo loc other) : goal = other := by
  cases h with
  | file hfile =>
      cases h' with
      | file => rfl
      | link he =>
          obtain ⟨_, _, he'⟩ := hfile
          simp [he] at he'
  | link he hleads =>
      cases h' with
      | file hfile =>
          obtain ⟨_, _, he'⟩ := hfile
          simp [he] at he'
      | link he' hleads' =>
          obtain rfl := Entry.link.inj (Option.some.inj (he.symm.trans he'))
          exact hleads.unique hleads'

theorem PointsTo.isSome {t : FileTree} {loc goal : Location} (h : t.PointsTo loc goal) :
    (t.get? loc).isSome = true := by
  cases h with
  | file hfile =>
      obtain ⟨_, _, he⟩ := hfile
      simp [he]
  | link he => simp [he]

namespace LeadsToFile

variable {t : FileTree} {path : String} {goal : Location}

theorem pointsTo (h : LeadsToFile t path goal) {loc : Location} (hslot : t.slot path = .ok loc) :
    t.PointsTo loc goal := by
  obtain ⟨loc', hslot', hpoints⟩ := slot_of_resolve h.resolve h.holdsFile
  obtain rfl := Except.ok.inj (hslot.symm.trans hslot')
  exact hpoints

/-- Paths that name one entry lead to one file. -/
theorem eq_of_slot (h : LeadsToFile t path goal) {other : String} {goal' : Location}
    (h' : LeadsToFile t other goal') {loc : Location} (hslot : t.slot path = .ok loc)
    (hslot' : t.slot other = .ok loc) : goal = goal' :=
  (h.pointsTo hslot).unique (h'.pointsTo hslot')

/-- A path that names a file leads to it. -/
theorem eq_of_holdsFile (h : LeadsToFile t path goal) {loc : Location}
    (hslot : t.slot path = .ok loc) (hfile : t.HoldsFile loc) : goal = loc :=
  (h.pointsTo hslot).unique (.file hfile)

end LeadsToFile

theorem leadsToFile_of_isFile {t : FileTree} {path : String} (h : t.isFile path = true) :
    ∃ goal, LeadsToFile t path goal := by
  unfold isFile stat at h
  cases hresolve : t.resolve path with
  | error e => simp [hresolve] at h
  | ok goal =>
      simp only [hresolve, Attempt.ok_bind] at h
      cases he : t.get? goal with
      | none => simp [he] at h
      | some e =>
          simp only [he, Attempt.pure_eq_ok] at h
          cases e with
          | file content mode => exact ⟨goal, hresolve, content, mode, he⟩
          | directory => simp at h
          | link target => simp at h

theorem readFile_eq_of_stat {t t' : FileTree} {path : String} (h : t'.stat path = t.stat path) :
    t'.readFile path = t.readFile path := by
  simp only [readFile, contentAt, h]

theorem modeAt_eq_of_stat {t t' : FileTree} {path : String} (h : t'.stat path = t.stat path) :
    t'.modeAt path = t.modeAt path := by
  simp only [modeAt, h]

theorem readFile_eq_of_resolve {t : FileTree} {path other : String}
    (h : t.resolve path = t.resolve other) : t.readFile path = t.readFile other := by
  simp only [readFile, contentAt, stat, h]

theorem isFile_of_readFile {t : FileTree} {path : String} {bytes : Bytes}
    (h : t.readFile path = .ok bytes) : t.isFile path = true := by
  unfold readFile contentAt at h
  unfold isFile
  cases hstat : t.stat path with
  | error e => simp [hstat] at h
  | ok e =>
      simp only [hstat, Attempt.ok_bind] at h
      cases e with
      | file content mode => rfl
      | directory => simp at h
      | link target => simp at h

/-- A file that can be read has a mode that says so. -/
theorem mayRead_of_readFile {t : FileTree} {path : String} {bytes : Bytes} {mode : Nat}
    (h : t.readFile path = .ok bytes) (hmode : t.modeAt path = .ok mode) :
    Entry.mayRead mode = true := by
  unfold readFile contentAt at h
  unfold modeAt at hmode
  cases hstat : t.stat path with
  | error e => simp [hstat] at h
  | ok e =>
      simp only [hstat, Attempt.ok_bind] at h hmode
      cases e with
      | file content mode' =>
          obtain rfl := Except.ok.inj hmode
          cases hread : Entry.mayRead mode' with
          | true => rfl
          | false => simp [hread] at h
      | directory => simp at h
      | link target => simp at h

/-- A path that names a file that may be read reads it. -/
theorem readFile_of_slot {t : FileTree} {path : String} {loc : Location} {content : Content}
    {mode : Nat} (hslot : t.slot path = .ok loc) (he : t.get? loc = some (.file content mode))
    (hread : Entry.mayRead mode = true) : t.readFile path = .ok content.toBytes := by
  simp [readFile, contentAt, stat, resolve_of_slot hslot ⟨content, mode, he⟩, he, hread]

/-- The paths lead to files, each to another one. -/
structure Separate (t : FileTree) (paths : List String) : Prop where
  files : ∀ path ∈ paths, ∃ goal, LeadsToFile t path goal
  apart : paths.Pairwise fun p q => t.resolve p ≠ t.resolve q

theorem Separate.sublist {t : FileTree} {paths fewer : List String} (h : Separate t paths)
    (hfewer : fewer.Sublist paths) : Separate t fewer :=
  ⟨fun path hpath => h.files path (hfewer.subset hpath), h.apart.sublist hfewer⟩

/-! ## Frames -/

/-- Bytes that were put in the place of what a path names. -/
structure Rewrite where
  path : String
  bytes : Bytes
  deriving DecidableEq, Repr, Inhabited

/-- `t'` differs from `t` in the entries that the paths of the rewrites name, and nowhere else. Each
of them is a file with the bytes of the rewrite and the mode of what the path led to. -/
structure Frame (t t' : FileTree) (rewrites : List Rewrite) : Prop where
  workingDirectory : t'.workingDirectory = t.workingDirectory
  host : t'.host = t.host
  others : ∀ loc, (∀ r ∈ rewrites, t.slot r.path ≠ .ok loc) → t'.get? loc = t.get? loc
  rewritten : ∀ r ∈ rewrites, ∃ loc mode, t.slot r.path = .ok loc ∧ t.modeAt r.path = .ok mode ∧
    t'.get? loc = some (.file (.bytes r.bytes) mode)

/-- Each path leads to a file. -/
def LeadToFiles (t : FileTree) (rewrites : List Rewrite) : Prop :=
  ∀ r ∈ rewrites, ∃ goal, LeadsToFile t r.path goal

/-- The files that the paths of rewrites lead to. -/
def goals (t : FileTree) (rewrites : List Rewrite) : List Location :=
  rewrites.filterMap fun r => (t.resolve r.path).toOption

theorem mem_goals {t : FileTree} {rewrites : List Rewrite} {goal : Location} :
    goal ∈ t.goals rewrites ↔ ∃ r ∈ rewrites, t.resolve r.path = .ok goal := by
  simp only [goals, List.mem_filterMap]
  refine exists_congr fun r => and_congr_right fun _ => ?_
  cases t.resolve r.path with
  | error e => simp
  | ok loc => simp

theorem Separate.leadToFiles {t : FileTree} {rewrites : List Rewrite} {paths : List String}
    (h : Separate t (rewrites.map Rewrite.path ++ paths)) : LeadToFiles t rewrites :=
  fun _ hr => h.files _ (List.mem_append_left _ (List.mem_map_of_mem hr))

/-- A path that is left leads to a file that was not rewritten. -/
theorem Separate.next {t : FileTree} {rewrites : List Rewrite} {path : String}
    {paths : List String} (h : Separate t (rewrites.map Rewrite.path ++ path :: paths)) :
    ∃ goal, LeadsToFile t path goal ∧ goal ∉ t.goals rewrites := by
  obtain ⟨goal, hleads⟩ := h.files path (by simp)
  refine ⟨goal, hleads, fun hgoal => ?_⟩
  obtain ⟨r, hr, hresolve⟩ := mem_goals.1 hgoal
  exact (List.pairwise_append.1 h.apart).2.2 r.path (List.mem_map_of_mem hr) path
    List.mem_cons_self (hresolve.trans hleads.resolve.symm)

namespace Frame

variable {t t' t'' : FileTree} {rewrites : List Rewrite}

theorem refl (t : FileTree) : Frame t t [] := ⟨rfl, rfl, fun _ _ => rfl, by simp⟩

/-- What a path to a file finds stays as it is, unless one of the rewrites leads to that file. -/
theorem slot_ne (hfiles : LeadToFiles t rewrites) {path : String} {goal loc : Location}
    (h : LeadsToFile t path goal) (hgoal : goal ∉ t.goals rewrites)
    (hslot : t.slot path = .ok loc) : ∀ r ∈ rewrites, t.slot r.path ≠ .ok loc := by
  intro r hr hslot'
  obtain ⟨goal', h'⟩ := hfiles r hr
  obtain rfl := h.eq_of_slot h' hslot hslot'
  exact hgoal (mem_goals.2 ⟨r, hr, h'.resolve⟩)

/-- With some entries replaced by files, walks to other files arrive where they did. -/
theorem overlay (f : Frame t t' rewrites) (hfiles : LeadToFiles t rewrites) :
    Overlay t t' (t.goals rewrites) := by
  refine ⟨f.workingDirectory, fun goal hgoal => ?_, fun loc e he => ?_⟩
  · obtain ⟨r, hr, hresolve⟩ := mem_goals.1 hgoal
    obtain ⟨goal', h⟩ := hfiles r hr
    obtain rfl := Except.ok.inj (hresolve.symm.trans h.resolve)
    exact h.holdsFile
  · by_cases hslot : ∃ r ∈ rewrites, t.slot r.path = .ok loc
    · obtain ⟨r, hr, hslot⟩ := hslot
      obtain ⟨goal, h⟩ := hfiles r hr
      obtain ⟨loc', mode, hslot', _, he'⟩ := f.rewritten r hr
      obtain rfl := Except.ok.inj (hslot.symm.trans hslot')
      exact .inr ⟨goal, mem_goals.2 ⟨r, hr, h.resolve⟩, h.pointsTo hslot, _, mode, he'⟩
    · refine .inl ?_
      rw [f.others loc fun r hr hr' => hslot ⟨r, hr, hr'⟩, he]

/-- Nothing is added. -/
theorem free (f : Frame t t' rewrites) (hfiles : LeadToFiles t rewrites) (loc : Location)
    (hfree : t.get? loc = none) : t'.get? loc = none := by
  rw [f.others loc, hfree]
  intro r hr hslot
  obtain ⟨goal, h⟩ := hfiles r hr
  have hsome := (h.pointsTo hslot).isSome
  simp [hfree] at hsome

/-- A path to a file that was not replaced finds there what it did. -/
theorem stat (f : Frame t t' rewrites) (hfiles : LeadToFiles t rewrites) {path : String}
    {goal : Location} (h : LeadsToFile t path goal) (hgoal : goal ∉ t.goals rewrites) :
    t'.stat path = t.stat path :=
  (f.overlay hfiles).stat h.resolve h.holdsFile hgoal

variable {faults : Replace.Faults} {processId : Nat} {path : String} {bytes : Bytes}
  {goal : Location}

/-- **One more file replaced** is one more rewrite. -/
theorem rewrite (f : Frame t t' rewrites) (hfiles : LeadToFiles t rewrites)
    (h : LeadsToFile t path goal) (hgoal : goal ∉ t.goals rewrites)
    (hrun : (Replace.run faults processId t' path bytes).result = .ok ()) :
    Frame t ((Replace.run faults processId t' path bytes).final t')
      (rewrites ++ [⟨path, bytes⟩]) := by
  obtain ⟨mode, loc, hmode, hslot, hfinal⟩ := Replace.run_ok hrun
  have hover := f.overlay hfiles
  rw [hover.slot h.resolve hgoal] at hslot
  rw [modeAt_eq_of_stat (f.stat hfiles h hgoal)] at hmode
  have hapart := slot_ne hfiles h hgoal hslot
  refine ⟨hfinal.workingDirectory.trans f.workingDirectory, hfinal.host.trans f.host,
    fun other hother => ?_, fun r hr => ?_⟩
  · have hne : other ≠ loc := by
      rintro rfl
      exact hother ⟨path, bytes⟩ (by simp) hslot
    rw [hfinal.get?, if_neg hne]
    exact f.others other fun r hr => hother r (List.mem_append_left _ hr)
  · rcases List.mem_append.1 hr with hr | hr
    · obtain ⟨loc', mode', hslot', hmode', he⟩ := f.rewritten r hr
      have hne : loc' ≠ loc := by
        rintro rfl
        exact hapart r hr hslot'
      exact ⟨loc', mode', hslot', hmode', by rw [hfinal.get?, if_neg hne, he]⟩
    · obtain rfl := List.mem_singleton.1 hr
      exact ⟨loc, mode, hslot, hmode, hfinal.get?_self⟩

/-- Whether one more file can be replaced does not depend on those replaced before. -/
theorem run_result (f : Frame t t' rewrites) (hfiles : LeadToFiles t rewrites)
    (h : LeadsToFile t path goal) (hgoal : goal ∉ t.goals rewrites) :
    (Replace.run faults processId t' path bytes).result =
      (Replace.run faults processId t path bytes).result :=
  Replace.run_result_overlay (f.overlay hfiles) (f.free hfiles) h.resolve h.holdsFile hgoal

/-- What a rewritten link led to is left alone, if the rewrites lead to different files. -/
theorem target (f : Frame t t' rewrites) (hfiles : LeadToFiles t rewrites)
    (hapart : rewrites.Pairwise fun r s => t.resolve r.path ≠ t.resolve s.path) {r : Rewrite}
    (hr : r ∈ rewrites) {loc : Location} (h : LeadsToFile t r.path goal)
    (hslot : t.slot r.path = .ok loc) (hne : goal ≠ loc) : t'.get? goal = t.get? goal := by
  refine f.others goal fun s hs hslot' => ?_
  obtain ⟨goal', h'⟩ := hfiles s hs
  obtain rfl := h'.eq_of_holdsFile hslot' h.holdsFile
  by_cases hrs : r = s
  · subst hrs
    exact hne (Except.ok.inj (hslot'.symm.trans hslot))
  · have : Std.Symm fun r s : Rewrite => t.resolve r.path ≠ t.resolve s.path :=
      ⟨fun _ _ => Ne.symm⟩
    exact hapart.forall hr hs hrs (h.resolve.trans h'.resolve.symm)

/-- A rewritten file is read as it was rewritten, if it could be read before. -/
theorem readFile_rewritten (f : Frame t t' rewrites) (hfiles : LeadToFiles t rewrites)
    {r : Rewrite} (hr : r ∈ rewrites) (hread : t.readFile r.path = .ok bytes) :
    t'.readFile r.path = .ok r.bytes := by
  obtain ⟨loc, mode, hslot, hmode, he⟩ := f.rewritten r hr
  obtain ⟨goal, h⟩ := hfiles r hr
  have hslot' : t'.slot r.path = .ok loc := by
    rw [(f.overlay hfiles).slot_of_holdsFile h.resolve h.holdsFile, hslot]
  exact readFile_of_slot hslot' he (mayRead_of_readFile hread hmode)

end Frame

end FiberWeave.FileTree
