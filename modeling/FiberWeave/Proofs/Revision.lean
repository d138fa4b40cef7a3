import FiberWeave.Proofs.Frame
import FiberWeave.Proofs.Locations

/-!
# What is found in a tree after files were rewritten

Where an entry that led to a file was replaced by a file, a path over that entry ends there and no
longer at the file that it led to.  So paths to files still lead to files, but not always to the
same ones; and a path that had too many links to lead to a file may have few enough now.

* `Renewed`, `Revised` — an entry and a tree in which files were rewritten, where `R` says how the
  bytes of a rewritten file are related to those that were read in its place before.
* **`Revised.leads`** — what a path finds is what it found, or a rewritten file in its place;
  `Revised.stat`, `Revised.readFile` say so of files and their bytes.
* `Revised.leads_directory`, `Revised.directoryAt?` — paths to directories lead where they did, and no
  others do.
* `TooFar` — a path that leads to a file, but not within the number of links that a path may have.
  **`Revised.isFile`** — no other path comes to lead to a file.
* `Frame.revised` — files that were rewritten one after the other make such a tree.
-/

namespace FiberWeave.FileTree

/-! ## Rewritten files -/

section Revised

variable (R : Bytes → Bytes → Prop)

/-- What is found in the place of an entry: the entry, or a file in the place of a file, with its
mode. -/
inductive Renewed : Entry → Entry → Prop where
  | same (e : Entry) : Renewed e e
  | rewritten {content : Content} {bytes : Bytes} (mode : Nat) (h : R content.toBytes bytes) :
      Renewed (.file content mode) (.file (.bytes bytes) mode)

/-- `t'` is `t` with some entries replaced that led to files. What is there now was made from these
files. Other entries may have been added. -/
structure Revised (t t' : FileTree) : Prop where
  workingDirectory : t'.workingDirectory = t.workingDirectory
  host : t'.host = t.host
  keeps : ∀ loc e, t.get? loc = some e → t'.get? loc = some e ∨
    ∃ goal old new, t.PointsTo loc goal ∧ t.get? goal = some old ∧ t'.get? loc = some new ∧
      Renewed R old new

end Revised

/-- The path leads to a file, but not within the number of links that a path may lead through. -/
def TooFar (t : FileTree) (path : String) : Prop :=
  checkPath path = .ok () ∧ t.isFile path = false ∧
    ∃ links goal, t.walk links (t.origin path) (Path.pieces path) = .ok goal ∧ t.HoldsFile goal

/-- The directory that a path leads to. -/
def directoryAt? (t : FileTree) (path : String) : Option Location :=
  (t.resolve path).toOption.filter t.isDirectoryAt

variable {R : Bytes → Bytes → Prop} {t t' : FileTree} {path : String}

theorem isFile_iff : t.isFile path = true ↔ ∃ goal, LeadsToFile t path goal := by
  refine ⟨leadsToFile_of_isFile, ?_⟩
  rintro ⟨goal, hresolve, content, mode, he⟩
  simp [isFile, stat, hresolve, he]

theorem directoryAt?_eq_some_iff {loc : Location} :
    t.directoryAt? path = some loc ↔ t.resolve path = .ok loc ∧ t.isDirectoryAt loc = true := by
  unfold directoryAt?
  cases t.resolve path with
  | error e => simp
  | ok found =>
      simp only [Attempt.toOption_ok, Option.filter_eq_some_iff, Option.some.injEq,
        Except.ok.injEq]

theorem WellFormed.directory_dropLast (h : t.WellFormed) {loc : Location}
    (hloc : t.isDirectoryAt loc = true) : t.isDirectoryAt loc.dropLast = true := by
  by_cases hroot : loc = []
  · simpa [hroot] using hloc
  · have hentry := exists_mem_of_get? (by simpa [isDirectoryAt] using hloc) hroot
    exact (h.below _ hentry).2

/-- If directories list the names that they did, nothing was added. -/
theorem free_of_children (h : ∀ dir, t'.children dir = t.children dir) (loc : Location)
    (hfree : t.get? loc = none) : t'.get? loc = none := by
  by_contra hnew
  obtain ⟨e, he⟩ := Option.ne_none_iff_exists'.1 hnew
  have hroot := ne_nil_of_free hfree
  have hname : loc.getLast hroot ∈ t'.children loc.dropLast :=
    mem_children_iff.2 ⟨_, exists_mem_of_get? he hroot, (List.dropLast_concat_getLast hroot).symm⟩
  rw [h, mem_children_iff, List.dropLast_concat_getLast] at hname
  obtain ⟨e', he', hloc⟩ := hname
  exact not_mem_locations_of_free hfree (hloc ▸ List.mem_map_of_mem he')

/-- Directories list names in the order of the locations. -/
theorem children_of_locations (h : t'.locations = t.locations) (dir : Location) :
    t'.children dir = t.children dir := by
  have hchildren : ∀ t : FileTree, t.children dir = t.locations.filterMap (childName? dir) := by
    intro t
    rw [children, locations, List.filterMap_map]
    rfl
  rw [hchildren, hchildren, h]

namespace Renewed

variable {old new : Entry}

/-- A file stays a file, with its mode. -/
theorem file {content : Content} {mode : Nat} (h : Renewed R (.file content mode) new) :
    ∃ content', new = .file content' mode ∧ (content' = content ∨
      ∃ bytes, content' = .bytes bytes ∧ R content.toBytes bytes) := by
  cases h with
  | same => exact ⟨content, rfl, .inl rfl⟩
  | rewritten _ hR => exact ⟨_, rfl, .inr ⟨_, rfl, hR⟩⟩

end Renewed

theorem PointsTo.holdsFile {loc goal : Location} (h : t.PointsTo loc goal) : t.HoldsFile goal := by
  cases h with
  | file hfile => exact hfile
  | link _ _ hfile => exact hfile

theorem HoldsFile.eq_file {loc : Location} {e : Entry} (h : t.HoldsFile loc)
    (he : t.get? loc = some e) : ∃ content mode, e = .file content mode := by
  obtain ⟨content, mode, hfile⟩ := h
  exact ⟨content, mode, Option.some.inj (he.symm.trans hfile)⟩

namespace Revised

theorem refl (t : FileTree) : Revised R t t := ⟨rfl, rfl, fun _ _ he => .inl he⟩

/-! ## Paths that lead somewhere -/

/-- What is at a location that was replaced is a file. -/
theorem holdsFile_of_replaced {loc goal : Location} {old new : Entry} (hpoints : t.PointsTo loc goal)
    (hold : t.get? goal = some old) (hnew : t'.get? loc = some new) (h : Renewed R old new) :
    t'.HoldsFile loc := by
  obtain ⟨content, mode, rfl⟩ := hpoints.holdsFile.eq_file hold
  obtain ⟨content', rfl, _⟩ := h.file
  exact ⟨content', mode, hnew⟩

theorem directory (v : Revised R t t') {loc : Location} (h : t.isDirectoryAt loc = true) :
    t'.isDirectoryAt loc = true := by
  have he : t.get? loc = some .directory := by simpa [isDirectoryAt] using h
  rcases v.keeps loc _ he with hkept | ⟨goal, old, new, hpoints, _⟩
  · simp [isDirectoryAt, hkept]
  · cases hpoints with
    | file hfile => simp [hfile.not_directory] at h
    | link hlink => simp [he] at hlink

/-- **What names find is what they found, or a rewritten file in its place.** -/
theorem leads (v : Revised R t t') {k k' : Nat} {loc goal : Location} {names : List String}
    {e : Entry} (h : Leads t k loc names k' goal) (he : t.get? goal = some e)
    (hlink : ∀ target, e ≠ .link target) : ∃ j goal' e', Leads t' k loc names j goal' ∧
      t'.get? goal' = some e' ∧ Renewed R e e' ∧ (e = .directory → goal' = goal) := by
  induction h with
  | @done k loc =>
      rcases v.keeps loc e he with hkept | ⟨goal, old, new, hpoints, hold, hnew, hrenewed⟩
      · exact ⟨k, loc, e, .done, hkept, .same e, fun _ => rfl⟩
      · cases hpoints with
        | file =>
            obtain rfl := Option.some.inj (he.symm.trans hold)
            exact ⟨k, loc, new, .done, hnew, hrenewed, fun _ => rfl⟩
        | link he' => exact absurd (Option.some.inj (he.symm.trans he')) (hlink _)
  | stay hdir hname _ ih =>
      obtain ⟨j, goal', e', hleads, hfound⟩ := ih he
      exact ⟨j, goal', e', .stay (v.directory hdir) hname hleads, hfound⟩
  | up hdir _ ih =>
      obtain ⟨j, goal', e', hleads, hfound⟩ := ih he
      exact ⟨j, goal', e', .up (v.directory hdir) hleads, hfound⟩
  | @enter k k' loc goal name rest e₀ hdir hinert hup hlen he₀ hlink₀ h ih =>
      obtain ⟨j, goal', e', hleads, hfound⟩ := ih he
      have hentered : ∃ e₁, t'.get? (loc ++ [name]) = some e₁ ∧ ∀ target, e₁ ≠ .link target := by
        rcases v.keeps _ _ he₀ with hkept | ⟨goal, old, new, hpoints, hold, hnew, hrenewed⟩
        · exact ⟨e₀, hkept, hlink₀⟩
        · obtain ⟨content, mode, hfile⟩ := holdsFile_of_replaced hpoints hold hnew hrenewed
          exact ⟨_, hfile, by simp⟩
      obtain ⟨e₁, he₁, hlink₁⟩ := hentered
      exact ⟨j, goal', e', .enter (v.directory hdir) hinert hup hlen he₁ hlink₁ hleads, hfound⟩
  | @follow k k' loc goal name target rest hdir hinert hup hlen he₀ h ih =>
      rcases v.keeps _ _ he₀ with hkept | ⟨file, old, new, hpoints, hold, hnew, hrenewed⟩
      · obtain ⟨j, goal', e', hleads, hfound⟩ := ih he
        exact ⟨j, goal', e', .follow (v.directory hdir) hinert hup hlen hkept hleads, hfound⟩
      · obtain ⟨content, mode, hfile⟩ := holdsFile_of_replaced hpoints hold hnew hrenewed
        cases hpoints with
        | file hholds =>
            obtain ⟨_, _, he'⟩ := hholds
            simp [he₀] at he'
        | link he' hleads hholds =>
            -- the link led to a file, from where nothing leads on
            obtain rfl := Entry.link.inj (Option.some.inj (he₀.symm.trans he'))
            rw [List.dropLast_concat] at hleads
            obtain ⟨j, mid, hfirst, hlast⟩ := h.split _ _ rfl
            obtain rfl := hleads.unique hfirst
            obtain ⟨rfl, rfl⟩ := hlast.eq_of_not_directory hholds.not_directory
            obtain rfl := Option.some.inj (he.symm.trans hold)
            obtain ⟨_, _, rfl⟩ := hholds.eq_file he
            exact ⟨k + 1, loc ++ [name], new,
              .enter (v.directory hdir) hinert hup hlen hfile (by simp) .done, hnew, hrenewed,
              by simp⟩

theorem leads_directory (v : Revised R t t') {k k' : Nat} {loc goal : Location}
    {names : List String} (h : Leads t k loc names k' goal) (hdir : t.isDirectoryAt goal = true) :
    ∃ j, Leads t' k loc names j goal := by
  have he : t.get? goal = some .directory := by simpa [isDirectoryAt] using hdir
  obtain ⟨j, goal', e', hleads, _, _, hsame⟩ := v.leads h he (by simp)
  obtain rfl := hsame rfl
  exact ⟨j, hleads⟩

theorem origin (v : Revised R t t') (path : String) : t'.origin path = t.origin path := by
  simp [FileTree.origin, v.workingDirectory]

/-- What a path finds is what it found, or a rewritten file in its place. -/
theorem stat (v : Revised R t t') {e : Entry} (h : t.stat path = .ok e)
    (hlink : ∀ target, e ≠ .link target) : ∃ e', t'.stat path = .ok e' ∧ Renewed R e e' := by
  unfold FileTree.stat at h
  cases hresolve : t.resolve path with
  | error cause => simp [hresolve] at h
  | ok goal =>
      cases he : t.get? goal with
      | none => simp [hresolve, he] at h
      | some found =>
          obtain rfl : found = e := by simpa [hresolve, he] using h
          obtain ⟨hcheck, k', hleads⟩ := resolve_eq_ok_iff.1 hresolve
          obtain ⟨j, goal', e', hleads', he', hrenewed, _⟩ := v.leads hleads he hlink
          have hresolve' : t'.resolve path = .ok goal' :=
            resolve_eq_ok_iff.2 ⟨hcheck, j, by rw [v.origin]; exact hleads'⟩
          exact ⟨e', by simp [FileTree.stat, hresolve', he'], hrenewed⟩

/-- A file is read as it was, or as it was rewritten. One that could not be read still cannot. -/
theorem readFile (v : Revised R t t') (h : t.isFile path = true) :
    (∃ old new, t.readFile path = .ok old ∧ t'.readFile path = .ok new ∧ (new = old ∨ R old new)) ∨
      ∃ e, t.readFile path = .error e ∧ t'.readFile path = .error e := by
  obtain ⟨goal, hresolve, content, mode, he⟩ := isFile_iff.1 h
  have hstat : t.stat path = .ok (.file content mode) := by simp [FileTree.stat, hresolve, he]
  obtain ⟨e', hstat', hrenewed⟩ := v.stat hstat (by simp)
  obtain ⟨content', rfl, hcontent⟩ := hrenewed.file
  simp only [FileTree.readFile, contentAt, hstat, hstat', Attempt.ok_bind]
  cases Entry.mayRead mode with
  | false => exact .inr ⟨.permissionDenied, by simp⟩
  | true =>
      refine .inl ⟨content.toBytes, content'.toBytes, by simp, by simp, ?_⟩
      rcases hcontent with rfl | ⟨bytes, rfl, hR⟩
      · exact .inl rfl
      · exact .inr hR

theorem isFile_of_isFile (v : Revised R t t') (h : t.isFile path = true) :
    t'.isFile path = true := by
  obtain ⟨goal, hresolve, content, mode, he⟩ := isFile_iff.1 h
  have hstat : t.stat path = .ok (.file content mode) := by simp [FileTree.stat, hresolve, he]
  obtain ⟨e', hstat', hrenewed⟩ := v.stat hstat (by simp)
  obtain ⟨content', rfl, _⟩ := hrenewed.file
  simp [FileTree.isFile, hstat']

/-! ## Paths that led nowhere

If nothing was added, names that lead to a directory led there before, and names that lead to a file
led to one before, through one link more perhaps. -/

section Backwards

variable (v : Revised R t t') (hfree : ∀ loc, t.get? loc = none → t'.get? loc = none)

include v hfree

/-- What is no file was there before. -/
theorem eq_of_not_file {loc : Location} {e : Entry} (he : t'.get? loc = some e)
    (hfile : ∀ content mode, e ≠ .file content mode) : t.get? loc = some e := by
  cases he₀ : t.get? loc with
  | none => simp [hfree loc he₀] at he
  | some e₀ =>
      rcases v.keeps loc e₀ he₀ with hkept | ⟨goal, old, new, hpoints, hold, hnew, hrenewed⟩
      · rw [hkept] at he
        exact he
      · obtain ⟨content, mode, hnew'⟩ := holdsFile_of_replaced hpoints hold hnew hrenewed
        exact absurd (Option.some.inj (he.symm.trans hnew')) (hfile content mode)

theorem directory_back {loc : Location} (h : t'.isDirectoryAt loc = true) :
    t.isDirectoryAt loc = true := by
  have he : t'.get? loc = some .directory := by simpa [isDirectoryAt] using h
  simp [isDirectoryAt, eq_of_not_file v hfree he (by simp)]

theorem leads_directory_back {k k' : Nat} {loc goal : Location} {names : List String}
    (h : Leads t' k loc names k' goal) (hgoal : t'.isDirectoryAt goal = true) :
    Leads t k loc names k' goal := by
  induction h with
  | done => exact .done
  | stay hdir hname _ ih => exact .stay (directory_back v hfree hdir) hname (ih hgoal)
  | up hdir _ ih => exact .up (directory_back v hfree hdir) (ih hgoal)
  | enter hdir hinert hup hlen he hlink h ih =>
      refine .enter (directory_back v hfree hdir) hinert hup hlen
        (eq_of_not_file v hfree he ?_) hlink (ih hgoal)
      rintro content mode rfl
      obtain ⟨_, rfl⟩ := h.eq_of_not_directory (HoldsFile.not_directory ⟨_, _, he⟩)
      simp [HoldsFile.not_directory ⟨_, _, he⟩] at hgoal
  | follow hdir hinert hup hlen he _ ih =>
      exact .follow (directory_back v hfree hdir) hinert hup hlen
        (eq_of_not_file v hfree he (by simp)) (ih hgoal)

/-- Names that lead to a file led to one, if any number of links is followed. A walk may begin at a
link only if it goes on from there. -/
theorem leads_file_back (ht : t.WellFormed) {k k' : Nat} {loc goal : Location}
    {names : List String} (h : Leads t' k loc names k' goal) (hgoal : t'.HoldsFile goal)
    (hstart : names = [] → ∀ target, t.get? loc ≠ some (.link target)) :
    ∃ j j' goal', Leads t j loc names j' goal' ∧ t.HoldsFile goal' := by
  induction h with
  | @done k loc =>
      obtain ⟨content, mode, he⟩ := hgoal
      refine ⟨0, 0, loc, .done, ?_⟩
      cases he₀ : t.get? loc with
      | none => simp [hfree loc he₀] at he
      | some e₀ =>
          rcases v.keeps loc e₀ he₀ with hkept | ⟨goal, old, new, hpoints, _⟩
          · rw [hkept] at he
            exact ⟨content, mode, he₀.trans he⟩
          · cases hpoints with
            | file hfile => exact hfile
            | link he' => exact absurd he' (hstart rfl _)
  | stay hdir hname _ ih =>
      have hdir' := directory_back v hfree hdir
      obtain ⟨j, j', goal', hleads, hfile⟩ := ih hgoal fun _ target he => by
        simp [isDirectoryAt, he] at hdir'
      exact ⟨j, j', goal', .stay hdir' hname hleads, hfile⟩
  | up hdir _ ih =>
      have hdir' := directory_back v hfree hdir
      obtain ⟨j, j', goal', hleads, hfile⟩ := ih hgoal fun _ target he => by
        have habove := ht.directory_dropLast hdir'
        simp [isDirectoryAt, he] at habove
      exact ⟨j, j', goal', .up hdir' hleads, hfile⟩
  | @enter k k' loc goal name rest e hdir hinert hup hlen he hlink h ih =>
      have hdir' := directory_back v hfree hdir
      cases he₀ : t.get? (loc ++ [name]) with
      | none => simp [hfree _ he₀] at he
      | some e₀ =>
          by_cases hlink₀ : ∃ target, e₀ = .link target
          · -- a link that was replaced by the file: it led to a file
            obtain ⟨target, rfl⟩ := hlink₀
            rcases v.keeps _ _ he₀ with hkept | ⟨file, old, new, hpoints, hold, hnew, hrenewed⟩
            · exact absurd (Option.some.inj (he.symm.trans hkept)) (hlink target)
            · have hfile := holdsFile_of_replaced hpoints hold hnew hrenewed
              obtain ⟨rfl, _⟩ := h.eq_of_not_directory hfile.not_directory
              cases hpoints with
              | file hholds =>
                  obtain ⟨_, _, he'⟩ := hholds
                  simp [he₀] at he'
              | @link _ _ j j' he' hleads hholds =>
                  obtain rfl := Entry.link.inj (Option.some.inj (he₀.symm.trans he'))
                  rw [List.dropLast_concat] at hleads
                  exact ⟨j + 1, j', file, .follow hdir' hinert hup hlen he₀
                    ((List.append_nil _).symm ▸ hleads), hholds⟩
          · have hlink₀ : ∀ target, e₀ ≠ .link target := fun target h => hlink₀ ⟨target, h⟩
            obtain ⟨j, j', goal', hleads, hfile⟩ := ih hgoal fun _ target he' =>
              hlink₀ target (Option.some.inj (he₀.symm.trans he'))
            exact ⟨j, j', goal', .enter hdir' hinert hup hlen he₀ hlink₀ hleads, hfile⟩
  | @follow k k' loc goal name target rest hdir hinert hup hlen he h ih =>
      obtain ⟨front, last, hpieces⟩ := Path.pieces_eq_concat target
      obtain ⟨j, j', goal', hleads, hfile⟩ := ih hgoal fun hnil => by simp [hpieces] at hnil
      exact ⟨j + 1, j', goal', .follow (directory_back v hfree hdir) hinert hup hlen
        (eq_of_not_file v hfree he (by simp)) hleads, hfile⟩

/-- **Paths lead to the directories that they led to.** -/
theorem directoryAt? (path : String) : t'.directoryAt? path = t.directoryAt? path := by
  refine Option.ext fun loc => ?_
  simp only [directoryAt?_eq_some_iff, resolve_eq_ok_iff, v.origin]
  constructor
  · rintro ⟨⟨hcheck, k', hleads⟩, hdir⟩
    exact ⟨⟨hcheck, k', leads_directory_back v hfree hleads hdir⟩, directory_back v hfree hdir⟩
  · rintro ⟨⟨hcheck, k', hleads⟩, hdir⟩
    obtain ⟨j, hleads'⟩ := v.leads_directory hleads hdir
    exact ⟨⟨hcheck, j, hleads'⟩, v.directory hdir⟩

/-- **A path leads to a file if it led to one, or if it had too many links for that.** -/
theorem isFile (ht : t.WellFormed) (hnear : ¬t.TooFar path) : t'.isFile path = t.isFile path := by
  cases hold : t.isFile path with
  | true => exact v.isFile_of_isFile hold
  | false =>
      refine Bool.eq_false_iff.2 fun hnew => hnear ?_
      obtain ⟨goal, hresolve, hfile⟩ := isFile_iff.1 hnew
      obtain ⟨hcheck, k', hleads⟩ := resolve_eq_ok_iff.1 hresolve
      rw [v.origin] at hleads
      obtain ⟨front, last, hpieces⟩ := Path.pieces_eq_concat path
      obtain ⟨j, j', goal', hleads', hfile'⟩ :=
        leads_file_back v hfree ht hleads hfile fun hnil => by simp [hpieces] at hnil
      exact ⟨hcheck, hold, j, goal', walk_eq_ok_iff.2 ⟨j', hleads'⟩, hfile'⟩

end Backwards

/-- A file more makes no difference. -/
theorem leftover {t'' : FileTree} (v : Revised R t t') (h : Leftover t' t'') : Revised R t t'' := by
  obtain ⟨temporary, data, mode, hfree, hwith⟩ := h
  have hkept : ∀ loc e, t'.get? loc = some e → t''.get? loc = some e := by
    intro loc e he
    have hne : loc ≠ temporary := by
      rintro rfl
      simp [hfree] at he
    rw [hwith.get?, if_neg hne, he]
  refine ⟨hwith.workingDirectory.trans v.workingDirectory, hwith.host.trans v.host,
    fun loc e he => ?_⟩
  rcases v.keeps loc e he with hsame | ⟨goal, old, new, hpoints, hold, hnew, hrenewed⟩
  · exact .inl (hkept loc e hsame)
  · exact .inr ⟨goal, old, new, hpoints, hold, hkept loc new hnew, hrenewed⟩

end Revised

/-- Files that were rewritten one after the other are rewritten files. -/
theorem Frame.revised {rewrites : List Rewrite} (f : Frame t t' rewrites)
    (hfiles : LeadToFiles t rewrites)
    (hR : ∀ r ∈ rewrites, ∃ old, t.readFile r.path = .ok old ∧ R old r.bytes) :
    Revised R t t' := by
  refine ⟨f.workingDirectory, f.host, fun loc e he => ?_⟩
  by_cases hslot : ∃ r ∈ rewrites, t.slot r.path = .ok loc
  · obtain ⟨r, hr, hslot⟩ := hslot
    obtain ⟨goal, hleads⟩ := hfiles r hr
    obtain ⟨content, mode, hgoal⟩ := hleads.holdsFile
    obtain ⟨loc', mode', hslot', hmode, he'⟩ := f.rewritten r hr
    obtain rfl := Except.ok.inj (hslot.symm.trans hslot')
    obtain ⟨old, hread, hRr⟩ := hR r hr
    have hstat : t.stat r.path = .ok (.file content mode) := by
      simp [FileTree.stat, hleads.resolve, hgoal]
    obtain rfl : mode = mode' := by simpa [modeAt, hstat] using hmode
    have hmay := mayRead_of_readFile hread hmode
    obtain rfl : content.toBytes = old := by simpa [readFile, contentAt, hstat, hmay] using hread
    exact .inr ⟨goal, _, _, hleads.pointsTo hslot, hgoal, he', .rewritten mode hRr⟩
  · refine .inl ?_
    rw [f.others loc fun r hr hr' => hslot ⟨r, hr, hr'⟩, he]

/-! ## Paths with too many links -/

/-- A stride that fails without a link, or with what is behind a link, fails whatever comes of the
other links. -/
theorem stride_error {follow follow' : Location → List String → Except OsError Location}
    {cause : OsError} (hfollow : ∀ dir names, follow dir names = .error cause →
      follow' dir names = .error cause) {loc : Location} {names : List String}
    (h : t.stride follow loc names = .error cause) :
    t.stride follow' loc names = .error cause := by
  fun_induction t.stride follow loc names with
  | case1 => cases h
  | case2 => simp_all [stride]
  | case3 => simp_all [stride]
  | case4 => simp_all [stride]
  | case5 => simp_all [stride]
  | case6 _ _ _ _ _ _ hlen => simp_all [stride, if_neg hlen]
  | case7 _ _ _ _ _ _ hlen => simp_all [stride, if_neg hlen]
  | case8 _ _ _ _ _ _ hlen => simp_all [stride, if_neg hlen]

/-- A walk that fails, but not for its links, fails with more links as well. -/
theorem walk_error_more {k : Nat} {loc : Location} {names : List String} {cause : OsError}
    (h : t.walk k loc names = .error cause) (hcause : cause ≠ .tooManyLinks) (extra : Nat) :
    t.walk (k + extra) loc names = .error cause := by
  induction k generalizing loc names with
  | zero =>
      rw [walk_eq_stride] at h ⊢
      exact stride_error (fun _ _ hlink => absurd (Except.error.inj hlink).symm hcause) h
  | succ k ih =>
      rw [Nat.succ_add]
      rw [walk_eq_stride] at h ⊢
      exact stride_error (fun _ _ hlink => ih hlink) h

/-- A path that has too many links to lead to a file fails for that reason. -/
theorem TooFar.resolve (h : t.TooFar path) : t.resolve path = .error .tooManyLinks := by
  obtain ⟨hcheck, hnot, links, goal, hwalk, hfile⟩ := h
  obtain ⟨k', hleads⟩ := walk_eq_ok_iff.1 hwalk
  have hfar : t.walk (linkLimit + links) (t.origin path) (Path.pieces path) = .ok goal := by
    rw [Nat.add_comm]
    exact walk_eq_ok_iff.2 ⟨_, hleads.more linkLimit⟩
  cases hresolve : t.resolve path with
  | ok found =>
      obtain ⟨_, j, hleads'⟩ := resolve_eq_ok_iff.1 hresolve
      obtain rfl := hleads.unique hleads'
      simp [isFile_iff.2 ⟨_, hresolve, hfile⟩] at hnot
  | error cause =>
      by_cases hcause : cause = .tooManyLinks
      · rw [hcause]
      · have hnear : t.walk linkLimit (t.origin path) (Path.pieces path) = .error cause := by
          simpa [FileTree.resolve, hcheck] using hresolve
        rw [walk_error_more hnear hcause links] at hfar
        cases hfar

end FiberWeave.FileTree
