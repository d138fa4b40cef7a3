import FiberWeave.Proofs.Walks
import FiberWeave.Replace

/-!
# What a replacement leaves

A replacement ends in one of two trees: the entry that the path names has become a file with the new
bytes and the old mode, or everything is as it was.

* `WithFile` — a tree with a file put at a location; `Leftover` — one put where nothing was.
* `put_put`, `remove_put_of_free`, `move_put_of_free` — what the steps do to a file that was put.
* `Replace.Course` — how a replacement can go, step by step; **`Replace.run_course`**: every one goes
  so.
* `Replace.run_ok`, `Replace.run_failed`, `Replace.run_error` — the tree after a replacement, by its
  result.
* `Replace.run_result` — what decides that result, if a file is to be replaced.
* **`Replace.run_result_overlay`** — replacing a file has the same result after other files were
  replaced.
-/

namespace FiberWeave

namespace FileTree

/-! ## Trees with one file more -/

/-- A tree with a file put at a location. -/
structure WithFile (t t' : FileTree) (loc : Location) (data : Bytes) (mode : Nat) : Prop where
  workingDirectory : t'.workingDirectory = t.workingDirectory
  host : t'.host = t.host
  get? : ∀ other, t'.get? other =
    if other = loc then some (.file (.bytes data) mode) else t.get? other

/-- A tree with one file more, where nothing was. -/
def Leftover (t t' : FileTree) : Prop :=
  ∃ loc data mode, t.get? loc = none ∧ WithFile t t' loc data mode

theorem get?_root (t : FileTree) : t.get? [] = some .directory := by simp [FileTree.get?]

theorem ne_nil_of_not_directory {t : FileTree} {loc : Location}
    (h : t.isDirectoryAt loc = false) : loc ≠ [] := by
  rintro rfl
  simp [isDirectoryAt, get?_root] at h

theorem ne_nil_of_free {t : FileTree} {loc : Location} (h : t.get? loc = none) : loc ≠ [] := by
  rintro rfl
  simp [get?_root] at h

theorem ne_of_free {t : FileTree} {loc other : Location} {e : Entry} (h : t.get? loc = none)
    (he : t.get? other = some e) : other ≠ loc := by
  rintro rfl
  cases h.symm.trans he

theorem withFile_put (t : FileTree) {loc : Location} (hloc : loc ≠ []) (data : Bytes)
    (mode : Nat) : WithFile t (t.put loc (.file (.bytes data) mode)) loc data mode :=
  ⟨rfl, rfl, fun other => get?_put t loc other _ hloc⟩

/-- The locations at which there is something, in the order in which they are listed. -/
def locations (t : FileTree) : List Location := t.entries.map Prod.fst

theorem mem_locations_iff {t : FileTree} {loc : Location} (hloc : loc ≠ []) :
    loc ∈ t.locations ↔ (t.get? loc).isSome = true := by
  rw [FileTree.get?, if_neg hloc, Option.isSome_map, List.find?_isSome]
  simp [locations]

theorem not_mem_locations_of_free {t : FileTree} {loc : Location} (h : t.get? loc = none) :
    loc ∉ t.locations := by
  rw [mem_locations_iff (ne_nil_of_free h), h]
  exact Bool.false_ne_true

theorem locations_putIn (loc : Location) (entry : Entry) (es : List (Location × Entry)) :
    (putIn loc entry es).map Prod.fst =
      if loc ∈ es.map Prod.fst then es.map Prod.fst else es.map Prod.fst ++ [loc] := by
  induction es with
  | nil => rfl
  | cons e rest ih =>
      by_cases he : e.1 = loc
      · simp [putIn, he]
      · simp only [putIn, he, if_false, List.map_cons, ih, List.mem_cons, Ne.symm he, false_or]
        split <;> rfl

theorem locations_put_of_isSome {t : FileTree} {loc : Location} (hloc : loc ≠ [])
    (h : (t.get? loc).isSome = true) (entry : Entry) : (t.put loc entry).locations = t.locations :=
  (locations_putIn loc entry t.entries).trans (if_pos ((mem_locations_iff hloc).2 h))

namespace WithFile

variable {t t' : FileTree} {loc : Location} {data : Bytes} {mode : Nat}

theorem get?_self (h : WithFile t t' loc data mode) :
    t'.get? loc = some (.file (.bytes data) mode) := by
  rw [h.get?, if_pos rfl]

theorem holdsFile (h : WithFile t t' loc data mode) : t'.HoldsFile loc := ⟨_, _, h.get?_self⟩

/-- A file where nothing was replaces nothing. -/
theorem overlay (h : WithFile t t' loc data mode) (hfree : t.get? loc = none) :
    Overlay t t' [] := by
  refine ⟨h.workingDirectory, by simp, fun other e he => .inl ?_⟩
  rw [h.get?, if_neg (ne_of_free hfree he), he]

end WithFile

/-! ## What single steps do to a file that was put -/

theorem putIn_putIn (loc : Location) (first entry : Entry) (es : List (Location × Entry)) :
    putIn loc entry (putIn loc first es) = putIn loc entry es := by
  induction es with
  | nil => simp [putIn]
  | cons e rest ih =>
      by_cases he : e.1 = loc
      · simp [putIn, he]
      · simp [putIn, he, ih]

/-- What was put is replaced by what is put there next. -/
theorem put_put (t : FileTree) (loc : Location) (first entry : Entry) :
    (t.put loc first).put loc entry = t.put loc entry :=
  congrArg (fun es => { t with entries := es }) (putIn_putIn loc first entry t.entries)

theorem filter_putIn_self {loc : Location} {es : List (Location × Entry)}
    (h : loc ∉ es.map Prod.fst) (entry : Entry) :
    (putIn loc entry es).filter (fun e => !(e.1 == loc)) = es := by
  induction es with
  | nil => simp [putIn]
  | cons e rest ih =>
      simp only [List.map_cons, List.mem_cons, not_or] at h
      simp [putIn, Ne.symm h.1, ih h.2]

theorem filter_putIn_of_ne {loc other : Location} (h : loc ≠ other) (entry : Entry)
    (es : List (Location × Entry)) : (putIn loc entry es).filter (fun e => !(e.1 == other)) =
      putIn loc entry (es.filter fun e => !(e.1 == other)) := by
  induction es with
  | nil => simp [putIn, h]
  | cons e rest ih =>
      by_cases he : e.1 = loc
      · simp [putIn, he, h]
      · by_cases ho : e.1 = other
        · simp [putIn, ho, Ne.symm h, ih]
        · simp [putIn, he, ho, ih]

/-- Where nothing was before, removing what was put leaves the old tree. -/
theorem remove_put_of_free {t : FileTree} {loc : Location} (h : t.get? loc = none)
    (entry : Entry) : (t.put loc entry).remove loc = t :=
  congrArg (fun es => { t with entries := es })
    (filter_putIn_self (not_mem_locations_of_free h) entry)

/-- Where nothing was before, moving what was put leaves the old tree with that entry elsewhere. -/
theorem move_put_of_free {t : FileTree} {source target : Location} (h : t.get? source = none)
    (hne : target ≠ source) (entry : Entry) :
    (t.put source entry).move source target = t.put target entry := by
  have hentry : (t.put source entry).get? source = some entry := by
    rw [get?_put _ _ _ _ (ne_nil_of_free h), if_pos rfl]
  have hremove : ((t.put source entry).put target entry).remove source =
      ((t.put source entry).remove source).put target entry :=
    congrArg (fun es => { t with entries := es }) (filter_putIn_of_ne hne entry _)
  simp only [move, hentry]
  rw [hremove, remove_put_of_free h]

theorem setContent_put {t : FileTree} {loc : Location} (hloc : loc ≠ []) (content : Content)
    (mode : Nat) (data : Bytes) :
    (t.put loc (.file content mode)).setContent loc data = t.put loc (.file (.bytes data) mode) := by
  rw [setContent, get?_put _ _ _ _ hloc, if_pos rfl]
  exact put_put t loc _ _

theorem setMode_put {t : FileTree} {loc : Location} (hloc : loc ≠ []) (content : Content)
    (old mode : Nat) :
    (t.put loc (.file content old)).setMode loc mode = t.put loc (.file content mode) := by
  rw [setMode, get?_put _ _ _ _ hloc, if_pos rfl]
  exact put_put t loc _ _

end FileTree

namespace Replace

open FileTree

/-! ## Names for temporary files -/

/-- What is put behind a path to name a temporary file. -/
def temporarySuffix (processId attempt : Nat) : String := s!".{processId}.{attempt}.tmp"

theorem temporaryName_eq (path : String) (processId attempt : Nat) :
    temporaryName path processId attempt = path ++ temporarySuffix processId attempt := rfl

theorem slash_not_mem_repr (n : Nat) : '/' ∉ n.repr.toList := by
  intro h
  rw [Nat.toList_repr] at h
  have hdigit := Nat.isDigit_of_mem_toDigits (by omega) (by omega) h
  simp [Char.isDigit] at hdigit

theorem slash_not_mem_temporarySuffix (processId attempt : Nat) :
    '/' ∉ (temporarySuffix processId attempt).toList := by
  have hprocess := slash_not_mem_repr processId
  have hattempt := slash_not_mem_repr attempt
  simp only [temporarySuffix, toString, String.toList_append, List.mem_append, not_or]
  exact ⟨⟨⟨⟨by decide, hprocess⟩, by decide⟩, hattempt⟩, by decide⟩

/-- With the ending of a temporary file, whatever piece becomes a name. -/
theorem isOrdinary_temporary (last : String) (processId attempt : Nat) :
    isOrdinary (last ++ temporarySuffix processId attempt) = true := by
  have hend : (last ++ temporarySuffix processId attempt).toList.getLast? = some 'p' := by
    rw [temporarySuffix, ← String.append_assoc, String.toList_append, List.getLast?_append]
    rfl
  have hne : ∀ name : String, name.toList.getLast? ≠ some 'p' →
      (last ++ temporarySuffix processId attempt == name) = false := by
    intro name hname
    refine beq_eq_false_iff_ne.2 fun heq => hname ?_
    rw [← heq, hend]
  simp [isOrdinary, Path.isInert, hne "" (by decide), hne "." (by decide), hne ".." (by decide)]

/-! ## Creation -/

variable {faults : Faults} {processId : Nat} {t t' : FileTree} {path : String} {bytes : Bytes}

theorem createNew_eq_ok {name : String} {loc : Location} {created : FileTree}
    (h : t.createNew name = .ok (loc, created)) :
    t.slot name = .ok loc ∧ t.get? loc = none ∧
      created = t.put loc (.file (.bytes []) Entry.fileMode) := by
  unfold createNew at h
  cases hslot : t.slot name with
  | error e => simp [hslot] at h
  | ok loc' =>
      cases hget : t.get? loc' with
      | some e => simp [hslot, hget] at h
      | none =>
          simp only [hslot, hget, Option.isSome_none, Bool.false_eq_true, if_false,
            Except.ok.injEq, Prod.mk.injEq, Attempt.ok_bind, Attempt.pure_eq_ok] at h
          obtain ⟨rfl, rfl⟩ := h
          exact ⟨rfl, hget, rfl⟩

/-- A temporary file is put where nothing was, under one of its names. -/
theorem createBeside_eq_ok {attempt left : Nat} {loc : Location} {created : FileTree}
    (h : createBeside faults processId t path attempt left = .ok (loc, created)) :
    ∃ i < attempt + left, t.slot (temporaryName path processId i) = .ok loc ∧ t.get? loc = none ∧
      created = t.put loc (.file (.bytes []) Entry.fileMode) := by
  induction left generalizing attempt with
  | zero => simp [createBeside] at h
  | succ left ih =>
      rw [createBeside] at h
      split at h
      · obtain ⟨i, hi, hmade⟩ := ih h
        exact ⟨i, by omega, hmade⟩
      · rename_i outcome hattempt
        refine ⟨attempt, by omega, createNew_eq_ok ?_⟩
        unfold tryCreate at h
        cases hfault : faults.create attempt with
        | some e => simp [hfault] at h
        | none => simpa [hfault] using h

/-! ## How a replacement goes -/

/-- A place for the temporary file of a replacement: it has one of the names for it, and nothing is
there. -/
structure IsTemporary (processId : Nat) (t : FileTree) (path : String) (loc : Location) : Prop where
  named : ∃ attempt < attempts, t.slot (temporaryName path processId attempt) = .ok loc
  free : t.get? loc = none

/-- A tree with a file put at a location. -/
def HasFile (t : FileTree) (loc : Location) (t' : FileTree) : Prop :=
  ∃ data mode, t' = t.put loc (.file (.bytes data) mode)

/-- What becomes of a replacement once a temporary file is there, if a file is to be replaced. -/
def Faults.outcome (faults : Faults) : Except OsError Unit :=
  match faults.write, faults.flush, faults.setMode, faults.rename with
  | some (_, e), _, _, _ | none, some e, _, _ | none, none, some e, _
  | none, none, none, some e => .error e
  | none, none, none, none => .ok ()

/-- How a replacement can go. -/
inductive Course (faults : Faults) (processId : Nat) (t : FileTree) (path : String)
    (bytes : Bytes) : Replacement → Prop where
  /-- There is no temporary file. -/
  | refused (cause : OsError) : Course faults processId t path bytes ⟨.error cause, []⟩
  /-- There is a temporary file, but it is not moved. -/
  | givenUp {temporary : Location} {mode : Nat} {trees : List FileTree} {last : FileTree}
      (cause : OsError) (hinspect : inspect faults t path = .ok mode)
      (htemporary : IsTemporary processId t path temporary)
      (htrees : ∀ t' ∈ trees, HasFile t temporary t') (hlast : HasFile t temporary last) :
      Course faults processId t path bytes (giveUp faults temporary trees last cause)
  /-- The temporary file is moved to where the path leads, over what is there. -/
  | moved {temporary loc : Location} {mode : Nat} {trees : List FileTree}
      (hinspect : inspect faults t path = .ok mode)
      (htemporary : IsTemporary processId t path temporary)
      (htrees : ∀ t' ∈ trees, HasFile t temporary t') (houtcome : faults.outcome = .ok ())
      (hslot : t.slot path = .ok loc) (hpresent : (t.get? loc).isSome = true)
      (hplain : t.isDirectoryAt loc = false) :
      Course faults processId t path bytes
        ⟨.ok (), trees ++ [t.put loc (.file (.bytes bytes) mode)]⟩

theorem inspect_eq_ok {mode : Nat} (h : inspect faults t path = .ok mode) :
    faults.inspect = none ∧ t.modeAt path = .ok mode := by
  unfold inspect at h
  cases hfault : faults.inspect with
  | some e => simp [hfault] at h
  | none => exact ⟨rfl, by simpa [hfault] using h⟩

/-- A path to something that has a mode leads there. -/
theorem resolve_of_modeAt {mode : Nat} (h : t.modeAt path = .ok mode) :
    ∃ goal, t.resolve path = .ok goal ∧ (t.get? goal).isSome = true := by
  cases hresolve : t.resolve path with
  | error e => simp [modeAt, stat, hresolve] at h
  | ok goal =>
      refine ⟨goal, rfl, ?_⟩
      cases hget : t.get? goal with
      | none => simp [modeAt, stat, hresolve, hget] at h
      | some e => rfl

/-- Where nothing was, a file that is put is no obstacle to walks. -/
theorem overlay_put {temporary : Location} (hfree : t.get? temporary = none) (data : Bytes)
    (mode : Nat) : Overlay t (t.put temporary (.file (.bytes data) mode)) [] :=
  (withFile_put t (ne_nil_of_free hfree) data mode).overlay hfree

theorem rename_eq_ok {temporary goal : Location} {data : Bytes} {mode : Nat} {replaced : FileTree}
    (hfree : t.get? temporary = none) (hresolve : t.resolve path = .ok goal)
    (hgoal : (t.get? goal).isSome = true)
    (h : (t.put temporary (.file (.bytes data) mode)).rename temporary path = .ok replaced) :
    ∃ loc, t.slot path = .ok loc ∧ (t.get? loc).isSome = true ∧ t.isDirectoryAt loc = false ∧
      replaced = t.put loc (.file (.bytes data) mode) := by
  unfold FileTree.rename at h
  rw [(overlay_put hfree data mode).slot hresolve List.not_mem_nil] at h
  cases hslot : t.slot path with
  | error e => simp [hslot] at h
  | ok loc =>
      have hpresent := isSome_of_slot hresolve hgoal hslot
      obtain ⟨e, he⟩ := Option.isSome_iff_exists.1 hpresent
      have hne := ne_of_free hfree he
      have hsame : (t.put temporary (.file (.bytes data) mode)).isDirectoryAt loc =
          t.isDirectoryAt loc := by
        rw [isDirectoryAt, get?_put _ _ _ _ (ne_nil_of_free hfree), if_neg hne, isDirectoryAt]
      cases hdir : t.isDirectoryAt loc with
      | true => simp [hslot, hsame, hdir] at h
      | false =>
          simp only [hslot, hsame, hdir, Bool.false_eq_true, if_false, Ne.symm hne, Attempt.ok_bind,
            Attempt.pure_eq_ok, move_put_of_free hfree hne, Except.ok.injEq] at h
          exact ⟨loc, rfl, hpresent, hdir, h.symm⟩

/-- The last tree before the temporary file is moved. -/
def ready (bytes : Bytes) (mode : Nat) (temporary : Location) (created : FileTree) : FileTree :=
  (created.setContent temporary bytes).setMode temporary mode

theorem ready_put {temporary : Location} (hfree : t.get? temporary = none) (content : Content)
    (old mode : Nat) : ready bytes mode temporary (t.put temporary (.file content old)) =
      t.put temporary (.file (.bytes bytes) mode) := by
  rw [ready, setContent_put (ne_nil_of_free hfree), setMode_put (ne_nil_of_free hfree)]

theorem HasFile.setContent {loc : Location} (h : HasFile t loc t') (hloc : loc ≠ []) (data : Bytes) :
    HasFile t loc (t'.setContent loc data) := by
  obtain ⟨_, mode, rfl⟩ := h
  exact ⟨data, mode, setContent_put hloc _ _ _⟩

/-- Once there is a temporary file, it is filled and moved, or else removed. -/
theorem fill_course {mode : Nat} {temporary : Location} {created : FileTree}
    (hinspect : inspect faults t path = .ok mode)
    (htemporary : IsTemporary processId t path temporary)
    (hcreated : created = t.put temporary (.file (.bytes []) Entry.fileMode)) :
    Course faults processId t path bytes (fill faults path bytes mode temporary created) := by
  obtain ⟨goal, hresolve, hgoal⟩ := resolve_of_modeAt (inspect_eq_ok hinspect).2
  have hready : ready bytes mode temporary created = t.put temporary (.file (.bytes bytes) mode) :=
    hcreated ▸ ready_put htemporary.free _ _ _
  have hfilled : ∀ data, HasFile t temporary (created.setContent temporary data) :=
    HasFile.setContent ⟨_, _, hcreated⟩ (ne_nil_of_free htemporary.free)
  have hbegun : ∀ t' ∈ created :: faults.pieces.map fun count =>
      created.setContent temporary (bytes.take count), HasFile t temporary t' :=
    List.forall_mem_cons.2 ⟨⟨_, _, hcreated⟩, List.forall_mem_map.2 fun _ _ => hfilled _⟩
  have hlast : HasFile t temporary ((created.setContent temporary bytes).setMode temporary mode) :=
    ⟨_, _, hready⟩
  unfold fill
  dsimp only
  generalize (created :: faults.pieces.map fun count =>
    created.setContent temporary (bytes.take count)) = begun at hbegun ⊢
  have hone : ∀ data, ∀ t' ∈ begun ++ [created.setContent temporary data], HasFile t temporary t' :=
    fun data => List.forall_mem_append.2 ⟨hbegun, List.forall_mem_singleton.2 (hfilled data)⟩
  have htwo : ∀ t' ∈ begun ++ [created.setContent temporary bytes,
      (created.setContent temporary bytes).setMode temporary mode], HasFile t temporary t' :=
    List.forall_mem_append.2 ⟨hbegun, List.forall_mem_cons.2
      ⟨hfilled bytes, List.forall_mem_singleton.2 hlast⟩⟩
  cases hwrite : faults.write with
  | some fault => exact .givenUp _ hinspect htemporary (hone _) (hfilled _)
  | none =>
      cases hflush : faults.flush with
      | some e => exact .givenUp e hinspect htemporary (hone _) (hfilled _)
      | none =>
          cases hmode : faults.setMode with
          | some e => exact .givenUp e hinspect htemporary (hone _) (hfilled _)
          | none =>
              dsimp only
              split
              · exact .givenUp _ hinspect htemporary htwo hlast
              · exact .givenUp _ hinspect htemporary htwo hlast
              · rename_i replaced hfault hrename
                have houtcome : faults.outcome = .ok () := by
                  simp [Faults.outcome, hwrite, hflush, hmode, hfault]
                rw [← ready, hready] at hrename
                obtain ⟨loc, hslot, hpresent, hplain, rfl⟩ :=
                  rename_eq_ok htemporary.free hresolve hgoal hrename
                have hmoved : Course faults processId t path bytes _ :=
                  .moved hinspect htemporary htwo houtcome hslot hpresent hplain
                rwa [List.append_assoc] at hmoved

/-- **Every replacement goes in one of three ways.** -/
theorem run_course (faults : Faults) (processId : Nat) (t : FileTree) (path : String)
    (bytes : Bytes) : Course faults processId t path bytes (run faults processId t path bytes) := by
  unfold run
  cases hinspect : inspect faults t path with
  | error e => exact .refused e
  | ok mode =>
      cases hcreate : createBeside faults processId t path 0 attempts with
      | error e => exact .refused e
      | ok made =>
          obtain ⟨temporary, created⟩ := made
          obtain ⟨attempt, hattempt, hslot, hfree, hcreated⟩ := createBeside_eq_ok hcreate
          rw [Nat.zero_add] at hattempt
          exact fill_course hinspect ⟨⟨attempt, hattempt, hslot⟩, hfree⟩ hcreated

/-! ## Whole replacements -/

theorem giveUp_result (temporary : Location) (trees : List FileTree) (last : FileTree)
    (cause : OsError) : (giveUp faults temporary trees last cause).result = .error cause := by
  unfold giveUp
  cases faults.remove <;> rfl

theorem giveUp_final {temporary : Location} {trees : List FileTree} {last : FileTree}
    {cause : OsError} (hfree : t.get? temporary = none) (hlast : HasFile t temporary last) :
    let final := (giveUp faults temporary trees last cause).final t
    final = t ∨ faults.remove ≠ none ∧ Leftover t final := by
  intro final
  obtain ⟨data, mode, rfl⟩ := hlast
  cases hremove : faults.remove with
  | none =>
      refine .inl ?_
      simp [final, giveUp, hremove, Replacement.final, remove_put_of_free hfree]
  | some e =>
      refine .inr ⟨by simp, temporary, data, mode, hfree, ?_⟩
      simpa [final, giveUp, hremove, Replacement.final] using
        withFile_put t (ne_nil_of_free hfree) data mode

/-- **A replacement that succeeds** leaves a file with the new bytes and the old mode where the path
names an entry, and all else as it was. -/
theorem run_ok (h : (run faults processId t path bytes).result = .ok ()) :
    ∃ mode loc, t.modeAt path = .ok mode ∧ t.slot path = .ok loc ∧
      WithFile t ((run faults processId t path bytes).final t) loc bytes mode := by
  have hcourse := run_course faults processId t path bytes
  generalize run faults processId t path bytes = r at h hcourse ⊢
  cases hcourse with
  | refused => cases h
  | givenUp => simp [giveUp_result] at h
  | @moved temporary loc mode trees hinspect _ _ _ hslot _ hplain =>
      refine ⟨mode, loc, (inspect_eq_ok hinspect).2, hslot, ?_⟩
      simpa [Replacement.final] using withFile_put t (ne_nil_of_not_directory hplain) bytes mode

/-- A replacement that fails leaves all as it was, or else its temporary file. -/
theorem run_failed {e : OsError} (h : (run faults processId t path bytes).result = .error e) :
    let final := (run faults processId t path bytes).final t
    final = t ∨ faults.remove ≠ none ∧ Leftover t final := by
  have hcourse := run_course faults processId t path bytes
  generalize run faults processId t path bytes = r at h hcourse ⊢
  cases hcourse with
  | refused => exact .inl rfl
  | givenUp _ _ htemporary _ hlast => exact giveUp_final htemporary.free hlast
  | moved => cases h

/-- **A replacement that fails** leaves all as it was, as far as its temporary file can be
removed. -/
theorem run_error {e : OsError} (hremove : faults.remove = none)
    (h : (run faults processId t path bytes).result = .error e) :
    (run faults processId t path bytes).final t = t :=
  (run_failed h).resolve_right fun hleft => hleft.1 hremove

/-- **A file that is replaced takes no other location**, and its temporary file is gone. -/
theorem locations_of_ok (h : (run faults processId t path bytes).result = .ok ()) :
    ((run faults processId t path bytes).final t).locations = t.locations := by
  have hcourse := run_course faults processId t path bytes
  generalize run faults processId t path bytes = r at h hcourse ⊢
  cases hcourse with
  | refused => cases h
  | givenUp => simp [giveUp_result] at h
  | moved _ _ _ _ _ hpresent hplain =>
      simpa [Replacement.final] using
        locations_put_of_isSome (ne_nil_of_not_directory hplain) hpresent _

/-! ## Replacing one file after others -/

variable {files : List Location} {goal : Location}

/-- With all its steps done, a file can be moved over a path to a file. -/
theorem rename_of_file {temporary : Location} {data : Bytes} {mode : Nat}
    (hfree : t.get? temporary = none) (hresolve : t.resolve path = .ok goal)
    (hfile : t.HoldsFile goal) : ∃ replaced,
      (t.put temporary (.file (.bytes data) mode)).rename temporary path = .ok replaced := by
  obtain ⟨loc, hslot, hpoints⟩ := slot_of_resolve hresolve hfile
  have hover := overlay_put hfree data mode
  have hdir : (t.put temporary (.file (.bytes data) mode)).isDirectoryAt loc = false := by
    rw [isDirectoryAt, get?_put _ _ _ _ (ne_nil_of_free hfree)]
    split
    · rfl
    · cases hpoints with
      | file hfile => exact hfile.not_directory
      | link he => simp [he]
  unfold FileTree.rename
  simp only [hover.slot hresolve List.not_mem_nil, hslot, hdir, Bool.false_eq_true, if_false,
    Attempt.ok_bind, Attempt.pure_eq_ok]
  split
  · exact ⟨_, rfl⟩
  · exact ⟨_, rfl⟩

/-- Once a temporary file is there, only faults keep a file from being replaced. -/
theorem fill_result {created : FileTree} {temporary : Location} {mode : Nat}
    (hrename : ∃ replaced,
      (ready bytes mode temporary created).rename temporary path = .ok replaced) :
    (fill faults path bytes mode temporary created).result = faults.outcome := by
  obtain ⟨replaced, hrename⟩ := hrename
  unfold ready at hrename
  unfold fill Faults.outcome
  cases faults.write with
  | some fault => exact giveUp_result ..
  | none =>
      cases faults.flush with
      | some e => exact giveUp_result ..
      | none =>
          cases faults.setMode with
          | some e => exact giveUp_result ..
          | none =>
              cases faults.rename with
              | some e => exact giveUp_result ..
              | none => simp only [hrename]

/-- What decides whether a file is replaced: a free name for a temporary file, and the faults. -/
theorem run_result (hresolve : t.resolve path = .ok goal) (hfile : t.HoldsFile goal) :
    (run faults processId t path bytes).result =
      inspect faults t path >>= fun _ =>
        (createBeside faults processId t path 0 attempts).map Prod.fst >>= fun _ =>
          faults.outcome := by
  unfold run
  cases inspect faults t path with
  | error e => rfl
  | ok mode =>
      cases hcreate : createBeside faults processId t path 0 attempts with
      | error e => rfl
      | ok made =>
          obtain ⟨temporary, created⟩ := made
          obtain ⟨_, _, _, hfree, rfl⟩ := createBeside_eq_ok hcreate
          refine fill_result ?_
          rw [ready_put hfree]
          exact rename_of_file hfree hresolve hfile

theorem inspect_overlay (o : Overlay t t' files) (hresolve : t.resolve path = .ok goal)
    (hfile : t.HoldsFile goal) (hgoal : goal ∉ files) :
    inspect faults t' path = inspect faults t path := by
  unfold inspect
  rw [modeAt, modeAt, o.stat hresolve hfile hgoal]

/-- A temporary file beside a path to a file is made where it would have been before. -/
theorem createNew_overlay (o : Overlay t t' files) (hfree : ∀ loc, t.get? loc = none →
    t'.get? loc = none) (hresolve : t.resolve path = .ok goal) (attempt : Nat) :
    (t'.createNew (temporaryName path processId attempt)).map Prod.fst =
      (t.createNew (temporaryName path processId attempt)).map Prod.fst := by
  obtain ⟨front, last, dir, _, _, hends, _⟩ := endsIn_of_resolve hresolve
  have hbeside := hends.append (resolve_eq_ok_iff.1 hresolve).1
    (slash_not_mem_temporarySuffix processId attempt)
  have hname := isOrdinary_temporary last processId attempt
  have hslot : t'.slot (temporaryName path processId attempt) =
      t.slot (temporaryName path processId attempt) := by
    rw [temporaryName_eq, hbeside.slot hname, (o.endsIn hbeside).slot hname]
  unfold createNew
  rw [hslot]
  cases t.slot (temporaryName path processId attempt) with
  | error e => rfl
  | ok loc =>
      have hpresent : (t'.get? loc).isSome = (t.get? loc).isSome := by
        cases he : t.get? loc with
        | none => rw [hfree loc he]
        | some e =>
            rcases o.keeps loc e he with hkept | ⟨_, _, _, content, mode, he'⟩
            · rw [hkept]
            · rw [he', Option.isSome_some, Option.isSome_some]
      simp only [hpresent, Attempt.ok_bind]
      cases (t.get? loc).isSome <;> rfl

theorem createBeside_overlay (o : Overlay t t' files) (hfree : ∀ loc, t.get? loc = none →
    t'.get? loc = none) (hresolve : t.resolve path = .ok goal) (attempt left : Nat) :
    (createBeside faults processId t' path attempt left).map Prod.fst =
      (createBeside faults processId t path attempt left).map Prod.fst := by
  induction left generalizing attempt with
  | zero => rfl
  | succ left ih =>
      have hnew : (tryCreate faults processId t' path attempt).map Prod.fst =
          (tryCreate faults processId t path attempt).map Prod.fst := by
        unfold tryCreate
        cases faults.create attempt with
        | some e => rfl
        | none => exact createNew_overlay o hfree hresolve attempt
      rw [createBeside, createBeside]
      cases hold : tryCreate faults processId t path attempt with
      | ok made =>
          cases hnow : tryCreate faults processId t' path attempt with
          | ok made' => simpa [hold, hnow] using hnew
          | error e => simp [hold, hnow] at hnew
      | error e =>
          cases hnow : tryCreate faults processId t' path attempt with
          | ok made' => simp [hold, hnow] at hnew
          | error e' =>
              obtain rfl : e' = e := by simpa [hold, hnow] using hnew
              cases e' with
              | alreadyExists => exact ih (attempt + 1)
              | _ => rfl

/-- **Replacing a file has the same result after other files were replaced.** -/
theorem run_result_overlay (o : Overlay t t' files) (hfree : ∀ loc, t.get? loc = none →
    t'.get? loc = none) (hresolve : t.resolve path = .ok goal) (hfile : t.HoldsFile goal)
    (hgoal : goal ∉ files) :
    (run faults processId t' path bytes).result = (run faults processId t path bytes).result := by
  have hfile' : t'.HoldsFile goal := by
    obtain ⟨content, mode, he⟩ := hfile
    exact ⟨content, mode, by rw [o.file ⟨content, mode, he⟩ hgoal, he]⟩
  rw [run_result hresolve hfile, run_result (o.resolve hresolve hgoal) hfile',
    createBeside_overlay o hfree hresolve, inspect_overlay o hresolve hfile hgoal]

end Replace

end FiberWeave
