import FiberWeave.FileTree.Change
import Mathlib.Data.List.Basic

/-!
# Where paths lead, and what a change leaves of it

A path is walked name by name, and a link on the way puts the names of its target in front of those
that are left.  To speak of parts of a walk, it is taken as a relation that also says how many links
may still be followed.

* `Leads` — a walk that arrives somewhere; `walk_eq_ok_iff` says that `walk` does.
* `Leads.append`, `Leads.split`, `Leads.unique` — walks in two parts, and that where a walk arrives
  does not depend on how many links it may follow.
* `PointsTo` — the entry at a location is a file, or a link that leads to it.
* `Overlay` — a tree in which some entries were replaced by files, each of which led to one of a set
  of files before.  **`Overlay.leads`**: every walk to anything but one of these files arrives where
  it did.
* `EndsIn` — all of a path but its last piece leads to a directory; **`slot_of_resolve`**: a path
  that leads to a file names an entry that leads there.
* `Overlay.resolve`, `Overlay.slot`, `Overlay.stat` — the same questions about a path, asked of both
  trees.
-/

namespace FiberWeave.FileTree

/-! ## Walks as a relation -/

/-- Where the target of a link in the directory `dir` starts. -/
def linkStart (dir : Location) (target : String) : Location :=
  if Path.isAbsolute target then [] else dir

/-- From a location, with so many links to follow at most, names lead to another location, with so
many links left. -/
inductive Leads (t : FileTree) : Nat → Location → List String → Nat → Location → Prop where
  | done {k : Nat} {loc : Location} : Leads t k loc [] k loc
  | stay {k k' : Nat} {loc goal : Location} {name : String} {rest : List String}
      (hdir : t.isDirectoryAt loc = true) (hname : Path.isInert name = true)
      (h : Leads t k loc rest k' goal) : Leads t k loc (name :: rest) k' goal
  | up {k k' : Nat} {loc goal : Location} {rest : List String}
      (hdir : t.isDirectoryAt loc = true) (h : Leads t k loc.dropLast rest k' goal) :
      Leads t k loc (".." :: rest) k' goal
  | enter {k k' : Nat} {loc goal : Location} {name : String} {rest : List String} {e : Entry}
      (hdir : t.isDirectoryAt loc = true) (hinert : Path.isInert name = false)
      (hup : name ≠ "..") (hlen : name.utf8ByteSize ≤ nameLimit)
      (he : t.get? (loc ++ [name]) = some e) (hlink : ∀ target, e ≠ .link target)
      (h : Leads t k (loc ++ [name]) rest k' goal) : Leads t k loc (name :: rest) k' goal
  | follow {k k' : Nat} {loc goal : Location} {name target : String} {rest : List String}
      (hdir : t.isDirectoryAt loc = true) (hinert : Path.isInert name = false)
      (hup : name ≠ "..") (hlen : name.utf8ByteSize ≤ nameLimit)
      (he : t.get? (loc ++ [name]) = some (.link target))
      (h : Leads t k (linkStart loc target) (Path.pieces target ++ rest) k' goal) :
      Leads t (k + 1) loc (name :: rest) k' goal

/-- What a walk does at its first link. -/
def afterLink (t : FileTree) : (links : Nat) → Location → List String → Except OsError Location
  | 0 => fun _ _ => .error .tooManyLinks
  | links + 1 => t.walk links

theorem walk_eq_stride (t : FileTree) (k : Nat) : t.walk k = t.stride (afterLink t k) := by
  cases k <;> rfl

/-- A stride arrives where its names lead, if what it does at a link does. -/
theorem leads_of_stride {t : FileTree} {k : Nat} {loc goal : Location} {names : List String}
    (hfollow : ∀ dir path, afterLink t k dir path = .ok goal →
      ∃ j k', k = j + 1 ∧ Leads t j dir path k' goal)
    (h : t.stride (afterLink t k) loc names = .ok goal) : ∃ k', Leads t k loc names k' goal := by
  fun_induction t.stride (afterLink t k) loc names with
  | case1 =>
      obtain rfl := Except.ok.inj h
      exact ⟨_, .done⟩
  | case2 => cases h
  | case3 loc name rest hdir hname ih =>
      obtain ⟨k', hleads⟩ := ih h
      exact ⟨k', .stay (by simpa using hdir) hname hleads⟩
  | case4 loc name rest hdir hname hup ih =>
      obtain ⟨k', hleads⟩ := ih h
      obtain rfl := eq_of_beq hup
      exact ⟨k', .up (by simpa using hdir) hleads⟩
  | case5 => cases h
  | case6 => cases h
  | case7 loc name rest hdir hname hup hlen target he =>
      obtain ⟨j, k', rfl, hleads⟩ := hfollow _ _ h
      exact ⟨k', .follow (by simpa using hdir) (by simpa using hname) (by simpa using hup)
        (Nat.le_of_not_lt hlen) he hleads⟩
  | case8 loc name rest hdir hname hup hlen e hlink he ih =>
      obtain ⟨k', hleads⟩ := ih h
      exact ⟨k', .enter (by simpa using hdir) (by simpa using hname) (by simpa using hup)
        (Nat.le_of_not_lt hlen) he hlink hleads⟩

/-- **`walk` arrives where its names lead.** -/
theorem walk_eq_ok_iff {t : FileTree} {k : Nat} {loc goal : Location} {names : List String} :
    t.walk k loc names = .ok goal ↔ ∃ k', Leads t k loc names k' goal := by
  constructor
  · intro h
    induction k generalizing loc names with
    | zero => exact leads_of_stride (fun _ _ h => nomatch h) h
    | succ k ih =>
        refine leads_of_stride (fun dir path hrest => ?_) h
        obtain ⟨k', hleads⟩ := ih hrest
        exact ⟨k, k', rfl, hleads⟩
  · rintro ⟨k', h⟩
    induction h with
    | done => rw [walk_eq_stride, stride]
    | stay hdir hname _ ih =>
        rw [walk_eq_stride] at ih ⊢
        simp [stride, hdir, hname, ih]
    | up hdir _ ih =>
        rw [walk_eq_stride] at ih ⊢
        simp [stride, hdir, Path.isInert, ih]
    | @enter k k' loc goal name rest e hdir hinert hup hlen he hlink _ ih =>
        rw [walk_eq_stride] at ih ⊢
        simp only [stride, hdir, Bool.not_true, Bool.false_eq_true, if_false, hinert,
          beq_eq_false_iff_ne.2 hup, Nat.not_lt.2 hlen, he]
        cases e with
        | link target => exact absurd rfl (hlink target)
        | directory => exact ih
        | file content mode => exact ih
    | follow hdir hinert hup hlen he _ ih =>
        rw [walk_eq_stride]
        simp only [stride, hdir, Bool.not_true, Bool.false_eq_true, if_false, hinert,
          beq_eq_false_iff_ne.2 hup, Nat.not_lt.2 hlen, he]
        exact ih

theorem Leads.append {t : FileTree} {j k k' : Nat} {loc mid goal : Location} {xs ys : List String}
    (h : Leads t k loc xs j mid) (h' : Leads t j mid ys k' goal) :
    Leads t k loc (xs ++ ys) k' goal := by
  induction h with
  | done => exact h'
  | stay hdir hname _ ih => exact .stay hdir hname (ih h')
  | up hdir _ ih => exact .up hdir (ih h')
  | enter hdir hinert hup hlen he hlink _ ih =>
      exact .enter hdir hinert hup hlen he hlink (ih h')
  | follow hdir hinert hup hlen he _ ih =>
      exact .follow hdir hinert hup hlen he (List.append_assoc .. ▸ ih h')

/-- A walk along two runs of names gets through the first one before it begins the second. -/
theorem Leads.split {t : FileTree} {k k' : Nat} {loc goal : Location} {names : List String}
    (h : Leads t k loc names k' goal) : ∀ xs ys : List String, names = xs ++ ys →
      ∃ j mid, Leads t k loc xs j mid ∧ Leads t j mid ys k' goal := by
  induction h with
  | @done k loc =>
      intro xs ys hsplit
      obtain ⟨rfl, rfl⟩ := List.append_eq_nil_iff.1 hsplit.symm
      exact ⟨k, loc, .done, .done⟩
  | @stay k k' loc goal name rest hdir hname h ih =>
      intro xs ys hsplit
      rcases List.cons_eq_append_iff.1 hsplit with ⟨rfl, rfl⟩ | ⟨xs, rfl, hrest⟩
      · exact ⟨k, loc, .done, .stay hdir hname h⟩
      · obtain ⟨j, mid, hxs, hys⟩ := ih xs ys hrest
        exact ⟨j, mid, .stay hdir hname hxs, hys⟩
  | @up k k' loc goal rest hdir h ih =>
      intro xs ys hsplit
      rcases List.cons_eq_append_iff.1 hsplit with ⟨rfl, rfl⟩ | ⟨xs, rfl, hrest⟩
      · exact ⟨k, loc, .done, .up hdir h⟩
      · obtain ⟨j, mid, hxs, hys⟩ := ih xs ys hrest
        exact ⟨j, mid, .up hdir hxs, hys⟩
  | @enter k k' loc goal name rest e hdir hinert hup hlen he hlink h ih =>
      intro xs ys hsplit
      rcases List.cons_eq_append_iff.1 hsplit with ⟨rfl, rfl⟩ | ⟨xs, rfl, hrest⟩
      · exact ⟨k, loc, .done, .enter hdir hinert hup hlen he hlink h⟩
      · obtain ⟨j, mid, hxs, hys⟩ := ih xs ys hrest
        exact ⟨j, mid, .enter hdir hinert hup hlen he hlink hxs, hys⟩
  | @follow k k' loc goal name target rest hdir hinert hup hlen he h ih =>
      intro xs ys hsplit
      rcases List.cons_eq_append_iff.1 hsplit with ⟨rfl, rfl⟩ | ⟨xs, rfl, hrest⟩
      · exact ⟨k + 1, loc, .done, .follow hdir hinert hup hlen he h⟩
      · have hpieces : Path.pieces target ++ rest = Path.pieces target ++ xs ++ ys := by
          rw [hrest, List.append_assoc]
        obtain ⟨j, mid, hxs, hys⟩ := ih _ ys hpieces
        exact ⟨j, mid, .follow hdir hinert hup hlen he hxs, hys⟩

/-- Where names lead does not depend on how many links may be followed. -/
theorem Leads.unique {t : FileTree} {k k' j j' : Nat} {loc goal other : Location}
    {names : List String} (h : Leads t k loc names k' goal)
    (h' : Leads t j loc names j' other) : goal = other := by
  induction h generalizing j with
  | done =>
      cases h' with
      | done => rfl
  | stay hdir hname _ ih =>
      cases h' with
      | stay _ _ h' => exact ih h'
      | up => simp [Path.isInert] at hname
      | enter _ hinert => simp [hname] at hinert
      | follow _ hinert => simp [hname] at hinert
  | up hdir _ ih =>
      cases h' with
      | stay _ hname => simp [Path.isInert] at hname
      | up _ h' => exact ih h'
      | enter _ _ hup => exact absurd rfl hup
      | follow _ _ hup => exact absurd rfl hup
  | enter hdir hinert hup hlen he hlink _ ih =>
      cases h' with
      | stay _ hname => simp [hname] at hinert
      | up => exact absurd rfl hup
      | enter _ _ _ _ _ _ h' => exact ih h'
      | follow _ _ _ _ he' => exact absurd (Option.some.inj (he.symm.trans he')) (hlink _)
  | follow hdir hinert hup hlen he _ ih =>
      cases h' with
      | stay _ hname => simp [hname] at hinert
      | up => exact absurd rfl hup
      | enter _ _ _ _ he' hlink' => exact absurd (Option.some.inj (he'.symm.trans he)) (hlink' _)
      | follow _ _ _ _ he' h' =>
          obtain rfl := Entry.link.inj (Option.some.inj (he.symm.trans he'))
          exact ih h'

/-- No name leads on from a location that is no directory. -/
theorem Leads.eq_of_not_directory {t : FileTree} {k k' : Nat} {loc goal : Location}
    {names : List String} (h : Leads t k loc names k' goal)
    (hloc : t.isDirectoryAt loc = false) : names = [] ∧ goal = loc := by
  cases h with
  | done => exact ⟨rfl, rfl⟩
  | stay hdir => simp [hloc] at hdir
  | up hdir => simp [hloc] at hdir
  | enter hdir => simp [hloc] at hdir
  | follow hdir => simp [hloc] at hdir

/-! ## Entries that lead to files -/

/-- Whether a file is at a location. -/
def HoldsFile (t : FileTree) (loc : Location) : Prop :=
  ∃ content mode, t.get? loc = some (.file content mode)

theorem HoldsFile.not_directory {t : FileTree} {loc : Location} (h : t.HoldsFile loc) :
    t.isDirectoryAt loc = false := by
  obtain ⟨content, mode, he⟩ := h
  simp [isDirectoryAt, he]

/-- The entry at a location is a file, or a link that leads to it. -/
inductive PointsTo (t : FileTree) : Location → Location → Prop where
  | file {loc : Location} (h : t.HoldsFile loc) : PointsTo t loc loc
  | link {loc goal : Location} {target : String} {k k' : Nat}
      (he : t.get? loc = some (.link target))
      (h : Leads t k (linkStart loc.dropLast target) (Path.pieces target) k' goal)
      (hgoal : t.HoldsFile goal) : PointsTo t loc goal

/-- A tree in which some entries were replaced by files, and others added; each one replaced led to
one of `files` before. -/
structure Overlay (t t' : FileTree) (files : List Location) : Prop where
  workingDirectory : t'.workingDirectory = t.workingDirectory
  holdsFile : ∀ loc ∈ files, t.HoldsFile loc
  keeps : ∀ loc e, t.get? loc = some e → t'.get? loc = some e ∨
    ∃ goal ∈ files, t.PointsTo loc goal ∧ t'.HoldsFile loc

namespace Overlay

variable {t t' : FileTree} {files : List Location}

theorem directory (o : Overlay t t' files) {loc : Location} (h : t.isDirectoryAt loc = true) :
    t'.isDirectoryAt loc = true := by
  have he : t.get? loc = some .directory := by simpa [isDirectoryAt] using h
  rcases o.keeps loc _ he with hkept | ⟨goal, _, hpoints, _⟩
  · simp [isDirectoryAt, hkept]
  · cases hpoints with
    | file hfile => simp [hfile.not_directory] at h
    | link hlink => simp [he] at hlink

/-- A file is left alone if it is not one of those whose entries were replaced. -/
theorem file (o : Overlay t t' files) {loc : Location} (h : t.HoldsFile loc)
    (hloc : loc ∉ files) : t'.get? loc = t.get? loc := by
  obtain ⟨content, mode, he⟩ := h
  rcases o.keeps loc _ he with hkept | ⟨goal, hgoal, hpoints, _⟩
  · rw [hkept, he]
  · cases hpoints with
    | file => exact absurd hgoal hloc
    | link hlink => simp [he] at hlink

/-- **Every walk to anything but one of the files arrives where it did.** -/
theorem leads (o : Overlay t t' files) {k k' : Nat} {loc goal : Location} {names : List String}
    (h : Leads t k loc names k' goal) (hgoal : goal ∉ files) : Leads t' k loc names k' goal := by
  induction h with
  | done => exact .done
  | stay hdir hname _ ih => exact .stay (o.directory hdir) hname (ih hgoal)
  | up hdir _ ih => exact .up (o.directory hdir) (ih hgoal)
  | @enter k k' loc goal name rest e hdir hinert hup hlen he hlink h ih =>
      rcases o.keeps _ _ he with hkept | ⟨file, hfile, hpoints, _⟩
      · exact .enter (o.directory hdir) hinert hup hlen hkept hlink (ih hgoal)
      · cases hpoints with
        | file hholds =>
            -- from a file nothing leads on, so it would be the goal
            obtain ⟨_, rfl⟩ := h.eq_of_not_directory hholds.not_directory
            exact absurd hfile hgoal
        | link he' => exact absurd (Option.some.inj (he.symm.trans he')) (hlink _)
  | @follow k k' loc goal name target rest hdir hinert hup hlen he h ih =>
      rcases o.keeps _ _ he with hkept | ⟨file, hfile, hpoints, _⟩
      · exact .follow (o.directory hdir) hinert hup hlen hkept (ih hgoal)
      · cases hpoints with
        | file hholds =>
            obtain ⟨_, _, he'⟩ := hholds
            simp [he] at he'
        | link he' hleads hholds =>
            obtain rfl := Entry.link.inj (Option.some.inj (he.symm.trans he'))
            rw [List.dropLast_concat] at hleads
            obtain ⟨j, mid, hfirst, hlast⟩ := h.split _ _ rfl
            obtain rfl := hleads.unique hfirst
            obtain ⟨_, rfl⟩ := hlast.eq_of_not_directory hholds.not_directory
            exact absurd hfile hgoal

end Overlay

/-! ## Paths to files -/

theorem resolve_eq_ok_iff {t : FileTree} {path : String} {goal : Location} :
    t.resolve path = .ok goal ↔ checkPath path = .ok () ∧
      ∃ k', Leads t linkLimit (t.origin path) (Path.pieces path) k' goal := by
  rw [← walk_eq_ok_iff]
  unfold resolve
  cases checkPath path with
  | error e => simp
  | ok _ => simp

/-- A name that is neither of the two that lead nowhere nor the one that leads up. -/
def isOrdinary (name : String) : Bool := !(Path.isInert name || name == "..")

/-- All of a path but its last piece leads to a directory. -/
structure EndsIn (t : FileTree) (path : String) (front : List String) (last : String)
    (dir : Location) : Prop where
  pieces : Path.pieces path = front ++ [last]
  leads : ∃ k', Leads t linkLimit (t.origin path) front k' dir
  directory : t.isDirectoryAt dir = true

namespace EndsIn

variable {t : FileTree} {path : String} {front : List String} {last : String} {dir : Location}

/-- Where the last piece of a path is a name, the path names an entry of the directory. -/
theorem slot (h : EndsIn t path front last dir) (hlast : isOrdinary last = true) :
    t.slot path = (do
      checkPath path
      if nameLimit < last.utf8ByteSize then throw .nameTooLong
      return dir ++ [last]) := by
  have hwalk : t.walk linkLimit (t.origin path) front = .ok dir := walk_eq_ok_iff.2 h.leads
  have hname : (Path.isInert last || last == "..") = false := by simpa [isOrdinary] using hlast
  unfold FileTree.slot
  cases checkPath path with
  | error e => rfl
  | ok _ =>
      simp only [h.pieces, List.getLast?_concat, List.dropLast_concat, hname, Bool.false_eq_true,
        if_false, hwalk, h.directory, Bool.not_true, Attempt.ok_bind]

/-- A longer last piece names an entry of the same directory. -/
theorem append (h : EndsIn t path front last dir) (hpath : checkPath path = .ok ())
    {tail : String} (htail : '/' ∉ tail.toList) :
    EndsIn t (path ++ tail) front (last ++ tail) dir := by
  obtain ⟨front', last', hpieces, happend⟩ := Path.pieces_append htail path
  obtain ⟨rfl, hlast⟩ := List.append_inj' (hpieces.symm.trans h.pieces) rfl
  obtain rfl : last' = last := by simpa using hlast
  have horigin : t.origin (path ++ tail) = t.origin path := by
    have hne : path.toList ≠ [] := by
      intro hnil
      obtain rfl : path = "" := by simpa using hnil
      simp [checkPath] at hpath
    cases hchars : path.toList with
    | nil => exact absurd hchars hne
    | cons c rest => simp [origin, Path.isAbsolute, String.toList_append, hchars]
  exact ⟨happend, by rw [horigin]; exact h.leads, h.directory⟩

end EndsIn

theorem Leads.directory_of_cons {t : FileTree} {k k' : Nat} {loc goal : Location} {name : String}
    {rest : List String} (h : Leads t k loc (name :: rest) k' goal) :
    t.isDirectoryAt loc = true := by
  cases h with
  | stay hdir => exact hdir
  | up hdir => exact hdir
  | enter hdir => exact hdir
  | follow hdir => exact hdir

/-- A path to a file ends in a directory, where its last piece names the file or a link to it. -/
theorem endsIn_of_resolve {t : FileTree} {path : String} {goal : Location}
    (h : t.resolve path = .ok goal) : ∃ front last dir k k', EndsIn t path front last dir ∧
      Leads t k dir [last] k' goal := by
  obtain ⟨_, k', hleads⟩ := resolve_eq_ok_iff.1 h
  obtain ⟨front, last, hpieces⟩ := Path.pieces_eq_concat path
  obtain ⟨j, dir, hfront, hlast⟩ := hleads.split _ _ hpieces
  exact ⟨front, last, dir, j, k', ⟨hpieces, ⟨j, hfront⟩, hlast.directory_of_cons⟩, hlast⟩

theorem slot_of_not_ordinary {t : FileTree} {path : String} {front : List String} {last : String}
    (hpieces : Path.pieces path = front ++ [last]) (hlast : isOrdinary last = false) :
    t.slot path = t.resolve path := by
  have hname : (Path.isInert last || last == "..") = true := by
    simpa only [isOrdinary, Bool.not_eq_false'] using hlast
  unfold slot
  cases hcheck : checkPath path with
  | error e => simp [resolve, hcheck]
  | ok _ => simp [hpieces, hname]

/-- **A path that leads to a file names an entry that leads there.** -/
theorem slot_of_resolve {t : FileTree} {path : String} {goal : Location}
    (h : t.resolve path = .ok goal) (hfile : t.HoldsFile goal) :
    ∃ loc, t.slot path = .ok loc ∧ t.PointsTo loc goal := by
  obtain ⟨front, last, dir, k, k', hends, hlast⟩ := endsIn_of_resolve h
  cases hname : isOrdinary last with
  | false => exact ⟨goal, by rw [slot_of_not_ordinary hends.pieces hname, h], .file hfile⟩
  | true =>
      have hcheck := (resolve_eq_ok_iff.1 h).1
      have hslot := hends.slot hname
      simp only [hcheck, Attempt.ok_bind, Attempt.pure_eq_ok] at hslot
      cases hlast with
      | stay _ hinert => simp [isOrdinary, hinert] at hname
      | up => simp [isOrdinary] at hname
      | enter _ _ _ hlen _ _ hrest =>
          cases hrest with
          | done => exact ⟨_, by simpa [Nat.not_lt.2 hlen] using hslot, .file hfile⟩
      | follow _ _ _ hlen he hrest =>
          refine ⟨_, by simpa [Nat.not_lt.2 hlen] using hslot, ?_⟩
          rw [List.append_nil] at hrest
          exact .link he (by rwa [List.dropLast_concat]) hfile

/-- A path that leads to something names something. -/
theorem isSome_of_slot {t : FileTree} {path : String} {goal loc : Location}
    (h : t.resolve path = .ok goal) (hgoal : (t.get? goal).isSome = true)
    (hslot : t.slot path = .ok loc) : (t.get? loc).isSome = true := by
  obtain ⟨front, last, dir, k, k', hends, hlast⟩ := endsIn_of_resolve h
  cases hname : isOrdinary last with
  | false =>
      rw [slot_of_not_ordinary hends.pieces hname, h] at hslot
      obtain rfl := Except.ok.inj hslot
      exact hgoal
  | true =>
      have hloc := hends.slot hname
      simp only [(resolve_eq_ok_iff.1 h).1, hslot, Attempt.ok_bind] at hloc
      cases hlast with
      | stay _ hinert => simp [isOrdinary, hinert] at hname
      | up => simp [isOrdinary] at hname
      | enter _ _ _ hlen he =>
          obtain rfl : loc = dir ++ [last] := by simpa [Nat.not_lt.2 hlen] using hloc
          simp [he]
      | follow _ _ _ hlen he =>
          obtain rfl : loc = dir ++ [last] := by simpa [Nat.not_lt.2 hlen] using hloc
          simp [he]

/-- A path whose last piece is a name can only name an entry of a directory. -/
theorem endsIn_of_slot {t : FileTree} {path : String} {front : List String} {last : String}
    {loc : Location} (h : t.slot path = .ok loc) (hpieces : Path.pieces path = front ++ [last])
    (hname : isOrdinary last = true) : ∃ dir, EndsIn t path front last dir ∧
      loc = dir ++ [last] ∧ checkPath path = .ok () ∧ last.utf8ByteSize ≤ nameLimit := by
  have hordinary : (Path.isInert last || last == "..") = false := by
    simpa [isOrdinary] using hname
  unfold slot at h
  cases hcheck : checkPath path with
  | error e => simp [hcheck] at h
  | ok _ =>
      simp only [hcheck, hpieces, List.getLast?_concat, List.dropLast_concat, hordinary,
        Bool.false_eq_true, if_false, Attempt.ok_bind] at h
      cases hwalk : t.walk linkLimit (t.origin path) front with
      | error e => simp [hwalk] at h
      | ok dir =>
          cases hdir : t.isDirectoryAt dir with
          | false => simp [hwalk, hdir] at h
          | true =>
              by_cases hlen : nameLimit < last.utf8ByteSize
              · simp [hwalk, hdir, hlen] at h
              · obtain rfl : dir ++ [last] = loc := by
                  simpa [hwalk, hdir, hlen] using h
                exact ⟨dir, ⟨hpieces, walk_eq_ok_iff.1 hwalk, hdir⟩, rfl, rfl,
                  Nat.le_of_not_lt hlen⟩

/-- A path that names a file leads to it. -/
theorem resolve_of_slot {t : FileTree} {path : String} {loc : Location}
    (h : t.slot path = .ok loc) (hfile : t.HoldsFile loc) : t.resolve path = .ok loc := by
  obtain ⟨front, last, hpieces⟩ := Path.pieces_eq_concat path
  cases hname : isOrdinary last with
  | false => rw [← slot_of_not_ordinary hpieces hname, h]
  | true =>
      obtain ⟨dir, hends, rfl, hcheck, hlen⟩ := endsIn_of_slot h hpieces hname
      obtain ⟨k', hleads⟩ := hends.leads
      obtain ⟨content, mode, he⟩ := hfile
      simp only [isOrdinary, Bool.not_eq_true', Bool.or_eq_false_iff, beq_eq_false_iff_ne] at hname
      refine resolve_eq_ok_iff.2 ⟨hcheck, k', ?_⟩
      rw [hpieces]
      exact hleads.append (.enter hends.directory hname.1 hname.2 hlen he (by simp) .done)

namespace Overlay

variable {t t' : FileTree} {files : List Location} {path : String} {goal : Location}

theorem origin (o : Overlay t t' files) (path : String) : t'.origin path = t.origin path := by
  simp [FileTree.origin, o.workingDirectory]

theorem not_mem_of_directory (o : Overlay t t' files) {loc : Location}
    (h : t.isDirectoryAt loc = true) : loc ∉ files := by
  intro hmem
  simp [(o.holdsFile loc hmem).not_directory] at h

theorem endsIn (o : Overlay t t' files) {front : List String} {last : String} {dir : Location}
    (h : EndsIn t path front last dir) : EndsIn t' path front last dir := by
  obtain ⟨k', hleads⟩ := h.leads
  refine ⟨h.pieces, ⟨k', ?_⟩, o.directory h.directory⟩
  rw [o.origin]
  exact o.leads hleads (o.not_mem_of_directory h.directory)

/-- A path to anything but one of the files leads where it did. -/
theorem resolve (o : Overlay t t' files) (h : t.resolve path = .ok goal) (hgoal : goal ∉ files) :
    t'.resolve path = .ok goal := by
  obtain ⟨hcheck, k', hleads⟩ := resolve_eq_ok_iff.1 h
  refine resolve_eq_ok_iff.2 ⟨hcheck, k', ?_⟩
  rw [o.origin]
  exact o.leads hleads hgoal

/-- A path to anything but one of the files names the entry that it did. -/
theorem slot (o : Overlay t t' files) (h : t.resolve path = .ok goal) (hgoal : goal ∉ files) :
    t'.slot path = t.slot path := by
  obtain ⟨front, last, dir, k, k', hends, hlast⟩ := endsIn_of_resolve h
  cases hname : isOrdinary last with
  | false =>
      rw [slot_of_not_ordinary hends.pieces hname, slot_of_not_ordinary hends.pieces hname,
        o.resolve h hgoal, h]
  | true => rw [(o.endsIn hends).slot hname, hends.slot hname]

/-- A path to a file names the entry that it did, even if the entry was replaced. -/
theorem slot_of_holdsFile (o : Overlay t t' files) (h : t.resolve path = .ok goal)
    (hfile : t.HoldsFile goal) : t'.slot path = t.slot path := by
  obtain ⟨front, last, dir, k, k', hends, hlast⟩ := endsIn_of_resolve h
  cases hname : isOrdinary last with
  | true => rw [(o.endsIn hends).slot hname, hends.slot hname]
  | false =>
      rw [slot_of_not_ordinary hends.pieces hname, slot_of_not_ordinary hends.pieces hname, h]
      obtain ⟨j, hleads⟩ := (o.endsIn hends).leads
      refine resolve_eq_ok_iff.2 ⟨(resolve_eq_ok_iff.1 h).1, j, ?_⟩
      rw [hends.pieces]
      cases hlast with
      | stay _ _ hrest =>
          cases hrest with
          | done => exact absurd hends.directory (by simp [hfile.not_directory])
      | up _ hrest =>
          cases hrest with
          | done => exact hleads.append (.up (o.directory hends.directory) .done)
      | enter _ hinert hup => simp [isOrdinary, hinert, hup] at hname
      | follow _ hinert hup => simp [isOrdinary, hinert, hup] at hname

/-- A path to a file finds there what it did, if the file is none of those replaced. -/
theorem stat (o : Overlay t t' files) (h : t.resolve path = .ok goal) (hfile : t.HoldsFile goal)
    (hgoal : goal ∉ files) : t'.stat path = t.stat path := by
  simp only [FileTree.stat, o.resolve h hgoal, h, o.file hfile hgoal, Attempt.ok_bind]

end Overlay

end FiberWeave.FileTree
