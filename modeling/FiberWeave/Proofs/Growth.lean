import FiberWeave.Proofs.Rereading
import FiberWeave.Proofs.Suspension
import Mathlib.Data.List.Flatten

/-!
# Databases that know more

What is decided about a class depends on what is known of others: on the classes that can be found
and on the methods that are listed.  A decision may ask for a supertype that is missing, and it may
stop at the first one that answers, so that more knowledge leads a search elsewhere.  It never takes
anything back.

* `MoreKnown` — a way to find classes and lists of methods that know at least what others know;
  `MoreKnown.methodSuspends`, `MoreKnown.callSuspends`: what suspends keeps suspending.
* `ClassEntry.Grown`, `Database.Grown` — an entry and a database of which nothing was taken back.
* `MethodLists.enlarge`, `ClassPath.extend` — lists with further texts, class paths with further
  places behind the others; `ClassPath.methodLists_extend`: the places bring further texts along.
* **`Database.Builder.finish_grown`** — the database of the same classes under larger lists and a
  longer class path has grown.
* **`classified_grown`** — so has that of a classification whose settings name further paths at the
  end of the class path.

All of it rests on `Above`: the search goes up step by step, and each step is still there when more
classes can be found.
-/

namespace FiberWeave

open scoped Classical

/-! ## More knowledge -/

/-- Ways to find classes and lists of methods of which the second know whatever the first know.
What can be found is found with the same facts. -/
structure MoreKnown (find find' : String → Option ClassFacts) (lists lists' : MethodLists) :
    Prop where
  found : ∀ {name facts}, find name = some facts → find' name = some facts
  methods : ∀ {c m}, lists.isSuspendable c m = true → lists'.isSuspendable c m = true
  supers : ∀ {c m}, lists.isSuspendableSuper c m = true → lists'.isSuspendableSuper c m = true

namespace MoreKnown

variable {find find' : String → Option ClassFacts} {lists lists' : MethodLists}
  {facts : ClassFacts} {name descriptor : String}

theorem above (h : MoreKnown find find' lists lists') {x : String} (hx : Above find facts x) :
    Above find' facts x := by
  induction hx with
  | direct hs => exact .direct hs
  | further _ hf hs ih => exact .further ih (h.found hf) hs

theorem inherits (h : MoreKnown find find' lists lists')
    (hi : Inherits find lists facts name descriptor) :
    Inherits find' lists' facts name descriptor := by
  obtain ⟨x, hx, hsuper | ⟨f, hf, hdeclares | hlisted⟩⟩ := hi
  · exact ⟨x, h.above hx, .inl (h.supers hsuper)⟩
  · exact ⟨x, h.above hx, .inr ⟨f, h.found hf, .inl hdeclares⟩⟩
  · exact ⟨x, h.above hx, .inr ⟨f, h.found hf, .inr (h.methods hlisted)⟩⟩

/-- A method that is suspendable stays so. -/
theorem methodSuspends (h : MoreKnown find find' lists lists') {m : MethodFacts}
    (hm : MethodSuspends find lists facts m) : MethodSuspends find' lists' facts m := by
  obtain ⟨hinit, hdeclared | hlisted | hinherits⟩ := hm
  · exact ⟨hinit, .inl hdeclared⟩
  · exact ⟨hinit, .inr (.inl (h.methods hlisted))⟩
  · exact ⟨hinit, .inr (.inr (h.inherits hinherits))⟩

/-- A call that may suspend still may. Its owner is found as it was, or was not needed. -/
theorem callSuspends (h : MoreKnown find find' lists lists') {target : MemberRef}
    (hc : CallSuspends find lists target) : CallSuspends find' lists' target := by
  obtain hpoint | hlisted | ⟨owner, howner, hdeclares | hinherits⟩ := hc
  · exact .inl hpoint
  · exact .inr (.inl (h.methods hlisted))
  · exact .inr (.inr ⟨owner, h.found howner, .inl hdeclares⟩)
  · exact .inr (.inr ⟨owner, h.found howner, .inr (h.inherits hinherits)⟩)

theorem suspendableMethodsOf_sublist (h : MoreKnown find find' lists lists') (facts : ClassFacts) :
    (suspendableMethodsOf find lists facts).Sublist (suspendableMethodsOf find' lists' facts) :=
  List.monotone_filter_right _ fun _ hm =>
    decide_eq_true (h.methodSuspends (of_decide_eq_true hm))

theorem points_sublist (h : MoreKnown find find' lists lists') (m : MethodFacts) :
    (m.calls.filter fun call => CallSuspends find lists call.target).Sublist
      (m.calls.filter fun call => CallSuspends find' lists' call.target) :=
  List.monotone_filter_right _ fun _ hcall =>
    decide_eq_true (h.callSuspends (of_decide_eq_true hcall))

end MoreKnown

/-! ## Entries and databases -/

/-- An entry of the same class of which nothing was taken back. -/
structure ClassEntry.Grown (e e' : ClassEntry) : Prop where
  name : e'.name = e.name
  file : e'.file = e.file
  superName : e'.superName = e.superName
  interfaces : e'.interfaces = e.interfaces
  isInterface : e'.isInterface = e.isInterface
  instrumented : e'.instrumented = e.instrumented
  problematic : e'.problematic = e.problematic
  notCandidate_iff : e'.classification = .notCandidate ↔ e.classification = .notCandidate
  requires : e.classification = .requiresInstrumentation →
    e'.classification = .requiresInstrumentation
  suspendableMethods : e.suspendableMethods.Sublist e'.suspendableMethods
  suspendPoints : e.suspendPoints.Sublist e'.suspendPoints
  monitorMethods : e.monitorMethods.Sublist e'.monitorMethods
  blockingCalls : e.blockingCalls.Sublist e'.blockingCalls

/-- A database of the same classes of which nothing was taken back. -/
structure Database.Grown (db db' : Database) : Prop where
  entries : List.Forall₂ ClassEntry.Grown db.entries db'.entries
  workList : db.workList.Sublist db'.workList

/-- What an entry lists grows if the rule for it does: a class that is ruled out lists nothing. -/
theorem sublist_of_ruledOut {α : Type} {name : String} {xs xs' ys ys' : List α}
    (hempty : RuledOut name → xs = []) (hxs : ¬RuledOut name → xs = ys)
    (hxs' : ¬RuledOut name → xs' = ys') (h : ys.Sublist ys') : xs.Sublist xs' := by
  by_cases hruled : RuledOut name
  · rw [hempty hruled]
    exact List.nil_sublist _
  · rw [hxs hruled, hxs' hruled]
    exact h

/-- An entry that follows the rules has grown when more is known. -/
theorem Classified.grown {find find' : String → Option ClassFacts} {lists lists' : MethodLists}
    {r : Recorded} {e e' : ClassEntry} (h : Classified find lists r e)
    (h' : Classified find' lists' r e') (hmore : MoreKnown find find' lists lists') :
    e.Grown e' where
  name := h'.name.trans h.name.symm
  file := h'.file.trans h.file.symm
  superName := h'.superName.trans h.superName.symm
  interfaces := h'.interfaces.trans h.interfaces.symm
  isInterface := h'.isInterface.trans h.isInterface.symm
  instrumented := h'.instrumented.trans h.instrumented.symm
  problematic := h'.problematic.trans h.problematic.symm
  notCandidate_iff := h'.notCandidate_iff.trans h.notCandidate_iff.symm
  requires hrequires := by
    obtain ⟨hcandidate, hplain, m, hm, hsuspends, hcode⟩ := h.requires_iff.1 hrequires
    exact h'.requires_iff.2 ⟨hcandidate, hplain, m, hm, hmore.methodSuspends hsuspends, hcode⟩
  suspendableMethods := sublist_of_ruledOut (fun hruled => (h.empty hruled).1)
    h.suspendableMethods h'.suspendableMethods ((hmore.suspendableMethodsOf_sublist _).map _)
  suspendPoints := sublist_of_ruledOut (fun hruled => (h.empty hruled).2.1)
    h.suspendPoints h'.suspendPoints
    (List.Sublist.flatMap_right _ fun m _ => (hmore.points_sublist m).map _)
  monitorMethods := sublist_of_ruledOut (fun hruled => (h.empty hruled).2.2.1)
    h.monitorMethods h'.monitorMethods
    (((hmore.suspendableMethodsOf_sublist _).filter _).map _)
  blockingCalls := sublist_of_ruledOut (fun hruled => (h.empty hruled).2.2.2)
    h.blockingCalls h'.blockingCalls ((hmore.suspendableMethodsOf_sublist _).flatMap _)

namespace Database

/-- A work list grows with the entries that it is made from. -/
theorem workList_sublist {db db' : Database}
    (h : List.Forall₂ ClassEntry.Grown db.entries db'.entries) :
    db.workList.Sublist db'.workList := by
  unfold workList
  generalize db.entries = entries, db'.entries = entries' at h
  induction h with
  | nil => exact List.nil_sublist _
  | @cons e e' rest rest' he _ ih =>
      have hitem : (⟨e'.name, e'.file⟩ : WorkItem) = ⟨e.name, e.file⟩ := by rw [he.name, he.file]
      by_cases hrequires : e.requiresInstrumentation = true
      · have hrequires' : e'.requiresInstrumentation = true :=
          beq_of_eq (he.requires (eq_of_beq hrequires))
        rw [List.filter_cons_of_pos hrequires, List.filter_cons_of_pos hrequires', List.map_cons,
          List.map_cons, hitem]
        exact ih.cons_cons _
      · rw [List.filter_cons_of_neg hrequires]
        exact ih.trans ((List.Sublist.filter _ (List.sublist_cons_self e' rest')).map _)

/-- A lookup finds what it found, grown. -/
theorem Grown.get? {db db' : Database} (h : db.Grown db') (name : String) :
    Option.Rel ClassEntry.Grown (db.get? name) (db'.get? name) :=
  forall₂_find? (fun e e' he => by rw [he.name]) h.entries

/-- The database of the same classes has grown when more is known. -/
theorem Builder.grown_of_moreKnown (b : Builder) {cp cp' : ClassPath} {t t' : FileTree}
    {lists lists' : MethodLists}
    (hmore : MoreKnown (b.hierarchy cp t).facts? (b.hierarchy cp' t').facts? lists lists') :
    (b.finish cp t lists).Grown (b.finish cp' t' lists') := by
  have hentries : List.Forall₂ ClassEntry.Grown (b.finish cp t lists).entries
      (b.finish cp' t' lists').entries := by
    rw [entries_finish, entries_finish, List.forall₂_map_left_iff, List.forall₂_map_right_iff,
      List.forall₂_same]
    intro r _
    exact ((b.knowledge cp t lists).entryOf_classified r).grown
      ((b.knowledge cp' t' lists').entryOf_classified r) hmore
  exact ⟨hentries, workList_sublist hentries⟩

end Database

/-! ## Larger lists -/

namespace MethodLists

/-- A further text of one of the two kinds. -/
inductive Addition where
  | suspendables (text : List Char)
  | supers (text : List Char)

namespace Addition

/-- The suspendable methods that a further text names. -/
def methods : Addition → List ListedMethod
  | suspendables text => parse text
  | supers _ => []

/-- The methods that a further text names whose overrides are suspendable. -/
def superMethods : Addition → List ListedMethod
  | suspendables _ => []
  | supers text => parse text

end Addition

/-- Adds what a further text names. -/
def add (lists : MethodLists) : Addition → MethodLists
  | .suspendables text => lists.addSuspendables text
  | .supers text => lists.addSupers text

/-- Adds what further texts name, one after the other. -/
def enlarge (lists : MethodLists) (additions : List Addition) : MethodLists :=
  additions.foldl add lists

theorem add_eq (lists : MethodLists) (addition : Addition) : lists.add addition =
    ⟨lists.methods ++ addition.methods, lists.supers ++ addition.superMethods⟩ := by
  cases addition with
  | suspendables text => simp [add, addSuspendables, Addition.methods, Addition.superMethods]
  | supers text => simp [add, addSupers, Addition.methods, Addition.superMethods]

/-- What lists name, and then what each further text does. -/
theorem enlarge_eq (lists : MethodLists) (additions : List Addition) : lists.enlarge additions =
    ⟨lists.methods ++ additions.flatMap Addition.methods,
      lists.supers ++ additions.flatMap Addition.superMethods⟩ := by
  induction additions generalizing lists with
  | nil => simp [enlarge]
  | cons addition rest ih =>
      calc (lists.add addition).enlarge rest
          = ⟨(lists.methods ++ addition.methods) ++ rest.flatMap Addition.methods,
              (lists.supers ++ addition.superMethods) ++ rest.flatMap Addition.superMethods⟩ := by
            rw [ih, add_eq]
        _ = _ := by simp only [List.flatMap_cons, List.append_assoc]

variable {lists : MethodLists} {c m : String}

theorem isSuspendable_enlarge (additions : List Addition) (h : lists.isSuspendable c m = true) :
    (lists.enlarge additions).isSuspendable c m = true := by
  rw [isSuspendable, List.contains_iff_mem] at h ⊢
  rw [enlarge_eq]
  exact List.mem_append_left _ h

theorem isSuspendableSuper_enlarge (additions : List Addition)
    (h : lists.isSuspendableSuper c m = true) :
    (lists.enlarge additions).isSuspendableSuper c m = true := by
  rw [isSuspendableSuper, List.contains_iff_mem] at h ⊢
  rw [enlarge_eq]
  exact List.mem_append_left _ h

end MethodLists

/-! ## Longer class paths -/

namespace ClassPath

/-- A class path with further places behind its own. -/
def extend (cp : ClassPath) (more : List ClassPathEntry) : ClassPath := ⟨cp.entries ++ more⟩

variable {cp : ClassPath} {t : FileTree} {more : List ClassPathEntry}

theorem resource?_extend (cp : ClassPath) (t : FileTree) (more : List ClassPathEntry)
    (name : String) : (cp.extend more).resource? t name =
      (cp.resource? t name).or (more.findSome? (ClassPathEntry.resource? t name)) := by
  rw [resource?, extend, List.findSome?_append]
  rfl

/-- A class that can be found is found as it was: its first class file is still the first one. -/
theorem facts?_extend {name : String} {facts : ClassFacts} (h : cp.facts? t name = some facts) :
    (cp.extend more).facts? t name = some facts := by
  obtain ⟨bytes, hbytes, hfacts⟩ := Option.bind_eq_some_iff.1 h
  refine Option.bind_eq_some_iff.2 ⟨bytes, ?_, hfacts⟩
  rw [class?] at hbytes
  rw [class?, resource?_extend, hbytes, Option.some_or]

end ClassPath

namespace Database.Builder

theorem facts?_hierarchy_extend (b : Builder) {cp : ClassPath} {t : FileTree}
    {more : List ClassPathEntry} {name : String} {facts : ClassFacts}
    (h : (b.hierarchy cp t).facts? name = some facts) :
    (b.hierarchy (cp.extend more) t).facts? name = some facts := by
  rw [facts?_hierarchy] at h ⊢
  cases hr : b.find? name with
  | some r =>
      rw [hr] at h
      exact h
  | none =>
      rw [hr] at h
      exact ClassPath.facts?_extend h

theorem moreKnown_extend_enlarge (b : Builder) (cp : ClassPath) (t : FileTree)
    (more : List ClassPathEntry) (lists : MethodLists) (additions : List MethodLists.Addition) :
    MoreKnown (b.hierarchy cp t).facts? (b.hierarchy (cp.extend more) t).facts? lists
      (lists.enlarge additions) where
  found := b.facts?_hierarchy_extend
  methods := MethodLists.isSuspendable_enlarge additions
  supers := MethodLists.isSuspendableSuper_enlarge additions

/-- **More knowledge takes nothing back.**  Whatever classes were recorded, if further texts are
added to the lists and further places are put at the end of the class path, then each class keeps
its suspendable methods, suspend points, monitor methods and blocking calls in their order, a class
that is to be rewritten stays so, the same classes are no candidates, and the work list keeps its
classes in their order. -/
theorem finish_grown (b : Builder) (cp : ClassPath) (t : FileTree) (lists : MethodLists)
    (more : List ClassPathEntry) (additions : List MethodLists.Addition) :
    (b.finish cp t lists).Grown (b.finish (cp.extend more) t (lists.enlarge additions)) :=
  b.grown_of_moreKnown (b.moreKnown_extend_enlarge cp t more lists additions)

end Database.Builder

/-! ## Classifications with a longer class path -/

namespace ClassPath

/-- The texts on a class path that name methods. -/
def additions (cp : ClassPath) (t : FileTree) : List MethodLists.Addition :=
  (cp.resources t MethodLists.suspendablesResource).map
      (fun data => .suspendables (Text.Utf8.decodeLossy data)) ++
    (cp.resources t MethodLists.supersResource).map
      fun data => .supers (Text.Utf8.decodeLossy data)

theorem methodLists_eq (cp : ClassPath) (t : FileTree) :
    cp.methodLists t = ({} : MethodLists).enlarge (cp.additions t) := by
  rw [methodLists, MethodLists.enlarge, additions, List.foldl_append, List.foldl_map,
    List.foldl_map]
  rfl

/-- Places at the end of a class path add their texts to the lists.  The texts of the two kinds are
read one kind after the other, so that theirs come between those of the places before; the lists do
not tell the difference, since no text adds to both. -/
theorem methodLists_extend (cp : ClassPath) (t : FileTree) (more : List ClassPathEntry) :
    (cp.extend more).methodLists t =
      (cp.methodLists t).enlarge ((⟨more⟩ : ClassPath).additions t) := by
  have hresources : ∀ name, (cp.extend more).resources t name =
      cp.resources t name ++ (⟨more⟩ : ClassPath).resources t name := fun name =>
    List.filterMap_append
  have hnone : ∀ data : List Bytes, (data.flatMap fun _ => ([] : List ListedMethod)) = [] :=
    fun data => List.flatMap_eq_nil_iff.2 fun _ _ => rfl
  simp only [methodLists_eq, MethodLists.enlarge_eq, additions, hresources, List.map_append,
    List.flatMap_append, List.flatMap_map, MethodLists.Addition.methods,
    MethodLists.Addition.superMethods, hnone, List.nil_append, List.append_nil]

/-- Neighbours that are kept once are kept once when more follows. -/
theorem exists_dedup_append (entries later : List ClassPathEntry) :
    ∃ more, dedup (entries ++ later) = dedup entries ++ more := by
  induction entries with
  | nil => exact ⟨dedup later, rfl⟩
  | cons e rest ih =>
      obtain ⟨more, hmore⟩ := ih
      rw [List.cons_append, dedup, dedup, hmore]
      cases dedup rest with
      | nil =>
          -- The place is the last of the first ones: whether the next is dropped is up to it.
          cases more with
          | nil => exact ⟨[], rfl⟩
          | cons next more =>
              simp only [List.nil_append]
              split
              · exact ⟨more, rfl⟩
              · exact ⟨next :: more, rfl⟩
      | cons next kept =>
          simp only [List.cons_append]
          split
          · exact ⟨more, rfl⟩
          · exact ⟨more, rfl⟩

/-- Further paths bring further places along, at the end. -/
theorem exists_ofPaths_append (t : FileTree) (paths later : List String) :
    ∃ more, ofPaths t (paths ++ later) = (ofPaths t paths).extend more := by
  obtain ⟨more, hmore⟩ := exists_dedup_append (paths.flatMap (entriesOf t))
    (later.flatMap (entriesOf t))
  exact ⟨more, by rw [ofPaths, List.flatMap_append, hmore]; rfl⟩

end ClassPath

/-- The settings with further paths at the end of the class path. -/
def Settings.withPaths (settings : Settings) (paths : List String) : Settings :=
  { settings with classPath := settings.classPath ++ paths }

theorem databaseOf_grown (settings : Settings) (t : FileTree) (root : String)
    (found : List (Option Recorded)) (paths : List String) :
    (databaseOf settings t root found).Grown
      (databaseOf (settings.withPaths paths) t root found) := by
  obtain ⟨more, hmore⟩ := ClassPath.exists_ofPaths_append t (root :: settings.classPath) paths
  have hpath : ClassPath.ofPaths t (root :: (settings.withPaths paths).classPath) =
      (ClassPath.ofPaths t (root :: settings.classPath)).extend more := hmore
  simp only [databaseOf, hpath, ClassPath.methodLists_extend]
  exact Database.Builder.grown_of_moreKnown _
    (Database.Builder.moreKnown_extend_enlarge _ _ _ _ _ _)

/-- **A classification under a longer class path** ends in the same error, or its database has
grown. -/
theorem classified_grown {σ : Type} (settings : Settings) (engine : Engine σ) (w : Workspace σ)
    (paths : List String) : Attempt.Both Database.Grown (classified settings engine w)
      (classified (settings.withPaths paths) engine w) := by
  unfold classified
  have hdirectory : (settings.withPaths paths).buildDirectory = settings.buildDirectory := rfl
  simp only [hdirectory]
  cases Scanner.start? w.files settings.buildDirectory with
  | none => exact .error _
  | some scanner =>
      simp only
      cases (scanner.drain w.files).mapM (recordOf engine w) with
      | error failure => exact .error _
      | ok found => exact .ok (databaseOf_grown settings w.files scanner.root found paths)

end FiberWeave
