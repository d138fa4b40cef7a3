import FiberWeave.Proofs.Records
import Mathlib.Data.List.Forall2

/-!
# What it means for a method or a call to suspend

`Knowledge` decides about suspension by searching the hierarchy, one type after the other, and a
builder does so with a memory that all its classes share.  This file says what the decisions mean
without any search, and proves that `finish` decides accordingly.

* `Above` — the supertypes of a class at any distance, as the least set that the direct supertypes
  are in and that is closed under supertypes of types that can be found.
* `Inherits`, `MethodSuspends`, `CallSuspends` — the rules, as propositions.
* `Classified` — an entry that follows the rules.
* **`finish_classified`** — after any sequence of records, each recorded class has an entry that
  follows the rules, whatever cycles and gaps the hierarchy has.

The search is related to `Above` through `AboveUnmet`, the types that can be reached without passing
through a type that was met: this is what a search that has met some types is still going to see.
-/

namespace FiberWeave

open scoped Classical

/-! ## The rules -/

section Rules

variable (find : String → Option ClassFacts) (lists : MethodLists)

/-- The supertypes of a class at any distance, as far as types can be found. -/
inductive Above (facts : ClassFacts) : String → Prop where
  | direct {s : String} (hs : s ∈ facts.supertypes) : Above facts s
  | further {x s : String} {f : ClassFacts} (hx : Above facts x) (hf : find x = some f)
      (hs : s ∈ f.supertypes) : Above facts s

/-- The first method of a name and descriptor is declared suspendable. -/
def Declares (facts : ClassFacts) (name descriptor : String) : Prop :=
  ∃ m, facts.method? name descriptor = some m ∧ m.declaredSuspendable = true

/-- A supertype at any distance is listed as a super, or can be found and declares the method
suspendable or is listed with it. -/
def Inherits (facts : ClassFacts) (name descriptor : String) : Prop :=
  ∃ x, Above find facts x ∧
    (lists.isSuspendableSuper x name = true ∨
      ∃ f, find x = some f ∧ (Declares f name descriptor ∨ lists.isSuspendable x name = true))

/-- A method of a class is suspendable: it is no initializer, and it is declared, listed or
inherited as suspendable. -/
def MethodSuspends (facts : ClassFacts) (m : MethodFacts) : Prop :=
  m.isInitializer = false ∧
    (m.declaredSuspendable = true ∨ lists.isSuspendable facts.name m.name = true ∨
      Inherits find lists facts m.name m.descriptor)

/-- A call may suspend: its target is a suspend point of the runtime or listed, or its owner can be
found and declares or inherits the target as suspendable. -/
def CallSuspends (target : MemberRef) : Prop :=
  target.isSuspendPoint = true ∨ lists.isSuspendable target.owner target.name = true ∨
    ∃ owner, find target.owner = some owner ∧
      (Declares owner target.name target.descriptor ∨
        Inherits find lists owner target.name target.descriptor)

/-- The name of a class rules it out. -/
def RuledOut (name : String) : Prop :=
  ClassName.isProblematic name = true ∨ ClassName.mayInstrument name = false

/-- The suspendable methods of a class, in order. -/
noncomputable def suspendableMethodsOf (facts : ClassFacts) : List MethodFacts :=
  facts.methods.filter fun m => MethodSuspends find lists facts m

/-- An entry that says of a recorded class what the rules say. -/
structure Classified (r : Recorded) (e : ClassEntry) : Prop where
  name : e.name = r.facts.name
  file : e.file = r.file
  superName : e.superName = r.facts.superName
  interfaces : e.interfaces = r.facts.interfaces
  isInterface : e.isInterface = r.facts.isInterface
  instrumented : e.instrumented = r.facts.instrumented
  problematic : e.problematic = ClassName.isProblematic r.facts.name
  notCandidate_iff : e.classification = .notCandidate ↔ RuledOut r.facts.name
  empty : RuledOut r.facts.name → e.suspendableMethods = [] ∧ e.suspendPoints = [] ∧
    e.monitorMethods = [] ∧ e.blockingCalls = []
  suspendableMethods : ¬RuledOut r.facts.name → e.suspendableMethods =
    (suspendableMethodsOf find lists r.facts).map (·.signature)
  suspendPoints : ¬RuledOut r.facts.name → e.suspendPoints =
    r.facts.methods.flatMap fun m =>
      (m.calls.filter fun call => CallSuspends find lists call.target).map (CallPoint.ofCall m)
  monitorMethods : ¬RuledOut r.facts.name → e.monitorMethods =
    ((suspendableMethodsOf find lists r.facts).filter (·.usesMonitors)).map (·.signature)
  blockingCalls : ¬RuledOut r.facts.name → e.blockingCalls =
    (suspendableMethodsOf find lists r.facts).flatMap fun m =>
      (m.calls.filter fun call => call.target.isBlockingCall).map (CallPoint.ofCall m)
  requires_iff : e.classification = .requiresInstrumentation ↔
    ¬RuledOut r.facts.name ∧ r.facts.instrumented = false ∧
      ∃ m ∈ r.facts.methods, MethodSuspends find lists r.facts m ∧ m.hasCode = true

end Rules

/-! ## The search -/

namespace Hierarchy

variable {h : Hierarchy}

/-- The types that a search still sees: those that lead on from the types that wait, without a type
that was met. -/
inductive AboveUnmet (h : Hierarchy) (met waiting : List String) : String → Prop where
  | waits {x : String} (hx : x ∈ waiting) (hm : x ∉ met) : AboveUnmet h met waiting x
  | further {x s : String} {f : ClassFacts} (hx : AboveUnmet h met waiting x)
      (hf : h.facts? x = some f) (hs : s ∈ f.supertypes) (hm : s ∉ met) :
      AboveUnmet h met waiting s

/-- The supertypes of a type that can be found. -/
def supertypesOf (h : Hierarchy) (name : String) : List String :=
  ((h.facts? name).map ClassFacts.supertypes).getD []

theorem aboveUnmet_nil {met : List String} {x : String} : ¬AboveUnmet h met [] x := by
  intro hx
  induction hx with
  | waits hx _ => simp at hx
  | further _ _ _ _ ih => exact ih

/-- A type that was met can be passed over. -/
theorem aboveUnmet_cons_of_mem {met rest : List String} {name x : String} (hmet : name ∈ met) :
    AboveUnmet h met (name :: rest) x ↔ AboveUnmet h met rest x := by
  constructor
  · intro hx
    induction hx with
    | waits hx hm =>
        rcases List.mem_cons.1 hx with rfl | hx
        · exact absurd hmet hm
        · exact .waits hx hm
    | further _ hf hs hm ih => exact .further ih hf hs hm
  · intro hx
    induction hx with
    | waits hx hm => exact .waits (List.mem_cons_of_mem _ hx) hm
    | further _ hf hs hm ih => exact .further ih hf hs hm

/-- A type that was not met is seen itself; what else is seen leads on from its supertypes and the
other types that wait, and does not come back to it. -/
theorem aboveUnmet_cons {met rest : List String} {name x : String} (hmet : name ∉ met) :
    AboveUnmet h met (name :: rest) x ↔
      x = name ∨ AboveUnmet h (name :: met) (h.supertypesOf name ++ rest) x := by
  constructor
  · intro hx
    induction hx with
    | @waits x hx hm =>
        by_cases hxn : x = name
        · exact Or.inl hxn
        · have hrest : x ∈ rest := (List.mem_cons.1 hx).resolve_left hxn
          exact Or.inr (.waits (List.mem_append_right _ hrest) (by simp [hxn, hm]))
    | @further x s f _ hf hs hm ih =>
        by_cases hsn : s = name
        · exact Or.inl hsn
        · have hm' : s ∉ name :: met := by simp [hsn, hm]
          rcases ih with rfl | ih
          · have hsuper : s ∈ h.supertypesOf x := by simpa [supertypesOf, hf] using hs
            exact Or.inr (.waits (List.mem_append_left _ hsuper) hm')
          · exact Or.inr (.further ih hf hs hm')
  · rintro (rfl | hx)
    · exact .waits (List.mem_cons_self ..) hmet
    · induction hx with
      | @waits x hx hm =>
          have hxm : x ∉ met := fun hx => hm (List.mem_cons_of_mem _ hx)
          rcases List.mem_append.1 hx with hx | hx
          · cases hf : h.facts? name with
            | none => simp [supertypesOf, hf] at hx
            | some f =>
                have hs : x ∈ f.supertypes := by simpa [supertypesOf, hf] using hx
                exact .further (.waits (List.mem_cons_self ..) hmet) hf hs hxm
          · exact .waits (List.mem_cons_of_mem _ hx) hxm
      | further _ hf hs hm ih =>
          exact .further ih hf hs fun hx => hm (List.mem_cons_of_mem _ hx)

/-- **A search finds what it still sees.**  The induction is on the search itself; the two lemmas
above are its two ways to go on. -/
theorem anySupertype_iff (p : String → Option ClassFacts → Bool) (met waiting : List String) :
    h.anySupertype p met waiting = true ↔
      ∃ x, AboveUnmet h met waiting x ∧ p x (h.facts? x) = true := by
  fun_induction h.anySupertype p met waiting with
  | case1 met => simp [aboveUnmet_nil]
  | case2 met name rest hm ih => simp only [ih, aboveUnmet_cons_of_mem hm]
  | case3 met name rest hm hf ih =>
      have hsuper : h.supertypesOf name = [] := by simp [supertypesOf, hf]
      simp only [Bool.or_eq_true, ih, aboveUnmet_cons hm, hsuper, List.nil_append, or_and_right,
        exists_or, exists_eq_left, hf]
  | case4 met name rest hm f hf ih =>
      have hsuper : h.supertypesOf name = f.supertypes := by simp [supertypesOf, hf]
      simp only [Bool.or_eq_true, ih, aboveUnmet_cons hm, hsuper, or_and_right, exists_or,
        exists_eq_left, hf]

/-- A search that has met nothing sees all that is above. -/
theorem aboveUnmet_nil_iff {facts : ClassFacts} {x : String} :
    AboveUnmet h [] facts.supertypes x ↔ Above h.facts? facts x := by
  constructor
  · intro hx
    induction hx with
    | waits hx _ => exact .direct hx
    | further _ hf hs _ ih => exact .further ih hf hs
  · intro hx
    induction hx with
    | direct hs => exact .waits hs (by simp)
    | further _ hf hs ih => exact .further ih hf hs (by simp)

end Hierarchy

/-! ## The decisions -/

theorem declaresSuspendable_iff (facts : ClassFacts) (name descriptor : String) :
    facts.declaresSuspendable name descriptor = true ↔ Declares facts name descriptor := by
  simp only [ClassFacts.declaresSuspendable, Declares, Option.any_eq_true]

namespace Knowledge

variable (k : Knowledge)

theorem inheritsSuspendable_iff (facts : ClassFacts) (name descriptor : String) :
    k.inheritsSuspendable facts name descriptor = true ↔
      Inherits k.hierarchy.facts? k.lists facts name descriptor := by
  simp only [inheritsSuspendable, Hierarchy.anySupertype_iff, Hierarchy.aboveUnmet_nil_iff,
    Inherits, passesOn, passesByName, passesByFacts, Bool.or_eq_true, Option.any_eq_true,
    declaresSuspendable_iff]

theorem isSuspendable_iff (facts : ClassFacts) (m : MethodFacts) :
    k.isSuspendable facts m = true ↔ MethodSuspends k.hierarchy.facts? k.lists facts m := by
  simp only [isSuspendable, MethodSuspends, Bool.and_eq_true, Bool.or_eq_true,
    Bool.not_eq_true', k.inheritsSuspendable_iff, or_assoc]

theorem isSuspendTarget_iff (target : MemberRef) :
    k.isSuspendTarget target = true ↔ CallSuspends k.hierarchy.facts? k.lists target := by
  simp only [isSuspendTarget, CallSuspends, Bool.or_eq_true, Option.any_eq_true,
    declaresSuspendable_iff, k.inheritsSuspendable_iff, or_assoc]

theorem isCandidate_iff (name : String) : isCandidate name = true ↔ ¬RuledOut name := by
  simp only [isCandidate, RuledOut, Bool.and_eq_true, Bool.not_eq_true', not_or,
    Bool.not_eq_true, Bool.not_eq_false]

/-- The methods that are judged suspendable are those that the rules name. -/
theorem suspendable_judged (facts : ClassFacts) :
    ((facts.methods.map (k.judge facts)).filter (·.suspendable)).map (·.method) =
      suspendableMethodsOf k.hierarchy.facts? k.lists facts := by
  rw [List.filter_map, List.map_map, suspendableMethodsOf]
  have hmethod : (fun j : Judgement => j.method) ∘ k.judge facts = id := rfl
  rw [hmethod, List.map_id]
  refine List.filter_congr fun m _ => ?_
  rw [Bool.eq_iff_iff, decide_eq_true_iff]
  exact k.isSuspendable_iff facts m

/-- So are the calls that are judged to suspend. -/
theorem points_judged (facts : ClassFacts) (m : MethodFacts) :
    (k.judge facts m).points =
      m.calls.filter fun call => CallSuspends k.hierarchy.facts? k.lists call.target := by
  refine List.filter_congr fun call _ => ?_
  rw [Bool.eq_iff_iff, decide_eq_true_iff]
  exact k.isSuspendTarget_iff call.target

/-- What is decided about a method depends on whether it and its calls suspend. -/
theorem judge_congr {k k' : Knowledge} {facts : ClassFacts} {m : MethodFacts}
    (hmethod : MethodSuspends k'.hierarchy.facts? k'.lists facts m ↔
      MethodSuspends k.hierarchy.facts? k.lists facts m)
    (hcalls : ∀ call ∈ m.calls, CallSuspends k'.hierarchy.facts? k'.lists call.target ↔
      CallSuspends k.hierarchy.facts? k.lists call.target) :
    k'.judge facts m = k.judge facts m := by
  have hsuspendable : k'.isSuspendable facts m = k.isSuspendable facts m := by
    rw [Bool.eq_iff_iff, isSuspendable_iff, isSuspendable_iff, hmethod]
  have hpoints : (m.calls.filter fun call => k'.isSuspendTarget call.target) =
      m.calls.filter fun call => k.isSuspendTarget call.target := by
    refine List.filter_congr fun call hcall => ?_
    rw [Bool.eq_iff_iff, isSuspendTarget_iff, isSuspendTarget_iff, hcalls call hcall]
  rw [judge, judge, hsuspendable, hpoints]

/-- The entry of a class that is no candidate. -/
theorem entryOf_of_ruledOut {r : Recorded} (h : RuledOut r.facts.name) :
    k.entryOf r = plainEntry r := by
  have hc : isCandidate r.facts.name = false := by
    rw [← Bool.not_eq_true, isCandidate_iff, not_not]
    exact h
  simp [entryOf, hc]

/-- The entry of a class that is one. -/
theorem entryOf_of_not_ruledOut {r : Recorded} (h : ¬RuledOut r.facts.name) :
    k.entryOf r = judgedEntry r (r.facts.methods.map (k.judge r.facts)) := by
  simp [entryOf, (isCandidate_iff _).2 h]

theorem classificationOf_eq_requires_iff (facts : ClassFacts) (suspendable : List MethodFacts) :
    classificationOf facts suspendable = .requiresInstrumentation ↔
      facts.instrumented = false ∧ ∃ m ∈ suspendable, m.hasCode = true := by
  unfold classificationOf
  split
  · rename_i h
    simpa [and_comm] using h
  · rename_i h
    simpa [and_comm] using h

/-- **The entry of a class follows the rules.** -/
theorem entryOf_classified (r : Recorded) :
    Classified k.hierarchy.facts? k.lists r (k.entryOf r) := by
  by_cases h : RuledOut r.facts.name
  · rw [k.entryOf_of_ruledOut h]
    constructor <;> simp [plainEntry, h]
  · rw [k.entryOf_of_not_ruledOut h]
    constructor
    case notCandidate_iff =>
      simp only [h, iff_false, judgedEntry, classificationOf]
      split <;> simp
    case suspendPoints =>
      intro _
      simp only [judgedEntry, List.flatMap_map, k.points_judged]
      rfl
    case requires_iff =>
      simp only [judgedEntry, k.suspendable_judged, classificationOf_eq_requires_iff, h,
        not_false_eq_true, true_and, suspendableMethodsOf, List.mem_filter, decide_eq_true_iff,
        and_assoc]
    all_goals simp [judgedEntry, plainEntry, k.suspendable_judged, h, MethodFacts.blockingCalls]

end Knowledge

/-! ## Sequences of records -/

namespace Database.Builder

/-- The facts of a class after some records: those that were recorded first under its name, or else
those on the class path. -/
def factsAfter (calls : List Recorded) (cp : ClassPath) (t : FileTree) (name : String) :
    Option ClassFacts :=
  match calls.find? fun r => r.facts.name == name with
  | some r => some r.facts
  | none => cp.facts? t name

theorem facts?_hierarchy_recordAll (calls : List Recorded) (cp : ClassPath) (t : FileTree) :
    ((recordAll {} calls).hierarchy cp t).facts? = factsAfter calls cp t := by
  funext name
  have hfind := find?_recordAll {} calls name
  rw [show ({} : Builder).find? name = none from rfl, Option.none_or] at hfind
  cases hfirst : calls.find? fun r => r.facts.name == name with
  | some r => simp only [facts?_hierarchy, factsAfter, hfind, hfirst]
  | none => simp only [facts?_hierarchy, factsAfter, hfind, hfirst]

/-- **`finish` classifies by the rules.**  After any sequence of records, the recorded classes are
the first ones of their names, and each has an entry that says what the rules say, in the order of
the records. -/
theorem finish_classified (calls : List Recorded) (cp : ClassPath) (t : FileTree)
    (lists : MethodLists) :
    (∀ r, r ∈ (recordAll {} calls).classes ↔
      (calls.find? fun c => c.facts.name == r.facts.name) = some r) ∧
    List.Forall₂ (Classified (factsAfter calls cp t) lists) (recordAll {} calls).classes
      ((recordAll {} calls).finish cp t lists).entries := by
  refine ⟨mem_classes_recordAll calls, ?_⟩
  rw [entries_finish, List.forall₂_map_right_iff, List.forall₂_same]
  intro r _
  rw [← facts?_hierarchy_recordAll]
  exact ((recordAll {} calls).knowledge cp t lists).entryOf_classified r

end Database.Builder

end FiberWeave
