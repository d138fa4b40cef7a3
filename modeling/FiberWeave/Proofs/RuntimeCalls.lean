import FiberWeave.Proofs.Verdicts

/-!
# Calls that reach the fiber runtime through a superclass

A method of the fiber runtime is often called by the name of a class that extends one of the
runtime's.  The table of suspend points names the classes of the runtime only, and the search of a
hierarchy does not look at it: for such a call it counts what the types above say of themselves and
what lists say of them.  Of a runtime that is not on the class path, nothing but the list of supers
is left.

* `PassesOn` — a type makes a method of its subtypes suspendable.
* `inherits_iff` — a class inherits what one of its direct supertypes passes on.
* `Climbs` — recorded classes, each of which extends the next, up to a class of any kind.
* `Climbs.inherits_iff` — what the lowest of them inherits.
* **`finish_runtimeCalls`** — which calls of a method of the runtime are suspend points;
  `finish_runtimeCalls_ownFiber` — one that is, and one through a subclass that is not.
-/

namespace FiberWeave

open scoped Classical

section Rules

variable {find : String → Option ClassFacts} {lists : MethodLists} {facts : ClassFacts}
  {name descriptor type : String}

/-! ## Through direct supertypes -/

/-- A type makes a method of its subtypes suspendable. -/
def PassesOn (find : String → Option ClassFacts) (lists : MethodLists)
    (name descriptor type : String) : Prop :=
  lists.isSuspendableSuper type name = true ∨ ∃ f, find type = some f ∧
    (Declares f name descriptor ∨ lists.isSuspendable type name = true ∨
      Inherits find lists f name descriptor)

/-- What is above a class is a direct supertype, or above one. -/
theorem above_iff {x : String} : Above find facts x ↔
    ∃ s ∈ facts.supertypes, x = s ∨ ∃ f, find s = some f ∧ Above find f x := by
  constructor
  · intro h
    induction h with
    | direct hs => exact ⟨_, hs, .inl rfl⟩
    | further _ hf hs ih =>
        obtain ⟨s, hdirect, rfl | ⟨f, hfind, habove⟩⟩ := ih
        · exact ⟨_, hdirect, .inr ⟨_, hf, .direct hs⟩⟩
        · exact ⟨s, hdirect, .inr ⟨f, hfind, .further habove hf hs⟩⟩
  · rintro ⟨s, hs, rfl | ⟨f, hf, habove⟩⟩
    · exact .direct hs
    · induction habove with
      | direct hs' => exact .further (.direct hs) hf hs'
      | further _ hf' hs' ih => exact .further ih hf' hs'

/-- **A class inherits what one of its direct supertypes passes on.** -/
theorem inherits_iff : Inherits find lists facts name descriptor ↔
    ∃ s ∈ facts.supertypes, PassesOn find lists name descriptor s := by
  constructor
  · rintro ⟨x, habove, hx⟩
    obtain ⟨s, hs, rfl | ⟨f, hf, hfurther⟩⟩ := above_iff.1 habove
    · refine ⟨x, hs, hx.imp_right ?_⟩
      rintro ⟨f, hf, hdeclares | hlisted⟩
      · exact ⟨f, hf, .inl hdeclares⟩
      · exact ⟨f, hf, .inr (.inl hlisted)⟩
    · exact ⟨s, hs, .inr ⟨f, hf, .inr (.inr ⟨x, hfurther, hx⟩)⟩⟩
  · rintro ⟨s, hs, hsuper | ⟨f, hf, hdeclares | hlisted | ⟨x, habove, hx⟩⟩⟩
    · exact ⟨s, .direct hs, .inl hsuper⟩
    · exact ⟨s, .direct hs, .inr ⟨f, hf, .inl hdeclares⟩⟩
    · exact ⟨s, .direct hs, .inr ⟨f, hf, .inr hlisted⟩⟩
    · exact ⟨x, above_iff.2 ⟨s, hs, .inr ⟨f, hf, habove⟩⟩, hx⟩

/-- With a superclass, it is that class or an interface that passes on. -/
theorem inherits_iff_of_superName {s : String} (hsuper : facts.superName = some s) :
    Inherits find lists facts name descriptor ↔ PassesOn find lists name descriptor s ∨
      ∃ i ∈ facts.interfaces, PassesOn find lists name descriptor i := by
  rw [inherits_iff, ClassFacts.supertypes, hsuper]
  exact List.exists_mem_cons_iff ..

/-- A type that cannot be found passes on what the list of supers says. -/
theorem passesOn_of_missing (hmissing : find type = none) :
    PassesOn find lists name descriptor type ↔ lists.isSuspendableSuper type name = true := by
  simp [PassesOn, hmissing]

theorem not_declares_of_lacks (hlacks : ∀ m ∈ facts.methods, m.name ≠ name) :
    ¬Declares facts name descriptor := by
  rintro ⟨m, hm, -⟩
  have hname := List.find?_some hm
  simp only [Bool.and_eq_true, beq_iff_eq] at hname
  exact hlacks m (List.mem_of_find?_eq_some hm) hname.1

/-- A class without a method of a name passes it on if it is listed, or inherits it. -/
theorem passesOn_of_lacks (hfind : find facts.name = some facts)
    (hlacks : ∀ m ∈ facts.methods, m.name ≠ name) :
    PassesOn find lists name descriptor facts.name ↔
      lists.isSuspendableSuper facts.name name = true ∨
        lists.isSuspendable facts.name name = true ∨
        Inherits find lists facts name descriptor := by
  simp [PassesOn, hfind, not_declares_of_lacks hlacks]

end Rules

/-! ## Through superclasses -/

/-- Recorded classes without a method of a name, each of which extends the next; the last one
extends the class `top`. -/
inductive Climbs (classes : List Recorded) (name top : String) : List Recorded → Prop where
  | last {r : Recorded} (hr : r ∈ classes) (hlacks : ∀ m ∈ r.facts.methods, m.name ≠ name)
      (hsuper : r.facts.superName = some top) : Climbs classes name top [r]
  | next {r s : Recorded} {rest : List Recorded} (hr : r ∈ classes)
      (hlacks : ∀ m ∈ r.facts.methods, m.name ≠ name)
      (hsuper : r.facts.superName = some s.facts.name) (h : Climbs classes name top (s :: rest)) :
      Climbs classes name top (r :: s :: rest)

namespace Climbs

variable {classes : List Recorded} {name top : String} {r : Recorded} {rest : List Recorded}

theorem mem (h : Climbs classes name top (r :: rest)) : r ∈ classes := by
  cases h with
  | last hr => exact hr
  | next hr => exact hr

theorem lacks (h : Climbs classes name top (r :: rest)) : ∀ m ∈ r.facts.methods, m.name ≠ name := by
  cases h with
  | last _ hlacks => exact hlacks
  | next _ hlacks => exact hlacks

/-- **What the lowest class inherits** comes from a list that names a class above it, from an
interface on the way, or from the top. -/
theorem inherits_iff {find : String → Option ClassFacts} {lists : MethodLists} {descriptor : String}
    (hfind : ∀ c ∈ classes, find c.facts.name = some c.facts)
    (h : Climbs classes name top (r :: rest)) :
    Inherits find lists r.facts name descriptor ↔
      (∃ c ∈ rest, lists.isSuspendableSuper c.facts.name name = true ∨
        lists.isSuspendable c.facts.name name = true) ∨
      (∃ c ∈ r :: rest, ∃ i ∈ c.facts.interfaces, PassesOn find lists name descriptor i) ∨
      PassesOn find lists name descriptor top := by
  induction rest generalizing r with
  | nil =>
      cases h with
      | last _ _ hsuper =>
          rw [inherits_iff_of_superName hsuper]
          simp [or_comm]
  | cons s rest ih =>
      cases h with
      | next _ _ hsuper hnext =>
          rw [inherits_iff_of_superName hsuper, passesOn_of_lacks (hfind s hnext.mem) hnext.lacks,
            ih hnext]
          simp only [List.exists_mem_cons_iff]
          exact Iff.of_eq (by ac_rfl)

end Climbs

/-! ## Finished databases -/

namespace Database.Builder

section Finished

variable (records : List Recorded) (cp : ClassPath) (t : FileTree) (lists : MethodLists)

/-- **Calls of a method of the runtime.**  By the rule for calls, from which every recorded candidate
has its suspend points, a call that names the class of the runtime is one.  A call that names a
recorded class below it is one only if the table has that very class, if a list has it or a class on
the way, or if an interface on the way or the class of the runtime passes the method on; that the
table has the class of the runtime does not count. -/
theorem finish_runtimeCalls {name descriptor top : String} {r : Recorded} {rest : List Recorded}
    (hclimbs : Climbs (recordAll {} records).classes name top (r :: rest))
    (hknown : (MemberRef.mk top name descriptor).isSuspendPoint = true) :
    let find := factsAfter records cp t
    (∀ caller ∈ (recordAll {} records).classes, ¬RuledOut caller.facts.name →
      ∀ c ∈ ((recordAll {} records).finish cp t lists).entries, c.name = caller.facts.name →
        c.suspendPoints = caller.facts.methods.flatMap fun maker =>
          (maker.calls.filter fun call => CallSuspends find lists call.target).map
            (CallPoint.ofCall maker)) ∧
    CallSuspends find lists ⟨top, name, descriptor⟩ ∧
    (CallSuspends find lists ⟨r.facts.name, name, descriptor⟩ ↔
      (MemberRef.mk r.facts.name name descriptor).isSuspendPoint = true ∨
      (∃ c ∈ r :: rest, lists.isSuspendable c.facts.name name = true) ∨
      (∃ c ∈ rest, lists.isSuspendableSuper c.facts.name name = true) ∨
      (∃ c ∈ r :: rest, ∃ i ∈ c.facts.interfaces, PassesOn find lists name descriptor i) ∨
      PassesOn find lists name descriptor top) := by
  intro find
  have hfind : ∀ c ∈ (recordAll {} records).classes, find c.facts.name = some c.facts :=
    fun c hc => factsAfter_of_mem hc
  refine ⟨fun caller hcaller hcandidate c hc hname => ?_, .inl hknown, ?_⟩
  · exact (classified_of_mem_entries hcaller hc hname).suspendPoints hcandidate
  · simp only [CallSuspends, hfind r hclimbs.mem, Option.some.injEq, exists_eq_left',
      not_declares_of_lacks hclimbs.lacks, false_or, hclimbs.inherits_iff hfind,
      List.exists_mem_cons_iff, and_or_left, exists_or]
    exact Iff.of_eq (by ac_rfl)

end Finished

/-- A class of fibers. -/
def ownFiber : Recorded where
  file := ⟨"C", "C", "/C.class"⟩
  facts := { name := "C", superName := some "co/paralleluniverse/fibers/Fiber" }

/-- A class that parks a fiber by the name of that class, and by that of the runtime's. -/
def ownFiberCaller : Recorded where
  file := ⟨"U", "U", "/U.class"⟩
  facts := {
    name := "U"
    superName := some "java/lang/Object"
    methods := [{
      name := "go"
      descriptor := "()V"
      calls := [⟨⟨"C", "park", "()V"⟩, 4⟩,
        ⟨⟨"co/paralleluniverse/fibers/Fiber", "park", "()V"⟩, 7⟩] }] }

theorem finish_runtimeCalls_ownFiber :
    ∃ c u, ((recordAll {} [ownFiber, ownFiberCaller]).finish {} {} {}).entries = [c, u] ∧
      c.name = "C" ∧ c.superName = some "co/paralleluniverse/fibers/Fiber" ∧ u.name = "U" ∧
      u.suspendPoints = [⟨"go()V", "co/paralleluniverse/fibers/Fiber.park()V", 7⟩] := by
  have hclasses :
      (recordAll {} [ownFiber, ownFiberCaller]).classes = [ownFiber, ownFiberCaller] := by
    decide +kernel
  have hmem : ∀ r ∈ [ownFiber, ownFiberCaller],
      r ∈ (recordAll {} [ownFiber, ownFiberCaller]).classes := by simp [hclasses]
  have hcandidate : ¬RuledOut ownFiberCaller.facts.name := by
    rw [← Knowledge.isCandidate_iff]
    decide +kernel
  obtain ⟨c, u, hentries, hc, hu⟩ := exists_entries_of_pair {} {} {} hclasses
  have hentry : c ∈ ((recordAll {} [ownFiber, ownFiberCaller]).finish {} {} {}).entries := by
    simp [hentries]
  have hsuper := (classified_of_mem_entries (hmem ownFiber (by simp)) hentry hc).superName
  have hmissing : factsAfter [ownFiber, ownFiberCaller] {} {} "co/paralleluniverse/fibers/Fiber" =
      none := by decide +kernel
  obtain ⟨hpoints, hruntime, hown⟩ := finish_runtimeCalls [ownFiber, ownFiberCaller] {} {} {}
    (.last (hmem ownFiber (by simp)) nofun rfl)
    (by decide : (MemberRef.mk "co/paralleluniverse/fibers/Fiber" "park" "()V").isSuspendPoint)
  have hpassed : ¬CallSuspends (factsAfter [ownFiber, ownFiberCaller] {} {}) {}
      ⟨"C", "park", "()V"⟩ := by
    intro hsuspends
    rcases hown.1 hsuspends with hpoint | ⟨_, -, hlisted⟩ | ⟨_, hnil, -⟩ | ⟨_, hr, _, hi, -⟩ | htop
    · exact absurd hpoint (by decide)
    · simp [MethodLists.isSuspendable] at hlisted
    · exact absurd hnil List.not_mem_nil
    · obtain rfl := List.mem_singleton.1 hr
      exact absurd hi List.not_mem_nil
    · simp [passesOn_of_missing hmissing, MethodLists.isSuspendableSuper] at htop
  have hkept : ∀ P : MemberRef → Prop, ¬P ⟨"C", "park", "()V"⟩ →
      P ⟨"co/paralleluniverse/fibers/Fiber", "park", "()V"⟩ →
      (ownFiberCaller.facts.methods.flatMap fun maker => (maker.calls.filter fun call =>
        P call.target).map (CallPoint.ofCall maker)) =
        [⟨"go()V", "co/paralleluniverse/fibers/Fiber.park()V", 7⟩] := by
    intro P hnot hP
    simp only [ownFiberCaller, List.flatMap_cons, List.flatMap_nil, List.filter_cons,
      List.filter_nil, decide_eq_true hP, decide_eq_false hnot, if_true, Bool.false_eq_true,
      if_false]
    rfl
  have hcalls := hpoints ownFiberCaller (hmem _ (by simp)) hcandidate u (by simp [hentries]) hu
  exact ⟨c, u, hentries, hc, hsuper, hu, hcalls.trans (hkept _ hpassed hruntime)⟩

end Database.Builder

end FiberWeave
