import FiberWeave.Database.Suspension

/-!
# Deciding with a memory

Classes outside the build directory are expensive to look up, and many decisions ask for the same
ones. A resolver decides what `Knowledge` decides, and keeps what it has looked up from one decision
to the next, over all classes of a build.

* `Resolver` — what is known, and a way of looking classes up that remembers.
* `Resolver.entryOf`, `Resolver.entries` — the entries of recorded classes.
* `Resolver.entryOf_fst`, `Resolver.entries_fst` — whatever is remembered, an entry is the one that
  `Knowledge.entryOf` gives.
-/

namespace FiberWeave

/-- What decisions draw on, and a way of looking classes up that remembers. -/
structure Resolver where
  knowledge : Knowledge
  lookup : Lookup knowledge.hierarchy

namespace Resolver

/-- Decisions that may change what is remembered. -/
abbrev Decision (r : Resolver) := StateM r.lookup.Memory

/-- Whether a supertype of a class, at any distance, makes a method suspendable. -/
def inheritsSuspendable (r : Resolver) (facts : ClassFacts) (name descriptor : String) :
    r.Decision Bool :=
  r.lookup.anySupertype (r.knowledge.passesByName name)
    (r.knowledge.passesByFacts name descriptor) [] facts.supertypes

/-- Whether a method of a class is suspendable. -/
def isSuspendable (r : Resolver) (facts : ClassFacts) (m : MethodFacts) : r.Decision Bool := do
  if m.isInitializer then return false
  else if m.declaredSuspendable || r.knowledge.lists.isSuspendable facts.name m.name then
    return true
  else r.inheritsSuspendable facts m.name m.descriptor

/-- Whether a call may suspend. -/
def isSuspendTarget (r : Resolver) (target : MemberRef) : r.Decision Bool := do
  if target.isSuspendPoint || r.knowledge.lists.isSuspendable target.owner target.name then
    return true
  else
    match ← (r.lookup.look target.owner : r.Decision (Option ClassFacts)) with
    | none => return false
    | some owner =>
        if owner.declaresSuspendable target.name target.descriptor then return true
        else r.inheritsSuspendable owner target.name target.descriptor

/-- The calls that may suspend. -/
def suspendingCalls (r : Resolver) : List CallSite → r.Decision (List CallSite)
  | [] => return []
  | call :: rest => do
      let suspends ← r.isSuspendTarget call.target
      let later ← r.suspendingCalls rest
      return if suspends then call :: later else later

/-- What is decided about a method of a class. -/
def judge (r : Resolver) (facts : ClassFacts) (m : MethodFacts) :
    r.Decision Knowledge.Judgement := do
  let suspendable ← r.isSuspendable facts m
  let points ← r.suspendingCalls m.calls
  return ⟨m, suspendable, points⟩

/-- The entry of a class. A class that is no candidate is not looked at. -/
def entryOf (r : Resolver) (recorded : Recorded) : r.Decision ClassEntry := do
  if !Knowledge.isCandidate recorded.facts.name then return Knowledge.plainEntry recorded
  else
    let judged ← recorded.facts.methods.mapM (r.judge recorded.facts)
    return Knowledge.judgedEntry recorded judged

/-- The entries of classes, in order. -/
def entries (r : Resolver) (classes : List Recorded) : r.Decision (List ClassEntry) :=
  classes.mapM r.entryOf

/-! ## What is remembered does not matter

Each decision is taken apart into the same decision of `Knowledge`, one after the other. Of a
decision that follows another one only its own value counts, so that the memory in between can be
any. -/

section Values

variable (r : Resolver)

/-- A decision that follows another one sees its value and its memory. -/
theorem bind_fst {α β : Type} (d : r.Decision α) (next : α → r.Decision β)
    (memory : r.lookup.Memory) :
    ((d >>= next) memory).1 = (next (d memory).1 (d memory).2).1 := rfl

/-- Decisions about a list, each with a value that does not depend on the memory. -/
theorem mapM_fst {α β : Type} {decide : α → r.Decision β} {value : α → β}
    (h : ∀ a memory, (decide a memory).1 = value a) (as : List α) (memory : r.lookup.Memory) :
    (as.mapM decide memory).1 = as.map value := by
  induction as generalizing memory with
  | nil => rfl
  | cons a rest ih =>
      rw [List.mapM_cons, bind_fst, bind_fst, h]
      exact congrArg (value a :: ·) (ih _)

theorem inheritsSuspendable_fst (facts : ClassFacts) (name descriptor : String)
    (memory : r.lookup.Memory) :
    (r.inheritsSuspendable facts name descriptor memory).1 =
      r.knowledge.inheritsSuspendable facts name descriptor :=
  r.lookup.anySupertype_fst _ _ _ _ _

theorem isSuspendable_fst (facts : ClassFacts) (m : MethodFacts) (memory : r.lookup.Memory) :
    (r.isSuspendable facts m memory).1 = r.knowledge.isSuspendable facts m := by
  simp only [isSuspendable, Knowledge.isSuspendable]
  cases hi : m.isInitializer with
  | true => rfl
  | false =>
      cases m.declaredSuspendable || r.knowledge.lists.isSuspendable facts.name m.name with
      | true => rfl
      | false => exact r.inheritsSuspendable_fst facts m.name m.descriptor memory

theorem isSuspendTarget_fst (target : MemberRef) (memory : r.lookup.Memory) :
    (r.isSuspendTarget target memory).1 = r.knowledge.isSuspendTarget target := by
  simp only [isSuspendTarget, Knowledge.isSuspendTarget]
  cases target.isSuspendPoint || r.knowledge.lists.isSuspendable target.owner target.name with
  | true => rfl
  | false =>
      rw [← r.lookup.look_eq target.owner memory]
      rw [if_neg Bool.false_ne_true, bind_fst]
      cases (r.lookup.look target.owner memory).1 with
      | none => rfl
      | some owner =>
          simp only [Option.any_some, Bool.false_or]
          cases owner.declaresSuspendable target.name target.descriptor with
          | true => rfl
          | false => exact r.inheritsSuspendable_fst owner target.name target.descriptor _

theorem suspendingCalls_fst (calls : List CallSite) (memory : r.lookup.Memory) :
    (r.suspendingCalls calls memory).1 =
      calls.filter fun call => r.knowledge.isSuspendTarget call.target := by
  induction calls generalizing memory with
  | nil => rfl
  | cons call rest ih =>
      rw [suspendingCalls, bind_fst, bind_fst, r.isSuspendTarget_fst, ih, List.filter_cons]
      rfl

theorem judge_fst (facts : ClassFacts) (m : MethodFacts) (memory : r.lookup.Memory) :
    (r.judge facts m memory).1 = r.knowledge.judge facts m := by
  rw [judge, bind_fst, bind_fst, r.isSuspendable_fst, r.suspendingCalls_fst]
  rfl

/-- **The entry of a class does not depend on the memory.** -/
theorem entryOf_fst (recorded : Recorded) (memory : r.lookup.Memory) :
    (r.entryOf recorded memory).1 = r.knowledge.entryOf recorded := by
  rw [entryOf, Knowledge.entryOf]
  cases Knowledge.isCandidate recorded.facts.name with
  | false => rfl
  | true =>
      rw [if_neg (by simp), if_neg (by simp), bind_fst,
        r.mapM_fst (r.judge_fst recorded.facts)]
      rfl

/-- **Nor do those of several classes**, although each is decided with the memory of the ones
before it. -/
theorem entries_fst (classes : List Recorded) (memory : r.lookup.Memory) :
    (r.entries classes memory).1 = classes.map r.knowledge.entryOf :=
  r.mapM_fst r.entryOf_fst classes memory

end Values

end Resolver

end FiberWeave
