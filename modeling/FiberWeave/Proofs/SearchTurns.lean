import FiberWeave.Proofs.CommonSuperclass
import FiberWeave.Proofs.Suspension
import Mathlib.Algebra.BigOperators.Group.List.Basic
import Mathlib.Algebra.Order.BigOperators.Group.Finset
import Mathlib.Data.Set.Finite.Basic

/-!
# Searches in a hierarchy end

Classes may extend each other in circles, name a supertype twice, and lead from recorded classes to
loaded ones and back.  Here the searches are taken as loops, turn by turn, and counted.

* `Turn`, `Ends` — a loop by what one turn of it does, and the number of turns after which it is
  over; `exists_ends` — it is, if each turn makes something smaller.
* `Search.turn` — one turn of the search among supertypes; `Search.Goes` says all that it can do.
  In which order the types that wait are taken is left open (`Order`).
* `Search.Goes.left_lt` — what each turn uses up; `Search.balanced`, `Search.nodup_expanded`,
  `Search.answer_iff` — what each turn keeps, for whole searches; `Search.ends_took` — all of it.
* `Walk.turn`, `Walk.pick` — one turn of the walk along superclasses, and of the choice among them.
* **`Database.searches_end`** — all three loops end, with the answers that are given elsewhere; the
  search expands no type twice, and has no more turns than there are references to supertypes.

The number of turns is a balance: each turn takes one name off those that wait, and a name comes
among them only with the type that is expanded in the same turn.
-/

namespace FiberWeave

/-! ## Loops -/

/-- What a turn of a loop comes to. -/
inductive Turn (σ α : Type) where
  /-- The loop is over: there is no such turn. -/
  | stop (a : α)
  /-- The turn is the last one. -/
  | last (a : α)
  | next (s : σ)

/-- A loop is over after `n` turns, with a value. -/
inductive Ends {σ α : Type} (turn : σ → Turn σ α) : (s : σ) → (n : ℕ) → (a : α) → Prop
  | stop {s : σ} {a : α} (h : turn s = .stop a) : Ends turn s 0 a
  | last {s : σ} {a : α} (h : turn s = .last a) : Ends turn s 1 a
  | next {s s' : σ} {n : ℕ} {a : α} (h : turn s = .next s') (hrest : Ends turn s' n a) :
      Ends turn s (n + 1) a

/-- **A loop ends** if each of its turns makes something smaller. -/
theorem exists_ends {σ α ι : Type} {turn : σ → Turn σ α} {r : ι → ι → Prop} (hr : WellFounded r)
    (size : σ → ι) (h : ∀ s s', turn s = .next s' → r (size s') (size s)) (s : σ) :
    ∃ n a, Ends turn s n a := by
  induction s using (InvImage.wf size hr).induction with
  | _ s ih =>
      cases hturn : turn s with
      | stop a => exact ⟨0, a, .stop hturn⟩
      | last a => exact ⟨1, a, .last hturn⟩
      | next s' =>
          obtain ⟨n, a, hrest⟩ := ih s' (h s s' hturn)
          exact ⟨n + 1, a, .next hturn hrest⟩

/-! ## The search among supertypes -/

/-- How supertypes are put among the names that wait; the first of them is taken next. -/
structure Order where
  put : (new waiting : List String) → List String
  perm : ∀ new waiting, (put new waiting).Perm (new ++ waiting)

namespace Order

/-- The supertypes of a type come before all others. -/
def front : Order := ⟨fun new waiting => new ++ waiting, fun _ _ => .refl _⟩

/-- What was put last is taken first. -/
def stack : Order := ⟨fun new waiting => new.reverse ++ waiting, fun new waiting =>
  (List.reverse_perm new).append_right waiting⟩

example : front.put ["A", "I"] ["B"] = ["A", "I", "B"] ∧
    stack.put ["A", "I"] ["B"] = ["I", "A", "B"] := ⟨rfl, rfl⟩

theorem mem_put_iff (order : Order) {new waiting : List String} {x : String} :
    x ∈ order.put new waiting ↔ x ∈ new ++ waiting := (order.perm new waiting).mem_iff

theorem length_put (order : Order) (new waiting : List String) :
    (order.put new waiting).length = new.length + waiting.length := by
  rw [(order.perm new waiting).length_eq, List.length_append]

end Order

/-- Where a search stands. -/
structure Search (M : Type) where
  met : List String
  waiting : List String
  memory : M
  /-- A record of the types whose supertypes were put among those that wait, the last one first. -/
  expanded : List String

namespace Search

variable {h : Hierarchy} (l : Lookup h) (order : Order) (byName : String → Bool)
  (byFacts : String → ClassFacts → Bool)

/-- Where a search begins. -/
def start (supertypes : List String) (memory : l.Memory) : Search l.Memory where
  met := []
  waiting := order.put supertypes []
  memory
  expanded := []

/-- One turn of a search: a name is taken off those that wait, and passed over if it was met before.
The search is over when no name waits. -/
def turn (s : Search l.Memory) : Turn (Search l.Memory) (Bool × List String) :=
  match s.waiting with
  | [] => .stop (false, s.expanded)
  | name :: rest =>
      if name ∈ s.met then .next { s with waiting := rest }
      else if byName name then .last (true, s.expanded)
      else
        match l.look name s.memory with
        | (none, kept) => .next ⟨name :: s.met, rest, kept, s.expanded⟩
        | (some facts, kept) =>
            if byFacts name facts then .last (true, s.expanded)
            else .next ⟨name :: s.met, order.put facts.supertypes rest, kept, name :: s.expanded⟩

/-- All that a turn can do. -/
inductive Goes (s : Search l.Memory) : Turn (Search l.Memory) (Bool × List String) → Prop
  | stop (hw : s.waiting = []) : Goes s (.stop (false, s.expanded))
  | again {name : String} {rest : List String} (hw : s.waiting = name :: rest)
      (hm : name ∈ s.met) : Goes s (.next { s with waiting := rest })
  | passed {name : String} {rest : List String} (hw : s.waiting = name :: rest) (hm : name ∉ s.met)
      (hp : (byName name || (h.facts? name).any (byFacts name)) = true) :
      Goes s (.last (true, s.expanded))
  | missing {name : String} {rest : List String} {kept : l.Memory} (hw : s.waiting = name :: rest)
      (hm : name ∉ s.met) (hn : byName name = false) (hf : h.facts? name = none) :
      Goes s (.next ⟨name :: s.met, rest, kept, s.expanded⟩)
  | expand {name : String} {rest : List String} {facts : ClassFacts} {kept : l.Memory}
      (hw : s.waiting = name :: rest) (hm : name ∉ s.met) (hn : byName name = false)
      (hf : h.facts? name = some facts) (hp : byFacts name facts = false) :
      Goes s (.next ⟨name :: s.met, order.put facts.supertypes rest, kept, name :: s.expanded⟩)

variable {l order byName byFacts} {s : Search l.Memory}

theorem goes_turn (s : Search l.Memory) :
    Goes l order byName byFacts s (s.turn l order byName byFacts) := by
  unfold turn
  cases hw : s.waiting with
  | nil => exact .stop hw
  | cons name rest =>
      dsimp only
      split_ifs with hm hn
      · exact .again hw hm
      · exact .passed hw hm (by simp [hn])
      · rw [Bool.not_eq_true] at hn
        have hlook := l.look_eq name s.memory
        split
        · rename_i kept hfound
          rw [hfound] at hlook
          exact .missing hw hm hn hlook.symm
        · rename_i facts kept hfound
          rw [hfound] at hlook
          split_ifs with hp
          · exact .passed hw hm (by simp [← hlook, hp])
          · exact .expand hw hm hn hlook.symm (by simpa using hp)

theorem goes_of_turn {t : Turn (Search l.Memory) (Bool × List String)}
    (hturn : s.turn l order byName byFacts = t) : Goes l order byName byFacts s t :=
  hturn ▸ goes_turn s

/-! ### What a turn uses up -/

/-- What is left of a search: names that can still be met, and names that wait. -/
noncomputable def left (s : Search l.Memory) : ℕ × ℕ :=
  (h.unmet s.met + h.foreign s.waiting, s.waiting.length)

theorem foreign_put (order : Order) (new waiting : List String) :
    h.foreign (order.put new waiting) = h.foreign new + h.foreign waiting := by
  rw [← h.foreign_append]
  exact (order.perm new waiting).countP_eq _

/-- **A turn leaves less to search**: a name is met for the first time, or one fewer waits. -/
theorem Goes.left_lt {s' : Search l.Memory} (hgoes : Goes l order byName byFacts s (.next s')) :
    Prod.Lex (· < ·) (· < ·) s'.left s.left := by
  cases hgoes with
  | @again name rest hw hm =>
      rw [left, left, hw]
      exact h.skip_lt s.met name rest
  | @missing name rest kept hw hm _ hf =>
      rw [left, left, hw]
      exact .left _ _ (h.meet_lt rest hm)
  | @expand name rest facts kept hw hm _ hf _ =>
      rw [left, left, hw]
      refine .left _ _ ?_
      rw [foreign_put, h.foreign_supertypes hf, Nat.zero_add]
      exact h.meet_lt rest hm

theorem exists_ends (l : Lookup h) (order : Order) (byName : String → Bool)
    (byFacts : String → ClassFacts → Bool) (s : Search l.Memory) :
    ∃ n a, Ends (turn l order byName byFacts) s n a := by
  have hwf : WellFounded (Prod.Lex (· < ·) (· < ·) : ℕ × ℕ → ℕ × ℕ → Prop) :=
    (Prod.lex Nat.lt_wfRel Nat.lt_wfRel).wf
  exact FiberWeave.exists_ends hwf left (fun _ _ hturn => (goes_of_turn hturn).left_lt) s

/-! ### What a turn keeps -/

/-- The number of references to supertypes in some types. -/
def references (h : Hierarchy) (types : List String) : ℕ :=
  (types.flatMap h.supertypesOf).length

section Whole

variable {n : ℕ} {a : Bool × List String}

/-- **The balance of a search.**  It has no more turns than names waited at first or came among
those that wait with a type that was expanded. -/
theorem balanced (hends : Ends (turn l order byName byFacts) s n a) :
    n + references h s.expanded ≤ s.waiting.length + references h a.2 := by
  induction hends with
  | stop hturn =>
      cases goes_of_turn hturn with
      | stop hw => simp [hw]
  | last hturn =>
      cases goes_of_turn hturn with
      | passed hw =>
          simp only [hw, List.length_cons]
          omega
  | next hturn _ ih =>
      cases goes_of_turn hturn with
      | again hw =>
          simp only [hw, List.length_cons] at ih ⊢
          omega
      | missing hw =>
          simp only [hw, List.length_cons] at ih ⊢
          omega
      | @expand name rest facts kept hw _ _ hf =>
          have hsuper : (h.supertypesOf name).length = facts.supertypes.length := by
            simp [Hierarchy.supertypesOf, hf]
          simp only [references, List.flatMap_cons, List.length_append, hsuper,
            order.length_put] at ih
          simp only [references, hw, List.length_cons]
          omega

/-- **No type is expanded twice**: what is expanded is met in the same turn. -/
theorem nodup_expanded (hends : Ends (turn l order byName byFacts) s n a)
    (hmet : s.expanded ⊆ s.met) (honce : s.expanded.Nodup) : a.2.Nodup := by
  induction hends with
  | stop hturn =>
      cases goes_of_turn hturn with
      | stop => exact honce
  | last hturn =>
      cases goes_of_turn hturn with
      | passed => exact honce
  | next hturn _ ih =>
      cases goes_of_turn hturn with
      | again => exact ih hmet honce
      | missing => exact ih (List.subset_cons_of_subset _ hmet) honce
      | expand _ hm =>
          refine ih (List.cons_subset_cons _ hmet) (List.nodup_cons.2 ⟨fun hmem => ?_, honce⟩)
          exact hm (hmet hmem)

/-- Whatever holds of the types that wait, and of the supertypes of those of which it holds, holds
of the types that are expanded. -/
theorem expanded_of_closed {P : String → Prop}
    (hP : ∀ x facts, P x → h.facts? x = some facts → ∀ y ∈ facts.supertypes, P y)
    (hends : Ends (turn l order byName byFacts) s n a) (hwaiting : ∀ x ∈ s.waiting, P x)
    (hexpanded : ∀ x ∈ s.expanded, P x) : ∀ x ∈ a.2, P x := by
  induction hends with
  | stop hturn =>
      cases goes_of_turn hturn with
      | stop => exact hexpanded
  | last hturn =>
      cases goes_of_turn hturn with
      | passed => exact hexpanded
  | next hturn _ ih =>
      cases goes_of_turn hturn with
      | again hw =>
          rw [hw, List.forall_mem_cons] at hwaiting
          exact ih hwaiting.2 hexpanded
      | missing hw =>
          rw [hw, List.forall_mem_cons] at hwaiting
          exact ih hwaiting.2 hexpanded
      | @expand name rest facts kept hw _ _ hf =>
          rw [hw, List.forall_mem_cons] at hwaiting
          refine ih (fun x hx => ?_) (List.forall_mem_cons.2 ⟨hwaiting.1, hexpanded⟩)
          rcases List.mem_append.1 (order.mem_put_iff.1 hx) with hnew | hrest
          · exact hP name facts hwaiting.1 hf x hnew
          · exact hwaiting.2 x hrest

/-- What a search still sees does not depend on the order in which names wait. -/
theorem aboveUnmet_put (order : Order) (met new waiting : List String) (x : String) :
    h.AboveUnmet met (order.put new waiting) x ↔ h.AboveUnmet met (new ++ waiting) x := by
  have himp : ∀ {ws ws' : List String}, (∀ y, y ∈ ws → y ∈ ws') → h.AboveUnmet met ws x →
      h.AboveUnmet met ws' x := by
    intro ws ws' hsub hx
    induction hx with
    | waits hx hm => exact .waits (hsub _ hx) hm
    | further _ hf hs hm ih => exact .further ih hf hs hm
  exact ⟨himp fun y => order.mem_put_iff.1, himp fun y => order.mem_put_iff.2⟩

/-- **A search answers whether it still sees a type that passes**, in whatever order it goes. -/
theorem answer_iff (hends : Ends (turn l order byName byFacts) s n a) :
    a.1 = true ↔ ∃ x, h.AboveUnmet s.met s.waiting x ∧
      (byName x || (h.facts? x).any (byFacts x)) = true := by
  induction hends with
  | stop hturn =>
      cases goes_of_turn hturn with
      | stop hw => simp [hw, Hierarchy.aboveUnmet_nil]
  | last hturn =>
      cases goes_of_turn hturn with
      | @passed name rest hw hm hp =>
          simp only [true_iff]
          exact ⟨name, .waits (by simp [hw]) hm, hp⟩
  | next hturn _ ih =>
      cases goes_of_turn hturn with
      | again hw hm =>
          rw [ih, hw]
          simp only [Hierarchy.aboveUnmet_cons_of_mem hm]
      | @missing name rest kept hw hm hn hf =>
          have hsuper : h.supertypesOf name = [] := by simp [Hierarchy.supertypesOf, hf]
          rw [ih, hw]
          simp [Hierarchy.aboveUnmet_cons hm, hsuper, or_and_right, exists_or, hn, hf]
      | @expand name rest facts kept hw hm hn hf hp =>
          have hsuper : h.supertypesOf name = facts.supertypes := by
            simp [Hierarchy.supertypesOf, hf]
          rw [ih, hw]
          simp [Hierarchy.aboveUnmet_cons hm, hsuper, or_and_right, exists_or, hn, hf, hp,
            aboveUnmet_put]

end Whole

/-! ### A whole search -/

/-- What the search among the supertypes of a class takes. -/
structure Took (h : Hierarchy) (facts : ClassFacts) (n : ℕ) (expanded : List String) : Prop where
  /-- No type is expanded twice. -/
  once : expanded.Nodup
  above : ∀ x ∈ expanded, Above h.facts? facts x
  /-- There are no more turns than references to supertypes, of the class and of what is
  expanded. -/
  turns : n ≤ facts.supertypes.length + references h expanded
  /-- So there are no more than references of the class and of all that is above it. -/
  turns_le : ∃ reached : Finset String, (∀ x, x ∈ reached ↔ Above h.facts? facts x) ∧
    n ≤ facts.supertypes.length + ∑ x ∈ reached, (h.supertypesOf x).length

/-- Only finitely many types are above a class, whatever circles there are. -/
theorem finite_above (h : Hierarchy) (facts : ClassFacts) :
    {x | Above h.facts? facts x}.Finite := by
  refine (facts.supertypes ++ h.supply).toFinset.finite_toSet.subset fun x hx => ?_
  have hmem : x ∈ facts.supertypes ++ h.supply := by
    cases hx with
    | direct hs => exact List.mem_append_left _ hs
    | further _ hf hs => exact List.mem_append_right _ (h.mem_supply hf hs)
  exact Finset.mem_coe.2 (List.mem_toFinset.2 hmem)

/-- **The search among the supertypes of a class ends**, with the answer of the hierarchy. -/
theorem ends_took (l : Lookup h) (order : Order) (byName : String → Bool)
    (byFacts : String → ClassFacts → Bool) (facts : ClassFacts) (memory : l.Memory) :
    ∃ n expanded, Ends (turn l order byName byFacts) (start l order facts.supertypes memory) n
      ((l.anySupertype byName byFacts [] facts.supertypes memory).1, expanded) ∧
      Took h facts n expanded := by
  obtain ⟨n, ⟨answer, expanded⟩, hends⟩ :=
    exists_ends l order byName byFacts (start l order facts.supertypes memory)
  have hanswer : answer = (l.anySupertype byName byFacts [] facts.supertypes memory).1 := by
    rw [Bool.eq_iff_iff, l.anySupertype_fst, Hierarchy.anySupertype_iff, answer_iff hends]
    simp [start, aboveUnmet_put]
  have honce : expanded.Nodup := nodup_expanded hends (List.nil_subset _) List.nodup_nil
  have habove : ∀ x ∈ expanded, Above h.facts? facts x := by
    refine expanded_of_closed (fun x f hx hf y hy => hx.further hf hy) hends (fun x hx => ?_) nofun
    exact .direct (by simpa [start, order.mem_put_iff] using hx)
  have hturns : n ≤ facts.supertypes.length + references h expanded := by
    simpa [start, references, order.length_put] using balanced hends
  refine ⟨n, expanded, hanswer ▸ hends, honce, habove, hturns, (finite_above h facts).toFinset,
    fun x => (finite_above h facts).mem_toFinset, hturns.trans (Nat.add_le_add_left ?_ _)⟩
  rw [references, List.length_flatMap, ← List.sum_toFinset _ honce]
  refine Finset.sum_le_sum_of_subset fun x hx => ?_
  exact (finite_above h facts).mem_toFinset.2 (habove x (List.mem_toFinset.1 hx))

end Search

/-! ## The walk along superclasses -/

/-- Where a walk stands. -/
structure Walk where
  met : List String
  current : Option String
  deriving DecidableEq, Repr

namespace Walk

variable (h : Hierarchy)

/-- One turn of the walk that looks for a class above another one. -/
def turn (above : String) (w : Walk) : Turn Walk Bool :=
  match w.current with
  | none => .stop false
  | some name =>
      if name = above then .last true
      else if name ∈ w.met then .last false
      else .next ⟨name :: w.met, h.superclass? name⟩

/-- One turn of the walk that picks the first class that is above another one as well. -/
def pick (below : String) (w : Walk) : Turn Walk String :=
  match w.current with
  | none => .stop objectClass
  | some name =>
      if name ∈ w.met then .last objectClass
      else if h.isSuperclassOf name below then .last name
      else .next ⟨name :: w.met, h.superclass? name⟩

/-- The walk looks at each class once, and at one of them a second time if it comes back. -/
theorem ends_turn {above : String} {met : List String} (hmet : above ∉ met) (name : String) :
    ∃ n ≤ (h.superclassesFrom met name).length + 1,
      Ends (turn h above) ⟨met, some name⟩ n ((h.superclassesFrom met name).contains above) := by
  fun_induction h.superclassesFrom met name with
  | case1 met name hm =>
      have hne : name ≠ above := fun heq => hmet (heq ▸ hm)
      exact ⟨1, le_rfl, .last (by simp [turn, hne, hm])⟩
  | case2 met name hm ih =>
      by_cases heq : name = above
      · refine ⟨1, by simp, .last ?_⟩
        simp [turn, heq]
      · have hnext : turn h above ⟨met, some name⟩ = .next ⟨name :: met, h.superclass? name⟩ := by
          simp [turn, heq, hm]
        have hmet' : above ∉ name :: met := by simp [Ne.symm heq, hmet]
        split
        · rename_i hnone
          rw [hnone] at hnext
          refine ⟨1, by simp, .next hnext (.stop ?_)⟩
          simp [turn, Ne.symm heq]
        · rename_i super hsuper
          rw [hsuper] at hnext
          obtain ⟨n, hn, hends⟩ := ih super hsuper hmet'
          refine ⟨n + 1, by simpa using hn, .next hnext ?_⟩
          simpa [Ne.symm heq] using hends

theorem ends_pick (below : String) (met : List String) (name : String) :
    ∃ n ≤ (h.superclassesFrom met name).length + 1,
      Ends (pick h below) ⟨met, some name⟩ n
        (((h.superclassesFrom met name).find? (h.isSuperclassOf · below)).getD objectClass) := by
  fun_induction h.superclassesFrom met name with
  | case1 met name hm => exact ⟨1, le_rfl, .last (by simp [pick, hm])⟩
  | case2 met name hm ih =>
      by_cases habove : h.isSuperclassOf name below = true
      · refine ⟨1, by simp, .last ?_⟩
        simp [pick, hm, habove]
      · have hnext : pick h below ⟨met, some name⟩ = .next ⟨name :: met, h.superclass? name⟩ := by
          simp [pick, habove, hm]
        split
        · rename_i hnone
          rw [hnone] at hnext
          refine ⟨1, by simp, .next hnext (.stop ?_)⟩
          simp [pick, habove]
        · rename_i super hsuper
          rw [hsuper] at hnext
          obtain ⟨n, hn, hends⟩ := ih super hsuper
          refine ⟨n + 1, by simpa using hn, .next hnext ?_⟩
          simpa [habove] using hends

end Walk

namespace Hierarchy

variable {h : Hierarchy}

/-- A walk looks at no class twice. -/
theorem nodup_superclassesFrom (met : List String) (name : String) :
    (h.superclassesFrom met name).Nodup ∧ ∀ x ∈ h.superclassesFrom met name, x ∉ met := by
  fun_induction h.superclassesFrom met name with
  | case1 => simp
  | case2 met name hm ih =>
      split
      · simp [hm]
      · rename_i super hsuper
        obtain ⟨honce, hunmet⟩ := ih super hsuper
        refine ⟨List.nodup_cons.2 ⟨fun hmem => hunmet name hmem List.mem_cons_self, honce⟩, ?_⟩
        refine List.forall_mem_cons.2 ⟨hm, fun x hx hmem => ?_⟩
        exact hunmet x hx (List.mem_cons_of_mem _ hmem)

theorem nodup_superclasses (name : String) : (h.superclasses name).Nodup :=
  (nodup_superclassesFrom [] name).1

/-- The classes above another one, without itself unless it comes again. -/
def superclassesAbove (h : Hierarchy) (name : String) : List String :=
  (h.superclass? name).elim [] h.superclasses

/-- For two classes neither of which is above the other, it is the choice among the superclasses of
the first that counts. -/
theorem commonSuperclass_of_apart {a b : String} (hne : a ≠ b) (ha : h.IsClass a) (hb : h.IsClass b)
    (hab : h.isSuperclassOf a b = false) (hba : h.isSuperclassOf b a = false) :
    h.commonSuperclass a b =
      ((h.superclassesAbove a).find? (h.isSuperclassOf · b)).getD objectClass := by
  obtain ⟨fa, hfa, hia⟩ := ha
  obtain ⟨fb, hfb, hib⟩ := hb
  rw [commonSuperclass, superclassesAbove, superclass?]
  simp only [hfa, hfb, hia, hib, hab, hba, beq_iff_eq, hne, Bool.or_self, Bool.false_eq_true,
    if_false, Option.bind_some]
  cases fa.superName <;> rfl

end Hierarchy

/-! ## Databases -/

/-- **Searches in a hierarchy end**, for all recorded classes, class paths and file trees.

The search among supertypes, in whatever order it goes and whatever was loaded before, ends with the
answer that is used.  It expands no type twice and has no more turns than there are references to
supertypes.  The walk to a class above another one, and the choice of the nearest class that two
have in common, look at each class of a chain once, and at one a second time if the chain comes
back. -/
theorem Database.searches_end (b : Database.Builder) (cp : ClassPath) (t : FileTree)
    (lists : MethodLists) (db : Database) :
    (∀ (order : Order) (facts : ClassFacts) (name descriptor : String) (loaded : cp.Loaded t),
      ∃ n expanded,
        Ends (Search.turn (b.lookup cp t) order ((b.knowledge cp t lists).passesByName name)
            ((b.knowledge cp t lists).passesByFacts name descriptor))
          (Search.start (b.lookup cp t) order facts.supertypes loaded) n
          (((b.resolver cp t lists).inheritsSuspendable facts name descriptor loaded).1, expanded) ∧
        Search.Took (b.hierarchy cp t) facts n expanded) ∧
    (∀ above below, ((db.hierarchy t).superclasses below).Nodup ∧
      ∃ n ≤ ((db.hierarchy t).superclasses below).length + 1, ∃ value,
        Ends (Walk.turn (db.hierarchy t) above) ⟨[], some below⟩ n value ∧
        (db.hierarchy t).isSuperclassOf above below = (above == objectClass || value)) ∧
    ∀ first second, ∃ n ≤ ((db.hierarchy t).superclassesAbove first).length + 1, ∃ value,
      Ends (Walk.pick (db.hierarchy t) second) ⟨[], (db.hierarchy t).superclass? first⟩ n value ∧
      (first ≠ second → (db.hierarchy t).IsClass first → (db.hierarchy t).IsClass second →
        (db.hierarchy t).isSuperclassOf first second = false →
        (db.hierarchy t).isSuperclassOf second first = false →
        db.commonSuperclass t first second = value) := by
  refine ⟨fun order facts name descriptor loaded => ?_, fun above below => ?_,
    fun first second => ?_⟩
  · exact Search.ends_took (b.lookup cp t) order _ _ facts loaded
  · have hunmet : above ∉ ([] : List String) := List.not_mem_nil
    obtain ⟨n, hn, hends⟩ := Walk.ends_turn (db.hierarchy t) hunmet below
    exact ⟨Hierarchy.nodup_superclasses below, n, hn, _, hends, rfl⟩
  · cases hsuper : (db.hierarchy t).superclass? first with
    | none =>
        refine ⟨0, Nat.zero_le _, objectClass, .stop rfl, fun hne ha hb hab hba => ?_⟩
        rw [Database.commonSuperclass, Hierarchy.commonSuperclass_of_apart hne ha hb hab hba]
        simp [Hierarchy.superclassesAbove, hsuper]
    | some super =>
        obtain ⟨n, hn, hends⟩ := Walk.ends_pick (db.hierarchy t) second [] super
        have habove : (db.hierarchy t).superclassesAbove first =
            (db.hierarchy t).superclassesFrom [] super := by
          rw [Hierarchy.superclassesAbove, hsuper]
          rfl
        refine ⟨n, by rw [habove]; exact hn, _, hends, fun hne ha hb hab hba => ?_⟩
        rw [Database.commonSuperclass, Hierarchy.commonSuperclass_of_apart hne ha hb hab hba,
          habove]

end FiberWeave
