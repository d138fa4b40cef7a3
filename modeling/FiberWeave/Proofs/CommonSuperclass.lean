import FiberWeave.Database
import Mathlib.Logic.Relation
import Mathlib.Tactic.ByContra

/-!
# The nearest class that two classes have in common

Superclasses make a chain: a class, its superclass and so on, as far as classes can be found.  A
chain need not end, for classes may extend each other in a circle; the walk along it does, at the
first class that it meets again.

* `OnChain` — a class is on the chain of another one; `Acyclic` — no class on a chain comes again.
* `mem_superclasses_iff`, `pairwise_superclasses` — **the walk** meets just the classes of the
  chain, each before those further up.
* `NearestCommon` — a class that two others have in common, below all that they have in common.
  `NearestCommon.unique` says where there is no other one.
* **`Database.commonSuperclass_nearest`** — what is computed for two classes is such a class, and
  does not depend on their order.

`objectClass` stands apart.  It counts as being above every class, whatever can be found, and so it
is what two classes have in common if nothing else is.
-/

namespace FiberWeave

namespace Hierarchy

variable {h : Hierarchy} {a b c r r' : String}

/-! ## Chains -/

/-- A class that can be found has another one as its superclass. -/
def Extends (h : Hierarchy) (name super : String) : Prop := h.superclass? name = some super

/-- The second class is the first one, its superclass, and so on. -/
def OnChain (h : Hierarchy) : String → String → Prop := Relation.ReflTransGen h.Extends

/-- No class on the chain of a class is further up on its own chain. -/
def Acyclic (h : Hierarchy) (name : String) : Prop :=
  ∀ x, h.OnChain name x → ¬Relation.TransGen h.Extends x x

/-- A class can be found under a name, and it is no interface. -/
def IsClass (h : Hierarchy) (name : String) : Prop :=
  ∃ facts, h.facts? name = some facts ∧ facts.isInterface = false

theorem Extends.unique (hb : h.Extends a b) (hc : h.Extends a c) : b = c :=
  Option.some.inj (hb.symm.trans hc)

/-- On a chain that does not come back, only one of two classes is above the other. -/
theorem Acyclic.antisymm (ha : h.Acyclic a) (hb : h.OnChain a b) (hbc : h.OnChain b c)
    (hcb : h.OnChain c b) : b = c := by
  rcases Relation.reflTransGen_iff_eq_or_transGen.1 hbc with heq | hup
  · exact heq.symm
  · exact absurd (hup.trans_left hcb) (ha b hb)

/-- Nothing is above a class that has no superclass. -/
theorem OnChain.eq_of_top (hb : h.OnChain a b) (htop : h.superclass? a = none) : b = a := by
  rcases Relation.ReflTransGen.cases_head hb with heq | ⟨c, hc, -⟩
  · exact heq.symm
  · cases htop.symm.trans hc

/-! ## The walk along a chain -/

/-- A walk meets classes of the chain only. -/
theorem onChain_of_mem_superclassesFrom {met : List String} {x y : String}
    (hy : y ∈ h.superclassesFrom met x) : h.OnChain x y := by
  fun_induction h.superclassesFrom met x with
  | case1 => simp at hy
  | case2 met x _ ih =>
      rcases List.mem_cons.1 hy with rfl | hy
      · exact .refl
      · split at hy
        · simp at hy
        · rename_i super hsuper
          exact (ih super hsuper hy).head hsuper

/-- A walk begins where it starts, unless that was met before. -/
theorem mem_superclassesFrom_self (met : List String) (x : String) :
    x ∈ met ∨ x ∈ h.superclassesFrom met x := by
  by_cases hmet : x ∈ met
  · exact .inl hmet
  · rw [superclassesFrom, dif_neg hmet]
    exact .inr List.mem_cons_self

/-- From each class that it meets, a walk goes on to the superclass, or that was met before. -/
theorem mem_superclassesFrom_of_extends {met : List String} {x y z : String}
    (hy : y ∈ h.superclassesFrom met x) (hz : h.Extends y z) :
    z ∈ met ∨ z ∈ h.superclassesFrom met x := by
  fun_induction h.superclassesFrom met x with
  | case1 => simp at hy
  | case2 met x _ ih =>
      have hcons : ∀ {rest : List String}, z ∈ x :: met ∨ z ∈ rest → z ∈ met ∨ z ∈ x :: rest := by
        rintro rest (hmet | hrest)
        · rcases List.mem_cons.1 hmet with rfl | hmet
          · exact .inr List.mem_cons_self
          · exact .inl hmet
        · exact .inr (List.mem_cons_of_mem _ hrest)
      refine hcons ?_
      rcases List.mem_cons.1 hy with rfl | hy
      · split
        · rename_i hnone
          cases hnone.symm.trans hz
        · rename_i super hsuper
          obtain rfl := hz.unique hsuper
          exact mem_superclassesFrom_self _ _
      · split at hy
        · simp at hy
        · rename_i super hsuper
          exact ih super hsuper hy

/-- **The classes that a walk meets are those of the chain.** -/
theorem mem_superclasses_iff : b ∈ h.superclasses a ↔ h.OnChain a b := by
  refine ⟨onChain_of_mem_superclassesFrom, fun hb => ?_⟩
  induction hb with
  | refl => exact (mem_superclassesFrom_self [] a).resolve_left List.not_mem_nil
  | tail _ hc ih => exact (mem_superclassesFrom_of_extends ih hc).resolve_left List.not_mem_nil

theorem pairwise_superclassesFrom (met : List String) (x : String) :
    (h.superclassesFrom met x).Pairwise h.OnChain := by
  fun_induction h.superclassesFrom met x with
  | case1 => exact .nil
  | case2 met x _ ih =>
      split
      · exact List.pairwise_singleton _ _
      · rename_i super hsuper
        refine .cons (fun y hy => ?_) (ih super hsuper)
        exact (onChain_of_mem_superclassesFrom hy).head hsuper

/-- **A walk meets each class before those further up.** -/
theorem pairwise_superclasses (a : String) : (h.superclasses a).Pairwise h.OnChain :=
  pairwise_superclassesFrom [] a

theorem isSuperclassOf_iff : h.isSuperclassOf a b = true ↔ a = objectClass ∨ h.OnChain b a := by
  simp only [isSuperclassOf, Bool.or_eq_true, beq_iff_eq, List.contains_iff_mem,
    mem_superclasses_iff]

/-- The first class on a walk that is above another class is below all of them. -/
theorem onChain_of_find? {p : String → Bool} (hr : (h.superclasses a).find? p = some r)
    (hb : h.OnChain a b) (hp : p b = true) : h.OnChain r b := by
  obtain ⟨-, before, after, hsplit, hbefore⟩ := List.find?_eq_some_iff_append.1 hr
  have hmem : b ∈ before ++ r :: after := hsplit ▸ mem_superclasses_iff.2 hb
  have hlater : b ∈ r :: after := by
    refine (List.mem_append.1 hmem).resolve_left fun hearly => ?_
    have hnot := hbefore b hearly
    simp [hp] at hnot
  rcases List.mem_cons.1 hlater with rfl | hlater
  · exact .refl
  · have hpairs : (before ++ r :: after).Pairwise h.OnChain := hsplit ▸ pairwise_superclasses a
    exact (List.pairwise_cons.1 (List.pairwise_append.1 hpairs).2.1).1 b hlater

/-! ## What two classes have in common -/

/-- A class that two others have in common, with all that they have in common above it. -/
structure NearestCommon (h : Hierarchy) (a b r : String) : Prop where
  common : r = objectClass ∨ h.OnChain a r ∧ h.OnChain b r
  nearest : ∀ x, x ≠ objectClass → h.OnChain a x → h.OnChain b x → h.OnChain r x

theorem NearestCommon.symm (hr : h.NearestCommon a b r) : h.NearestCommon b a r :=
  ⟨hr.common.imp_right And.symm, fun x hx hb ha => hr.nearest x hx ha hb⟩

/-- If nothing is above `objectClass`, it is not the nearest class where another one is common. -/
theorem NearestCommon.eq_of_object (htop : h.superclass? objectClass = none)
    (hobject : h.NearestCommon a b objectClass) (hr : h.NearestCommon a b r) : r = objectClass := by
  rcases hr.common with heq | ⟨ha, hb⟩
  · exact heq
  · by_contra hne
    exact hne ((hobject.nearest r hne ha hb).eq_of_top htop)

/-- **There is one nearest class**, if a chain does not come back and nothing is above
`objectClass`. -/
theorem NearestCommon.unique (ha : h.Acyclic a) (htop : h.superclass? objectClass = none)
    (hr : h.NearestCommon a b r) (hr' : h.NearestCommon a b r') : r = r' := by
  by_cases hobject : r = objectClass
  · subst hobject
    exact (hr.eq_of_object htop hr').symm
  · by_cases hobject' : r' = objectClass
    · subst hobject'
      exact hr'.eq_of_object htop hr
    · obtain ⟨har, hbr⟩ := hr.common.resolve_left hobject
      obtain ⟨har', hbr'⟩ := hr'.common.resolve_left hobject'
      exact ha.antisymm har (hr.nearest r' hobject' har' hbr') (hr'.nearest r hobject har hbr)

/-! ## The computation -/

theorem commonSuperclass_self (a : String) : h.commonSuperclass a a = a := by
  simp [commonSuperclass]

/-- A name that cannot be found and an interface have only `objectClass` in common with others. -/
theorem commonSuperclass_of_not_isClass (hne : a ≠ b) (hclasses : ¬(h.IsClass a ∧ h.IsClass b)) :
    h.commonSuperclass a b = objectClass := by
  rw [commonSuperclass, if_neg (by simpa using hne)]
  cases hfa : h.facts? a with
  | none => rfl
  | some fa =>
      cases hfb : h.facts? b with
      | none => rfl
      | some fb =>
          have hinterface : (fa.isInterface || fb.isInterface) = true := by
            by_contra hneither
            simp only [Bool.or_eq_true, not_or, Bool.not_eq_true] at hneither
            exact hclasses ⟨⟨fa, hfa, hneither.1⟩, ⟨fb, hfb, hneither.2⟩⟩
          simp only [hinterface, if_true]

/-- The search above the first class, if neither class is above the other. -/
theorem nearestCommon_search {super : String} (hsuper : h.Extends a super)
    (hba : ¬h.OnChain b a) : h.NearestCommon a b
      (((h.superclasses super).find? (h.isSuperclassOf · b)).getD objectClass) := by
  have habove : ∀ x, h.OnChain a x → h.OnChain b x → h.OnChain super x := by
    intro x hax hbx
    rcases Relation.ReflTransGen.cases_head hax with rfl | ⟨y, hy, hyx⟩
    · exact absurd hbx hba
    · obtain rfl := hsuper.unique hy
      exact hyx
  have hpasses : ∀ x, h.OnChain b x → h.isSuperclassOf x b = true := fun x hx =>
    isSuperclassOf_iff.2 (.inr hx)
  cases hfind : (h.superclasses super).find? (h.isSuperclassOf · b) with
  | none =>
      refine ⟨.inl rfl, fun x _ hax hbx => ?_⟩
      have hnone := List.find?_eq_none.1 hfind x (mem_superclasses_iff.2 (habove x hax hbx))
      exact absurd (hpasses x hbx) hnone
  | some r =>
      refine ⟨?_, fun x _ hax hbx => onChain_of_find? hfind (habove x hax hbx) (hpasses x hbx)⟩
      have hchain := mem_superclasses_iff.1 (List.mem_of_find?_eq_some hfind)
      have hfound := List.find?_some hfind
      exact (isSuperclassOf_iff.1 hfound).imp_right fun hbr => ⟨hchain.head hsuper, hbr⟩

/-- **What is computed for two classes that can be found is the nearest one they have in common.**
Chains may come back, and anything may be above `objectClass`. -/
theorem nearestCommon_commonSuperclass (hne : a ≠ b) (ha : h.IsClass a) (hb : h.IsClass b) :
    h.NearestCommon a b (h.commonSuperclass a b) := by
  obtain ⟨fa, hfa, hia⟩ := ha
  obtain ⟨fb, hfb, hib⟩ := hb
  have hclasses : (fa.isInterface || fb.isInterface) = false := by simp [hia, hib]
  rw [commonSuperclass, if_neg (by simpa using hne)]
  simp only [hfa, hfb, hclasses, Bool.false_eq_true, if_false]
  split
  · rename_i hab
    exact ⟨(isSuperclassOf_iff.1 hab).imp_right fun hba => ⟨.refl, hba⟩, fun _ _ hax _ => hax⟩
  · rename_i hab
    split
    · rename_i hba
      exact ⟨(isSuperclassOf_iff.1 hba).imp_right fun hab => ⟨hab, .refl⟩, fun _ _ _ hbx => hbx⟩
    · have hapart : ¬h.OnChain b a := fun hba => hab (isSuperclassOf_iff.2 (.inr hba))
      cases hsuper : fa.superName with
      | none =>
          have htop : h.superclass? a = none := by simp [superclass?, hfa, hsuper]
          refine ⟨.inl rfl, fun x _ hax hbx => ?_⟩
          obtain rfl := hax.eq_of_top htop
          exact absurd hbx hapart
      | some super =>
          exact nearestCommon_search (by simp [Extends, superclass?, hfa, hsuper]) hapart

/-- It is always on both chains, or else `objectClass`. -/
theorem commonSuperclass_onChains (a b : String) : h.commonSuperclass a b = objectClass ∨
    h.OnChain a (h.commonSuperclass a b) ∧ h.OnChain b (h.commonSuperclass a b) := by
  by_cases hab : a = b
  · subst hab
    rw [commonSuperclass_self]
    exact .inr ⟨.refl, .refl⟩
  · by_cases hclasses : h.IsClass a ∧ h.IsClass b
    · exact (nearestCommon_commonSuperclass hab hclasses.1 hclasses.2).common
    · exact .inl (commonSuperclass_of_not_isClass hab hclasses)

end Hierarchy

/-! ## Databases -/

/-- **The nearest class that two names have in common**, for every database and every class path,
with circles among the classes or without.

It is `objectClass` or on both chains; a name has itself in common with itself, and only
`objectClass` with another one if one of the two cannot be found or is an interface.  For two
distinct classes, every other class on both chains is above it; and if the chain of one of them does
not come back and nothing is above `objectClass`, it is the same in either order. -/
theorem Database.commonSuperclass_nearest (db : Database) (t : FileTree) (a b : String) :
    (db.commonSuperclass t a b = objectClass ∨
      (db.hierarchy t).OnChain a (db.commonSuperclass t a b) ∧
        (db.hierarchy t).OnChain b (db.commonSuperclass t a b)) ∧
    (a = b → db.commonSuperclass t a b = a) ∧
    (a ≠ b → ¬((db.hierarchy t).IsClass a ∧ (db.hierarchy t).IsClass b) →
      db.commonSuperclass t a b = objectClass) ∧
    (a ≠ b → (db.hierarchy t).IsClass a → (db.hierarchy t).IsClass b →
      (∀ x, x ≠ objectClass → (db.hierarchy t).OnChain a x → (db.hierarchy t).OnChain b x →
        (db.hierarchy t).OnChain (db.commonSuperclass t a b) x) ∧
      ((db.hierarchy t).Acyclic a → (db.hierarchy t).superclass? objectClass = none →
        db.commonSuperclass t a b = db.commonSuperclass t b a)) := by
  refine ⟨Hierarchy.commonSuperclass_onChains a b, ?_, fun hne hclasses => ?_,
    fun hne ha hb => ?_⟩
  · rintro rfl
    exact Hierarchy.commonSuperclass_self a
  · exact Hierarchy.commonSuperclass_of_not_isClass hne hclasses
  · have hab := Hierarchy.nearestCommon_commonSuperclass hne ha hb
    have hba := Hierarchy.nearestCommon_commonSuperclass hne.symm hb ha
    exact ⟨hab.nearest, fun hacyclic htop => hab.unique hacyclic htop hba.symm⟩

end FiberWeave
