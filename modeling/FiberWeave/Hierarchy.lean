import FiberWeave.Facts

/-!
# The class hierarchy

Facts of classes by name, as far as they can be found. Classes may extend each other in any way a
class file can say, cycles included, but only finitely many names occur as supertypes.

* `Hierarchy` — a finite view of classes and their facts.
* `Hierarchy.anySupertype` — whether something holds of a supertype at any distance.
* `Lookup` — a way of looking classes up that may remember what it found; `Lookup.anySupertype` is
  the same search through it.
* `Hierarchy.superclasses` — a class, its superclass and so on, up to the first repetition.
* `Hierarchy.commonSuperclass` — the nearest class that two classes have in common.

Both searches end because each step either takes a name that was not met before out of a finite
supply, or one name off the list of those that wait.
-/

namespace FiberWeave

/-- The root of all classes. -/
def objectClass : String := "java/lang/Object"

/-- What is known of classes: facts by name, with finitely many names as supertypes. -/
structure Hierarchy where
  facts? : String → Option ClassFacts
  finite : ∃ names : List String,
    ∀ c f, facts? c = some f → ∀ s ∈ f.supertypes, s ∈ names

namespace Hierarchy

/-- A finite supply of names that holds all supertypes. -/
noncomputable def supply (h : Hierarchy) : List String := Classical.choose h.finite

theorem mem_supply (h : Hierarchy) {c : String} {f : ClassFacts} (hf : h.facts? c = some f)
    {s : String} (hs : s ∈ f.supertypes) : s ∈ h.supply :=
  Classical.choose_spec h.finite c f hf s hs

/-! ## How much is left to search -/

/-- The names of the supply that were not met. -/
noncomputable def unmet (h : Hierarchy) (met : List String) : Nat :=
  h.supply.countP fun name => name ∉ met

/-- The names from outside the supply among those that wait. -/
noncomputable def foreign (h : Hierarchy) (waiting : List String) : Nat :=
  waiting.countP fun name => name ∉ h.supply

theorem unmet_cons_le (h : Hierarchy) (met : List String) (name : String) :
    h.unmet (name :: met) ≤ h.unmet met :=
  List.countP_mono_left fun x _ hx => by simp_all

theorem unmet_cons_lt (h : Hierarchy) {met : List String} {name : String}
    (hs : name ∈ h.supply) (hm : name ∉ met) : h.unmet (name :: met) < h.unmet met := by
  obtain ⟨before, after, heq⟩ := List.append_of_mem hs
  have hle : ∀ xs : List String,
      xs.countP (fun n => n ∉ name :: met) ≤ xs.countP (fun n => n ∉ met) := fun xs =>
    List.countP_mono_left fun x _ hx => by simp_all
  have h1 := hle before
  have h2 := hle after
  simp only [unmet, heq, List.countP_append, List.countP_cons, List.mem_cons, true_or,
    not_true_eq_false, decide_false, Bool.false_eq_true, if_false, hm, not_false_eq_true,
    decide_true, if_true] at h1 h2 ⊢
  omega

theorem foreign_append (h : Hierarchy) (xs ys : List String) :
    h.foreign (xs ++ ys) = h.foreign xs + h.foreign ys :=
  List.countP_append

theorem foreign_supertypes (h : Hierarchy) {c : String} {f : ClassFacts}
    (hf : h.facts? c = some f) : h.foreign f.supertypes = 0 :=
  List.countP_eq_zero.2 fun _ hs => by simpa using h.mem_supply hf hs

/-- Meeting a new name uses up the supply or one of the names that came from outside it. -/
theorem meet_lt (h : Hierarchy) {met : List String} {name : String} (rest : List String)
    (hm : name ∉ met) :
    h.unmet (name :: met) + h.foreign rest < h.unmet met + h.foreign (name :: rest) := by
  by_cases hs : name ∈ h.supply
  · have h1 := h.unmet_cons_lt hs hm
    have h2 : h.foreign (name :: rest) = h.foreign rest := by
      simp [foreign, hs]
    omega
  · have h1 := h.unmet_cons_le met name
    have h2 : h.foreign (name :: rest) = h.foreign rest + 1 := by
      simp [foreign, hs]
    omega

/-- Passing over a name leaves no more to meet, and fewer names that wait. -/
theorem skip_lt (h : Hierarchy) (met : List String) (name : String) (rest : List String) :
    Prod.Lex (· < ·) (· < ·) (h.unmet met + h.foreign rest, rest.length)
      (h.unmet met + h.foreign (name :: rest), (name :: rest).length) := by
  have hle : h.foreign rest ≤ h.foreign (name :: rest) := by
    simp only [foreign, List.countP_cons]
    omega
  rcases Nat.lt_or_eq_of_le hle with hlt | heq
  · exact Prod.Lex.left _ _ (by omega)
  · rw [heq]
    exact Prod.Lex.right _ (by simp)

/-! ## Supertypes -/

/-- Whether `p` holds of one of the types that wait, or of a supertype of one at any distance. Each
type is looked at once; those in `met` were looked at before. -/
def anySupertype (h : Hierarchy) (p : String → Option ClassFacts → Bool) (met : List String) :
    (waiting : List String) → Bool
  | [] => false
  | name :: rest =>
      if _hm : name ∈ met then anySupertype h p met rest
      else
        match _hf : h.facts? name with
        | none => p name none || anySupertype h p (name :: met) rest
        | some facts =>
            p name (some facts) || anySupertype h p (name :: met) (facts.supertypes ++ rest)
termination_by waiting => (h.unmet met + h.foreign waiting, waiting.length)
decreasing_by
  · exact h.skip_lt met name rest
  · exact Prod.Lex.left _ _ (h.meet_lt rest _hm)
  · refine Prod.Lex.left _ _ ?_
    rw [h.foreign_append, h.foreign_supertypes _hf, Nat.zero_add]
    exact h.meet_lt rest _hm

end Hierarchy

/-! ## Searching with a memory -/

/-- A way of looking classes up that remembers. Whatever it remembers, it answers what the hierarchy
answers. -/
structure Lookup (h : Hierarchy) where
  Memory : Type
  look : String → Memory → Option ClassFacts × Memory
  look_eq : ∀ name memory, (look name memory).1 = h.facts? name

/-- Whether one of the types that wait, or a supertype of one at any distance, passes a test by its
name alone, or else can be found and passes a test by its facts. -/
def Lookup.anySupertype {h : Hierarchy} (l : Lookup h) (byName : String → Bool)
    (byFacts : String → ClassFacts → Bool) (met : List String) :
    (waiting : List String) → StateM l.Memory Bool
  | [], memory => (false, memory)
  | name :: rest, memory =>
      if _hm : name ∈ met then anySupertype l byName byFacts met rest memory
      else if byName name then (true, memory)
      else
        match _hf : l.look name memory with
        | (none, kept) => anySupertype l byName byFacts (name :: met) rest kept
        | (some facts, kept) =>
            if byFacts name facts then (true, kept)
            else anySupertype l byName byFacts (name :: met) (facts.supertypes ++ rest) kept
termination_by waiting => (h.unmet met + h.foreign waiting, waiting.length)
decreasing_by
  · exact h.skip_lt met name rest
  · exact Prod.Lex.left _ _ (h.meet_lt rest _hm)
  · have hfacts : h.facts? name = some facts := by
      rw [← l.look_eq name memory, _hf]
    refine Prod.Lex.left _ _ ?_
    rw [h.foreign_append, h.foreign_supertypes hfacts, Nat.zero_add]
    exact h.meet_lt rest _hm

/-- Remembering does not change what a search finds. -/
theorem Lookup.anySupertype_fst {h : Hierarchy} (l : Lookup h) (byName : String → Bool)
    (byFacts : String → ClassFacts → Bool) (met waiting : List String) (memory : l.Memory) :
    (l.anySupertype byName byFacts met waiting memory).1 =
      h.anySupertype (fun name facts? => byName name || facts?.any (byFacts name)) met waiting := by
  fun_induction Lookup.anySupertype l byName byFacts met waiting memory with
  | case1 => simp [Hierarchy.anySupertype]
  | case2 met name rest memory hm ih => rw [ih, Hierarchy.anySupertype, dif_pos hm]
  | case3 met name rest memory hm hn =>
      rw [Hierarchy.anySupertype, dif_neg hm]
      split <;> simp [hn]
  | case4 met name rest memory hm hn kept hf ih =>
      have hfacts : h.facts? name = none := by rw [← l.look_eq name memory, hf]
      rw [ih, Hierarchy.anySupertype, dif_neg hm]
      split <;> simp_all
  | case5 met name rest memory hm hn facts kept hf hp =>
      have hfacts : h.facts? name = some facts := by rw [← l.look_eq name memory, hf]
      rw [Hierarchy.anySupertype, dif_neg hm]
      split <;> simp_all
  | case6 met name rest memory hm hn facts kept hf hp ih =>
      have hfacts : h.facts? name = some facts := by rw [← l.look_eq name memory, hf]
      rw [ih, Hierarchy.anySupertype, dif_neg hm]
      split <;> simp_all

namespace Hierarchy

/-! ## Superclasses -/

/-- The superclass of a class that can be found. -/
def superclass? (h : Hierarchy) (name : String) : Option String :=
  (h.facts? name).bind (·.superName)

theorem superclass?_mem_supply (h : Hierarchy) {name s : String}
    (hs : h.superclass? name = some s) : s ∈ h.supply := by
  obtain ⟨f, hf, hsuper⟩ := Option.bind_eq_some_iff.1 hs
  exact h.mem_supply hf (by simp [ClassFacts.supertypes, hsuper])

/-- A class, its superclass and so on, up to a class that cannot be found or one in `met`. -/
def superclassesFrom (h : Hierarchy) (met : List String) (name : String) : List String :=
  if _hm : name ∈ met then []
  else
    name ::
      match _hs : h.superclass? name with
      | none => []
      | some super => superclassesFrom h (name :: met) super
termination_by h.unmet met + h.foreign [name]
decreasing_by
  have h1 := h.meet_lt [] _hm
  have h2 : h.foreign [super] = h.foreign [] := by
    simp [foreign, h.superclass?_mem_supply _hs]
  omega

/-- A class, its superclass and so on, up to the first repetition. -/
def superclasses (h : Hierarchy) (name : String) : List String := h.superclassesFrom [] name

/-- Whether a class is another one or above it. Whatever can be found or not, `objectClass` is above
everything. -/
def isSuperclassOf (h : Hierarchy) (above below : String) : Bool :=
  above == objectClass || (h.superclasses below).contains above

/-- The nearest class that is above two others. Interfaces and classes that cannot be found have
only `objectClass` in common with others. -/
def commonSuperclass (h : Hierarchy) (a b : String) : String :=
  if a == b then a
  else
    match h.facts? a, h.facts? b with
    | some fa, some fb =>
        if fa.isInterface || fb.isInterface then objectClass
        else if h.isSuperclassOf a b then a
        else if h.isSuperclassOf b a then b
        else
          match fa.superName with
          | none => objectClass
          | some super =>
              ((h.superclasses super).find? (h.isSuperclassOf · b)).getD objectClass
    | _, _ => objectClass

end Hierarchy

end FiberWeave
