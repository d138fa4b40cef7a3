import FiberWeave.Proofs.CommonSuperclass
import FiberWeave.Proofs.Marking

/-!
# What decisions depend on

A decision about a class looks at classes that it mentions, at the supertypes of those, and so on.
What is known of any other class does not matter to it.

* `Reaches` — the classes that some classes lead to through supertypes.
* `SameOn` — two ways to find classes that find the same for such classes.
* `Knowledge.entryOf_congr`, `Database.Builder.finish_congr` — entries depend on nothing else.
* `Hierarchy.commonSuperclass_congr` — nor does the nearest class that two classes have in common.
-/

namespace FiberWeave

/-- The classes that some classes lead to through supertypes, as far as classes can be found. -/
inductive Reaches (find : String → Option ClassFacts) (starts : List String) : String → Prop
  | start {x : String} (hx : x ∈ starts) : Reaches find starts x
  | super {x s : String} {f : ClassFacts} (hx : Reaches find starts x) (hf : find x = some f)
      (hs : s ∈ f.supertypes) : Reaches find starts s

/-- Two ways to find classes that find the same for all that some classes lead to. -/
def SameOn (starts : List String) (find find' : String → Option ClassFacts) : Prop :=
  ∀ x, Reaches find starts x → find' x = find x

namespace SameOn

variable {starts : List String} {find find' : String → Option ClassFacts} {lists : MethodLists}
  {facts : ClassFacts} {name descriptor x : String}

/-- The same classes are reached. -/
theorem reaches (h : SameOn starts find find') (hx : Reaches find' starts x) :
    Reaches find starts x := by
  induction hx with
  | start hx => exact .start hx
  | super _ hf hs ih => exact .super ih ((h _ ih).symm.trans hf) hs

theorem symm (h : SameOn starts find find') : SameOn starts find' find :=
  fun x hx => (h x (h.reaches hx)).symm

theorem reaches_of_above (hfacts : ∀ s ∈ facts.supertypes, Reaches find starts s)
    (hx : Above find facts x) : Reaches find starts x := by
  induction hx with
  | direct hs => exact hfacts _ hs
  | further _ hf hs ih => exact .super ih hf hs

variable (h : SameOn starts find find')

include h

theorem above (hfacts : ∀ s ∈ facts.supertypes, Reaches find starts s) (hx : Above find facts x) :
    Above find' facts x := by
  induction hx with
  | direct hs => exact .direct hs
  | further hx hf hs ih => exact .further ih ((h _ (reaches_of_above hfacts hx)).trans hf) hs

theorem inherits (hfacts : ∀ s ∈ facts.supertypes, Reaches find starts s)
    (hinherits : Inherits find lists facts name descriptor) :
    Inherits find' lists facts name descriptor := by
  obtain ⟨x, hx, hpasses⟩ := hinherits
  refine ⟨x, h.above hfacts hx, hpasses.imp_right ?_⟩
  rintro ⟨f, hf, hfound⟩
  exact ⟨f, (h x (reaches_of_above hfacts hx)).trans hf, hfound⟩

theorem callSuspends {target : MemberRef} (howner : target.owner ∈ starts)
    (hsuspends : CallSuspends find lists target) : CallSuspends find' lists target := by
  refine hsuspends.imp_right (Or.imp_right ?_)
  rintro ⟨owner, hfind, hsuspends⟩
  have hreached : Reaches find starts target.owner := .start howner
  exact ⟨owner, (h _ hreached).trans hfind,
    hsuspends.imp_right (h.inherits fun _ hs => .super hreached hfind hs)⟩

theorem methodSuspends (hfacts : ∀ s ∈ facts.supertypes, s ∈ starts) {m : MethodFacts}
    (hsuspends : MethodSuspends find lists facts m) : MethodSuspends find' lists facts m :=
  hsuspends.imp_right (Or.imp_right (Or.imp_right
    (h.inherits fun s hs => .start (hfacts s hs))))

end SameOn

/-! ## Entries -/

namespace Knowledge

variable {k k' : Knowledge} {starts : List String} {facts : ClassFacts}

theorem judge_of_sameOn (h : SameOn starts k.hierarchy.facts? k'.hierarchy.facts?)
    (hlists : k'.lists = k.lists) (hstarts : ∀ s ∈ facts.mentions, s ∈ starts) {m : MethodFacts}
    (hm : m ∈ facts.methods) : k'.judge facts m = k.judge facts m := by
  have hfacts : ∀ s ∈ facts.supertypes, s ∈ starts := fun s hs =>
    hstarts s (List.mem_append_left _ hs)
  have hcalls : ∀ call ∈ m.calls, call.target.owner ∈ starts := fun call hcall =>
    hstarts _ (List.mem_append_right _ (List.mem_flatMap.2 ⟨m, hm, List.mem_map_of_mem hcall⟩))
  refine judge_congr ?_ fun call hcall => ?_
  · rw [hlists]
    exact ⟨h.symm.methodSuspends hfacts, h.methodSuspends hfacts⟩
  · rw [hlists]
    exact ⟨h.symm.callSuspends (hcalls call hcall), h.callSuspends (hcalls call hcall)⟩

/-- **The entry of a class** depends on what the classes that it mentions lead to. -/
theorem entryOf_congr (h : SameOn starts k.hierarchy.facts? k'.hierarchy.facts?)
    (hlists : k'.lists = k.lists) {r : Recorded} (hstarts : ∀ s ∈ r.facts.mentions, s ∈ starts) :
    k'.entryOf r = k.entryOf r := by
  have hjudged : r.facts.methods.map (k'.judge r.facts) = r.facts.methods.map (k.judge r.facts) :=
    List.map_congr_left fun m hm => judge_of_sameOn h hlists hstarts hm
  rw [entryOf, entryOf, hjudged]

end Knowledge

namespace Database.Builder

/-- The classes that recorded classes mention. -/
def mentions (b : Builder) : List String := b.classes.flatMap fun r => r.facts.mentions

/-- **The database of recorded classes** depends on what the classes that they mention lead to. -/
theorem finish_congr {b : Builder} {cp : ClassPath} {t t' : FileTree} (lists : MethodLists)
    (h : SameOn b.mentions (b.hierarchy cp t).facts? (b.hierarchy cp t').facts?) :
    b.finish cp t' lists = b.finish cp t lists := by
  have hknown : SameOn b.mentions (b.knowledge cp t lists).hierarchy.facts?
      (b.knowledge cp t' lists).hierarchy.facts? := h
  have hentries : (b.finish cp t' lists).entries = (b.finish cp t lists).entries := by
    rw [entries_finish, entries_finish]
    refine List.map_congr_left fun r hr => ?_
    exact Knowledge.entryOf_congr hknown rfl fun s hs => List.mem_flatMap.2 ⟨r, hr, hs⟩
  rw [finish, finish, Database.mk.injEq]
  exact ⟨rfl, hentries, rfl⟩

end Database.Builder

/-! ## Common superclasses -/

namespace Hierarchy

variable {h h' : Hierarchy} {starts : List String} {a b name : String}

theorem superclass?_congr (hsame : SameOn starts h.facts? h'.facts?)
    (hname : Reaches h.facts? starts name) : h'.superclass? name = h.superclass? name := by
  rw [superclass?, superclass?, hsame name hname]

theorem reaches_superclass {super : String} (hname : Reaches h.facts? starts name)
    (hsuper : h.superclass? name = some super) : Reaches h.facts? starts super := by
  obtain ⟨f, hf, hs⟩ := Option.bind_eq_some_iff.1 hsuper
  exact .super hname hf (by simp [ClassFacts.supertypes, hs])

theorem superclassesFrom_congr (hsame : SameOn starts h.facts? h'.facts?) (met : List String)
    (hname : Reaches h.facts? starts name) :
    h'.superclassesFrom met name = h.superclassesFrom met name := by
  have hone {met : List String} {name : String} (hmet : name ∉ met) (g : Hierarchy) :
      g.superclassesFrom met name =
        name :: ((g.superclass? name).map (g.superclassesFrom (name :: met))).getD [] := by
    rw [superclassesFrom, dif_neg hmet]
    split <;> simp_all
  fun_induction h.superclassesFrom met name with
  | case1 met name hmet => rw [superclassesFrom, dif_pos hmet]
  | case2 met name hmet ih =>
      rw [hone hmet h', superclass?_congr hsame hname]
      split
      · rename_i hnone
        simp [hnone]
      · rename_i super hsuper
        simp [hsuper, ih super hsuper (reaches_superclass hname hsuper)]

theorem isSuperclassOf_congr (hsame : SameOn starts h.facts? h'.facts?)
    (hname : Reaches h.facts? starts name) (above : String) :
    h'.isSuperclassOf above name = h.isSuperclassOf above name := by
  rw [isSuperclassOf, isSuperclassOf, superclasses, superclasses,
    superclassesFrom_congr hsame [] hname]

/-- **The nearest class that two classes have in common** depends on what they lead to. -/
theorem commonSuperclass_congr (hsame : SameOn [a, b] h.facts? h'.facts?) :
    h'.commonSuperclass a b = h.commonSuperclass a b := by
  have ha : Reaches h.facts? [a, b] a := .start (by simp)
  have hb : Reaches h.facts? [a, b] b := .start (by simp)
  have habove : (h'.isSuperclassOf · b) = (h.isSuperclassOf · b) :=
    funext fun above => isSuperclassOf_congr hsame hb above
  rw [commonSuperclass, commonSuperclass, hsame a ha, hsame b hb, isSuperclassOf_congr hsame hb,
    isSuperclassOf_congr hsame ha, habove]
  cases hfa : h.facts? a with
  | none => rfl
  | some fa =>
      cases h.facts? b with
      | none => rfl
      | some fb =>
          have hchain : ∀ super, fa.superName = some super →
              h'.superclasses super = h.superclasses super := fun super hsuper =>
            superclassesFrom_congr hsame [] (reaches_superclass ha (by simp [superclass?, hfa, hsuper]))
          cases hsuper : fa.superName with
          | none => simp only [hsuper]
          | some super => simp only [hsuper, hchain super hsuper]

end Hierarchy

end FiberWeave
