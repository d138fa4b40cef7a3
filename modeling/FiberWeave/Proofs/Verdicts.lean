import FiberWeave.Proofs.Suspension

/-!
# Two verdicts on one method

Whether a method suspends is decided twice: for the class that has it, and for every call of it.
The two rules look alike, and this file says where they part.

**Initializers.**  A class never counts one of its initializers as suspendable, but a call of it is
judged like any other: `finish_calls` has the rule for calls of the methods of a recorded class, and
`finish_calls_maker` a constructor that is no suspendable method and whose call is a suspend point.

**Listed methods of types that cannot be found.**  A call of a listed method is a suspend point
wherever its owner is.  Overriding one makes a method suspendable only if the owner can be found;
otherwise the list says nothing to its subtypes, `finish_overrides`, while the list of supers does.
-/

namespace FiberWeave

open scoped Classical

/-- A method as a call names it that is made to a class. -/
def MethodFacts.calledOn (m : MethodFacts) (owner : String) : MemberRef :=
  ⟨owner, m.name, m.descriptor⟩

/-- The lists without the suspendable methods of a type. -/
def MethodLists.unlisted (lists : MethodLists) (type : String) : MethodLists :=
  { lists with methods := lists.methods.filter (·.className != type) }

theorem MethodLists.isSuspendable_unlisted {lists : MethodLists} {type other name : String}
    (h : other ≠ type) :
    (lists.unlisted type).isSuspendable other name = lists.isSuspendable other name := by
  rw [Bool.eq_iff_iff]
  simp [isSuspendable, unlisted, h]

/-! ## Methods of a class -/

/-- If signatures are distinct, a method is the first one of its name and descriptor. -/
theorem ClassFacts.method?_of_mem {facts : ClassFacts}
    (hdistinct : (facts.methods.map (·.signature)).Nodup) {m : MethodFacts}
    (hm : m ∈ facts.methods) : facts.method? m.name m.descriptor = some m := by
  have hfind := find?_key_of_mem hdistinct hm
  unfold method?
  rw [List.find?_eq_some_iff_append] at hfind ⊢
  obtain ⟨-, before, after, happend, hbefore⟩ := hfind
  refine ⟨by simp, before, after, happend, fun first hfirst => ?_⟩
  have hne : first.signature ≠ m.signature := by simpa using hbefore first hfirst
  -- Equal names and descriptors would make equal signatures.
  by_contra hboth
  simp only [Bool.not_eq_true, Bool.not_eq_false', Bool.and_eq_true, beq_iff_eq] at hboth
  exact hne (by rw [MethodFacts.signature, MethodFacts.signature, hboth.1, hboth.2])

section Rules

variable {find : String → Option ClassFacts} {lists : MethodLists} {facts : ClassFacts}
  {m : MethodFacts}

theorem declares_iff_of_mem (hdistinct : (facts.methods.map (·.signature)).Nodup)
    (hm : m ∈ facts.methods) :
    Declares facts m.name m.descriptor ↔ m.declaredSuspendable = true := by
  simp [Declares, ClassFacts.method?_of_mem hdistinct hm]

/-- The signature of a method is among those of the suspendable ones, if it is one of them. -/
theorem signature_mem_iff (hdistinct : (facts.methods.map (·.signature)).Nodup)
    (hm : m ∈ facts.methods) :
    m.signature ∈ (suspendableMethodsOf find lists facts).map (·.signature) ↔
      MethodSuspends find lists facts m := by
  simp only [suspendableMethodsOf, List.mem_map, List.mem_filter, decide_eq_true_iff]
  constructor
  · rintro ⟨other, ⟨hother, hsuspends⟩, hsame⟩
    obtain rfl := List.inj_on_of_nodup_map hdistinct hother hm hsame
    exact hsuspends
  · exact fun hsuspends => ⟨m, ⟨hm, hsuspends⟩, rfl⟩

/-- **A call of a method of a class that can be found** suspends if the method is declared, listed
or inherited as suspendable, initializer or not. -/
theorem callSuspends_calledOn_iff (hfind : find facts.name = some facts)
    (hdistinct : (facts.methods.map (·.signature)).Nodup) (hm : m ∈ facts.methods)
    (hplain : (m.calledOn facts.name).isSuspendPoint = false) :
    CallSuspends find lists (m.calledOn facts.name) ↔
      m.declaredSuspendable = true ∨ lists.isSuspendable facts.name m.name = true ∨
        Inherits find lists facts m.name m.descriptor := by
  simp only [CallSuspends, hplain, Bool.false_eq_true, false_or]
  simp only [MethodFacts.calledOn, hfind, Option.some.injEq, exists_eq_left',
    declares_iff_of_mem hdistinct hm]
  exact or_left_comm

/-- Without the listed methods of a type that cannot be found, the same methods of classes that can
be found suspend. -/
theorem methodSuspends_unlisted_iff {type : String} (hfind : find facts.name = some facts)
    (hmissing : find type = none) :
    MethodSuspends find (lists.unlisted type) facts m ↔ MethodSuspends find lists facts m := by
  have hne : ∀ {name : String} {found : ClassFacts}, find name = some found → name ≠ type := by
    rintro name found hname rfl
    cases hname.symm.trans hmissing
  have hinherits : ∀ name descriptor, Inherits find (lists.unlisted type) facts name descriptor ↔
      Inherits find lists facts name descriptor := by
    intro name descriptor
    refine exists_congr fun x => and_congr_right fun _ => or_congr Iff.rfl ?_
    refine exists_congr fun f => and_congr_right fun hf => ?_
    rw [MethodLists.isSuspendable_unlisted (hne hf)]
  rw [MethodSuspends, MethodSuspends, hinherits, MethodLists.isSuspendable_unlisted (hne hfind)]

/-- If no direct supertype can be found, only the list of supers makes a method inherit. -/
theorem inherits_iff_of_missing (hmissing : ∀ s ∈ facts.supertypes, find s = none)
    {name descriptor : String} : Inherits find lists facts name descriptor ↔
      ∃ s ∈ facts.supertypes, lists.isSuspendableSuper s name = true := by
  have habove : ∀ s, Above find facts s ↔ s ∈ facts.supertypes := by
    refine fun s => ⟨fun h => ?_, .direct⟩
    induction h with
    | direct hs => exact hs
    | further _ hf _ ih => cases (hmissing _ ih).symm.trans hf
  constructor
  · rintro ⟨s, hs, hsuper | ⟨f, hf, -⟩⟩
    · exact ⟨s, (habove s).1 hs, hsuper⟩
    · cases (hmissing s ((habove s).1 hs)).symm.trans hf
  · rintro ⟨s, hs, hsuper⟩
    exact ⟨s, .direct hs, .inl hsuper⟩

end Rules

/-! ## Finished databases -/

namespace Database.Builder

variable {records : List Recorded} {cp : ClassPath} {t : FileTree} {lists : MethodLists}
  {r : Recorded} {e : ClassEntry}

/-- The entry of a recorded class follows the rules. -/
theorem classified_of_mem_entries (hr : r ∈ (recordAll {} records).classes)
    (he : e ∈ ((recordAll {} records).finish cp t lists).entries) (hname : e.name = r.facts.name) :
    Classified (factsAfter records cp t) lists r e := by
  rw [entries_finish] at he
  obtain ⟨other, hother, rfl⟩ := List.mem_map.1 he
  have hentry := ((recordAll {} records).knowledge cp t lists).entryOf_classified other
  rw [hentry.name] at hname
  have hnodup := nodup_names_recordAll (b := {}) List.nodup_nil records
  obtain rfl := List.inj_on_of_nodup_map hnodup hother hr hname
  rw [← facts?_hierarchy_recordAll]
  exact hentry

theorem factsAfter_of_mem (hr : r ∈ (recordAll {} records).classes) :
    factsAfter records cp t r.facts.name = some r.facts := by
  rw [factsAfter, (mem_classes_recordAll records r).1 hr]

/-- Two recorded classes have two entries, in their order. -/
theorem exists_entries_of_pair (cp : ClassPath) (t : FileTree) (lists : MethodLists)
    {r s : Recorded} (h : (recordAll {} records).classes = [r, s]) :
    ∃ e c, ((recordAll {} records).finish cp t lists).entries = [e, c] ∧ e.name = r.facts.name ∧
      c.name = s.facts.name := by
  rw [entries_finish, h]
  exact ⟨_, _, rfl, (Knowledge.entryOf_classified ..).name, (Knowledge.entryOf_classified ..).name⟩

section Finished

variable (records : List Recorded) (cp : ClassPath) (t : FileTree) (lists : MethodLists)

/-- **Calls of the methods of a recorded class.**  By the rule for calls, from which every recorded
candidate has its suspend points, calls of methods that are no initializers suspend exactly if the
class has the methods among its suspendable ones.  It has no initializers among them, but calls of
these suspend if they are declared, listed or inherited as suspendable. -/
theorem finish_calls (hr : r ∈ (recordAll {} records).classes) (hcandidate : ¬RuledOut r.facts.name)
    (hdistinct : (r.facts.methods.map (·.signature)).Nodup)
    (he : e ∈ ((recordAll {} records).finish cp t lists).entries) (hname : e.name = r.facts.name)
    {m : MethodFacts} (hm : m ∈ r.facts.methods)
    (hplain : (m.calledOn r.facts.name).isSuspendPoint = false) :
    (∀ caller ∈ (recordAll {} records).classes, ¬RuledOut caller.facts.name →
      ∀ c ∈ ((recordAll {} records).finish cp t lists).entries, c.name = caller.facts.name →
        c.suspendPoints = caller.facts.methods.flatMap fun maker =>
          (maker.calls.filter fun call =>
            CallSuspends (factsAfter records cp t) lists call.target).map
              (CallPoint.ofCall maker)) ∧
    (m.isInitializer = false →
      (CallSuspends (factsAfter records cp t) lists (m.calledOn r.facts.name) ↔
        m.signature ∈ e.suspendableMethods)) ∧
    (m.isInitializer = true → m.signature ∉ e.suspendableMethods ∧
      (CallSuspends (factsAfter records cp t) lists (m.calledOn r.facts.name) ↔
        m.declaredSuspendable = true ∨ lists.isSuspendable r.facts.name m.name = true ∨
          Inherits (factsAfter records cp t) lists r.facts m.name m.descriptor)) := by
  have hentry := classified_of_mem_entries hr he hname
  have hfind : factsAfter records cp t r.facts.name = some r.facts := factsAfter_of_mem hr
  have hcalls : CallSuspends (factsAfter records cp t) lists (m.calledOn r.facts.name) ↔ _ :=
    callSuspends_calledOn_iff hfind hdistinct hm hplain
  have hmethods : m.signature ∈ e.suspendableMethods ↔
      MethodSuspends (factsAfter records cp t) lists r.facts m := by
    rw [hentry.suspendableMethods hcandidate]
    exact signature_mem_iff hdistinct hm
  refine ⟨fun caller hcaller hcan c hc hcname => ?_, fun hinit => ?_, fun hinit => ⟨?_, hcalls⟩⟩
  · exact (classified_of_mem_entries hcaller hc hcname).suspendPoints hcan
  · rw [hmethods, hcalls, MethodSuspends, hinit]
    simp
  · rw [hmethods, MethodSuspends, hinit]
    simp

end Finished

/-- A constructor that is declared suspendable. -/
def makerInit : MethodFacts :=
  { name := "<init>", descriptor := "()V", declaredSuspendable := true }

/-- The class that declares it. -/
def makerClass : Recorded := ⟨⟨"D", "D", "/D.class"⟩, { name := "D", methods := [makerInit] }⟩

/-- A class that calls it. -/
def makerCaller : Recorded where
  file := ⟨"U", "U", "/U.class"⟩
  facts := {
    name := "U"
    methods := [{ name := "go", descriptor := "()V", calls := [⟨makerInit.calledOn "D", 4⟩] }] }

theorem finish_calls_maker :
    ∃ e c, ((recordAll {} [makerClass, makerCaller]).finish {} {} {}).entries = [e, c] ∧
      e.name = "D" ∧ "<init>()V" ∉ e.suspendableMethods ∧
      c.name = "U" ∧ c.suspendPoints = [⟨"go()V", "D.<init>()V", 4⟩] := by
  have hclasses : (recordAll {} [makerClass, makerCaller]).classes = [makerClass, makerCaller] := by
    decide +kernel
  have hcandidates : ∀ r ∈ [makerClass, makerCaller], ¬RuledOut r.facts.name := by
    simp only [← Knowledge.isCandidate_iff]
    decide +kernel
  obtain ⟨e, c, hentries, he, hc⟩ := exists_entries_of_pair {} {} {} hclasses
  obtain ⟨hpoints, -, hinit⟩ := finish_calls [makerClass, makerCaller] {} {} {}
    (r := makerClass) (e := e) (m := makerInit) (by simp [hclasses]) (hcandidates _ (by simp))
    (by decide) (by simp [hentries]) he List.mem_cons_self (by decide)
  obtain ⟨hmethods, hcall⟩ := hinit (by decide)
  have hsuspends := hcall.2 (.inl rfl)
  have hcalls := hpoints makerCaller (by simp [hclasses]) (hcandidates _ (by simp)) c
    (by simp [hentries]) hc
  refine ⟨e, c, hentries, he, hmethods, hc, ?_⟩
  have hkept : ∀ P : MemberRef → Prop, P (makerInit.calledOn "D") →
      (makerCaller.facts.methods.flatMap fun maker => (maker.calls.filter fun call =>
        P call.target).map (CallPoint.ofCall maker)) = [⟨"go()V", "D.<init>()V", 4⟩] := by
    intro P hP
    simp only [makerCaller, List.flatMap_cons, List.flatMap_nil, List.filter_cons, List.filter_nil,
      decide_eq_true hP, if_true]
    rfl
  exact hcalls.trans (hkept _ hsuspends)

section Finished

variable (records : List Recorded) (cp : ClassPath) (t : FileTree) (lists : MethodLists)

/-- **Methods that override a listed one.**  If the list of supers names it, they are suspendable.
So are they if the list of suspendable methods does and its class can be found; if the class cannot
be found, what this list says of it changes nothing. -/
theorem finish_overrides (hr : r ∈ (recordAll {} records).classes)
    (hcandidate : ¬RuledOut r.facts.name)
    (he : e ∈ ((recordAll {} records).finish cp t lists).entries) (hname : e.name = r.facts.name)
    {m : MethodFacts} (hm : m ∈ r.facts.methods) (hplain : m.isInitializer = false) {s : String}
    (habove : Above (factsAfter records cp t) r.facts s) :
    (lists.isSuspendableSuper s m.name = true → m.signature ∈ e.suspendableMethods) ∧
    (lists.isSuspendable s m.name = true → (factsAfter records cp t s).isSome = true →
      m.signature ∈ e.suspendableMethods) ∧
    (factsAfter records cp t s = none →
      ∀ e' ∈ ((recordAll {} records).finish cp t (lists.unlisted s)).entries,
        e'.name = r.facts.name → e'.suspendableMethods = e.suspendableMethods) := by
  have hentry := classified_of_mem_entries hr he hname
  have hinherits : Inherits (factsAfter records cp t) lists r.facts m.name m.descriptor →
      m.signature ∈ e.suspendableMethods := by
    intro h
    rw [hentry.suspendableMethods hcandidate, suspendableMethodsOf]
    refine List.mem_map_of_mem (List.mem_filter.2 ⟨hm, decide_eq_true ?_⟩)
    exact ⟨hplain, .inr (.inr h)⟩
  refine ⟨fun hsuper => ?_, fun hlisted hfound => ?_, fun hmissing e' he' hname' => ?_⟩
  · exact hinherits ⟨s, habove, .inl hsuper⟩
  · obtain ⟨f, hf⟩ := Option.isSome_iff_exists.1 hfound
    exact hinherits ⟨s, habove, .inr ⟨f, hf, .inr hlisted⟩⟩
  · have hentry' := classified_of_mem_entries hr he' hname'
    rw [hentry.suspendableMethods hcandidate, hentry'.suspendableMethods hcandidate]
    refine congrArg (List.map _) (List.filter_congr fun m _ => ?_)
    rw [decide_eq_decide]
    exact methodSuspends_unlisted_iff (factsAfter_of_mem hr) hmissing

end Finished

/-- A method that nothing but a list can make suspendable. -/
def listedRun : MethodFacts := { name := "run", descriptor := "()V" }

/-- A class that has it, below a class that is not there. -/
def listedHeir : Recorded :=
  ⟨⟨"C", "C", "/C.class"⟩, { name := "C", superName := some "S", methods := [listedRun] }⟩

/-- The methods of the class that is not there, in the list of suspendable methods. -/
def missingListed : MethodLists := { methods := MethodLists.parse "S.run".toList }

theorem finish_overrides_listedHeir :
    missingListed.isSuspendable "S" "run" = true ∧
      ∃ e, ((recordAll {} [listedHeir]).finish {} {} missingListed).entries = [e] ∧
        e.name = "C" ∧ e.suspendableMethods = [] := by
  have hclasses : (recordAll {} [listedHeir]).classes = [listedHeir] := by decide +kernel
  have hmem : listedHeir ∈ (recordAll {} [listedHeir]).classes := by simp [hclasses]
  have hcandidate : ¬RuledOut listedHeir.facts.name := by
    rw [← Knowledge.isCandidate_iff]
    decide +kernel
  have hentry : ∀ lists, ∃ e, ((recordAll {} [listedHeir]).finish {} {} lists).entries = [e] ∧
      e.name = listedHeir.facts.name := by
    intro lists
    rw [entries_finish, hclasses]
    exact ⟨_, rfl, (Knowledge.entryOf_classified ..).name⟩
  obtain ⟨e, hentries, he⟩ := hentry missingListed
  obtain ⟨e', hentries', he'⟩ := hentry (missingListed.unlisted "S")
  have hmem' :
      e' ∈ ((recordAll {} [listedHeir]).finish {} {} (missingListed.unlisted "S")).entries := by
    simp [hentries']
  obtain ⟨-, -, hmissing⟩ := finish_overrides [listedHeir] {} {} missingListed hmem hcandidate
    (e := e) (by simp [hentries]) he (m := listedRun) List.mem_cons_self (by decide) (s := "S")
    (.direct List.mem_cons_self)
  have hsame := hmissing (by decide +kernel) e' hmem' he'
  have hnone : ¬MethodSuspends (factsAfter [listedHeir] {} {}) (missingListed.unlisted "S")
      listedHeir.facts listedRun := by
    rw [MethodSuspends, inherits_iff_of_missing (by decide +kernel)]
    decide +kernel
  refine ⟨by decide +kernel, e, hentries, he, ?_⟩
  rw [← hsame, (classified_of_mem_entries hmem hmem' he').suspendableMethods hcandidate]
  refine List.map_eq_nil_iff.2 (List.filter_eq_nil_iff.2 fun m hm => ?_)
  obtain rfl := List.mem_singleton.1 hm
  simpa using hnone

end Database.Builder

end FiberWeave
