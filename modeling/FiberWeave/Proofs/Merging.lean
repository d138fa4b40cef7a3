import FiberWeave.Proofs.CommonSuperclass

/-!
# Merging several types

Where paths of a method meet, types are merged, two at a time and in no order that anyone fixed.
What comes out must not depend on it.

* `Regular` — a name that can be merged: what is above it can be found and is no interface, and its
  chain does not come back.  The name itself may be a class, an interface or nothing that is known.
* `Under` — the names that a name may be merged to, `objectClass` always among them.
* **`under_commonSuperclass_iff`** — two names merged may become what either of them may.  All laws
  of merging are read off this one.
* `Merging` — names with brackets between them; `under_value_iff` has the same for all of them.
* **`Database.commonSuperclass_merging`** — the laws, and that only the set of names counts.
-/

namespace FiberWeave

namespace Hierarchy

variable {h : Hierarchy} {a b c x : String}

/-! ## Names that can be merged -/

instance (h : Hierarchy) (a b : String) : Decidable (h.Extends a b) :=
  inferInstanceAs (Decidable (h.superclass? a = some b))

/-- The chain of a class is the class and the chain of its superclass. -/
theorem onChain_iff_of_extends (hab : h.Extends a b) : h.OnChain a x ↔ a = x ∨ h.OnChain b x := by
  constructor
  · intro hx
    rcases Relation.ReflTransGen.cases_head hx with heq | ⟨y, hy, hyx⟩
    · exact .inl heq
    · exact .inr (hab.unique hy ▸ hyx)
  · rintro (rfl | hx)
    · exact .refl
    · exact hx.head hab

/-- Each class above a name, `objectClass` apart, can be found and is no interface, and the chain of
the name does not come back. -/
structure Regular (h : Hierarchy) (a : String) : Prop where
  isClass : ∀ x, Relation.TransGen h.Extends a x → x ≠ objectClass → h.IsClass x
  acyclic : h.Acyclic a

/-- So is each class above it. -/
theorem Regular.of_onChain (ha : h.Regular a) (hab : h.OnChain a b) : h.Regular b where
  isClass x hx := ha.isClass x (.trans_right hab hx)
  acyclic x hx := ha.acyclic x (hab.trans hx)

/-- A class on the chain of a class is a class. -/
theorem Regular.isClass_of_onChain (ha : h.Regular a) (hclass : h.IsClass a) (hab : h.OnChain a b)
    (hb : b ≠ objectClass) : h.IsClass b := by
  rcases Relation.reflTransGen_iff_eq_or_transGen.1 hab with rfl | hup
  · exact hclass
  · exact ha.isClass b hup hb

/-- A name with nothing above it can be merged. -/
theorem regular_of_top (htop : h.superclass? a = none) : h.Regular a := by
  have hnone : ∀ x, ¬Relation.TransGen h.Extends a x := by
    intro x hx
    obtain ⟨y, hy, -⟩ := Relation.TransGen.head'_iff.1 hx
    cases htop.symm.trans hy
  refine ⟨fun x hx => absurd hx (hnone x), fun x hx => ?_⟩
  obtain rfl := hx.eq_of_top htop
  exact hnone x

/-- So can one below a class that can be, unless it is above that class. -/
theorem regular_of_extends (hab : h.Extends a b) (hclass : b = objectClass ∨ h.IsClass b)
    (hb : h.Regular b) (hba : ¬h.OnChain b a) : h.Regular a := by
  have habove : ∀ x, Relation.TransGen h.Extends a x → h.OnChain b x := by
    intro x hx
    obtain ⟨y, hy, hyx⟩ := Relation.TransGen.head'_iff.1 hx
    exact hab.unique hy ▸ hyx
  refine ⟨fun x hx hne => ?_, fun x hx hxx => ?_⟩
  · rcases Relation.reflTransGen_iff_eq_or_transGen.1 (habove x hx) with rfl | hup
    · exact hclass.resolve_left hne
    · exact hb.isClass x hup hne
  · rcases Relation.reflTransGen_iff_eq_or_transGen.1 hx with rfl | hup
    · exact hba (habove x hxx)
    · exact hb.acyclic x (habove x hup) hxx

/-! ## What a name may be merged to -/

/-- A name may be merged to another one: to itself, to `objectClass`, and if it is a class, to those
above it. -/
def Under (h : Hierarchy) (a x : String) : Prop :=
  x = objectClass ∨ x = a ∨ h.IsClass a ∧ h.OnChain a x

theorem under_self (a : String) : h.Under a a := .inr (.inl rfl)

theorem under_of_isClass_iff (ha : h.IsClass a) :
    h.Under a x ↔ x = objectClass ∨ h.OnChain a x := by
  constructor
  · rintro (hx | rfl | ⟨-, hx⟩)
    · exact .inl hx
    · exact .inr .refl
    · exact .inr hx
  · exact Or.imp_right fun hx => .inr ⟨ha, hx⟩

theorem under_object_iff (htop : h.superclass? objectClass = none) :
    h.Under objectClass x ↔ x = objectClass := by
  constructor
  · rintro (hx | hx | ⟨-, hx⟩)
    · exact hx
    · exact hx
    · exact hx.eq_of_top htop
  · exact .inl

/-- Of two names only one may be merged to the other. -/
theorem Under.antisymm (htop : h.superclass? objectClass = none) (ha : h.Regular a)
    (hab : h.Under a b) (hba : h.Under b a) : a = b := by
  rcases hab with rfl | rfl | ⟨hclass, hup⟩
  · exact (under_object_iff htop).1 hba
  · rfl
  · rcases hba with rfl | rfl | ⟨-, hback⟩
    · exact (hup.eq_of_top htop).symm
    · rfl
    · exact ha.acyclic.antisymm .refl hup hback

/-- Names that may be merged to the same ones are the same. -/
theorem eq_of_under_iff (htop : h.superclass? objectClass = none) (ha : h.Regular a)
    (hsame : ∀ x, h.Under a x ↔ h.Under b x) : a = b :=
  Under.antisymm htop ha ((hsame b).2 (under_self b)) ((hsame a).1 (under_self a))

/-- A name that is no class, and another one, may be merged to `objectClass` only. -/
theorem eq_object_of_not_isClass (hb : h.Regular b) (hne : a ≠ b) (hclass : ¬h.IsClass a)
    (hax : h.Under a x) (hbx : h.Under b x) : x = objectClass := by
  rcases hax with hx | rfl | ⟨ha, -⟩
  · exact hx
  · rcases hbx with hx | hx | ⟨-, hup⟩
    · exact hx
    · exact absurd hx hne
    · by_contra hobject
      have hproper := (Relation.reflTransGen_iff_eq_or_transGen.1 hup).resolve_left hne
      exact hclass (hb.isClass _ hproper hobject)
  · exact absurd ha hclass

/-- The same for two classes: what is nearest may be merged to what both may. -/
theorem under_iff_of_nearestCommon (htop : h.superclass? objectClass = none) (ha : h.Regular a)
    (hca : h.IsClass a) (hcb : h.IsClass b) (hc : h.NearestCommon a b c) :
    h.Under c x ↔ h.Under a x ∧ h.Under b x := by
  rw [under_of_isClass_iff hca, under_of_isClass_iff hcb]
  constructor
  · intro hcx
    by_cases hobject : c = objectClass
    · subst hobject
      exact ⟨.inl ((under_object_iff htop).1 hcx), .inl ((under_object_iff htop).1 hcx)⟩
    · obtain ⟨hac, hbc⟩ := hc.common.resolve_left hobject
      rcases hcx with hx | rfl | ⟨-, hup⟩
      · exact ⟨.inl hx, .inl hx⟩
      · exact ⟨.inr hac, .inr hbc⟩
      · exact ⟨.inr (hac.trans hup), .inr (hbc.trans hup)⟩
  · rintro ⟨hax, hbx⟩
    by_cases hx : x = objectClass
    · exact .inl hx
    · have hcx := hc.nearest x hx (hax.resolve_left hx) (hbx.resolve_left hx)
      by_cases hobject : c = objectClass
      · subst hobject
        exact .inl (hcx.eq_of_top htop)
      · have hac := (hc.common.resolve_left hobject).1
        exact .inr (.inr ⟨ha.isClass_of_onChain hca hac hobject, hcx⟩)

/-- **Two names merged may become what either of them may.** -/
theorem under_commonSuperclass_iff (htop : h.superclass? objectClass = none) (ha : h.Regular a)
    (hb : h.Regular b) :
    h.Under (h.commonSuperclass a b) x ↔ h.Under a x ∧ h.Under b x := by
  by_cases hab : a = b
  · subst hab
    rw [commonSuperclass_self, and_self]
  · by_cases hclasses : h.IsClass a ∧ h.IsClass b
    · have hnearest := nearestCommon_commonSuperclass hab hclasses.1 hclasses.2
      exact under_iff_of_nearestCommon htop ha hclasses.1 hclasses.2 hnearest
    · rw [commonSuperclass_of_not_isClass hab hclasses, under_object_iff htop]
      refine ⟨fun hx => ⟨.inl hx, .inl hx⟩, fun ⟨hax, hbx⟩ => ?_⟩
      by_cases hclass : h.IsClass a
      · have hother : ¬h.IsClass b := fun hb => hclasses ⟨hclass, hb⟩
        exact eq_object_of_not_isClass ha (Ne.symm hab) hother hbx hax
      · exact eq_object_of_not_isClass hb hab hclass hax hbx

/-- What two names are merged to can be merged. -/
theorem regular_commonSuperclass (htop : h.superclass? objectClass = none) (ha : h.Regular a) :
    h.Regular (h.commonSuperclass a b) := by
  rcases commonSuperclass_onChains (h := h) a b with hobject | ⟨hup, -⟩
  · rw [hobject]
    exact regular_of_top htop
  · exact ha.of_onChain hup

/-! ## The laws -/

theorem commonSuperclass_assoc (htop : h.superclass? objectClass = none) (ha : h.Regular a)
    (hb : h.Regular b) (hc : h.Regular c) :
    h.commonSuperclass (h.commonSuperclass a b) c =
      h.commonSuperclass a (h.commonSuperclass b c) := by
  have hab := regular_commonSuperclass (b := b) htop ha
  have hbc := regular_commonSuperclass (b := c) htop hb
  refine eq_of_under_iff htop (regular_commonSuperclass htop hab) fun x => ?_
  rw [under_commonSuperclass_iff htop hab hc, under_commonSuperclass_iff htop ha hb,
    under_commonSuperclass_iff htop ha hbc, under_commonSuperclass_iff htop hb hc, and_assoc]

theorem commonSuperclass_comm (htop : h.superclass? objectClass = none) (ha : h.Regular a)
    (hb : h.Regular b) : h.commonSuperclass a b = h.commonSuperclass b a := by
  refine eq_of_under_iff htop (regular_commonSuperclass htop ha) fun x => ?_
  rw [under_commonSuperclass_iff htop ha hb, under_commonSuperclass_iff htop hb ha, and_comm]

/-- `objectClass` absorbs every name, whether that can be merged or not. -/
theorem commonSuperclass_object (htop : h.superclass? objectClass = none) (a : String) :
    h.commonSuperclass a objectClass = objectClass ∧
      h.commonSuperclass objectClass a = objectClass := by
  constructor
  · rcases commonSuperclass_onChains (h := h) a objectClass with hobject | ⟨-, hup⟩
    · exact hobject
    · exact hup.eq_of_top htop
  · rcases commonSuperclass_onChains (h := h) objectClass a with hobject | ⟨hup, -⟩
    · exact hobject
    · exact hup.eq_of_top htop

end Hierarchy

/-! ## Brackets -/

/-- Names to be merged, with brackets between them. -/
inductive Merging where
  | single (name : String)
  | both (left right : Merging)

namespace Merging

/-- The names, from left to right. -/
def names : Merging → List String
  | single name => [name]
  | both left right => left.names ++ right.names

/-- What they are merged to, two at a time. -/
def value (merge : String → String → String) : Merging → String
  | single name => name
  | both left right => merge (left.value merge) (right.value merge)

/-- A list of names, merged from left to right. -/
def ofList (first : String) (rest : List String) : Merging :=
  rest.foldl (fun m name => both m (single name)) (single first)

theorem value_foldl (merge : String → String → String) (m : Merging) (rest : List String) :
    (rest.foldl (fun m name => both m (single name)) m).value merge =
      rest.foldl merge (m.value merge) := by
  induction rest generalizing m with
  | nil => rfl
  | cons name rest ih => exact ih (both m (single name))

theorem names_foldl (m : Merging) (rest : List String) :
    (rest.foldl (fun m name => both m (single name)) m).names = m.names ++ rest := by
  induction rest generalizing m with
  | nil => simp
  | cons name rest ih =>
      rw [List.foldl_cons, ih]
      simp [names]

theorem value_ofList (merge : String → String → String) (first : String) (rest : List String) :
    (ofList first rest).value merge = rest.foldl merge first :=
  value_foldl merge (single first) rest

theorem names_ofList (first : String) (rest : List String) :
    (ofList first rest).names = first :: rest :=
  names_foldl (single first) rest

variable {h : Hierarchy} {m m' : Merging}

/-- **Names merged may become what each of them may**, however the brackets stand. -/
theorem under_value_iff (htop : h.superclass? objectClass = none)
    (hm : ∀ a ∈ m.names, h.Regular a) :
    h.Regular (m.value h.commonSuperclass) ∧
      ∀ x, h.Under (m.value h.commonSuperclass) x ↔ ∀ a ∈ m.names, h.Under a x := by
  induction m with
  | single name =>
      simp only [names, List.forall_mem_singleton] at hm ⊢
      exact ⟨hm, fun x => Iff.rfl⟩
  | both left right ihl ihr =>
      simp only [names, List.forall_mem_append] at hm ⊢
      obtain ⟨hleft, hunder⟩ := ihl hm.1
      obtain ⟨hright, hunder'⟩ := ihr hm.2
      refine ⟨Hierarchy.regular_commonSuperclass htop hleft, fun x => ?_⟩
      rw [value, Hierarchy.under_commonSuperclass_iff htop hleft hright, hunder, hunder']

/-- Only the set of names counts. -/
theorem value_eq (htop : h.superclass? objectClass = none) (hm : ∀ a ∈ m.names, h.Regular a)
    (hsame : ∀ a, a ∈ m.names ↔ a ∈ m'.names) :
    m.value h.commonSuperclass = m'.value h.commonSuperclass := by
  obtain ⟨hregular, hunder⟩ := under_value_iff htop hm
  obtain ⟨-, hunder'⟩ := under_value_iff (m := m') htop fun a ha => hm a ((hsame a).2 ha)
  refine Hierarchy.eq_of_under_iff htop hregular fun x => ?_
  rw [hunder, hunder']
  exact forall_congr' fun a => imp_congr_left (hsame a)

end Merging

/-! ## Databases -/

/-- **Merging does not depend on its order**, for every database and every class path on which
nothing is above `objectClass`.  Names that can be merged are merged to the same name in any order,
with any brackets and however often each of them comes; merging is associative, commutative and
idempotent, and `objectClass` absorbs. -/
theorem Database.commonSuperclass_merging (db : Database) (t : FileTree)
    (htop : (db.hierarchy t).superclass? objectClass = none) :
    let h := db.hierarchy t
    let merge := db.commonSuperclass t
    (∀ first rest first' rest', (∀ a ∈ first :: rest, h.Regular a) →
      (∀ a, a ∈ first :: rest ↔ a ∈ first' :: rest') →
        rest.foldl merge first = rest'.foldl merge first') ∧
    (∀ (m : Merging) first rest, (∀ a ∈ first :: rest, h.Regular a) →
      (∀ a, a ∈ first :: rest ↔ a ∈ m.names) → rest.foldl merge first = m.value merge) ∧
    (∀ a b c, h.Regular a → h.Regular b → h.Regular c →
      merge (merge a b) c = merge a (merge b c)) ∧
    (∀ a b, h.Regular a → h.Regular b → merge a b = merge b a ∧ h.Regular (merge a b)) ∧
    (∀ a, merge a a = a ∧ merge a objectClass = objectClass ∧
      merge objectClass a = objectClass) := by
  intro h merge
  have hbrackets : ∀ (m : Merging) first rest, (∀ a ∈ first :: rest, h.Regular a) →
      (∀ a, a ∈ first :: rest ↔ a ∈ m.names) → rest.foldl merge first = m.value merge := by
    intro m first rest hregular hsame
    rw [← Merging.names_ofList] at hregular hsame
    rw [← Merging.value_ofList]
    exact Merging.value_eq htop hregular hsame
  refine ⟨?_, hbrackets, fun a b c => Hierarchy.commonSuperclass_assoc htop,
    fun a b ha hb => ⟨Hierarchy.commonSuperclass_comm htop ha hb,
      Hierarchy.regular_commonSuperclass htop ha⟩,
    fun a => ⟨Hierarchy.commonSuperclass_self a, Hierarchy.commonSuperclass_object htop a⟩⟩
  intro first rest first' rest' hregular hsame
  rw [hbrackets (.ofList first' rest') first rest hregular
    (by rw [Merging.names_ofList]; exact hsame), Merging.value_ofList]

/-- The place of a type in a hierarchy, as an entry of a class that nothing else is known of. -/
def typeEntry (name : String) (superName : Option String) (isInterface : Bool) : ClassEntry where
  name
  file := ⟨name, name, name⟩
  superName
  interfaces := []
  isInterface
  classification := .noInstrumentation
  instrumented := false
  problematic := false
  suspendableMethods := []
  suspendPoints := []
  monitorMethods := []
  blockingCalls := []

/-- Two classes with a superclass in common, and an interface; `objectClass` cannot be found. -/
def zoo : Database where
  scanned := 4
  entries := [typeEntry "Animal" (some objectClass) false, typeEntry "Cat" (some "Animal") false,
    typeEntry "Dog" (some "Animal") false, typeEntry "Pet" (some objectClass) true]
  classPath := {}

theorem Database.commonSuperclass_merging_zoo :
    (zoo.hierarchy {}).superclass? objectClass = none ∧
      (∀ a ∈ ["Cat", "Dog", "Pet", "Missing"], (zoo.hierarchy {}).Regular a) ∧
      ["Dog", "Missing", "Cat"].foldl (zoo.commonSuperclass {}) "Cat" =
        zoo.commonSuperclass {} "Missing" (zoo.commonSuperclass {} "Cat" "Dog") ∧
      zoo.commonSuperclass {} (zoo.commonSuperclass {} "Cat" "Dog") "Pet" =
        zoo.commonSuperclass {} "Cat" (zoo.commonSuperclass {} "Dog" "Pet") := by
  have htop : (zoo.hierarchy {}).superclass? objectClass = none := by decide +kernel
  have hobject := Hierarchy.regular_of_top htop
  have hmissing : (zoo.hierarchy {}).Regular "Missing" :=
    Hierarchy.regular_of_top (by decide +kernel)
  have hbelow : ∀ name, (zoo.hierarchy {}).Extends name objectClass → name ≠ objectClass →
      (zoo.hierarchy {}).Regular name := fun name hup hne =>
    Hierarchy.regular_of_extends hup (.inl rfl) hobject fun hback =>
      hne (hback.eq_of_top htop)
  have hanimal : (zoo.hierarchy {}).Extends "Animal" objectClass := by decide +kernel
  have hclass : (zoo.hierarchy {}).IsClass "Animal" := ⟨_, rfl, rfl⟩
  have hpair : ∀ name, (zoo.hierarchy {}).Extends name "Animal" → name ≠ "Animal" →
      name ≠ objectClass → (zoo.hierarchy {}).Regular name := by
    intro name hup hne hne'
    refine Hierarchy.regular_of_extends hup (.inr hclass) (hbelow _ hanimal (by decide)) ?_
    intro hback
    rcases (Hierarchy.onChain_iff_of_extends hanimal).1 hback with heq | hback
    · exact hne heq.symm
    · exact hne' (hback.eq_of_top htop)
  have hcat := hpair "Cat" (by decide +kernel) (by decide) (by decide)
  have hdog := hpair "Dog" (by decide +kernel) (by decide) (by decide)
  have hpet := hbelow "Pet" (by decide +kernel) (by decide)
  obtain ⟨-, hbrackets, hassoc, -, -⟩ := commonSuperclass_merging zoo {} htop
  refine ⟨htop, ?_, ?_, hassoc _ _ _ hcat hdog hpet⟩
  · simp [hcat, hdog, hpet, hmissing]
  · refine hbrackets (.both (.single "Missing") (.both (.single "Cat") (.single "Dog"))) _ _ ?_ ?_
    · simp [hcat, hdog, hmissing]
    · intro a
      simp only [Merging.names, List.mem_append, List.mem_cons, List.not_mem_nil, or_false]
      grind

end FiberWeave
