import FiberWeave.Config.Settings
import FiberWeave.Proofs.TrimmedText

/-!
# What inclusions mean

A user restricts a run to classes whose names begin in certain ways, in the configuration file and on
the command line.  A policy keeps these beginnings in a form of its own, and adds them one by one; what
it includes can be told from what was written alone.

* `SameName` — texts that differ in dots and slashes only.
* `InclusionPolicy.Admits` — what a list of beginnings means for a class, in the words of the user.
  `Admits.congr`: order, repetition, dots and slashes do not matter to it.
* `InclusionPolicy.Tidy` — a policy whose beginnings are distinct and in the form that a policy gives
  them.  `Tidy.extend`: it stays so whatever is added.
* `includes_ofList_iff` — a policy includes a class exactly if what was written admits it.
* **`extend_supplied`** — all of this for beginnings from the file and from the command line together.

A list of blanks restricts nothing, and a single beginning that is not blank restricts everything
else.  So what a policy has kept must be empty exactly if all that was written is blank.
-/

namespace FiberWeave

/-! ## What was written -/

/-- Two texts that differ in dots and slashes only. -/
def SameName (a b : String) : Prop := Text.slashed a.toList = Text.slashed b.toList

theorem SameName.symm {a b : String} (h : SameName a b) : SameName b a := Eq.symm h

namespace InclusionPolicy

/-- Nothing but blanks was written. -/
def IsBlank (written : String) : Prop := Text.isBlankText written.toList = true

/-- The name of a class begins with what was written, with slashes for the dots of both and without
the blanks around what was written. -/
def Begins (written name : String) : Prop :=
  Text.slashed (Text.trim written.toList) <+: Text.slashed name.toList

/-- A class is meant by a list of beginnings: all of them are blank, or its name begins with one that
is not. -/
def Admits (written : List String) (name : String) : Prop :=
  (∀ w ∈ written, IsBlank w) ∨ ∃ w ∈ written, ¬IsBlank w ∧ Begins w name

/-- Lists of the same beginnings up to dots and slashes, in any order and any number of times. -/
structure SameBeginnings (written written' : List String) : Prop where
  kept : ∀ w ∈ written, ∃ w' ∈ written', SameName w w'
  added : ∀ w' ∈ written', ∃ w ∈ written, SameName w w'

theorem SameBeginnings.symm {written written' : List String}
    (h : SameBeginnings written written') : SameBeginnings written' written where
  kept w hw := by
    obtain ⟨w', hw', hsame⟩ := h.added w hw
    exact ⟨w', hw', hsame.symm⟩
  added w hw := by
    obtain ⟨w', hw', hsame⟩ := h.kept w hw
    exact ⟨w', hw', hsame.symm⟩

theorem IsBlank.sameName {w w' : String} (h : IsBlank w) (hsame : SameName w w') : IsBlank w' := by
  rw [IsBlank, ← Text.isBlankText_slashed, ← show Text.slashed w.toList = _ from hsame,
    Text.isBlankText_slashed]
  exact h

theorem Begins.sameName {w w' name name' : String} (h : Begins w name) (hsame : SameName w w')
    (hname : SameName name name') : Begins w' name' := by
  rw [Begins, Text.slashed_trim, ← show Text.slashed w.toList = _ from hsame,
    ← show Text.slashed name.toList = _ from hname, ← Text.slashed_trim]
  exact h

theorem Admits.sameName {written written' : List String} {name name' : String}
    (h : Admits written name) (hsame : SameBeginnings written written')
    (hname : SameName name name') : Admits written' name' := by
  rcases h with hblank | ⟨w, hw, htext, hbegins⟩
  · refine .inl fun w' hw' => ?_
    obtain ⟨w, hw, hww'⟩ := hsame.added w' hw'
    exact (hblank w hw).sameName hww'
  · obtain ⟨w', hw', hww'⟩ := hsame.kept w hw
    exact .inr ⟨w', hw', fun hblank => htext (hblank.sameName hww'.symm),
      hbegins.sameName hww' hname⟩

/-- **Order, repetition, dots and slashes do not matter** to what beginnings mean. -/
theorem Admits.congr {written written' : List String} {name name' : String}
    (hsame : SameBeginnings written written') (hname : SameName name name') :
    Admits written name ↔ Admits written' name' :=
  ⟨fun h => h.sameName hsame hname, fun h => h.sameName hsame.symm hname.symm⟩

/-! ## What a policy keeps -/

/-- The beginnings of a policy are distinct, and each is in the form that a policy gives it. -/
structure Tidy (policy : InclusionPolicy) : Prop where
  distinct : policy.prefixes.Nodup
  nonempty : ∀ p ∈ policy.prefixes, p ≠ ""
  dotless : ∀ p ∈ policy.prefixes, '.' ∉ p.toList
  unpadded : ∀ p ∈ policy.prefixes, Text.Unpadded p.toList

instance (policy : InclusionPolicy) : Decidable policy.Tidy :=
  decidable_of_iff (policy.prefixes.Nodup ∧ (∀ p ∈ policy.prefixes, p ≠ "") ∧
      (∀ p ∈ policy.prefixes, '.' ∉ p.toList) ∧ ∀ p ∈ policy.prefixes, Text.Unpadded p.toList)
    ⟨fun h => ⟨h.1, h.2.1, h.2.2.1, h.2.2.2⟩,
      fun h => ⟨h.distinct, h.nonempty, h.dotless, h.unpadded⟩⟩

variable {policy : InclusionPolicy} {written : List String} {w p name : String}

theorem toList_normalize (w : String) :
    (normalize w).toList = Text.slashed (Text.trim w.toList) := String.toList_ofList

/-- What is left of a text is empty exactly if the text is blank. -/
theorem normalize_eq_empty_iff : normalize w = "" ↔ IsBlank w := by
  rw [← String.toList_inj, toList_normalize, IsBlank, ← Text.trim_eq_nil_iff]
  exact Text.slashed_eq_nil_iff

theorem add_of_isBlank (h : IsBlank w) : policy.add w = policy := by
  simp [add, normalize_eq_empty_iff.2 h]

theorem add_of_mem (h : normalize w ∈ policy.prefixes) : policy.add w = policy := by
  simp [add, h]

theorem add_of_not_mem (hw : ¬IsBlank w) (h : normalize w ∉ policy.prefixes) :
    policy.add w = ⟨policy.prefixes ++ [normalize w]⟩ := by
  have htext : normalize w ≠ "" := mt normalize_eq_empty_iff.1 hw
  simp [add, htext, h]

theorem mem_prefixes_add :
    p ∈ (policy.add w).prefixes ↔ p ∈ policy.prefixes ∨ ¬IsBlank w ∧ p = normalize w := by
  by_cases hw : IsBlank w
  · simp [add_of_isBlank hw, hw]
  · by_cases hmem : normalize w ∈ policy.prefixes
    · rw [add_of_mem hmem]
      exact ⟨.inl, fun h => h.elim id fun h => h.2 ▸ hmem⟩
    · simp [add_of_not_mem hw hmem, hw]

theorem extend_cons (policy : InclusionPolicy) (w : String) (rest : List String) :
    policy.extend (w :: rest) = (policy.add w).extend rest := by
  rw [extend, List.foldl_cons, extend]

/-- A policy has the beginnings that it had, and the added ones that are not blank. -/
theorem mem_prefixes_extend : p ∈ (policy.extend written).prefixes ↔
    p ∈ policy.prefixes ∨ ∃ w ∈ written, ¬IsBlank w ∧ p = normalize w := by
  induction written generalizing policy with
  | nil => simp [extend]
  | cons w rest ih =>
      rw [extend_cons, ih, mem_prefixes_add, or_assoc]
      simp only [List.mem_cons, exists_eq_or_imp]

theorem Tidy.add (h : policy.Tidy) (w : String) : (policy.add w).Tidy := by
  by_cases hw : IsBlank w
  · rwa [add_of_isBlank hw]
  · by_cases hmem : normalize w ∈ policy.prefixes
    · rwa [add_of_mem hmem]
    · have hforall (P : String → Prop) (hold : ∀ p ∈ policy.prefixes, P p)
          (hnew : P (normalize w)) : ∀ p ∈ policy.prefixes ++ [normalize w], P p :=
        List.forall_mem_append.2 ⟨hold, List.forall_mem_singleton.2 hnew⟩
      rw [add_of_not_mem hw hmem]
      constructor
      case distinct =>
        refine List.nodup_append.2 ⟨h.distinct, by simp, fun p hp q hq => ?_⟩
        exact fun heq => hmem (List.mem_singleton.1 hq ▸ heq ▸ hp)
      case nonempty => exact hforall (· ≠ "") h.nonempty (mt normalize_eq_empty_iff.1 hw)
      case dotless =>
        refine hforall ('.' ∉ ·.toList) h.dotless ?_
        rw [toList_normalize]
        exact Text.dot_not_mem_slashed _
      case unpadded =>
        refine hforall (Text.Unpadded ·.toList) h.unpadded ?_
        rw [toList_normalize, Text.slashed_trim]
        exact Text.unpadded_trim _

/-- **A tidy policy stays tidy** whatever is added. -/
theorem Tidy.extend (h : policy.Tidy) (written : List String) : (policy.extend written).Tidy := by
  induction written generalizing policy with
  | nil => exact h
  | cons w rest ih =>
      rw [extend_cons]
      exact ih (h.add w)

theorem tidy_empty : ({} : InclusionPolicy).Tidy := by decide

/-! ## What a policy includes -/

theorem includes_iff : policy.includes name = true ↔
    policy.prefixes = [] ∨ ∃ p ∈ policy.prefixes, p.toList <+: Text.slashed name.toList := by
  simp only [includes, isEmpty, ClassName.startsWith, ClassName.internal, String.toList_ofList,
    Bool.or_eq_true, List.isEmpty_iff, List.any_eq_true, List.isPrefixOf_iff_prefix]

/-- Nothing is kept exactly if all that was written is blank. -/
theorem prefixes_ofList_eq_nil_iff :
    (ofList written).prefixes = [] ↔ ∀ w ∈ written, IsBlank w := by
  simp only [List.eq_nil_iff_forall_not_mem, ofList, mem_prefixes_extend, List.not_mem_nil,
    false_or]
  constructor
  · intro h w hw
    by_contra htext
    exact h (normalize w) ⟨w, hw, htext, rfl⟩
  · rintro h p ⟨w, hw, htext, rfl⟩
    exact htext (h w hw)

/-- **A policy includes a class exactly if what was written admits it.** -/
theorem includes_ofList_iff : (ofList written).includes name = true ↔ Admits written name := by
  rw [includes_iff, prefixes_ofList_eq_nil_iff]
  refine or_congr_right ?_
  simp only [ofList, mem_prefixes_extend, List.not_mem_nil, false_or]
  constructor
  · rintro ⟨p, ⟨w, hw, htext, rfl⟩, hprefix⟩
    rw [toList_normalize] at hprefix
    exact ⟨w, hw, htext, hprefix⟩
  · rintro ⟨w, hw, htext, hbegins⟩
    refine ⟨normalize w, ⟨w, hw, htext, rfl⟩, ?_⟩
    rw [toList_normalize]
    exact hbegins

/-! ## From the file and from the command line -/

/-- What there is to say of the policy of beginnings from two sources. -/
structure Supplied (xs ys : List String) (policy : InclusionPolicy) : Prop where
  /-- It is the policy of a run whose file has the first ones and whose command line the others. -/
  settings : ∀ (file : FileConfig) (arguments : RunArguments) (settings : Settings),
    file.inclusions = xs → arguments.inclusions = ys → arguments.settings file = .ok settings →
      settings.inclusions = policy
  /-- It keeps what would be kept of all of them from one source. -/
  prefixes : policy.prefixes = (ofList (xs ++ ys)).prefixes
  tidy : policy.Tidy
  /-- It includes the classes that are meant by all of them together. -/
  includes_iff : ∀ name, policy.includes name = true ↔ Admits (xs ++ ys) name
  /-- It includes the same classes as one of the same beginnings in another order, repeated, with
  other dots and slashes, or from the other source, however the classes are written. -/
  includes_congr : ∀ xs' ys' name name', SameBeginnings (xs ++ ys) (xs' ++ ys') →
    SameName name name' → ((ofList xs').extend ys').includes name' = policy.includes name

/-- **Inclusions mean what was written, however they were supplied.** -/
theorem extend_supplied (xs ys : List String) : Supplied xs ys ((ofList xs).extend ys) := by
  have happend (xs ys : List String) : (ofList xs).extend ys = ofList (xs ++ ys) :=
    (extend_append {} xs ys).symm
  constructor
  case settings =>
    rintro file arguments settings rfl rfl hsettings
    unfold RunArguments.settings at hsettings
    cases hdir : arguments.buildDirectory <|> file.buildDirectory with
    | none => simp [hdir] at hsettings
    | some directory =>
        simp only [hdir, Except.ok.injEq] at hsettings
        rw [← hsettings]
  case prefixes => rw [happend]
  case tidy => exact (tidy_empty.extend xs).extend ys
  case includes_iff =>
    intro name
    rw [happend, includes_ofList_iff]
  case includes_congr =>
    intro xs' ys' name name' hsame hname
    rw [Bool.eq_iff_iff, happend, happend, includes_ofList_iff, includes_ofList_iff]
    exact (Admits.congr hsame hname).symm

end InclusionPolicy

end FiberWeave
