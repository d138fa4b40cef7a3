import FiberWeave.Config.File
import FiberWeave.Proofs.Inclusion
import FiberWeave.Proofs.JsonTexts

/-!
# Policies that were stored

A policy can be read from a list of texts, and then it keeps the texts as they are: nothing turns dots
into slashes, takes blanks off or leaves repetitions out, all of which a policy does with what is added
to it.  A class is looked for under its name with slashes, so that a beginning with a dot is never
found, while one that is empty is found everywhere.

* `InclusionPolicy.starts` — the beginnings of a policy that a name with slashes can have.
  `includes_iff_starts`: they decide what it includes, and `includes_le_iff` compares two policies by
  them.
* `InclusionPolicy.Step` — the ways to come by a policy.  `ground`: the texts that were last taken as
  they are.  `tidy_extend_iff`: adding makes no policy tidy that was not, and none untidy.
* **`read_kept`** — what a policy that was read includes, when that is what a policy of the same texts
  includes, and when a policy is tidy after any number of steps.
-/

namespace FiberWeave.InclusionPolicy

variable {p q : InclusionPolicy} {name : String}

/-! ## Policies compared -/

/-- The beginnings of a policy that a name with slashes can have.  A policy without any takes all
names, as the empty beginning does. -/
def starts (p : InclusionPolicy) : List (List Char) :=
  if p.prefixes = [] then [[]] else (p.prefixes.map String.toList).filter fun cs => '.' ∉ cs

/-- Each start of the one policy begins with one of the other. -/
def Covers (q p : InclusionPolicy) : Prop := ∀ s ∈ p.starts, ∃ s' ∈ q.starts, s' <+: s

theorem dot_not_mem_of_start {s : List Char} (h : s ∈ p.starts) : '.' ∉ s := by
  rw [starts] at h
  split at h
  · simp_all
  · simpa using (List.mem_filter.1 h).2

/-- A beginning with a dot is none of a name with slashes. -/
theorem dot_not_mem_of_begins {s cs : List Char} (h : s <+: Text.slashed cs) : '.' ∉ s :=
  fun hdot => Text.dot_not_mem_slashed cs (h.subset hdot)

theorem includes_iff_starts :
    p.includes name = true ↔ ∃ s ∈ p.starts, s <+: Text.slashed name.toList := by
  rw [includes_iff, starts]
  by_cases hempty : p.prefixes = []
  · simp [hempty]
  · rw [if_neg hempty]
    constructor
    · rintro (h | ⟨x, hx, hprefix⟩)
      · exact absurd h hempty
      · exact ⟨x.toList, List.mem_filter.2 ⟨List.mem_map_of_mem hx,
          decide_eq_true (dot_not_mem_of_begins hprefix)⟩, hprefix⟩
    · rintro ⟨s, hs, hprefix⟩
      obtain ⟨x, hx, rfl⟩ := List.mem_map.1 (List.mem_filter.1 hs).1
      exact .inr ⟨x, hx, hprefix⟩

/-- A policy includes what another one includes exactly if it covers that one: the starts of the other
one are names themselves. -/
theorem includes_le_iff :
    (∀ name, p.includes name = true → q.includes name = true) ↔ Covers q p := by
  constructor
  · intro h s hs
    have hname : Text.slashed (String.ofList s).toList = s := by
      rw [String.toList_ofList, Text.slashed_of_not_mem (dot_not_mem_of_start hs)]
    have hself : p.includes (String.ofList s) = true :=
      includes_iff_starts.2 ⟨s, hs, hname.symm ▸ List.prefix_rfl⟩
    obtain ⟨s', hs', hprefix⟩ := includes_iff_starts.1 (h _ hself)
    exact ⟨s', hs', by rwa [hname] at hprefix⟩
  · intro h name hincludes
    obtain ⟨s, hs, hprefix⟩ := includes_iff_starts.1 hincludes
    obtain ⟨s', hs', hstart⟩ := h s hs
    exact includes_iff_starts.2 ⟨s', hs', hstart.trans hprefix⟩

/-- **Two policies include the same classes** exactly if each covers the other. -/
theorem includes_eq_iff :
    (∀ name, p.includes name = q.includes name) ↔ Covers q p ∧ Covers p q := by
  rw [← includes_le_iff, ← includes_le_iff]
  constructor
  · exact fun h => ⟨fun name => (h name ▸ id), fun name => (h name ▸ id)⟩
  · exact fun h name => Bool.eq_iff_iff.2 ⟨h.1 name, h.2 name⟩

/-! ## Steps -/

/-- The list that a text says. -/
def listIn (text : List Char) : Except Json.Error (List String) :=
  Json.readAll (Json.readList (Json.readText "a string")) text

/-- A policy is read exactly as the list that the text says. -/
theorem readAll_read (text : List Char) :
    Json.readAll InclusionPolicy.read text = (listIn text).map InclusionPolicy.mk := by
  have hread : InclusionPolicy.read text =
      (Json.readList (Json.readText "a string") text).map fun r => (⟨r.1⟩, r.2) := by
    show (Json.readList _ text >>= fun _ => _) = _
    cases Json.readList (Json.readText "a string") text <;> rfl
  show (InclusionPolicy.read text >>= fun _ => _) =
    (Json.readList (Json.readText "a string") text >>= fun _ => _).map _
  rw [hread]
  cases Json.readList (Json.readText "a string") text with
  | error e => rfl
  | ok r =>
      simp only [Attempt.map_ok, Attempt.ok_bind]
      split <;> rfl

/-- The ways to come by a policy. -/
inductive Step where
  | default
  | new (written : List String)
  | extend (written : List String)
  | read (text : List Char)

/-- The policy after a step.  A text that says no list gives no policy. -/
def Step.apply (policy : InclusionPolicy) : Step → InclusionPolicy
  | default => {}
  | new written => ofList written
  | extend written => policy.extend written
  | read text => (Json.readAll InclusionPolicy.read text).toOption.getD policy

/-- The policy after steps from nothing. -/
def built (steps : List Step) : InclusionPolicy := steps.foldl Step.apply {}

/-- The texts that a policy after a step has taken as they are. -/
def Step.ground (taken : List String) : Step → List String
  | default | new _ => []
  | extend _ => taken
  | read text => (listIn text).toOption.getD taken

/-- The list that was last read, or none if a policy was begun anew behind it. -/
def ground (steps : List Step) : List String := steps.foldl Step.ground []

/-- Beginnings stay where they are when others are added. -/
theorem prefix_extend (p : InclusionPolicy) (written : List String) :
    p.prefixes <+: (p.extend written).prefixes := by
  induction written generalizing p with
  | nil => exact List.prefix_rfl
  | cons w rest ih =>
      rw [extend_cons]
      refine List.IsPrefix.trans ?_ (ih (p.add w))
      unfold add
      dsimp only
      split
      · exact List.prefix_rfl
      · exact List.prefix_append _ _

theorem Tidy.sublist (h : q.Tidy) (hsub : p.prefixes.Sublist q.prefixes) : p.Tidy where
  distinct := hsub.nodup h.distinct
  nonempty x hx := h.nonempty x (hsub.subset hx)
  dotless x hx := h.dotless x (hsub.subset hx)
  unpadded x hx := h.unpadded x (hsub.subset hx)

/-- Adding makes no policy tidy that was not, and none untidy. -/
theorem tidy_extend_iff (written : List String) : (p.extend written).Tidy ↔ p.Tidy :=
  ⟨fun h => h.sublist (prefix_extend p written).sublist, fun h => h.extend written⟩

theorem tidy_apply_iff {taken : List String} (h : p.Tidy ↔ Tidy ⟨taken⟩) (step : Step) :
    (step.apply p).Tidy ↔ Tidy ⟨step.ground taken⟩ := by
  cases step with
  | default => exact Iff.rfl
  | new written => exact tidy_extend_iff written
  | extend written => exact (tidy_extend_iff written).trans h
  | read text =>
      rw [Step.apply, Step.ground, readAll_read]
      cases listIn text with
      | ok xs => exact Iff.rfl
      | error e => exact h

theorem tidy_built_iff (steps : List Step) : (built steps).Tidy ↔ Tidy ⟨ground steps⟩ := by
  have hfold (p : InclusionPolicy) (taken : List String) (h : p.Tidy ↔ Tidy ⟨taken⟩) :
      (steps.foldl Step.apply p).Tidy ↔ Tidy ⟨steps.foldl Step.ground taken⟩ := by
    induction steps generalizing p taken with
    | nil => exact h
    | cons step rest ih => exact ih _ _ (tidy_apply_iff h step)
  exact hfold {} [] Iff.rfl

/-! ## What was read -/

/-- A beginning that is in the form of a policy keeps it. -/
theorem Tidy.normalize_eq (h : p.Tidy) {x : String} (hx : x ∈ p.prefixes) : normalize x = x := by
  rw [← String.toList_inj, toList_normalize, Text.slashed_trim,
    Text.slashed_of_not_mem (h.dotless x hx)]
  exact Text.trim_eq_iff.2 ⟨h.unpadded x hx, [], [], rfl, rfl, by simp⟩

theorem Tidy.extend_eq {xs ys : List String} (h : Tidy ⟨ys ++ xs⟩) :
    InclusionPolicy.extend ⟨ys⟩ xs = ⟨ys ++ xs⟩ := by
  induction xs generalizing ys with
  | nil => rw [List.append_nil]; rfl
  | cons x xs ih =>
      have hx : x ∈ ys ++ x :: xs := List.mem_append_right _ List.mem_cons_self
      have hnormal : normalize x = x := h.normalize_eq hx
      have htext : ¬IsBlank x := by
        rw [← normalize_eq_empty_iff, hnormal]
        exact h.nonempty x hx
      have hnew : normalize x ∉ ys := by
        rw [hnormal]
        exact fun hold => (List.nodup_append.1 h.distinct).2.2 x hold x List.mem_cons_self rfl
      have hadd : InclusionPolicy.add ⟨ys⟩ x = ⟨ys ++ [x]⟩ := by
        rw [add_of_not_mem htext hnew, hnormal]
      have hsplit : ys ++ x :: xs = ys ++ [x] ++ xs := by simp
      rw [hsplit] at h ⊢
      rw [extend_cons, hadd, ih h]

/-- A tidy policy is the policy of its own beginnings. -/
theorem ofList_of_tidy (h : p.Tidy) : ofList p.prefixes = p :=
  @Tidy.extend_eq p.prefixes [] h

/-- What there is to say of a policy that was read from a list. -/
structure Kept (xs : List String) (policy : InclusionPolicy) : Prop where
  /-- It is what every text gives that says the list. -/
  read : ∀ text, listIn text = .ok xs → Json.readAll InclusionPolicy.read text = .ok policy
  /-- It is what the text gives that is written for the list. -/
  written : Json.readAll InclusionPolicy.read (Json.Value.texts xs).compact.toList = .ok policy
  /-- It looks for the texts as they are in names with slashes. -/
  includes_iff : ∀ name, policy.includes name = true ↔
    xs = [] ∨ ∃ x ∈ xs, x.toList <+: Text.slashed name.toList
  /-- It includes what the policy of these texts includes exactly if the two cover each other. -/
  same_iff : (∀ name, policy.includes name = (ofList xs).includes name) ↔
    Covers (ofList xs) policy ∧ Covers policy (ofList xs)
  /-- It is the policy of these texts exactly if it is tidy. -/
  eq_iff : policy = ofList xs ↔ policy.Tidy

/-- **A policy that is read keeps the texts as they are**, and a policy is tidy exactly if the texts are
that were last taken so. -/
theorem read_kept (xs : List String) (steps : List Step) :
    Kept xs ⟨xs⟩ ∧ ((built steps).Tidy ↔ Tidy ⟨ground steps⟩) := by
  refine ⟨?_, tidy_built_iff steps⟩
  constructor
  case read =>
    intro text hlist
    rw [readAll_read, hlist, Attempt.map_ok]
  case written => rw [readAll_read, listIn, Json.readAll_texts, Attempt.map_ok]
  case includes_iff => exact fun name => InclusionPolicy.includes_iff
  case same_iff => exact includes_eq_iff
  case eq_iff =>
    exact ⟨fun h => h ▸ tidy_empty.extend xs, fun h => (ofList_of_tidy h).symm⟩

/-- A beginning with dots is found by a policy that was given it, and not by one that read it. -/
example : (ofList ["com.example"]).includes "com/example/A" = true ∧
    InclusionPolicy.includes ⟨["com.example"]⟩ "com/example/A" = false := by decide

end FiberWeave.InclusionPolicy
