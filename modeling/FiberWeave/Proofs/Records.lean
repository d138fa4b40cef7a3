import FiberWeave.Database
import Mathlib.Data.List.Nodup

/-!
# Classes under their names

A builder records each name once, so a name finds the one class that was recorded under it.

* `find?_key_of_mem` — in a list without repeated keys, the key of an element finds the element.
* `Database.Builder.nodup_names_record` — recording keeps names distinct.
* `Database.Builder.find?_record` — recording changes nothing but what a free name finds.
* `Database.Builder.recordAll` — a sequence of records.
-/

namespace FiberWeave

/-- In a list without repeated keys, the key of an element finds the element. -/
theorem find?_key_of_mem {α : Type} {key : α → String} {xs : List α} (h : (xs.map key).Nodup)
    {x : α} (hx : x ∈ xs) : (xs.find? fun y => key y == key x) = some x := by
  induction xs with
  | nil => simp at hx
  | cons y rest ih =>
      rw [List.map_cons, List.nodup_cons] at h
      rcases List.mem_cons.1 hx with rfl | hx
      · simp
      · have hne : key y ≠ key x := fun heq => h.1 (heq ▸ List.mem_map_of_mem hx)
        rw [List.find?_cons_of_neg (by simpa using hne)]
        exact ih h.2 hx

namespace Database.Builder

/-- The names that are taken. -/
def names (b : Builder) : List String := b.classes.map (·.facts.name)

/-- Records a class if its name is free. -/
def record (b : Builder) (r : Recorded) : Builder := (b.record? r.file r.facts).getD b

theorem isSome_find?_iff (b : Builder) (name : String) :
    (b.find? name).isSome = true ↔ name ∈ b.names := by
  simp [find?, names]

theorem record?_eq_none_iff (b : Builder) (file : ClassFileRef) (facts : ClassFacts) :
    b.record? file facts = none ↔ facts.name ∈ b.names := by
  rw [← isSome_find?_iff]
  unfold record?
  split
  · rename_i h
    simp [h]
  · rename_i h
    simp [h]

theorem record?_eq_some_iff {b b' : Builder} {file : ClassFileRef} {facts : ClassFacts} :
    b.record? file facts = some b' ↔
      facts.name ∉ b.names ∧ b' = { b with classes := b.classes ++ [⟨file, facts⟩] } := by
  rw [← isSome_find?_iff]
  unfold record?
  split
  · rename_i h
    simp [h]
  · rename_i h
    simp [h, eq_comm]

theorem record_of_mem {b : Builder} {r : Recorded} (h : r.facts.name ∈ b.names) :
    b.record r = b := by
  rw [record, (b.record?_eq_none_iff r.file r.facts).2 h, Option.getD_none]

theorem record_of_not_mem {b : Builder} {r : Recorded} (h : r.facts.name ∉ b.names) :
    b.record r = { b with classes := b.classes ++ [r] } := by
  rw [record, record?_eq_some_iff.2 ⟨h, rfl⟩, Option.getD_some]

theorem scanned_record (b : Builder) (r : Recorded) : (b.record r).scanned = b.scanned := by
  by_cases hr : r.facts.name ∈ b.names
  · rw [record_of_mem hr]
  · rw [record_of_not_mem hr]

theorem classes_record_congr {b b' : Builder} (h : b.classes = b'.classes) (r : Recorded) :
    (b.record r).classes = (b'.record r).classes := by
  have hnames : b.names = b'.names := by simp only [names, h]
  by_cases hr : r.facts.name ∈ b.names
  · rw [record_of_mem hr, record_of_mem (hnames ▸ hr), h]
  · rw [record_of_not_mem hr, record_of_not_mem (hnames ▸ hr), h]

/-- Recording keeps names distinct. -/
theorem nodup_names_record {b : Builder} (h : b.names.Nodup) (r : Recorded) :
    (b.record r).names.Nodup := by
  by_cases hr : r.facts.name ∈ b.names
  · rwa [record_of_mem hr]
  · rw [record_of_not_mem hr, names, List.map_append]
    exact List.nodup_append'.2 ⟨h, by simp, by simpa [names] using hr⟩

/-- Recording changes nothing but what a free name finds. -/
theorem find?_record (b : Builder) (r : Recorded) (name : String) :
    (b.record r).find? name =
      (b.find? name).or (if r.facts.name == name then some r else none) := by
  by_cases hr : r.facts.name ∈ b.names
  · rw [record_of_mem hr]
    by_cases hn : r.facts.name = name
    · obtain ⟨found, hfound⟩ := Option.isSome_iff_exists.1 ((b.isSome_find?_iff name).2 (hn ▸ hr))
      simp [hfound]
    · simp [hn]
  · rw [record_of_not_mem hr]
    simp only [find?, List.find?_append, List.find?_singleton]

/-! ## Sequences -/

/-- Records classes one after the other. -/
def recordAll (b : Builder) (calls : List Recorded) : Builder := calls.foldl record b

theorem recordAll_append (b : Builder) (calls later : List Recorded) :
    b.recordAll (calls ++ later) = (b.recordAll calls).recordAll later :=
  List.foldl_append

theorem scanned_recordAll (b : Builder) (calls : List Recorded) :
    (b.recordAll calls).scanned = b.scanned := by
  induction calls generalizing b with
  | nil => rfl
  | cons r rest ih => exact (ih (b.record r)).trans (b.scanned_record r)

theorem classes_recordAll_congr {b b' : Builder} (h : b.classes = b'.classes)
    (calls : List Recorded) : (b.recordAll calls).classes = (b'.recordAll calls).classes := by
  induction calls generalizing b b' with
  | nil => exact h
  | cons r rest ih => exact ih (classes_record_congr h r)

theorem nodup_names_recordAll {b : Builder} (h : b.names.Nodup) (calls : List Recorded) :
    (b.recordAll calls).names.Nodup := by
  induction calls generalizing b with
  | nil => exact h
  | cons r rest ih => exact ih (nodup_names_record h r)

/-- After a sequence of records a name finds what it found before, or else the first class of that
name in the sequence. -/
theorem find?_recordAll (b : Builder) (calls : List Recorded) (name : String) :
    (b.recordAll calls).find? name =
      (b.find? name).or (calls.find? fun r => r.facts.name == name) := by
  induction calls generalizing b with
  | nil => simp [recordAll]
  | cons r rest ih =>
      calc ((b.record r).recordAll rest).find? name
          = ((b.find? name).or (if r.facts.name == name then some r else none)).or
              (rest.find? fun r => r.facts.name == name) := by rw [ih, find?_record]
        _ = (b.find? name).or ((r :: rest).find? fun r => r.facts.name == name) := by
              rw [Option.or_assoc, List.find?_cons]
              cases r.facts.name == name <;> rfl

/-- The recorded classes are the first ones of their names. -/
theorem mem_classes_recordAll (calls : List Recorded) (r : Recorded) :
    r ∈ (recordAll {} calls).classes ↔
      (calls.find? fun c => c.facts.name == r.facts.name) = some r := by
  have hfind := find?_recordAll {} calls r.facts.name
  rw [show ({} : Builder).find? r.facts.name = none from rfl, Option.none_or] at hfind
  rw [← hfind]
  constructor
  · exact find?_key_of_mem (nodup_names_recordAll (b := {}) List.nodup_nil calls)
  · exact List.mem_of_find?_eq_some

end Database.Builder

end FiberWeave
