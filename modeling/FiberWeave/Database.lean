import FiberWeave.ClassPath
import FiberWeave.Database.Resolver

/-!
# The class database

Classes are recorded one after the other while a build directory is read. When all are there,
what depends on other classes is decided, and the database no longer changes.

* `ClassPath.Loaded` — the classes of a class path that were looked for so far.
* `Database.Builder` — the classes recorded so far.
* `Database.Builder.finish` — the database of the recorded classes; its entries are those that
  `Knowledge.entryOf` gives (`Database.Builder.entries_finish`).
* `Database.get?`, `Database.workList` — lookups by name, and the classes to be rewritten.
* `Database.commonSuperclass` — the nearest class that two classes have in common.
-/

namespace FiberWeave

/-- The supertypes of all classes whose bytes are in a tree. -/
def FileTree.supertypes (t : FileTree) : List String :=
  t.allBytes.flatMap fun bytes =>
    match ClassFacts.analyze bytes with
    | .ok facts => facts.supertypes
    | .error _ => []

/-- Every supertype of a class on a class path is one of the supertypes in the tree. -/
theorem ClassPath.supertypes_subset {cp : ClassPath} {t : FileTree} {name : String}
    {facts : ClassFacts} (h : cp.facts? t name = some facts) {s : String}
    (hs : s ∈ facts.supertypes) : s ∈ t.supertypes := by
  simp only [ClassPath.facts?, bind, Option.bind_eq_some_iff] at h
  obtain ⟨bytes, hb, hf⟩ := h
  refine List.mem_flatMap.2 ⟨bytes, ClassPath.class?_mem hb, ?_⟩
  cases ha : ClassFacts.analyze bytes with
  | error e => simp [ha] at hf
  | ok f =>
      simp only [ha, Option.some.injEq, Attempt.toOption_ok] at hf
      simpa [hf] using hs

/-! ## Looking classes up once -/

/-- The classes of a class path that were looked for so far, with what was found. -/
structure ClassPath.Loaded (cp : ClassPath) (t : FileTree) where
  answers : List (String × Option ClassFacts) := []
  sound : ∀ answer ∈ answers, answer.2 = cp.facts? t answer.1

namespace ClassPath.Loaded

variable {cp : ClassPath} {t : FileTree}

/-- Nothing was looked for yet. -/
def none : Loaded cp t where
  sound := by simp

/-- The facts of a class, which are read only if it was not looked for before. -/
def facts? (name : String) (l : Loaded cp t) : Option ClassFacts × Loaded cp t :=
  match l.answers.find? fun answer => answer.1 == name with
  | some answer => (answer.2, l)
  | .none =>
      let found := cp.facts? t name
      (found, {
        answers := (name, found) :: l.answers
        sound := List.forall_mem_cons.2 ⟨rfl, l.sound⟩ })

theorem facts?_fst (name : String) (l : Loaded cp t) : (l.facts? name).1 = cp.facts? t name := by
  unfold facts?
  cases hfind : l.answers.find? fun answer => answer.1 == name with
  | none => rfl
  | some answer =>
      have hname : answer.1 = name := by simpa using List.find?_some hfind
      rw [← hname]
      exact l.sound answer (List.mem_of_find?_eq_some hfind)

end ClassPath.Loaded

/-- The classes of a build with all that was found out about them. -/
structure Database where
  /-- The number of class files that were seen, readable or not. -/
  scanned : Nat
  /-- In the order in which the classes were recorded. -/
  entries : List ClassEntry
  classPath : ClassPath
  deriving DecidableEq, Repr, Inhabited

namespace Database

/-! ## Recording -/

/-- The classes recorded so far. -/
structure Builder where
  scanned : Nat := 0
  classes : List Recorded := []
  deriving DecidableEq, Repr, Inhabited

namespace Builder

/-- The class recorded under a name. -/
def find? (b : Builder) (name : String) : Option Recorded :=
  b.classes.find? fun r => r.facts.name == name

/-- Counts a class file. -/
def noteScanned (b : Builder) : Builder := { b with scanned := b.scanned + 1 }

/-- Records a class under the name in its facts, or nothing if that name is taken: the first class
of a name is kept. -/
def record? (b : Builder) (file : ClassFileRef) (facts : ClassFacts) : Option Builder :=
  if (b.find? facts.name).isSome then none
  else some { b with classes := b.classes ++ [⟨file, facts⟩] }

/-- The hierarchy of the recorded classes, and of those on a class path behind them. -/
def hierarchy (b : Builder) (cp : ClassPath) (t : FileTree) : Hierarchy where
  facts? name :=
    match b.find? name with
    | some r => some r.facts
    | none => cp.facts? t name
  finite := by
    refine ⟨(b.classes.flatMap fun r => r.facts.supertypes) ++ t.supertypes, ?_⟩
    intro c f hf s hs
    rw [List.mem_append]
    cases hr : b.find? c with
    | some r =>
        simp only [hr, Option.some.injEq] at hf
        exact Or.inl (List.mem_flatMap.2 ⟨r, List.mem_of_find?_eq_some hr, hf ▸ hs⟩)
    | none =>
        simp only [hr] at hf
        exact Or.inr (ClassPath.supertypes_subset hf hs)

theorem facts?_hierarchy (b : Builder) (cp : ClassPath) (t : FileTree) (name : String) :
    (b.hierarchy cp t).facts? name =
      match b.find? name with
      | some r => some r.facts
      | none => cp.facts? t name := rfl

/-- Looks recorded classes up directly, and others on a class path, once each. -/
def lookup (b : Builder) (cp : ClassPath) (t : FileTree) : Lookup (b.hierarchy cp t) where
  Memory := cp.Loaded t
  look name loaded :=
    match b.find? name with
    | some r => (some r.facts, loaded)
    | none => loaded.facts? name
  look_eq name loaded := by
    simp only [hierarchy]
    cases b.find? name with
    | some r => rfl
    | none => exact loaded.facts?_fst name

/-- What decisions about the recorded classes draw on. -/
def knowledge (b : Builder) (cp : ClassPath) (t : FileTree) (lists : MethodLists) : Knowledge where
  hierarchy := b.hierarchy cp t
  lists

/-- What decides about the recorded classes. -/
def resolver (b : Builder) (cp : ClassPath) (t : FileTree) (lists : MethodLists) : Resolver where
  knowledge := b.knowledge cp t lists
  lookup := b.lookup cp t

/-- The database of the recorded classes. Whatever one of them makes to be looked up is kept for
those after it. -/
def finish (b : Builder) (cp : ClassPath) (t : FileTree) (lists : MethodLists) : Database where
  scanned := b.scanned
  entries := ((b.resolver cp t lists).entries b.classes .none).1
  classPath := cp

theorem entries_finish (b : Builder) (cp : ClassPath) (t : FileTree) (lists : MethodLists) :
    (b.finish cp t lists).entries = b.classes.map (b.knowledge cp t lists).entryOf :=
  (b.resolver cp t lists).entries_fst b.classes .none

end Builder

/-! ## Lookups -/

/-- The entry of a class, by its name with dots or slashes. -/
def get? (db : Database) (name : String) : Option ClassEntry :=
  db.entries.find? fun e => e.name == ClassName.internal name

/-- The number of classes. -/
def size (db : Database) : Nat := db.entries.length

/-- Whether no class was recorded. -/
def isEmpty (db : Database) : Bool := db.entries.isEmpty

/-- The classes that are to be rewritten, in the order in which they were recorded. -/
def workList (db : Database) : List WorkItem :=
  (db.entries.filter (·.requiresInstrumentation)).map fun e => ⟨e.name, e.file⟩

/-- The hierarchy of the classes in the database, and of those on its class path behind them. -/
def hierarchy (db : Database) (t : FileTree) : Hierarchy where
  facts? name :=
    match db.entries.find? fun e => e.name == name with
    | some e => some e.outline
    | none => db.classPath.facts? t name
  finite := by
    refine ⟨(db.entries.flatMap fun e => e.outline.supertypes) ++ t.supertypes, ?_⟩
    intro c f hf s hs
    rw [List.mem_append]
    cases he : db.entries.find? (fun e => e.name == c) with
    | some e =>
        simp only [he, Option.some.injEq] at hf
        exact Or.inl (List.mem_flatMap.2 ⟨e, List.mem_of_find?_eq_some he, hf ▸ hs⟩)
    | none =>
        simp only [he] at hf
        exact Or.inr (ClassPath.supertypes_subset hf hs)

/-- The nearest class that two classes have in common. -/
def commonSuperclass (db : Database) (t : FileTree) (a b : String) : String :=
  (db.hierarchy t).commonSuperclass a b

end Database

end FiberWeave
