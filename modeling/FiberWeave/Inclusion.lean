import FiberWeave.ClassName
import FiberWeave.Text.Blank

/-!
# Which classes are included

A build may restrict rewriting to classes whose names begin in one of several ways. The ways may be
written with dots or slashes; without any, every class is included.

* `InclusionPolicy.ofList`, `InclusionPolicy.extend` — policies from what a user wrote.
* `InclusionPolicy.includes` — whether a class is included.
-/

namespace FiberWeave

/-- The beginnings of the names of included classes. -/
structure InclusionPolicy where
  prefixes : List String := []
  deriving DecidableEq, Repr, Inhabited

namespace InclusionPolicy

/-- What a user wrote, trimmed and with slashes for dots. -/
def normalize (written : String) : String :=
  String.ofList (Text.slashed (Text.trim written.toList))

/-- Adds a beginning, unless it is blank or there already. -/
def add (policy : InclusionPolicy) (written : String) : InclusionPolicy :=
  let start := normalize written
  if start.isEmpty || policy.prefixes.contains start then policy
  else ⟨policy.prefixes ++ [start]⟩

/-- Adds beginnings one after the other. -/
def extend (policy : InclusionPolicy) (written : List String) : InclusionPolicy :=
  written.foldl add policy

/-- The policy of a list of beginnings. -/
def ofList (written : List String) : InclusionPolicy := extend {} written

/-- Whether nothing is restricted. -/
def isEmpty (policy : InclusionPolicy) : Bool := policy.prefixes.isEmpty

/-- Whether a class is included: nothing is restricted, or its name begins in one of the ways. -/
def includes (policy : InclusionPolicy) (className : String) : Bool :=
  policy.isEmpty || policy.prefixes.any (ClassName.startsWith (ClassName.internal className))

theorem extend_append (policy : InclusionPolicy) (xs ys : List String) :
    policy.extend (xs ++ ys) = (policy.extend xs).extend ys :=
  List.foldl_append

end InclusionPolicy

end FiberWeave
