import FiberWeave.Text.Blank
import FiberWeave.Text.Cut
import FiberWeave.Text.Lines

/-!
# Lists of suspendable methods

Two kinds of resource name methods, one a line, as `package.Class.method`; descriptors do not
count. A method of the first kind is suspendable itself; of the second kind, every method that
overrides it is.

* `MethodLists.parseLine?`, `MethodLists.parse` — the methods that a text names.
* `MethodLists` — what several such texts name together.
-/

namespace FiberWeave

/-- A class and the name of one of its methods. -/
structure ListedMethod where
  className : String
  method : String
  deriving DecidableEq, Repr, Inhabited

/-- The methods named by lists of either kind. -/
structure MethodLists where
  methods : List ListedMethod := []
  supers : List ListedMethod := []
  deriving DecidableEq, Repr, Inhabited

namespace MethodLists

/-- The resource that names suspendable methods. -/
def suspendablesResource : String := "META-INF/suspendables"

/-- The resource that names methods whose overrides are suspendable. -/
def supersResource : String := "META-INF/suspendable-supers"

/-- The method that a line names. Blank lines and comments name none, nor do lines without a dot
between two parts. The class may be written with dots or slashes. -/
def parseLine? (line : List Char) : Option ListedMethod :=
  match Text.trim line with
  | [] => none
  | '#' :: _ => none
  | text =>
      match Text.cutLast? '.' text with
      | some (c :: cs, m :: ms) =>
          some ⟨String.ofList (Text.slashed (c :: cs)), String.ofList (m :: ms)⟩
      | _ => none

/-- The methods that a text names, line by line. -/
def parse (text : List Char) : List ListedMethod := (Text.lines text).filterMap parseLine?

/-- Adds the suspendable methods that a text names. -/
def addSuspendables (lists : MethodLists) (text : List Char) : MethodLists :=
  { lists with methods := lists.methods ++ parse text }

/-- Adds the methods that a text names whose overrides are suspendable. -/
def addSupers (lists : MethodLists) (text : List Char) : MethodLists :=
  { lists with supers := lists.supers ++ parse text }

/-- Whether a method is listed as suspendable. -/
def isSuspendable (lists : MethodLists) (className method : String) : Bool :=
  lists.methods.contains ⟨className, method⟩

/-- Whether the overrides of a method are listed as suspendable. -/
def isSuspendableSuper (lists : MethodLists) (className method : String) : Bool :=
  lists.supers.contains ⟨className, method⟩

/-- Whether no method is listed at all. -/
def isEmpty (lists : MethodLists) : Bool := lists.methods.isEmpty && lists.supers.isEmpty

/-! ## The two kinds do not touch each other -/

@[simp] theorem isSuspendable_addSupers (lists : MethodLists) (text : List Char) (c m : String) :
    (lists.addSupers text).isSuspendable c m = lists.isSuspendable c m := rfl

@[simp] theorem isSuspendableSuper_addSuspendables (lists : MethodLists) (text : List Char)
    (c m : String) :
    (lists.addSuspendables text).isSuspendableSuper c m = lists.isSuspendableSuper c m := rfl

end MethodLists

end FiberWeave
