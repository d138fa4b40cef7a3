import FiberWeave.Regex.CharSet

/-!
# Patterns

A pattern says which stretches of a text fit. Whether one occurs in a text is found out without
search: from a set of places in the text a pattern leads to the set of places where a stretch that
fits ends, if it begins at one of the first. A sequence of patterns is then one step after the
other, and a choice is a union.

* `Regex` — patterns.
* `Regex.ends` — the places that a pattern leads to. `ends_seq`, `ends_alt` and `ends_empty` say how.
* `Regex.occursIn` — whether a stretch of a text fits.
* `Regex.weight` — how large the automaton of a pattern is.
-/

namespace FiberWeave

namespace Regex

/-- A condition on a place in a text. Lines end with a line feed; those of `crlfStart` and `crlfEnd`
also with a carriage return, or with both. Words are made of ASCII letters, digits and
underscores. -/
inductive Look where
  | textStart
  | textEnd
  | lineStart
  | lineEnd
  | crlfStart
  | crlfEnd
  | wordEdge
  | noWordEdge
  | wordStart
  | wordEnd
  | wordStartHalf
  | wordEndHalf
  /-- An edge of a word in any script. There is no table of the letters of all scripts, so that
  nothing can be said about it. -/
  | anyScript
  deriving DecidableEq, Repr, Inhabited

end Regex

/-- A pattern. -/
inductive Regex where
  | empty
  /-- One character out of a set. -/
  | one (set : Regex.CharSet)
  | look (condition : Regex.Look)
  | seq (first second : Regex)
  | alt (left right : Regex)
  /-- As often as `least` times, and `most` times if there is a limit. -/
  | times (body : Regex) (least : Nat) (most : Option Nat)
  deriving DecidableEq, Repr, Inhabited

namespace Regex

/-- One pattern after the other. -/
def ofList : List Regex → Regex
  | [] => empty
  | [r] => r
  | r :: rest => seq r (ofList rest)

/-- Any of several patterns. -/
def anyOf : List Regex → Regex
  | [] => one []
  | [r] => r
  | r :: rest => alt r (anyOf rest)

/-- A pattern repeated; no repetition at all is the empty pattern. -/
def repeated (body : Regex) (least : Nat) (most : Option Nat) : Regex :=
  if most = some 0 then empty else times body least most

/-! ## Places -/

/-- Whether the character before or at a place is one of a word; outside the text there is none. -/
def isWordAt (text : Array Char) (place : Nat) : Bool :=
  (text[place]?.map fun c => CharSet.word.contains c.toNat).getD false

/-- Whether a condition holds at a place in a text. -/
def Look.holds (text : Array Char) (place : Nat) (l : Look) : Bool :=
  let before := if place = 0 then none else text[place - 1]?
  let after := text[place]?
  let wordBefore := (before.map fun c => CharSet.word.contains c.toNat).getD false
  let wordAfter := isWordAt text place
  match l with
  | textStart => place == 0
  | textEnd => after == none
  | lineStart => place == 0 || before == some '\n'
  | lineEnd => after == none || after == some '\n'
  | crlfStart => place == 0 || before == some '\n' || before == some '\r' && after != some '\n'
  | crlfEnd => after == none || after == some '\r' || after == some '\n' && before != some '\r'
  | wordEdge => wordBefore != wordAfter
  | noWordEdge => wordBefore == wordAfter
  | wordStart => !wordBefore && wordAfter
  | wordEnd => wordBefore && !wordAfter
  | wordStartHalf => !wordBefore
  | wordEndHalf => !wordAfter
  | anyScript => false

/-- The places of two ascending lists in one. -/
def together : (places others : List Nat) → List Nat
  | [], others => others
  | places, [] => places
  | p :: places, q :: others =>
      if p < q then p :: together places (q :: others)
      else if q < p then q :: together (p :: places) others
      else p :: together places others
termination_by places others => places.length + others.length

/-- The places behind the characters of a set. -/
def behind (text : Array Char) (set : CharSet) (places : List Nat) : List Nat :=
  places.filterMap fun p =>
    match text[p]? with
    | some c => if set.contains c.toNat then some (p + 1) else none
    | none => none

/-- A step repeated a number of times. -/
def iterate (step : List Nat → List Nat) : Nat → List Nat → List Nat
  | 0, places => places
  | n + 1, places => iterate step n (step places)

/-- All places that are reached by up to a number of steps. -/
def reach (step : List Nat → List Nat) : Nat → List Nat → List Nat
  | 0, places => places
  | n + 1, places =>
      let more := together places (step places)
      if more.length = places.length then places else reach step n more

/-- The places where a stretch ends that fits and begins at one of the given places. No more steps
of a repetition matter than there are places in the text: of more, one leads nowhere. -/
def ends (text : Array Char) : Regex → List Nat → List Nat
  | empty, places => places
  | one set, places => behind text set places
  | look l, places => places.filter fun p => l.holds text p
  | seq first second, places => ends text second (ends text first places)
  | alt left right, places => together (ends text left places) (ends text right places)
  | times body least most, places =>
      let limit := text.size + 1
      let first := iterate (ends text body) (min least limit) places
      let more := match most with
        | some n => min (n - least) limit
        | none => limit
      reach (ends text body) more first

/-- Whether some stretch of a text fits. -/
def occursIn (r : Regex) (text : List Char) : Bool :=
  !(r.ends text.toArray (List.range (text.length + 1))).isEmpty

/-! ## Laws -/

theorem ends_empty (text : Array Char) (places : List Nat) : empty.ends text places = places := rfl

theorem ends_seq (text : Array Char) (first second : Regex) (places : List Nat) :
    (seq first second).ends text places = second.ends text (first.ends text places) := rfl

theorem mem_together {p : Nat} (places others : List Nat) :
    p ∈ together places others ↔ p ∈ places ∨ p ∈ others := by
  fun_induction together places others with
  | case1 => simp
  | case2 => simp
  | case3 q places r others h ih => simp [ih, or_assoc]
  | case4 q places r others h h' ih =>
      simp only [List.mem_cons, ih]
      constructor
      · rintro (h | (h | h) | h) <;> simp [h]
      · rintro ((h | h) | (h | h)) <;> simp [h]
  | case5 q places r others h h' ih =>
      have : q = r := by omega
      subst this
      simp only [List.mem_cons, ih]
      constructor
      · rintro (h | h | h) <;> simp [h]
      · rintro ((h | h) | (h | h)) <;> simp [h]

theorem mem_ends_alt (text : Array Char) (left right : Regex) (places : List Nat) (p : Nat) :
    p ∈ (alt left right).ends text places
      ↔ p ∈ left.ends text places ∨ p ∈ right.ends text places := by
  simp [ends, mem_together]

/-! ## Size -/

/-- The octets of a state of an automaton. -/
def stateWeight : Nat := 32

/-- The octets of the states for one character out of a set. A single character is as many states
as it has octets. Beyond ASCII, the octets that may follow each other take ten states more. -/
def setWeight : CharSet → Nat
  | [] => stateWeight
  | [(a, b)] =>
      if a = b then stateWeight * (Char.ofNat a).utf8Size
      else if b < 0x80 then stateWeight
      else 11 * stateWeight + 80
  | set => if CharSet.isAscii set then 2 * stateWeight + 8 * set.length else 11 * stateWeight + 80

/-- The octets of the automaton of a pattern, nearly. -/
def weight : Regex → Nat
  | empty => stateWeight
  | one set => setWeight set
  | look _ => stateWeight
  | seq first second => weight first + weight second
  | alt left right => weight left + weight right + stateWeight
  | times body least most =>
      match most with
      | some n => least * weight body + (n - least) * (weight body + stateWeight + 8)
      | none => (max least 1) * weight body + stateWeight + 8

/-- Whether a condition occurs in a pattern that nothing can be said about. -/
def needsScripts : Regex → Bool
  | look .anyScript => true
  | seq first second => needsScripts first || needsScripts second
  | alt left right => needsScripts left || needsScripts right
  | times body _ _ => needsScripts body
  | _ => false

end Regex

end FiberWeave
