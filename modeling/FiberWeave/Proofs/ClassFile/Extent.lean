import FiberWeave.Proofs.ClassFile.RoundTrip

/-!
# Where a class file ends

A parser that gives a result has gone over some of its octets.  It gives the same result wherever
they stand and whatever follows them (`Reads`), and if they are cut anywhere, it comes as far as the
cut and says that they end there (`RunsOut`): what it decides on its way depends on the octets
before it only, and these are the same.

* `Exact` — a parser all of whose results are of this kind.
* `Exact.bind`, `Exact.times`, `exact_within` — parsers put together from such ones.
* `exact_constant`, `exact_slots`, `exact_pool`, `exact_attribute`, `exact_method`, `exact_read` —
  the parts of a class file.
* **`parse_extent`** — a byte string that is a class file is none any more, and is reported for what
  it is, if octets are added to it or taken from its end.
-/

namespace FiberWeave.ClassFile

open FiberWeave.ClassFile.Parser

namespace Parser

/-- A parser that finds these octets cut off says that they end, at an offset within them. -/
def RunsOut {α : Type} (p : Parser α) (bytes : Bytes) : Prop :=
  ∀ cut, cut <+: bytes → cut ≠ bytes → ∀ offset,
    ∃ k ≤ offset + cut.length, p ⟨cut, offset⟩ = .error (.truncated k)

/-- Whatever a parser gives, it has read some octets for it and needs them all. -/
def Exact {α : Type} (p : Parser α) : Prop :=
  ∀ ⦃c d : Cursor⦄ ⦃a : α⦄, p c = .ok (a, d) →
    ∃ bytes, c.rest = bytes ++ d.rest ∧ Reads p bytes a ∧ RunsOut p bytes

variable {α β : Type} {p : Parser α} {f : α → Parser β} {bytes more : Bytes} {a : α}

/-! ## Parsers put together -/

theorem runsOut_nil (p : Parser α) : RunsOut p [] := fun _ hcut hne =>
  absurd (List.prefix_nil.1 hcut) hne

theorem bind_eq_ok {c e : Cursor} {b : β} (h : (p >>= f) c = .ok (b, e)) :
    ∃ a d, p c = .ok (a, d) ∧ f a d = .ok (b, e) := by
  cases hp : p c with
  | error _ => cases (bind_of_error hp f).symm.trans h
  | ok r => exact ⟨r.1, r.2, rfl, (bind_of_ok hp f).symm.trans h⟩

/-- A cut is in what the first of two parsers reads, or in what the second one does. -/
theorem RunsOut.bind (hp : RunsOut p bytes) (hread : Reads p bytes a) (hf : RunsOut (f a) more) :
    RunsOut (p >>= f) (bytes ++ more) := by
  intro cut hcut hne offset
  by_cases hfirst : bytes <+: cut
  · obtain ⟨later, rfl⟩ := hfirst
    have hlater : later <+: more := (List.prefix_append_right_inj bytes).1 hcut
    obtain ⟨k, hk, hfail⟩ := hf later hlater (fun h => hne (h ▸ rfl)) (offset + bytes.length)
    refine ⟨k, by rw [List.length_append]; omega, ?_⟩
    exact (bind_of_ok (hread later offset) f).trans hfail
  · have hshort : cut <+: bytes :=
      (List.prefix_or_prefix_of_prefix hcut (List.prefix_append bytes more)).resolve_right hfirst
    obtain ⟨k, hk, hfail⟩ := hp cut hshort (fun h => hfirst (h ▸ List.prefix_rfl)) offset
    exact ⟨k, hk, bind_of_error hfail f⟩

theorem exact_pure (a : α) : Exact (pure a : Parser α) := by
  intro c d b h
  obtain ⟨rfl, rfl⟩ := Prod.mk.inj (Except.ok.inj h)
  exact ⟨[], rfl, reads_pure _, runsOut_nil _⟩

theorem exact_throw (e : Error) : Exact (throw e : Parser α) := fun _ _ _ h => nomatch h

theorem exact_throw_bind (e : Error) (f : α → Parser β) : Exact (throw e >>= f) :=
  fun _ _ _ h => nomatch h

theorem Exact.bind (hp : Exact p) (hf : ∀ a, Exact (f a)) : Exact (p >>= f) := by
  intro c e b h
  obtain ⟨a, d, hfirst, hnext⟩ := bind_eq_ok h
  obtain ⟨bytes, hc, hread, hout⟩ := hp hfirst
  obtain ⟨more, hd, hreadMore, houtMore⟩ := hf a hnext
  exact ⟨bytes ++ more, by rw [hc, hd, List.append_assoc], hread.bind hreadMore,
    hout.bind hread houtMore⟩

theorem Exact.bind_pure (hp : Exact p) (g : α → β) : Exact (do return g (← p)) :=
  hp.bind fun _ => exact_pure _

/-- A lookup reads nothing. -/
theorem exact_lift (attempt : Except Error α) : Exact (liftM attempt : Parser α) := by
  intro c d a h
  cases attempt with
  | error e => cases h
  | ok b =>
      obtain ⟨rfl, rfl⟩ := Prod.mk.inj (Except.ok.inj h)
      exact ⟨[], rfl, reads_lift rfl, runsOut_nil _⟩

theorem Exact.ite {q : Parser α} {P : Prop} [Decidable P] (hp : Exact p) (hq : Exact q) :
    Exact (if P then p else q) := by
  split
  · exact hp
  · exact hq

theorem Exact.times (hp : Exact p) (n : Nat) : Exact (times p n) := by
  induction n with
  | zero => exact exact_pure []
  | succ n ih => exact hp.bind fun _ => ih.bind fun _ => exact_pure _

/-- What is done on octets of its own does not read any of the cursor's. -/
theorem exact_within (body : Bytes) (p : Parser α) : Exact (within body p) := by
  intro c d a h
  unfold within at h
  split at h
  · rename_i b rest hbody
    obtain ⟨rfl, rfl⟩ := Prod.mk.inj (Except.ok.inj h)
    refine ⟨[], rfl, fun _ _ => ?_, runsOut_nil _⟩
    simp [within, hbody]
  · cases h

/-! ## Octets and numbers -/

theorem exact_take (n : Nat) : Exact (take n) := by
  intro c d bytes h
  obtain ⟨hn, rfl, rfl⟩ := (take_ok_iff ..).1 h
  have hlength : (c.rest.take n).length = n := List.length_take_of_le hn
  refine ⟨c.rest.take n, (List.take_append_drop n c.rest).symm, reads_take hlength, ?_⟩
  intro cut hcut hne offset
  have hshort : cut.length < n := by
    have hle := hcut.length_le
    have hneq : cut.length ≠ (c.rest.take n).length := fun h => hne (hcut.eq_of_length h)
    omega
  exact ⟨offset, Nat.le_add_right .., (take_error_iff ..).2 ⟨hshort, rfl⟩⟩

theorem exact_skip (n : Nat) : Exact (skip n) := (exact_take n).bind fun _ => exact_pure ()

theorem exact_u1 : Exact u1 := (exact_take 1).bind fun _ => exact_pure _

theorem exact_u2 : Exact u2 := (exact_take 2).bind fun _ => exact_pure _

theorem exact_u4 : Exact u4 := (exact_take 4).bind fun _ => exact_pure _

/-- As many parts as a count says. -/
theorem Exact.counted (hp : Exact p) {f : List α → Parser β} (hf : ∀ values, Exact (f values)) :
    Exact (do f (← Parser.times p (← u2))) :=
  exact_u2.bind fun n => (hp.times n).bind hf

end Parser

/-! ## The constant pool -/

theorem exact_skipped {α : Type} (n : Nat) (a : α) : Exact (do skip n; return a) :=
  (exact_skip n).bind fun _ => exact_pure a

theorem exact_twoIndices {α : Type} (g : Nat → Nat → α) : Exact (do return g (← u2) (← u2)) :=
  exact_u2.bind fun _ => exact_u2.bind_pure _

theorem exact_payload : Exact (do
    let length ← u2
    let body ← take length
    match ModifiedUtf8.decode? body with
    | some text => return Constant.utf8 text
    | none => return .undecodable) := by
  refine exact_u2.bind fun length => (exact_take length).bind fun body => ?_
  cases ModifiedUtf8.decode? body with
  | none => exact exact_pure _
  | some text => exact exact_pure _

theorem exact_constant (i : Nat) : Exact (Constant.read i) := by
  unfold Constant.read
  refine exact_u1.bind fun tag => ?_
  split
  · exact exact_payload
  · exact exact_skipped 4 _
  · exact exact_skipped 4 _
  · exact exact_skipped 4 _
  · exact exact_skipped 4 _
  · exact exact_skipped 4 _
  · exact exact_skipped 8 _
  · exact exact_skipped 8 _
  · exact exact_u2.bind_pure _
  · exact exact_skipped 2 _
  · exact exact_skipped 2 _
  · exact exact_skipped 2 _
  · exact exact_skipped 2 _
  · exact exact_twoIndices _
  · exact exact_twoIndices _
  · exact exact_twoIndices _
  · exact exact_skipped 3 _
  · exact exact_throw _

theorem exact_slots (count slots : Nat) : Exact (Pool.readSlots count slots) := by
  induction slots using Nat.strongRecOn with
  | ind slots ih =>
      match slots with
      | 0 => exact exact_pure []
      | 1 => exact (exact_constant _).bind_pure _
      | slots + 2 =>
          rw [Pool.readSlots]
          refine (exact_constant _).bind fun constant => ?_
          split
          · exact (ih slots (by omega)).bind_pure _
          · exact (ih (slots + 1) (by omega)).bind_pure _

theorem exact_pool : Exact Pool.read :=
  exact_u2.bind fun _ => (exact_slots ..).bind fun _ => exact_pure _

/-! ## Attributes, methods and the class -/

section Parts

variable (pool : Pool)

theorem exact_className : Exact (do pool.className (← u2)) := exact_u2.bind fun _ => exact_lift _

theorem exact_skipAttributes : Exact skipAttributes :=
  Exact.counted ((exact_skip 2).bind fun _ => exact_u4.bind exact_skip) fun _ => exact_pure ()

theorem exact_attribute : Exact (readAttribute pool) :=
  exact_u2.bind fun _ => (exact_lift _).bind fun _ => exact_u4.bind fun length =>
    (exact_take length).bind fun _ => exact_pure _

/-- Whatever an attribute is, it is judged by octets that have been taken already. -/
theorem exact_addAttribute (m : Method) (name : String) (body : Bytes) :
    Exact (addAttribute pool m name body) := by
  unfold addAttribute
  refine .ite ((exact_within ..).bind fun _ => exact_pure _) ?_
  refine .ite ((exact_within ..).bind fun _ => exact_pure _) ?_
  exact .ite ((exact_within ..).bind fun _ => exact_pure _) (exact_pure m)

theorem exact_addAttributes (m : Method) (count : Nat) : Exact (addAttributes pool m count) := by
  induction count generalizing m with
  | zero => exact exact_pure m
  | succ count ih =>
      exact (exact_attribute pool).bind fun _ => (exact_addAttribute ..).bind fun m => ih m

theorem exact_method : Exact (readMethod pool) :=
  exact_u2.bind fun _ => exact_u2.bind fun _ => (exact_lift _).bind fun _ =>
    exact_u2.bind fun _ => (exact_lift _).bind fun _ => exact_u2.bind fun _ =>
      exact_addAttributes ..

theorem exact_classAnnotations (count : Nat) : Exact (readClassAnnotations pool count) := by
  induction count with
  | zero => exact exact_pure []
  | succ count ih =>
      rw [readClassAnnotations]
      refine (exact_attribute pool).bind fun named => ?_
      exact .ite ((exact_within ..).bind fun _ => ih.bind_pure _)
        ((exact_pure []).bind fun _ => ih.bind_pure _)

/-- The interfaces, fields, methods and attributes of a class, which come last in it. -/
theorem exact_members {β : Type} (f : List String → List Method → List String → β) : Exact (do
    let interfaceCount ← u2
    let interfaces ← times (do pool.className (← u2)) interfaceCount
    let fieldCount ← u2
    let _ ← times (do skip 6; skipAttributes) fieldCount
    let methodCount ← u2
    let methods ← times (readMethod pool) methodCount
    let attributeCount ← u2
    let annotations ← readClassAnnotations pool attributeCount
    return f interfaces methods annotations) := by
  refine (exact_className pool).counted fun interfaces => ?_
  refine ((exact_skip 6).bind fun _ => exact_skipAttributes).counted fun _ => ?_
  refine (exact_method pool).counted fun methods => ?_
  exact exact_u2.bind fun count => (exact_classAnnotations pool count).bind_pure _

end Parts

theorem exact_read : Exact read := by
  unfold read
  refine exact_u4.bind fun magic => .ite (exact_throw_bind ..) ?_
  refine exact_u2.bind fun minorVersion => exact_u2.bind fun majorVersion => ?_
  refine exact_pool.bind fun pool => exact_u2.bind fun access => ?_
  refine exact_u2.bind fun thisIndex => (exact_lift (pool.className thisIndex)).bind fun name => ?_
  refine exact_u2.bind fun superIndex => ?_
  -- Index zero stands for no supertype; what comes after it is the same.
  refine .ite ((exact_pure none).bind fun superName => exact_members ..) ?_
  exact ((exact_lift (pool.className superIndex)).bind_pure some).bind fun superName =>
    exact_members ..

/-! ## Whole files -/

theorem parse_of_error {bytes : Bytes} {e : Error} (h : read ⟨bytes, 0⟩ = .error e) :
    parse bytes = .error e := by
  unfold parse
  rw [StateT.run_bind, StateT.run, h]
  rfl

theorem parse_of_read {bytes : Bytes} {c : ClassFile} {d : Cursor}
    (h : read ⟨bytes, 0⟩ = .ok (c, d)) :
    parse bytes = if d.rest.isEmpty then .ok c else .error (.trailingBytes d.rest.length) := by
  unfold parse
  rw [StateT.run_bind, StateT.run, h]
  change ((expectEnd >>= fun _ => pure c : Parser ClassFile) d >>= fun r => pure r.1) = _
  by_cases hend : d.rest.isEmpty = true
  · have hexpect : expectEnd d = .ok ((), d) := if_pos hend
    rw [if_pos hend, bind_of_ok hexpect]
    rfl
  · have hexpect : expectEnd d = .error (.trailingBytes d.rest.length) := if_neg hend
    rw [if_neg hend, bind_of_error hexpect]
    rfl

/-- A file that is accepted is read to its end. -/
theorem read_of_parse {bytes : Bytes} {c : ClassFile} (h : parse bytes = .ok c) :
    Reads read bytes c ∧ RunsOut read bytes := by
  cases hread : read ⟨bytes, 0⟩ with
  | error e => cases (parse_of_error hread).symm.trans h
  | ok r =>
      obtain ⟨c', d⟩ := r
      rw [parse_of_read hread] at h
      split at h
      · rename_i hend
        obtain rfl := Except.ok.inj h
        obtain ⟨used, hused, hreads, hout⟩ := exact_read hread
        obtain rfl : bytes = used := by simpa [List.isEmpty_iff.1 hend] using hused
        exact ⟨hreads, hout⟩
      · cases h

/-- **A class file ends where it says.** More octets are counted as trailing, and if any are missing
at its end, the rest is reported as cut off at an offset within it: no beginning of a class file is
one, and none is taken for a file with some other fault. -/
theorem parse_extent {bytes : Bytes} {c : ClassFile} (h : parse bytes = .ok c) :
    (∀ more, more ≠ [] → parse (bytes ++ more) = .error (.trailingBytes more.length)) ∧
      ∀ cut, cut <+: bytes → cut ≠ bytes →
        ∃ k ≤ cut.length, parse cut = .error (.truncated k) := by
  obtain ⟨hreads, hout⟩ := read_of_parse h
  constructor
  · intro more hmore
    rw [parse_of_read (hreads more 0), if_neg (by simpa using hmore)]
  · intro cut hcut hne
    obtain ⟨k, hk, hfail⟩ := hout cut hcut hne 0
    exact ⟨k, by simpa using hk, parse_of_error hfail⟩

theorem parse_extent_mixedClass :
    parse mixedClass.encode = .ok mixedView ∧
      parse (mixedClass.encode ++ [0, 7]) = .error (.trailingBytes 2) ∧
      ∃ k ≤ 100, parse (mixedClass.encode.take 100) = .error (.truncated k) := by
  have hparse : parse mixedClass.encode = .ok mixedView := by decide +kernel
  have hshort : (mixedClass.encode.take 100).length = 100 := by decide +kernel
  obtain ⟨hmore, hcut⟩ := parse_extent hparse
  obtain ⟨k, hk, hfail⟩ :=
    hcut (mixedClass.encode.take 100) (List.take_prefix ..) (by decide +kernel)
  exact ⟨hparse, hmore [0, 7] (by decide), k, hshort ▸ hk, hfail⟩

end FiberWeave.ClassFile
