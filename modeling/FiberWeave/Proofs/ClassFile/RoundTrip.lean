import FiberWeave.ClassFile.Parse
import FiberWeave.Proofs.ClassFile.CodeArrays

/-!
# Class files are read as they are written

Every part of a class file is read from its octets, and nothing after them is touched; so the parts
can be put one behind the other.  Attributes say where they end, and what is in one is read from its
octets alone.

* `reads_rawAttributes`, `reads_attribute` — attributes that are passed over, and those that are
  looked at.
* `reads_code`, `reads_exceptions`, `reads_types` — what is in them.
* `Method.extend`, `reads_attributes` — a method takes up what its attributes say, one after the
  other.
* `reads_method`, `reads_classAttributes` — members and attributes of a class.
* **`parse_encode`** — whatever can be written as a class file, and shows something, is read as what
  it shows.
-/

namespace FiberWeave

/-- A method with what is said about it. -/
def Method.extend (m said : Method) : Method :=
  { m with
    exceptions := m.exceptions ++ said.exceptions
    annotations := m.annotations ++ said.annotations
    calls := m.calls ++ said.calls
    hasCode := m.hasCode || said.hasCode
    usesMonitorEnter := m.usesMonitorEnter || said.usesMonitorEnter }

theorem Method.foldl_extend (m : Method) (said : List Method) :
    said.foldl Method.extend m = { m with
      exceptions := m.exceptions ++ said.flatMap Method.exceptions
      annotations := m.annotations ++ said.flatMap Method.annotations
      calls := m.calls ++ said.flatMap Method.calls
      hasCode := m.hasCode || said.any Method.hasCode
      usesMonitorEnter := m.usesMonitorEnter || said.any Method.usesMonitorEnter } := by
  induction said generalizing m with
  | nil => simp
  | cons first rest ih =>
      rw [List.foldl_cons, ih]
      simp [Method.extend, Bool.or_assoc]

namespace ClassFile

open Format FiberWeave.ClassFile.Parser

variable {pool : List Format.Constant}

/-! ## Attributes -/

theorem reads_rawAttributes {attributes : List RawAttribute}
    (hcount : isCountable attributes = true) (hfits : ∀ a ∈ attributes, a.fits = true) :
    Reads skipAttributes (counted RawAttribute.encode attributes) () := by
  have hone : ∀ a ∈ attributes, Reads (do skip 2; skip (← u4)) a.encode () := by
    intro a ha
    have hlength : a.body.length < 0x100000000 := by simpa [RawAttribute.fits] using hfits a ha
    rw [RawAttribute.encode, List.append_assoc]
    exact (reads_skip (n := 2) rfl).bind ((reads_u4 hlength).bind (reads_skip rfl))
  have hall : List.Forall₂ (fun a _ => Reads (do skip 2; skip (← u4)) (RawAttribute.encode a) ())
      attributes (attributes.map fun _ => ()) := by
    rw [List.forall₂_map_right_iff, List.forall₂_same]
    exact hone
  unfold skipAttributes
  exact (reads_u2 (by simpa [isCountable] using hcount)).bind
    ((reads_times hall).bind_pure (reads_pure _))

theorem reads_attribute {a : Attribute} {name : String} (hfits : a.fits = true)
    (hname : Format.Pool.text? pool a.name = some name) :
    Reads (readAttribute (tableOf pool)) a.encode (name, a.content.encode) := by
  have hlength : a.content.encode.length < 0x100000000 := by
    simp only [Attribute.fits, Bool.and_eq_true, decide_eq_true_eq] at hfits
    exact hfits.1
  unfold readAttribute
  rw [Attribute.encode, List.append_assoc]
  refine (reads_index a.name).bind ((reads_lift (text_of_text? hname)).bind_nil ?_)
  exact (reads_u4 hlength).bind ((reads_take rfl).bind_pure (reads_pure _))

/-- The instructions of a code attribute; what follows them is passed over. -/
theorem reads_code {table : Pool} {target : UInt16 → MemberRef} {code : Format.Code}
    (hfits : code.fits = true) (htarget : Resolves table target code.instructions) :
    Reads (readCode table code.encode) []
      ⟨callsFrom target 0 code.instructions,
        code.instructions.any Format.Instruction.isMonitorEnter⟩ := by
  simp only [Format.Code.fits, Bool.and_eq_true, List.all_eq_true, decide_eq_true_eq] at hfits
  obtain ⟨⟨⟨⟨hinstructions, hsize⟩, hhandlers⟩, hcount⟩, hattributes⟩ := hfits
  unfold readCode
  have hencode : code.encode = index code.maxStack ++ index code.maxLocals ++
      (octets4 (encodeCode 0 code.instructions).length ++ (encodeCode 0 code.instructions ++
        (octets2 code.handlers.length ++ (code.handlers.flatMap Handler.encode ++
          counted RawAttribute.encode code.attributes)))) ++ [] := by
    simp [Format.Code.encode, counted]
  have hlength : (code.handlers.flatMap Handler.encode).length = code.handlers.length * 8 := by
    rw [length_flatMap_const (n := 8) (fun _ => rfl), Nat.mul_comm]
  rw [hencode]
  refine Reads.within ((reads_skip (n := 4) rfl).bind ((reads_u4 hsize).bind
    ((reads_take rfl).bind ?_))) []
  refine (reads_lift (scan_encodeCode hinstructions htarget)).bind_nil ?_
  exact (reads_u2 (by simpa [isCountable] using hhandlers)).bind ((reads_skip hlength).bind
    ((reads_rawAttributes hcount hattributes).bind_pure (reads_pure _)))

theorem reads_exceptions {classes : List UInt16} {names : List String}
    (hcount : isCountable classes = true)
    (h : classes.mapM (Format.Pool.className? pool) = some names) :
    Reads (readExceptions (tableOf pool) (counted index classes)) [] names := by
  unfold readExceptions
  rw [← List.append_nil (counted index classes)]
  refine Reads.within ((reads_u2 (by simpa [isCountable] using hcount)).bind (reads_times ?_)) []
  exact forall₂_of_mapM h fun i _ name hname =>
    (reads_index i).bind_pure (reads_lift (className_of_className? hname))

/-! ## Methods -/

theorem reads_content {content : Format.Content} {m said : FiberWeave.Method} {name : String}
    (hfits : content.fits = true) (hname : content.isNamed name = true)
    (hsaid : content.said? pool = some said) :
    Reads (addAttribute (tableOf pool) m name content.encode) [] (m.extend said) := by
  unfold addAttribute
  cases content with
  | code code =>
      obtain rfl : name = "Code" := by simpa [Content.isNamed] using hname
      obtain ⟨calls, hcalls, hsaid⟩ := Option.bind_eq_some_iff.1 hsaid
      obtain rfl := Option.some.inj hsaid
      obtain ⟨target, htarget, rfl⟩ := resolves_of_calls? hcalls
      refine (reads_code hfits htarget).bind_nil ?_
      simpa [FiberWeave.Method.extend] using reads_pure _
  | exceptions classes =>
      obtain rfl : name = "Exceptions" := by simpa [Content.isNamed] using hname
      obtain ⟨names, hnames, hsaid⟩ := Option.bind_eq_some_iff.1 hsaid
      obtain rfl := Option.some.inj hsaid
      refine (reads_exceptions hfits hnames).bind_nil ?_
      simpa [FiberWeave.Method.extend] using reads_pure _
  | annotations as =>
      simp only [Content.fits, Bool.and_eq_true] at hfits
      obtain ⟨types, htypes, hsaid⟩ := Option.bind_eq_some_iff.1 hsaid
      obtain rfl := Option.some.inj hsaid
      have hread := reads_types hfits.1 (List.all_eq_true.1 hfits.2) htypes
      have hnames : name = "RuntimeVisibleAnnotations" ∨ name = "RuntimeInvisibleAnnotations" := by
        simpa [Content.isNamed, annotationNames] using hname
      rcases hnames with rfl | rfl
      · refine hread.bind_nil ?_
        simpa [FiberWeave.Method.extend] using reads_pure _
      · refine hread.bind_nil ?_
        simpa [FiberWeave.Method.extend] using reads_pure _
  | unknown body =>
      obtain rfl := Option.some.inj hsaid
      have hnames : ¬ name = "Code" ∧ ¬ name = "Exceptions" ∧ ¬ isAnnotationsAttribute name := by
        simpa [Content.isNamed, annotationNames, isAnnotationsAttribute] using hname
      simp only [beq_iff_eq, hnames, if_false]
      simpa [FiberWeave.Method.extend] using reads_pure m

/-- A method takes up what its attributes say, in their order. -/
theorem reads_attributes {attributes : List Attribute} {m : FiberWeave.Method}
    {said : List FiberWeave.Method} (hfits : ∀ a ∈ attributes, a.fits = true)
    (hsaid : attributes.mapM (Attribute.methodView? pool) = some said) :
    Reads (addAttributes (tableOf pool) m attributes.length) (attributes.flatMap Attribute.encode)
      (said.foldl FiberWeave.Method.extend m) := by
  induction attributes generalizing m said with
  | nil =>
      obtain rfl := Option.some.inj hsaid
      exact reads_pure m
  | cons a rest ih =>
      simp only [List.mapM_cons, Option.bind_eq_bind, Option.bind_eq_some_iff, Option.pure_def,
        Option.some.injEq] at hsaid
      obtain ⟨first, hfirst, later, hlater, rfl⟩ := hsaid
      have ha : a.fits = true := hfits a (by simp)
      have hcontent : a.content.fits = true := by
        simp only [Attribute.fits, Bool.and_eq_true] at ha
        exact ha.2
      unfold Attribute.methodView? at hfirst
      split at hfirst
      · rename_i name hname
        split at hfirst
        · rename_i hnamed
          exact (reads_attribute ha hname).bind ((reads_content hcontent hnamed hfirst).bind_nil
            (ih (fun b hb => hfits b (.tail _ hb)) hlater))
        · cases hfirst
      · cases hfirst

theorem reads_method {m : Format.Method} {view : FiberWeave.Method} (hfits : m.fits = true)
    (hview : m.view? pool = some view) : Reads (readMethod (tableOf pool)) m.encode view := by
  simp only [Format.Method.fits, Bool.and_eq_true, List.all_eq_true] at hfits
  simp only [Format.Method.view?, Option.bind_eq_bind, Option.bind_eq_some_iff, Option.pure_def,
    Option.some.injEq] at hview
  obtain ⟨said, hsaid, name, hname, descriptor, hdescriptor, rfl⟩ := hview
  unfold readMethod
  rw [Format.Method.encode, List.append_assoc, List.append_assoc]
  refine (reads_index m.access).bind ((reads_index m.name).bind
    ((reads_lift (text_of_text? hname)).bind_nil ((reads_index m.descriptor).bind
      ((reads_lift (text_of_text? hdescriptor)).bind_nil ?_))))
  have hattributes := reads_attributes (m := ⟨m.access.toNat, name, descriptor, [], [], [], false,
    false⟩) hfits.2 hsaid
  rw [FiberWeave.Method.foldl_extend] at hattributes
  exact (reads_u2 (by simpa [isCountable] using hfits.1)).bind hattributes

/-! ## Classes -/

/-- The annotations that an attribute of a class holds, if it is named as one that holds some. -/
theorem reads_classAttribute {a : Attribute} {types : List String} (hfits : a.fits = true)
    (h : a.classView? pool = some types) : ∃ name, Format.Pool.text? pool a.name = some name ∧
      Reads (if isAnnotationsAttribute name then
          Annotation.readTypes (tableOf pool) a.content.encode
        else pure []) [] types := by
  simp only [Attribute.fits, Bool.and_eq_true] at hfits
  unfold Attribute.classView? at h
  cases hname : Format.Pool.text? pool a.name with
  | none => simp [hname] at h
  | some name =>
      have hnamed : isAnnotationsAttribute name = true ↔ name ∈ annotationNames := by
        simp [isAnnotationsAttribute, annotationNames]
      refine ⟨name, rfl, ?_⟩
      cases hcontent : a.content with
      | annotations as =>
          simp only [hname, hcontent] at h
          rw [hcontent, Content.fits, Bool.and_eq_true] at hfits
          split at h
          · rename_i hmem
            rw [if_pos (hnamed.2 hmem)]
            exact reads_types hfits.2.1 (List.all_eq_true.1 hfits.2.2) h
          · cases h
      | code | exceptions | unknown =>
          simp only [hname, hcontent] at h
          split at h
          · cases h
          · rename_i hmem
            obtain rfl := Option.some.inj h
            rw [if_neg fun hann => hmem (hnamed.1 hann)]
            exact reads_pure []

theorem reads_classAttributes {attributes : List Attribute} {types : List (List String)}
    (hfits : ∀ a ∈ attributes, a.fits = true)
    (h : attributes.mapM (Attribute.classView? pool) = some types) :
    Reads (readClassAnnotations (tableOf pool) attributes.length)
      (attributes.flatMap Attribute.encode) types.flatten := by
  induction attributes generalizing types with
  | nil =>
      obtain rfl := Option.some.inj h
      exact reads_pure []
  | cons a rest ih =>
      simp only [List.mapM_cons, Option.bind_eq_bind, Option.bind_eq_some_iff, Option.pure_def,
        Option.some.injEq] at h
      obtain ⟨first, hfirst, later, hlater, rfl⟩ := h
      have ha : a.fits = true := hfits a (by simp)
      have hrest := ih (fun b hb => hfits b (.tail _ hb)) hlater
      obtain ⟨name, hname, hread⟩ := reads_classAttribute ha hfirst
      refine (reads_attribute ha hname).bind ?_
      dsimp only
      by_cases hnamed : isAnnotationsAttribute name = true
      · rw [if_pos hnamed] at hread ⊢
        exact hread.bind_nil (hrest.bind_pure (reads_pure _))
      · rw [if_neg hnamed] at hread ⊢
        exact hread.bind_nil (hrest.bind_pure (reads_pure _))

theorem reads_field {f : Field} (hfits : f.fits = true) :
    Reads (do skip 6; skipAttributes) f.encode () := by
  simp only [Field.fits, Bool.and_eq_true, List.all_eq_true] at hfits
  rw [Field.encode]
  exact (reads_skip (n := 6) rfl).bind (reads_rawAttributes hfits.1 hfits.2)

/-- The interfaces, fields, methods and attributes of a class, which come last in it. -/
theorem reads_members {c : Format.Class} {interfaces : List String}
    {methods : List FiberWeave.Method} {types : List (List String)} {β : Type} {view : β}
    {f : List String → List FiberWeave.Method → List String → β} (hfits : c.fits = true)
    (hinterfaces : c.interfaces.mapM (Format.Pool.className? c.pool) = some interfaces)
    (hmethods : c.methods.mapM (Format.Method.view? c.pool) = some methods)
    (htypes : c.attributes.mapM (Attribute.classView? c.pool) = some types)
    (hview : f interfaces methods types.flatten = view) :
    Reads (do
      let interfaceCount ← u2
      let interfaces ← times (do (tableOf c.pool).className (← u2)) interfaceCount
      let fieldCount ← u2
      let _ ← times (do skip 6; skipAttributes) fieldCount
      let methodCount ← u2
      let methods ← times (readMethod (tableOf c.pool)) methodCount
      let attributeCount ← u2
      let annotations ← readClassAnnotations (tableOf c.pool) attributeCount
      return f interfaces methods annotations)
      (counted index c.interfaces ++ (counted Field.encode c.fields ++
        (counted Format.Method.encode c.methods ++ counted Attribute.encode c.attributes)))
      view := by
  subst hview
  simp only [Class.fits, Bool.and_eq_true, List.all_eq_true] at hfits
  obtain ⟨⟨⟨⟨⟨⟨⟨-, hinterfacesCount⟩, hfieldCount⟩, hfields⟩, hmethodCount⟩, hmethodFits⟩,
    hattributeCount⟩, hattributeFits⟩ := hfits
  have hinterface : List.Forall₂ (fun i name =>
      Reads (do (tableOf c.pool).className (← u2)) (index i) name) c.interfaces interfaces :=
    forall₂_of_mapM hinterfaces fun i _ name hname =>
      (reads_index i).bind_pure (reads_lift (className_of_className? hname))
  have hfield : List.Forall₂ (fun f _ => Reads (do skip 6; skipAttributes) (Field.encode f) ())
      c.fields (c.fields.map fun _ => ()) := by
    rw [List.forall₂_map_right_iff, List.forall₂_same]
    exact fun f hf => reads_field (hfields f hf)
  have hmethod : List.Forall₂ (fun m view =>
      Reads (readMethod (tableOf c.pool)) (Format.Method.encode m) view) c.methods methods :=
    forall₂_of_mapM hmethods fun m hm view hview => reads_method (hmethodFits m hm) hview
  refine reads_counted hinterfacesCount hinterface (fun _ => rfl) ?_
  refine reads_counted hfieldCount hfield (fun _ => rfl) ?_
  refine reads_counted hmethodCount hmethod (fun _ => rfl) ?_
  exact (reads_u2 (by simpa [isCountable] using hattributeCount)).bind
    ((reads_classAttributes hattributeFits htypes).bind_pure (reads_pure _))

/-- A class file from its magic number to its last attribute. -/
theorem reads_class {c : Format.Class} {view : ClassFile} (hfits : c.fits = true)
    (hview : c.view? = some view) : Reads read c.encode view := by
  simp only [Class.view?, Option.bind_eq_bind, Option.bind_eq_some_iff, Option.pure_def,
    Option.some.injEq] at hview
  obtain ⟨name, hname, superName, hsuper, interfaces, hinterfaces, methods, hmethods, types,
    htypes, rfl⟩ := hview
  have hpool : Format.Pool.slots c.pool ≤ 65534 ∧ ∀ d ∈ c.pool, d.fits = true := by
    simp only [Class.fits, Bool.and_eq_true, List.all_eq_true, decide_eq_true_eq] at hfits
    exact hfits.1.1.1.1.1.1.1
  have hmembers := fun superName => reads_members (f := fun interfaces methods types =>
    ClassFile.mk c.minorVersion.toNat c.majorVersion.toNat c.access.toNat name superName interfaces
      methods types) hfits hinterfaces hmethods htypes rfl
  unfold read
  have hencode : c.encode = octets4 0xCAFEBABE ++ (index c.minorVersion ++
      (index c.majorVersion ++ ((octets2 (Format.Pool.slots c.pool + 1) ++
        c.pool.flatMap Format.Constant.encode) ++ (index c.access ++ (index c.thisClass ++
          (index c.superClass ++ (counted index c.interfaces ++ (counted Field.encode c.fields ++
            (counted Format.Method.encode c.methods ++
              counted Attribute.encode c.attributes))))))))) := by
    simp only [Class.encode, List.append_assoc]
  rw [hencode]
  refine (reads_u4 (by decide)).bind ?_
  rw [if_neg (by decide)]
  refine (reads_index c.minorVersion).bind ((reads_index c.majorVersion).bind
    ((reads_pool hpool.2 hpool.1).bind ((reads_index c.access).bind
      ((reads_index c.thisClass).bind ((reads_lift (className_of_className? hname)).bind_nil
        ((reads_index c.superClass).bind ?_))))))
  unfold Format.Class.superName? at hsuper
  by_cases hzero : c.superClass = 0
  · rw [if_pos hzero] at hsuper
    obtain rfl := Option.some.inj hsuper
    have hindex : c.superClass.toNat = 0 := by rw [hzero]; rfl
    rw [if_pos hindex]
    exact (reads_pure none).bind_nil (hmembers none)
  · rw [if_neg hzero] at hsuper
    obtain ⟨found, hfound, rfl⟩ := Option.map_eq_some_iff.1 hsuper
    have hindex : c.superClass.toNat ≠ 0 := fun h => hzero (UInt16.toNat_inj.1 h)
    rw [if_neg hindex]
    exact ((reads_lift (className_of_className? hfound)).map some).bind_nil (hmembers _)

/-- **Whatever can be written as a class file, and shows something, is read as what it shows.** -/
theorem parse_encode {c : Format.Class} {view : ClassFile} (hfits : c.fits = true)
    (hview : c.view? = some view) : parse c.encode = .ok view := by
  have hread : read ⟨c.encode, 0⟩ = .ok (view, ⟨[], c.encode.length⟩) := by
    simpa using reads_class hfits hview [] 0
  unfold parse
  rw [StateT.run_bind, StateT.run, hread]
  rfl

/-- A class with something of each kind: a constant in two slots, a text that cannot be decoded,
references to later constants, a switch, a call and attributes on every level. -/
def mixedClass : Format.Class where
  minorVersion := 0
  majorVersion := 52
  pool := [
    .classRef 2, .utf8 (ascii "A"), .long 7, .utf8 [0xFF],
    .classRef 7, .utf8 (ascii "java/lang/Object"), .utf8 (ascii "Code"),
    .utf8 (ascii "Exceptions"), .utf8 (ascii "RuntimeVisibleAnnotations"), .utf8 (ascii "run"),
    .utf8 (ascii "()V"), .nameAndType 11 12, .methodRef 1 13, .utf8 (ascii "LMark;")]
  access := 0x21
  thisClass := 1
  superClass := 6
  interfaces := [6]
  fields := [⟨2, 11, 12, [⟨5, [1, 2, 3]⟩]⟩]
  methods := [{
    access := 1
    name := 11
    descriptor := 12
    attributes := [
      ⟨9, .exceptions [1]⟩,
      ⟨8, .code {
        maxStack := 1
        maxLocals := 1
        instructions := [
          .plain 0x1A [], .tableSwitch (fun _ => 0) 20 (-1) [20, 20], .invoke .static 14,
          .plain 0xC2 [], .plain 0xB1 []]
        handlers := [⟨0, 1, 2, 0⟩]
        attributes := [⟨5, [0]⟩] }⟩,
      ⟨2, .unknown [1, 2]⟩] }]
  attributes := [
    ⟨10, .annotations [
      ⟨15, [(11, .array [.nested 15 [(5, .enum 2 2)], .simple .int 3]), (2, .simple .string 2)]⟩]⟩]

/-- What is seen of it. -/
def mixedView : ClassFile where
  minorVersion := 0
  majorVersion := 52
  access := 0x21
  name := "A"
  superName := some "java/lang/Object"
  interfaces := ["java/lang/Object"]
  methods := [{
    access := 1
    name := "run"
    descriptor := "()V"
    exceptions := ["A"]
    calls := [⟨⟨"A", "run", "()V"⟩, 24⟩]
    hasCode := true
    usesMonitorEnter := true }]
  annotations := ["LMark;"]

theorem parse_encode_mixedClass : mixedClass.fits = true ∧ mixedClass.view? = some mixedView ∧
    parse mixedClass.encode = .ok mixedView :=
  ⟨by decide +kernel, by decide +kernel, parse_encode (by decide +kernel) (by decide +kernel)⟩

end ClassFile

end FiberWeave
