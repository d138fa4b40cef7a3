import FiberWeave.Proofs.CheckMode
import FiberWeave.Proofs.EngineMessages

/-!
# What an external engine decides

An external engine gives a rewritten class only if the rules for classes accept it and the program
does everything that is asked of it; whatever the program does, its messages are kept.

* `Delivers` — what a program has to do for what it writes to be taken.
* `verdict_eq_ok_iff` — this is what it is taken for.
* `noting`, `rewrite_noting` — a program is started once for a class that the rules accept, and not
  at all for another one.
* **`rewrite_specified`** — what is taken, what is kept of the messages, and what goes first.
-/

namespace FiberWeave

/-! ## Verdicts -/

/-- A program that has written `out` and done everything that is asked of it: it ended well, and the
class was sent to it as far as it cared to read it.  If it is looked at, what it wrote is a class
file of the same class. -/
inductive Delivers (request : Request) : Launch → (out : Bytes) → Prop
  | intro {out errors : Bytes} {sent : Except OsError Unit}
      (hsent : sent = .ok () ∨ sent = .error .brokenPipe) (hout : out ≠ [])
      (hcheck : request.options.check = true →
        ∃ c, ClassFile.parse out = .ok c ∧ c.name = request.className) :
      Delivers request (.ended (.code 0) out errors sent) out

theorem verify_eq_ok_iff {name : String} {bytes : Bytes} :
    verify name bytes = .ok () ↔ ∃ c, ClassFile.parse bytes = .ok c ∧ c.name = name := by
  constructor
  · exact exists_of_verify
  · rintro ⟨c, hparse, rfl⟩
    simp [verify, hparse]

theorem Launch.accept_eq_ok_iff {name : String} {check : Bool} {output out : Bytes} :
    Launch.verdict.accept name check output = .ok out ↔
      output = out ∧ out ≠ [] ∧
        (check = true → ∃ c, ClassFile.parse out = .ok c ∧ c.name = name) := by
  rw [← verify_eq_ok_iff]
  unfold Launch.verdict.accept
  cases output with
  | nil =>
      constructor
      · intro h
        cases h
      · rintro ⟨rfl, hne, -⟩
        exact absurd rfl hne
  | cons first output =>
      cases check with
      | false =>
          constructor
          · intro h
            obtain rfl : first :: output = out := Except.ok.inj h
            exact ⟨rfl, List.cons_ne_nil _ _, nofun⟩
          · rintro ⟨rfl, -, -⟩
            rfl
      | true =>
          cases hverify : verify name (first :: output) with
          | error failure =>
              constructor
              · intro h
                cases h
              · rintro ⟨rfl, -, hverified⟩
                cases hverify.symm.trans (hverified rfl)
          | ok _ =>
              constructor
              · intro h
                obtain rfl : first :: output = out := Except.ok.inj h
                exact ⟨rfl, List.cons_ne_nil _ _, fun _ => hverify⟩
              · rintro ⟨rfl, -, -⟩
                rfl

theorem Launch.verdict_eq_ok_iff (program : String) {request : Request} {outcome : Launch}
    {out : Bytes} :
    outcome.verdict program request.className request.options.check = .ok out ↔
      Delivers request outcome out := by
  constructor
  · intro h
    cases outcome with
    | notStarted cause => cases h
    | notFinished cause => cases h
    | ended status output errors sent =>
        simp only [Launch.verdict] at h
        split at h
        case isTrue => cases h
        case isFalse hended =>
            obtain rfl : status = .code 0 := by simpa [ExitStatus.isSuccess] using hended
            cases sent with
            | ok _ =>
                obtain ⟨rfl, hout, hcheck⟩ := Launch.accept_eq_ok_iff.1 h
                exact .intro (.inl rfl) hout hcheck
            | error cause =>
                dsimp only at h
                split at h
                case isFalse => cases h
                case isTrue hcause =>
                    obtain ⟨rfl, hout, hcheck⟩ := Launch.accept_eq_ok_iff.1 h
                    exact .intro (.inr (by rw [hcause])) hout hcheck
  · rintro ⟨hsent, hout, hcheck⟩
    have haccept := Launch.accept_eq_ok_iff.2 ⟨rfl, hout, hcheck⟩
    rcases hsent with rfl | rfl
    · exact haccept
    · exact haccept

/-- A program that ended badly is at fault, whatever it has read and written. -/
theorem Launch.verdict_of_failed {program name : String} {check : Bool} {status : ExitStatus}
    {output errors : Bytes} {sent : Except OsError Unit} (h : status ≠ .code 0) :
    (Launch.ended status output errors sent).verdict program name check =
      .error (.ended status (Launch.lastMessage errors)) := by
  have hfailed : status.isSuccess = false := by simpa [ExitStatus.isSuccess] using h
  simp [Launch.verdict, hfailed]

/-! ## Starts -/

section Starts

variable {σ : Type}

/-- Starts programs as before, and keeps a list of what was started. -/
def noting (launch : Call → FileTree × σ → Launch × (FileTree × σ)) (call : Call)
    (s : FileTree × (σ × List Call)) : Launch × (FileTree × (σ × List Call)) :=
  let (outcome, files, state) := launch call (s.1, s.2.1)
  (outcome, files, state, s.2.2 ++ [call])

/-- The same workspace, with a list of what was started so far. -/
def Workspace.noted (w : Workspace σ) (calls : List Call) : Workspace (σ × List Call) where
  files := w.files
  log := w.log
  engine := (w.engine, calls)
  processId := w.processId
  faults := w.faults

namespace EngineCommand

/-- What is started for a class. -/
def starts (command : EngineCommand) (request : Request) : List Call :=
  match checkPolicy request.entry request.options with
  | .error _ => []
  | .ok () => [command.callFor request]

variable (command : EngineCommand) (launch : Call → FileTree × σ → Launch × (FileTree × σ))
  (request : Request) (w : Workspace σ)

theorem rewrite_refused {failure : RewriteFailure}
    (h : checkPolicy request.entry request.options = .error failure) :
    (command.engine launch).rewrite request w = (.error failure, w) := by
  simp only [engine, h]

theorem rewrite_accepted (h : checkPolicy request.entry request.options = .ok ()) :
    (command.engine launch).rewrite request w =
      let (outcome, files, state) := launch (command.callFor request) (w.files, w.engine)
      (outcome.verdict command.program request.className request.options.check,
        { w.say outcome.remarks with files, engine := state }) := by
  simp only [engine, h]

/-- Keeping a list changes nothing else, and what is started is just this. -/
theorem rewrite_noting (calls : List Call) :
    (command.engine (noting launch)).rewrite request (w.noted calls) =
      (((command.engine launch).rewrite request w).1,
        ((command.engine launch).rewrite request w).2.noted
          (calls ++ command.starts request)) := by
  unfold starts
  cases hpolicy : checkPolicy request.entry request.options with
  | error failure =>
      simp only [rewrite_refused _ _ _ _ hpolicy, List.append_nil]
  | ok _ =>
      simp only [rewrite_accepted _ _ _ _ hpolicy]
      rfl

/-- **What an external engine decides.**  It gives a rewritten class exactly if the rules accept the
class and the program delivers it, and then what the program wrote, unchanged.  For a class that the
rules refuse it starts nothing and says nothing.  As soon as a program has ended, its messages are
kept line by line, whatever else is wrong.  A program that ended badly is reported for this and for
nothing else, with the text of its last message at the end. -/
theorem rewrite_specified :
    (∀ out, ((command.engine launch).rewrite request w).1 = .ok out ↔
      checkPolicy request.entry request.options = .ok () ∧
        Delivers request (launch (command.callFor request) (w.files, w.engine)).1 out) ∧
    (∀ calls, (command.engine (noting launch)).rewrite request (w.noted calls) =
      (((command.engine launch).rewrite request w).1,
        ((command.engine launch).rewrite request w).2.noted (calls ++ command.starts request))) ∧
    (∀ failure, checkPolicy request.entry request.options = .error failure →
      (command.engine launch).rewrite request w = (.error failure, w) ∧
        command.starts request = []) ∧
    (checkPolicy request.entry request.options = .ok () →
      ∀ status output errors sent,
        (launch (command.callFor request) (w.files, w.engine)).1 =
          .ended status output errors sent →
        ∃ lines, Text.IsLines (Text.Utf8.decodeLossy errors) lines ∧
          (∃ remarks, Tells lines remarks ∧
            ((command.engine launch).rewrite request w).2.log = w.log ++ remarks) ∧
          (status ≠ .code 0 → ∃ word, IsLastWord lines word ∧
            ((command.engine launch).rewrite request w).1 = .error (.ended status word) ∧
            (RewriteFailure.ended status word).message =
              "Engine failed (" ++ status.text ++ "): " ++ word)) := by
  refine ⟨fun out => ?_, rewrite_noting command launch request w, ?_, ?_⟩
  · cases hpolicy : checkPolicy request.entry request.options with
    | error failure =>
        rw [rewrite_refused _ _ _ _ hpolicy]
        constructor
        · intro h
          cases h
        · rintro ⟨h, -⟩
          cases h
    | ok _ =>
        rw [rewrite_accepted _ _ _ _ hpolicy, ← Launch.verdict_eq_ok_iff command.program]
        exact (and_iff_right rfl).symm
  · intro failure hrefused
    exact ⟨rewrite_refused _ _ _ _ hrefused, by rw [starts, hrefused]⟩
  · intro haccepted status output errors sent hended
    rw [rewrite_accepted _ _ _ _ haccepted]
    dsimp only
    rw [hended]
    refine ⟨_, Text.isLines_lines _, ⟨_, tells_ofText _, rfl⟩, fun hstatus => ?_⟩
    exact ⟨_, isLastWord_iff.2 rfl, Launch.verdict_of_failed hstatus, rfl⟩

end EngineCommand

end Starts

/-- A program that does not read the class to its end. -/
def hastyProgram (status : ExitStatus) (_ : Call) (s : FileTree × Unit) :
    Launch × (FileTree × Unit) :=
  (.ended status [0xCA] (Bytes.ofText "INFO: started\r\nERROR:  no more \n\n")
    (.error .brokenPipe), s)

theorem EngineCommand.rewrite_specified_hastyProgram :
    let request : Request := ⟨"A", [], default, default, {}⟩
    let w : Workspace Unit := { files := default, engine := () }
    ((EngineCommand.engine ⟨"weave", []⟩ (hastyProgram (.code 0))).rewrite request w).1 =
      .ok [0xCA] ∧
    ((EngineCommand.engine ⟨"weave", []⟩ (hastyProgram (.code 3))).rewrite request w).1 =
      .error (.ended (.code 3) "no more") := by
  intro request w
  refine ⟨?_, ?_⟩
  · obtain ⟨hdecides, -⟩ := rewrite_specified ⟨"weave", []⟩ (hastyProgram (.code 0)) request w
    exact (hdecides _).2 ⟨rfl, .intro (.inr rfl) (by decide) nofun⟩
  · obtain ⟨-, -, -, hended⟩ := rewrite_specified ⟨"weave", []⟩ (hastyProgram (.code 3)) request w
    obtain ⟨lines, hlines, -, hfailed⟩ := hended rfl _ _ _ _ rfl
    obtain ⟨word, hword, hresult, -⟩ := hfailed (by decide)
    rw [← Text.lines_eq_iff] at hlines
    subst hlines
    rw [hresult, ← isLastWord_iff.1 hword]
    decide +kernel

end FiberWeave
