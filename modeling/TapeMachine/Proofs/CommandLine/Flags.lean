import Mathlib
import TapeMachine.CommandLine.Program
import TapeMachine.Proofs.CommandLine.Arguments
import TapeMachine.Proofs.Record
/-!
# What flags change

Strict mode and the trace look at a run and do not take part in it. `flagsObserve_of_parse` compares
whole invocations, whatever the files and the bytes on the standard input: with `--strict` the program
either prints nothing and reports what the checks found, or prints the same and tells by its exit code
how the run ended, and with `--trace` it prints a line for each step before everything else.
-/

namespace TapeMachine

/-! ## Checks -/

namespace Machine

variable {m : Machine} {text : String} {e : Error}

theorem kind_of_validate (h : m.validate = .error e) : e.kind = .malformedMachine := by
  unfold validate at h
  split at h <;> cases h
  rfl

theorem kind_of_validateTape (h : m.validateTape text = .error e) : e.kind = .malformedMachine := by
  unfold validateTape at h
  split at h <;> cases h
  rfl

end Machine

namespace CommandLine

/-- The files and the bytes on the standard input, as the program sees them. -/
def World.of (files : Files.Source) (stdin : ByteArray) : World := ⟨files, Files.decode stdin⟩

/-- What the program does when it is called with arguments that it understands. -/
def invoke (files : Files.Source) (stdin : ByteArray) (args : List String) : Option Response :=
  (parse args).map (Command.respond (.of files stdin))

/-- The response to an error. Nothing is printed. -/
def Response.failed (e : Error) : Response := ⟨1, "", some ("Error: " ++ e.message)⟩

/-- Events, each on a line of its own. -/
def traceLines (events : List TraceEvent) : String :=
  String.join (events.map fun event => event.line ++ "\n")

variable {o : Options} {world : World} {files : Files.Source} {stdin : ByteArray} {machine : Machine}
  {sample : Option String} {text : String} {e : Error}

/-! ## One invocation -/

namespace Options

/-- The text that is put on the tape. Of the input it is all but the line ends behind it. -/
inductive Chooses (o : Options) (stdin : ByteArray) (sample : Option String) : String → Prop
  | input {text : String} : o.tape = some "-" → text.toUTF8 = stdin →
      Chooses o stdin sample (trimLineEnds text)
  | given {text : String} : o.tape = some text → text ≠ "-" → Chooses o stdin sample text
  | sample {text : String} : o.tape = none → sample = some text → Chooses o stdin sample text
  | nothing : o.tape = none → sample = none → Chooses o stdin sample ""

theorem chooses_of_tapeText (h : o.tapeText (.of files stdin) sample = .ok text) :
    o.Chooses stdin sample text := by
  unfold tapeText readsInput at h
  by_cases hd : o.tape = some "-"
  · by_cases hvalid : stdin.IsValidUTF8
    · have hinput : (World.of files stdin).input = .ok (String.fromUTF8 stdin hvalid) := by
        simp [World.of, Files.decode, String.fromUTF8?, hvalid]
      simp only [hd, decide_true, if_true, hinput] at h
      cases h
      exact .input hd rfl
    · simp [hd, World.of, Files.decode, String.fromUTF8?, hvalid] at h
  · simp only [hd, decide_false, Bool.false_eq_true, if_false] at h
    cases h
    cases ht : o.tape with
    | some given => exact .given ht fun heq => hd (heq ▸ ht)
    | none =>
      cases hs : sample with
      | some text => exact .sample ht rfl
      | none => exact .nothing ht rfl

theorem tapeText_of_not_isValidUTF8 (files : Files.Source) (sample : Option String)
    (ht : o.tape = some "-") (h : ¬ stdin.IsValidUTF8) :
    o.tapeText (.of files stdin) sample = .error (.file (.unreadableInput .notText)) := by
  simp [tapeText, readsInput, ht, World.of, Files.decode, String.fromUTF8?, h]

theorem exists_tapeText (files : Files.Source) (sample : Option String)
    (h : o.tape = some "-" → stdin.IsValidUTF8) :
    ∃ text, o.tapeText (.of files stdin) sample = .ok text := by
  unfold tapeText readsInput
  by_cases ht : o.tape = some "-"
  · simp [ht, World.of, Files.decode, String.fromUTF8?, h ht]
  · simp [ht]

theorem prepare_of_load_error (h : o.load world = .error e) : o.prepare world = .error e := by
  rw [prepare, h]
  rfl

theorem prepare_of_tapeText_error (hl : o.load world = .ok (machine, sample))
    (ht : o.tapeText world sample = .error e) : o.prepare world = .error e := by
  simp only [prepare, hl, ht, bind, Except.bind]

/-- The machine is checked before the tape, and both only in strict mode. -/
theorem prepare_of_ok (hl : o.load world = .ok (machine, sample))
    (ht : o.tapeText world sample = .ok text) :
    o.prepare world = if o.strict then do
        machine.validate
        machine.validateTape text
        return (machine, text)
      else .ok (machine, text) := by
  simp only [prepare, hl, ht, bind, Except.bind]
  cases o.strict <;> rfl

/-- What is ready to run has been loaded, and its text read. -/
theorem loaded_of_prepare (h : o.prepare world = .ok (machine, text)) :
    ∃ sample, o.load world = .ok (machine, sample) ∧ o.tapeText world sample = .ok text := by
  cases hl : o.load world with
  | error e => cases (prepare_of_load_error hl).symm.trans h
  | ok loaded =>
    obtain ⟨machine', sample⟩ := loaded
    cases ht : o.tapeText world sample with
    | error e => cases (prepare_of_tapeText_error hl ht).symm.trans h
    | ok text' =>
      have hready : (machine', text') = (machine, text) := by
        rw [prepare_of_ok hl ht] at h
        cases hs : o.strict with
        | false =>
          rw [hs] at h
          exact Except.ok.inj h
        | true =>
          rw [hs] at h
          obtain ⟨-, -, h⟩ := bind_eq_ok_iff.1 h
          obtain ⟨-, -, h⟩ := bind_eq_ok_iff.1 h
          exact pure_eq_ok_iff.1 h
      cases hready
      exact ⟨sample, rfl, ht⟩

theorem respond_of_error (h : o.prepare world = .error e) : o.respond world = .failed e := by
  rw [respond, h]
  rfl

/-- A trace is taken of the same run. -/
theorem execute_eq (o : Options) (machine : Machine) (text : String) :
    o.execute machine text = (machine.run (machine.tape text) o.maxSteps,
      if o.trace then traceLines ((machine.execute (machine.tape text)).record o.maxSteps) else "") := by
  obtain ⟨n, halt, h⟩ := Execution.exists_stopsAfter o.maxSteps (machine.execute (machine.tape text))
  have hrun : ((machine.execute (machine.tape text)).run .recorder o.maxSteps #[]).1 =
      machine.run (machine.tape text) o.maxSteps := by
    rw [Machine.run, Execution.run_fst .recorder #[] h, Execution.run_fst .silent () h]
  cases ht : o.trace with
  | false => simp [execute, ht, Machine.run]
  | true => simp [execute, ht, hrun, traceLines, Execution.record]

theorem respond_of_ok (h : o.prepare world = .ok (machine, text)) :
    o.respond world =
      ⟨exitCode o.strict (machine.run (machine.tape text) o.maxSteps).halt,
        (if o.trace then traceLines ((machine.execute (machine.tape text)).record o.maxSteps)
          else "") ++ report (machine.run (machine.tape text) o.maxSteps),
        none⟩ := by
  rw [respond, h]
  simp only [execute_eq]

end Options

/-! ## Two invocations -/

/-- What strict mode makes of a response, once the machine has been loaded and there is a text for
its tape. -/
structure StrictOf (machine : Machine) (text : String) (budget : StepCount)
    (lenient strict : Response) : Prop where
  malformed : ∀ e, machine.validate = .error e → e.kind = .malformedMachine ∧ strict = .failed e
  foreign : ∀ e, machine.validate = .ok () → machine.validateTape text = .error e →
    e.kind = .malformedMachine ∧ strict = .failed e
  output : machine.validate = .ok () → machine.validateTape text = .ok () →
    strict.output = lenient.output ∧ strict.error = none
  exitCode : machine.validate = .ok () → machine.validateTape text = .ok () →
    match (machine.run (machine.tape text) budget).halt with
    | .halted => strict.exitCode = 0
    | .undefinedTransition .. => strict.exitCode = 2
    | .budgetExceeded => strict.exitCode = 3

theorem strictOf_respond (hs : o.strict = false) (hl : o.load world = .ok (machine, sample))
    (ht : o.tapeText world sample = .ok text) :
    StrictOf machine text o.maxSteps (o.respond world) ({ o with strict := true }.respond world) := by
  have hlenient : o.prepare world = .ok (machine, text) := by
    rw [Options.prepare_of_ok hl ht, hs]
    rfl
  have hstrict : { o with strict := true }.prepare world = do
      machine.validate
      machine.validateTape text
      return (machine, text) := Options.prepare_of_ok hl ht
  constructor
  · intro e he
    rw [he] at hstrict
    exact ⟨Machine.kind_of_validate he, Options.respond_of_error hstrict⟩
  · intro e hv he
    rw [hv, he] at hstrict
    exact ⟨Machine.kind_of_validateTape he, Options.respond_of_error hstrict⟩
  · intro hv hvt
    rw [hv, hvt] at hstrict
    rw [Options.respond_of_ok hlenient, Options.respond_of_ok hstrict]
    exact ⟨rfl, rfl⟩
  · intro hv hvt
    rw [hv, hvt] at hstrict
    rw [Options.respond_of_ok hstrict]
    cases (machine.run (machine.tape text) o.maxSteps).halt <;> rfl

/-- What `--trace` makes of a response. -/
structure TracedOf (files : Files.Source) (stdin : ByteArray) (o : Options)
    (plain traced : Response) : Prop where
  exitCode : traced.exitCode = plain.exitCode
  error : traced.error = plain.error
  failed : plain.error ≠ none → traced = plain
  output : plain.error = none → ∃ machine sample text,
    o.load (.of files stdin) = .ok (machine, sample) ∧ o.Chooses stdin sample text ∧
    traced.output =
      traceLines ((machine.execute (machine.tape text)).record o.maxSteps) ++ plain.output

theorem tracedOf_respond (ht : o.trace = false) :
    TracedOf files stdin o (o.respond (.of files stdin))
      ({ o with trace := true }.respond (.of files stdin)) := by
  have hprepare : { o with trace := true }.prepare (.of files stdin) = o.prepare (.of files stdin) :=
    rfl
  cases hp : o.prepare (.of files stdin) with
  | error e =>
    rw [hp] at hprepare
    rw [Options.respond_of_error hp, Options.respond_of_error hprepare]
    exact ⟨rfl, rfl, fun _ => rfl, fun h => absurd h (by simp [Response.failed])⟩
  | ok ready =>
    obtain ⟨machine, text⟩ := ready
    obtain ⟨sample, hl, htext⟩ := Options.loaded_of_prepare hp
    rw [hp] at hprepare
    rw [Options.respond_of_ok hp, Options.respond_of_ok hprepare, ht]
    have hchosen := Options.chooses_of_tapeText htext
    exact ⟨rfl, rfl, fun h => absurd rfl h, fun _ => ⟨machine, sample, text, hl, hchosen, by simp⟩⟩

/-- What comes of an invocation that asks for the run `o`, and what becomes of this with one flag
more, which can always be given in front. -/
structure FlagsObserve (files : Files.Source) (stdin : ByteArray) (args : List String) (o : Options)
    (r : Response) : Prop where
  response : invoke files stdin args = some r
  unloaded : ∀ e, o.load (.of files stdin) = .error e → r = .failed e
  /-- The error about the input is reported if there is none about the machine. -/
  unread : ∀ loaded, o.load (.of files stdin) = .ok loaded → o.tape = some "-" →
    ¬ stdin.IsValidUTF8 → r = .failed (.file (.unreadableInput .notText))
  ready : ∀ machine sample, o.load (.of files stdin) = .ok (machine, sample) →
    (o.tape = some "-" → stdin.IsValidUTF8) → o.strict = false →
    ∃ text, o.Chooses stdin sample text ∧ r.exitCode = 0 ∧ r.error = none ∧
      ∀ args', parse args' = some (.run { o with strict := true }) →
        ∃ r', invoke files stdin args' = some r' ∧ StrictOf machine text o.maxSteps r r'
  traced : o.trace = false → ∀ args', parse args' = some (.run { o with trace := true }) →
    ∃ r', invoke files stdin args' = some r' ∧ TracedOf files stdin o r r'
  strict_cons : o.strict = false → parse ("--strict" :: args) = some (.run { o with strict := true })
  trace_cons : o.trace = false → parse ("--trace" :: args) = some (.run { o with trace := true })

/-- Flags observe a run and do not change it. -/
theorem flagsObserve_of_parse (files : Files.Source) (stdin : ByteArray) (args : List String)
    (o : Options) (h : parse args = some (.run o)) :
    ∃ r, FlagsObserve files stdin args o r := by
  have hinvoke : ∀ {args o}, parse args = some (.run o) →
      invoke files stdin args = some (o.respond (.of files stdin)) := by
    intro args o h
    rw [invoke, h]
    rfl
  refine ⟨_, hinvoke h, ?_, ?_, ?_, ?_, parse_strict_cons h, parse_trace_cons h⟩
  · intro e he
    exact Options.respond_of_error (Options.prepare_of_load_error he)
  · intro loaded hl ht hvalid
    have hinput := Options.tapeText_of_not_isValidUTF8 files loaded.2 ht hvalid
    exact Options.respond_of_error (Options.prepare_of_tapeText_error hl hinput)
  · intro machine sample hl hvalid hs
    obtain ⟨text, ht⟩ := Options.exists_tapeText files sample hvalid
    have hprepare : o.prepare (.of files stdin) = .ok (machine, text) := by
      rw [Options.prepare_of_ok hl ht, hs]
      rfl
    refine ⟨text, Options.chooses_of_tapeText ht, ?_, ?_, fun args' h' => ?_⟩
    · rw [Options.respond_of_ok hprepare, hs]
      rfl
    · rw [Options.respond_of_ok hprepare]
    · exact ⟨_, hinvoke h', strictOf_respond hs hl ht⟩
  · intro ht args' h'
    exact ⟨_, hinvoke h', tracedOf_respond ht⟩

theorem flagsObserve_of_parse_erase :
    parse ["--builtin", "erase", "-t-"] =
      some (.run ⟨.builtin "erase", some "-", 10000, false, false, false⟩) ∧
    ∃ r, FlagsObserve (fun _ => .error .notFound) "01\n".toUTF8 ["--builtin", "erase", "-t-"]
      ⟨.builtin "erase", some "-", 10000, false, false, false⟩ r :=
  have h : parse ["--builtin", "erase", "-t-"] =
      some (.run ⟨.builtin "erase", some "-", 10000, false, false, false⟩) := by decide +kernel
  ⟨h, flagsObserve_of_parse _ _ _ _ h⟩

end CommandLine

end TapeMachine
