import Mathlib
import TapeMachine.CommandLine.Arguments
import TapeMachine.Fallible
/-!
# One flag more

Arguments that have been read say nothing less when a flag is given in addition. `read_mark`: the
reading comes to the same with a flag noted from the start, provided that the flag is not among the
arguments, where it would be one too many. So a command line with `--strict` or `--trace` in front
asks for the same run in strict mode or with a trace: `parse_strict_cons`, `parse_trace_cons`.
-/

namespace TapeMachine.CommandLine

namespace Arguments

/-- Whether note has been taken of a flag. The reading ends with those for help and version. -/
def has (a : Arguments) : Flag → Bool
  | .list => a.list
  | .trace => a.trace
  | .strict => a.strict
  | .verbose => a.verbose
  | .help | .version => false

/-- The arguments with note taken of a flag. -/
def mark (a : Arguments) : Flag → Arguments
  | .list => { a with list := true }
  | .trace => { a with trace := true }
  | .strict => { a with strict := true }
  | .verbose => { a with verbose := true }
  | .help | .version => a

variable {a b : Arguments} {flag : Flag} {pending : Option Valued}

/-! ## Taking note -/

theorem setFlag_mark {other : Flag} (h : a.setFlag other = .ok b) (hb : b.has flag = false) :
    a.has flag = false ∧ (a.mark flag).setFlag other = .ok (b.mark flag) := by
  cases other <;> cases flag <;> grind [setFlag, has, mark]

theorem setValue_mark {option : Valued} {value : String} (h : a.setValue option value = .ok b)
    (hb : b.has flag = false) :
    a.has flag = false ∧ (a.mark flag).setValue option value = .ok (b.mark flag) := by
  cases option <;> cases flag <;> grind [setValue, has, mark]

theorem setMachine_mark {path : String} (h : a.setMachine path = .ok b) (hb : b.has flag = false) :
    a.has flag = false ∧ (a.mark flag).setMachine path = .ok (b.mark flag) := by
  cases flag <;> grind [setMachine, has, mark]

/-! ## Reading -/

/-- A value that comes with its option. -/
theorem attached_mark {option : Valued} {value : String}
    (h : (do return (← a.setValue option value, none)) = .ok (b, pending))
    (hb : b.has flag = false) :
    a.has flag = false ∧
      (do return (← (a.mark flag).setValue option value, none)) = .ok (b.mark flag, pending) := by
  obtain ⟨c, hc, hp⟩ := bind_eq_ok_iff.1 h
  cases pure_eq_ok_iff.1 hp
  obtain ⟨ha, hset⟩ := setValue_mark hc hb
  exact ⟨ha, bind_eq_ok_iff.2 ⟨_, hset, rfl⟩⟩

theorem readLetters_mark {letters : List Char} (h : a.readLetters letters = .ok (b, pending))
    (hb : b.has flag = false) :
    a.has flag = false ∧ (a.mark flag).readLetters letters = .ok (b.mark flag, pending) := by
  induction letters generalizing a with
  | nil =>
    cases h
    exact ⟨hb, rfl⟩
  | cons c rest ih =>
    rw [readLetters] at h ⊢
    split at h
    · cases h
    · -- a flag, and the letters after it
      obtain ⟨d, hd, hrest⟩ := bind_eq_ok_iff.1 h
      obtain ⟨hd', hrest'⟩ := ih hrest
      obtain ⟨ha, hset⟩ := setFlag_mark hd hd'
      exact ⟨ha, bind_eq_ok_iff.2 ⟨_, hset, hrest'⟩⟩
    · split at h
      · cases h
        exact ⟨hb, rfl⟩
      · exact attached_mark h hb
      · exact attached_mark h hb

theorem readLong_mark {text : List Char} (h : a.readLong text = .ok (b, pending))
    (hb : b.has flag = false) :
    a.has flag = false ∧ (a.mark flag).readLong text = .ok (b.mark flag, pending) := by
  unfold readLong at h ⊢
  simp only at h ⊢
  split at h
  · cases h
  · cases h
  · obtain ⟨c, hc, hp⟩ := bind_eq_ok_iff.1 h
    cases pure_eq_ok_iff.1 hp
    obtain ⟨ha, hset⟩ := setFlag_mark hc hb
    exact ⟨ha, bind_eq_ok_iff.2 ⟨_, hset, rfl⟩⟩
  · cases h
    exact ⟨hb, rfl⟩
  · exact attached_mark h hb

theorem readFiles_mark {args : List String} (h : a.readFiles args = .ok b)
    (hb : b.has flag = false) :
    a.has flag = false ∧ (a.mark flag).readFiles args = .ok (b.mark flag) := by
  induction args generalizing a with
  | nil =>
    cases h
    exact ⟨hb, rfl⟩
  | cons arg args ih =>
    rw [readFiles, List.foldlM_cons] at h ⊢
    obtain ⟨c, hc, hrest⟩ := bind_eq_ok_iff.1 h
    obtain ⟨hc', hrest'⟩ := ih hrest
    obtain ⟨ha, hset⟩ := setMachine_mark hc hc'
    exact ⟨ha, bind_eq_ok_iff.2 ⟨_, hset, hrest'⟩⟩

theorem readArgument_mark {arg : String} (h : a.readArgument arg = .ok (b, pending))
    (hb : b.has flag = false) :
    a.has flag = false ∧ (a.mark flag).readArgument arg = .ok (b.mark flag, pending) := by
  unfold readArgument at h ⊢
  split at h
  · exact readLong_mark h hb
  · exact readLetters_mark h hb
  · obtain ⟨c, hc, hp⟩ := bind_eq_ok_iff.1 h
    cases pure_eq_ok_iff.1 hp
    obtain ⟨ha, hset⟩ := setMachine_mark hc hb
    exact ⟨ha, bind_eq_ok_iff.2 ⟨_, hset, rfl⟩⟩

/-- The arguments say the same to someone who has already taken note of a flag. -/
theorem read_mark {args : List String} (h : a.read pending args = .ok b) (hb : b.has flag = false) :
    a.has flag = false ∧ (a.mark flag).read pending args = .ok (b.mark flag) := by
  induction args generalizing a pending with
  | nil =>
    cases pending with
    | some option => cases h
    | none =>
      cases h
      exact ⟨hb, rfl⟩
  | cons arg args ih =>
    cases pending with
    | some option =>
      rw [read] at h ⊢
      by_cases hlooks : looksLikeSwitch arg
      · rw [if_pos hlooks] at h
        cases h
      · rw [if_neg hlooks] at h ⊢
        obtain ⟨c, hc, hrest⟩ := bind_eq_ok_iff.1 h
        obtain ⟨hc', hrest'⟩ := ih hrest
        obtain ⟨ha, hset⟩ := setValue_mark hc hc'
        exact ⟨ha, bind_eq_ok_iff.2 ⟨_, hset, hrest'⟩⟩
    | none =>
      rw [read] at h ⊢
      by_cases hdashes : arg = "--"
      · rw [if_pos hdashes] at h ⊢
        exact readFiles_mark h hb
      · rw [if_neg hdashes] at h ⊢
        obtain ⟨⟨c, pending⟩, hc, hrest⟩ := bind_eq_ok_iff.1 h
        obtain ⟨hc', hrest'⟩ := ih hrest
        obtain ⟨ha, hset⟩ := readArgument_mark hc hc'
        exact ⟨ha, bind_eq_ok_iff.2 ⟨_, hset, hrest'⟩⟩

end Arguments

/-! ## Command lines -/

namespace Options

/-- Whether a flag has been given. The others ask for something else than a run. -/
def has (o : Options) : Flag → Bool
  | .trace => o.trace
  | .strict => o.strict
  | .verbose => o.verbose
  | .list | .help | .version => false

/-- The run that is asked for with a flag in addition. -/
def mark (o : Options) : Flag → Options
  | .trace => { o with trace := true }
  | .strict => { o with strict := true }
  | .verbose => { o with verbose := true }
  | .list | .help | .version => o

end Options

variable {args : List String} {arg : String} {o : Options} {flag : Flag}

theorem Arguments.command?_mark {a : Arguments} (h : a.command? = some (.run o)) (hf : flag ≠ .list) :
    a.has flag = o.has flag ∧ (a.mark flag).command? = some (.run (o.mark flag)) := by
  obtain ⟨machine, builtin, tape, maxSteps, list, trace, strict, verbose⟩ := a
  cases machine <;> cases builtin <;> cases list <;> simp [command?] at h
  all_goals
    subst h
    cases flag <;> simp_all [has, mark, Options.has, Options.mark, command?]

theorem parse_eq_run_iff :
    parse args = some (.run o) ↔ args ≠ [] ∧ ∃ a, Arguments.read {} none args = .ok a ∧
      a.command? = some (.run o) := by
  unfold parse
  cases args with
  | nil => simp
  | cons arg args =>
    cases Arguments.read {} none (arg :: args) with
    | ok a => simp
    | error interruption => cases interruption <;> simp

/-- A command line that asks for a run asks for the same run with a flag in front of it. -/
theorem parse_cons (flag : Flag) (harg : arg ≠ "--")
    (hread : Arguments.readArgument {} arg = .ok (Arguments.mark {} flag, none)) (hf : flag ≠ .list)
    (h : parse args = some (.run o)) (ho : o.has flag = false) :
    parse (arg :: args) = some (.run (o.mark flag)) := by
  obtain ⟨-, a, ha, hc⟩ := parse_eq_run_iff.1 h
  obtain ⟨hflag, hc'⟩ := Arguments.command?_mark hc hf
  obtain ⟨-, ha'⟩ := Arguments.read_mark ha (hflag.trans ho)
  refine parse_eq_run_iff.2 ⟨List.cons_ne_nil _ _, _, ?_, hc'⟩
  rw [Arguments.read, if_neg harg, hread]
  exact ha'

theorem parse_strict_cons (h : parse args = some (.run o)) (ho : o.strict = false) :
    parse ("--strict" :: args) = some (.run { o with strict := true }) :=
  parse_cons .strict (by decide) rfl (by decide) h ho

theorem parse_trace_cons (h : parse args = some (.run o)) (ho : o.trace = false) :
    parse ("--trace" :: args) = some (.run { o with trace := true }) :=
  parse_cons .trace (by decide) rfl (by decide) h ho

end TapeMachine.CommandLine
