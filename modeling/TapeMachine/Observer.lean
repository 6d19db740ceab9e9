import TapeMachine.Journal
/-!
# Observers

An observer is told what a run is about to do and what is noted on the way, and keeps what it
likes of it. It has no say in the run.
-/
namespace TapeMachine

variable {σ τ : Type}

/-- Someone who watches a run and remembers a `σ`. -/
structure Observer (σ : Type) where
  /-- A step is about to be taken. -/
  onStep : TraceEvent → σ → σ := fun _ memory => memory
  /-- Something is noted in the journal. -/
  onEntry : Journal.Entry → σ → σ := fun _ memory => memory

namespace Observer

/-- Remembers nothing. -/
def silent : Observer Unit := {}

/-- Remembers the steps in order. -/
def recorder : Observer (Array TraceEvent) where
  onStep event memory := memory.push event

/-- Remembers the entries that matter at least as much as `level`, in order. -/
def journal (level : Journal.Level) : Observer (Array Journal.Entry) where
  onEntry entry memory := if entry.isAtLeast level then memory.push entry else memory

/-- Two observers side by side. -/
def both (first : Observer σ) (second : Observer τ) : Observer (σ × τ) where
  onStep event memory := (first.onStep event memory.1, second.onStep event memory.2)
  onEntry entry memory := (first.onEntry entry memory.1, second.onEntry entry memory.2)

end Observer

end TapeMachine
