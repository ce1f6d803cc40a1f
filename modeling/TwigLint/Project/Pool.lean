/-! # Worker pools

Jobs are done by a bounded number of workers whose steps may interleave in any order.  A worker
takes a job and looks whether the run goes on, then stores the result of the job in the place that
belongs to it, then draws the next number, and last reports that number.  The run may be cancelled
between any two steps; a worker that sees this when it takes a job refuses it.  A job that crashes
ends everything.
-/

namespace TwigLint

namespace Pool

/-- How far a job has come. -/
inductive Phase where
  | waiting
  /-- Taken by a worker that saw the run go on. -/
  | taken
  /-- The result is stored. -/
  | stored
  /-- The number to report is drawn. -/
  | numbered (number : Nat)
  | reported
  /-- Taken by a worker that saw the run cancelled. -/
  | refused
  deriving DecidableEq, Repr

/-- One step of the pool. -/
inductive Step where
  | take (job : Nat)
  | store (job : Nat)
  | draw (job : Nat)
  | report (job : Nat)
  | cancel
  deriving DecidableEq, Repr

/-- The jobs with how far they have come, the results so far, and the numbers reported. -/
structure State (α β ε : Type) where
  jobs : List α
  phases : List Phase
  slots : List (Option β)
  cancelled : Bool
  drawn : Nat
  numbers : List Nat
  /-- The crash that ended everything. -/
  crash : Option ε

/-- The phase of a job is no longer that of a worker at work. -/
def Phase.isIdle : Phase → Bool
  | waiting | reported | refused => true
  | taken | stored | numbered _ => false

/-- A job needs no more steps. -/
def Phase.isOver : Phase → Bool
  | reported | refused => true
  | waiting | taken | stored | numbered _ => false

namespace State

variable {α β ε : Type}

/-- The pool before its first step. -/
def initial (jobs : List α) (cancelled : Bool) : State α β ε :=
  ⟨jobs, jobs.map fun _ => .waiting, jobs.map fun _ => none, cancelled, 0, [], none⟩

/-- The number of workers at work. -/
def busy (s : State α β ε) : Nat := (s.phases.filter (!·.isIdle)).length

def setPhase (s : State α β ε) (job : Nat) (p : Phase) : State α β ε :=
  { s with phases := s.phases.set job p }

/-- The pool after a step; a step that is not possible changes nothing. -/
def next (workers : Nat) (work : α → Except ε β) (s : State α β ε) (step : Step) : State α β ε :=
  if s.crash.isSome then s
  else match step with
    | .take job =>
      if s.phases[job]? = some .waiting ∧ s.busy < workers then
        if s.cancelled then s.setPhase job .refused
        else s.setPhase job .taken
      else s
    | .store job =>
      match s.phases[job]?, s.jobs[job]? with
      | some .taken, some a =>
        match work a with
        | .ok b => { s.setPhase job .stored with slots := s.slots.set job (some b) }
        | .error e => { s with crash := some e }
      | _, _ => s
    | .draw job =>
      if s.phases[job]? = some .stored then
        { s.setPhase job (.numbered (s.drawn + 1)) with drawn := s.drawn + 1 }
      else s
    | .report job =>
      match s.phases[job]? with
      | some (.numbered number) =>
        { s.setPhase job .reported with numbers := s.numbers ++ [number] }
      | _ => s
    | .cancel => { s with cancelled := true }

/-- The pool after some steps. -/
def run (workers : Nat) (work : α → Except ε β) (s : State α β ε) (steps : List Step) :
    State α β ε :=
  steps.foldl (next workers work) s

/-- No job needs more steps. -/
def isOver (s : State α β ε) : Bool := s.crash.isSome || s.phases.all Phase.isOver

/-- The results in the order of the jobs, none if a job was refused. -/
def results? (s : State α β ε) : Option (List β) :=
  if s.phases.contains .refused then none else s.slots.mapM id

end State

/-- The steps of a worker that does a job from first to last. -/
def turn (job : Nat) : List Step := [.take job, .store job, .draw job, .report job]

/-- The steps of a single worker that does `n` jobs in their order. -/
def inOrder (n : Nat) : List Step := (List.range n).flatMap turn

end Pool

end TwigLint
