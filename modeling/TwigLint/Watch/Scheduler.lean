import TwigLint.Schedule
import TwigLint.Text.Quoted

/-! # Scheduled runs

A scheduler starts full runs at the times of a schedule.  Without a schedule it does nothing.
-/

namespace TwigLint

structure Scheduler where
  schedule : Text
  running : Bool
  deriving DecidableEq, Repr

/-- Why a scheduler does not start. -/
inductive SchedulerError where
  | alreadyRunning
  | invalid (schedule : Text) (fault : ScheduleFault)

def SchedulerError.message : SchedulerError → Text
  | .alreadyRunning => "scheduler already running"
  | .invalid schedule fault =>
    "invalid cron schedule " ++ schedule.quoted ++ ": " ++ fault.message

namespace Scheduler

def new (schedule : Text) : Scheduler := ⟨schedule, false⟩

/-- Starts the scheduler. -/
def start (s : Scheduler) : Except SchedulerError Scheduler :=
  if s.schedule.isEmpty then .ok s
  else if s.running then .error .alreadyRunning
  else
    match Schedule.parse s.schedule with
    | .ok _ => .ok { s with running := true }
    | .error fault => .error (.invalid s.schedule fault)

/-- Stops the scheduler. -/
def stop (s : Scheduler) : Scheduler := { s with running := false }

/-- A next run is known. -/
def hasNext (s : Scheduler) : Bool := s.running

end Scheduler

end TwigLint
