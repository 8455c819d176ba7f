import PlatformRoutes.Platform

namespace PlatformRoutes

/-- Waits for jobs, looking at a fixed interval until a deadline. -/
structure Poller (τ : Type) where
  interval : τ
  timeout : τ

namespace Poller

variable {σ τ : Type}

/-- The interval may not be negative and the timeout has to be positive. -/
def new? [OfNat τ 0] [LE τ] [LT τ] [DecidableLE τ] [DecidableLT τ] (interval timeout : τ) :
    Except (Failure τ) (Poller τ) :=
  if interval < 0 then .error (.badArgument .pollInterval)
  else if timeout ≤ 0 then .error (.badArgument .timeout)
  else .ok ⟨interval, timeout⟩

/-- The failure that a failed job stands for, in the platform's words where it gave any. -/
def failureOf (job : Job) : Failure τ :=
  match job.details with
  | none => .jobFailed 0 ("Job " ++ job.id ++ " failed without error details") ""
  | some e => .jobFailed e.code e.description e.errorCode

def raiseForFailed (job : Job) : Run σ τ Unit :=
  if job.status = .failed then throw (failureOf job) else pure ()

variable [Add τ] [Sub τ] [OfNat τ 0] [LE τ] [LT τ] [DecidableLE τ] [DecidableLT τ]

/-- The shorter of the interval and the time that is left. -/
def pause (interval remaining : τ) : τ :=
  if remaining < interval then remaining else interval

/-- Looks at the job until it is terminal or the deadline has come; the looks are counted from one,
and each may be made in its own way. The deadline is only checked after a look, so there is always
one. -/
def pollBy (look : Nat → Run σ τ Job) (jobId : String) (interval limit deadline : τ) :
    (fuel attempts : Nat) → Run σ τ Job
  | 0, _ => throw .stalled
  | fuel + 1, attempts => do
    let job ← look (attempts + 1)
    let attempts := attempts + 1
    Run.emit (.jobPoll jobId job.status attempts)
    match job.status with
    | .finished =>
      Run.emit (.jobFinished jobId attempts)
      return job
    | .failed =>
      Run.emit (.jobFailed jobId attempts)
      throw (failureOf job)
    | .queued | .running =>
      let remaining := deadline - (← get).clock
      if remaining ≤ 0 then
        Run.emit (.jobTimeout jobId attempts)
        throw (.pollTimeout jobId limit)
      Run.sleep (pause interval remaining)
      pollBy look jobId interval limit deadline fuel attempts

/-- Waits for a job to finish by looks that are given. A given interval or timeout replaces the
poller's own, unchecked. -/
def awaitBy (p : Poller τ) (look : Nat → Run σ τ Job) (jobId : String)
    (interval timeout : Option τ) : Run σ τ Job := do
  let limit := timeout.getD p.timeout
  let w ← get
  pollBy look jobId (interval.getD p.interval) limit (w.clock + limit) w.patience 0

variable [Platform σ τ]

/-- Looks at the job by asking the platform for it each time. -/
def poll (jobId : String) (interval limit deadline : τ) (fuel attempts : Nat) : Run σ τ Job :=
  pollBy (fun _ => Run.getJob jobId) jobId interval limit deadline fuel attempts

/-- Waits for a job to finish, asking the platform for it each time. -/
def awaitCompletion (p : Poller τ) (jobId : String) (interval timeout : Option τ) :
    Run σ τ Job :=
  p.awaitBy (fun _ => Run.getJob jobId) jobId interval timeout

/-- Waits for a job that a request answered with, unless it is terminal already. -/
def awaitJob (p : Poller τ) (job : Job) : Run σ τ Job :=
  match job.status with
  | .finished => pure job
  | .failed => throw (failureOf job)
  | .queued | .running => p.awaitCompletion job.id none none

end Poller

end PlatformRoutes
