import Warphold.Lib.Runs

/-!
# Maintenance runs

A maintenance run loads the schedule, which holds the history of every task, and goes through its
tasks one after the other. Each task is reported: the run's copy of the schedule gets an entry for it
and is saved. The run ends with the first task that fails. Whether contents may be rewritten and
packs deleted is decided from the history.

What a task does, how long it takes, whether it succeeds and whether its report is saved is not in
the program's hands. A crash is a task that fails and is not saved. Times are nanoseconds since the
zero `time.Time`.
-/

namespace Warphold.Maintenance.Cycle

inductive TaskType where
  | snapshotGarbageCollection
  | deleteOrphanedBlobsQuick
  | deleteOrphanedBlobsFull
  | rewriteContentsQuick
  | rewriteContentsFull
  | dropDeletedContentsFull
  | indexCompaction
  | extendBlobRetentionTimeFull
  | cleanupLogs
  | epochAdvance
  | epochDeleteSupersededIndexes
  | epochCleanupMarkers
  | epochGenerateRange
  | epochCompactSingle
  deriving DecidableEq, Repr

structure RunInfo where
  start : ℤ
  end_ : ℤ
  success : Bool
  deriving DecidableEq, Repr

abbrev Schedule := TaskType → List RunInfo

def maxRetainedRunInfoPerRunType : ℕ := 50

def Schedule.reportRun (s : Schedule) (taskType : TaskType) (info : RunInfo) : Schedule :=
  Function.update s taskType ((info :: s taskType).take maxRetainedRunInfoPerRunType)

structure SafetyParameters where
  marginBetweenSnapshotGC : ℤ
  requireTwoGCCycles : Bool
  dropContentFromIndexExtraMargin : ℤ
  minRewriteToOrphanDeletionDelay : ℤ
  deriving DecidableEq, Repr

def hour : ℤ := 3600 * 10 ^ 9

def SafetyParameters.full : SafetyParameters := ⟨4 * hour, true, hour, hour⟩

def maxEndTime (runs : List RunInfo) : ℤ :=
  runs.foldl (fun result r => if r.success ∧ result < r.end_ then r.end_ else result) 0

namespace Schedule

variable (s : Schedule) (safety : SafetyParameters)

def latestRewrite : ℤ := maxEndTime (s .rewriteContentsFull ++ s .rewriteContentsQuick)

def latestBlobDelete : ℤ := maxEndTime (s .deleteOrphanedBlobsFull ++ s .deleteOrphanedBlobsQuick)

def shouldQuickRewriteContents : Bool :=
  s.latestRewrite = 0 || safety.minRewriteToOrphanDeletionDelay = 0
    || s.latestRewrite ≤ s.latestBlobDelete

def shouldFullRewriteContents : Bool :=
  maxEndTime (s .rewriteContentsFull) = 0 || safety.minRewriteToOrphanDeletionDelay = 0
    || maxEndTime (s .rewriteContentsFull) ≤ s.latestBlobDelete

def nextPackDeleteTime : ℤ :=
  if s.latestRewrite = 0 then 0 else s.latestRewrite + safety.minRewriteToOrphanDeletionDelay

def shouldDeleteOrphanedPacks (now : ℤ) : Bool := s.nextPackDeleteTime safety ≤ now

def hadRecentFullRewrite : Bool :=
  maxEndTime (s .rewriteContentsQuick) ≤ maxEndTime (s .rewriteContentsFull)

end Schedule

/-- `findSafeDropTime`; 0 is the zero time. Runs that start together are taken in the order of the
history. -/
def findSafeDropTime (runs : List RunInfo) (safety : SafetyParameters) : ℤ :=
  match (runs.filter (·.success)).mergeSort fun a b => b.start ≤ a.start with
  | [] => 0
  | latest :: rest =>
    match rest.find? fun r => safety.marginBetweenSnapshotGC < latest.start - r.end_ with
    | some r => r.start - safety.dropContentFromIndexExtraMargin
    | none => 0

/-- How a task goes: the time before it starts and until it ends, the contents it rewrites, whether
it succeeds and whether its report is saved. -/
structure Outcome where
  idle : ℕ
  took : ℕ
  rewritten : ℕ
  success : Bool
  saved : Bool
  deriving DecidableEq, Repr

/-- The clock and the saved schedule. The rest is history: when the tasks that rewrote a content
ended, and for each deletion of orphaned packs when it started and which of those had ended. -/
structure State where
  now : ℤ
  stored : Schedule
  rewrites : List ℤ
  deletions : List (ℤ × List ℤ)

structure Live where
  state : State
  s : Schedule

def TaskType.isRewrite : TaskType → Bool
  | .rewriteContentsFull | .rewriteContentsQuick => true
  | _ => false

def TaskType.isDelete : TaskType → Bool
  | .deleteOrphanedBlobsFull | .deleteOrphanedBlobsQuick => true
  | _ => false

def Live.report (l : Live) (taskType : TaskType) (o : Outcome) : Live :=
  let start := l.state.now + o.idle
  let end_ := start + o.took
  let s := l.s.reportRun taskType ⟨start, end_, o.success⟩
  { s
    state :=
      { now := end_
        stored := if o.saved then s else l.state.stored
        rewrites := if taskType.isRewrite ∧ 0 < o.rewritten then end_ :: l.state.rewrites
          else l.state.rewrites
        deletions := if taskType.isDelete then (start, l.state.rewrites) :: l.state.deletions
          else l.state.deletions } }

def reportRun (taskType : TaskType) (o : Outcome) (l : Live) : Except Live Live :=
  if o.success then .ok (l.report taskType o) else .error (l.report taskType o)

/-- What a run finds: whether the repository has an epoch manager, whether object locks are to be
extended, how each of its tasks goes, and the time before it looks whether packs may be deleted. -/
structure RunParameters where
  epochManager : Bool
  extendObjectLocks : Bool
  outcome : TaskType → Outcome
  pause : ℕ

section Run

variable (safety : SafetyParameters) (p : RunParameters)

def runTask (taskType : TaskType) (l : Live) : Except Live Live :=
  reportRun taskType (p.outcome taskType) l

def runTasks (ts : List TaskType) (l : Live) : Except Live Live :=
  ts.foldlM (fun l t => runTask p t l) l

def runTaskIf (b : Bool) (taskType : TaskType) (l : Live) : Except Live Live :=
  if b then runTask p taskType l else .ok l

def Live.wait (l : Live) (d : ℕ) : Live := { l with state := { l.state with now := l.state.now + d } }

def runTaskDropDeletedContentsFull (l : Live) : Except Live Live :=
  let safeDropTime := if safety.requireTwoGCCycles
    then findSafeDropTime (l.s .snapshotGarbageCollection) safety else l.state.now
  runTaskIf p (safeDropTime ≠ 0) .dropDeletedContentsFull l

def runTaskEpochMaintenanceFull (l : Live) : Except Live Live :=
  if p.epochManager then runTasks p [.epochCompactSingle, .epochAdvance, .epochGenerateRange,
    .epochCleanupMarkers, .epochDeleteSupersededIndexes] l
  else .ok l

def runQuickMaintenance (l : Live) : Except Live Live :=
  if p.epochManager then runTasks p [.epochCompactSingle, .epochAdvance] l
  else do
    let l ← runTaskIf p (l.s.shouldQuickRewriteContents safety) .rewriteContentsQuick l
    let l := l.wait p.pause
    let l ← runTaskIf p (l.s.shouldDeleteOrphanedPacks safety l.state.now)
      (if l.s.hadRecentFullRewrite then .deleteOrphanedBlobsFull else .deleteOrphanedBlobsQuick) l
    runTasks p [.indexCompaction, .cleanupLogs] l

def runFullMaintenance (l : Live) : Except Live Live := do
  let l ← runTaskIf p (l.s.shouldFullRewriteContents safety) .rewriteContentsFull l
  let l ← runTaskDropDeletedContentsFull safety p l
  let l := l.wait p.pause
  let l ← runTaskIf p (l.s.shouldDeleteOrphanedPacks safety l.state.now) .deleteOrphanedBlobsFull l
  let l ← runTaskIf p p.extendObjectLocks .extendBlobRetentionTimeFull l
  let l ← runTaskEpochMaintenanceFull p l
  runTask p .cleanupLogs l

end Run

inductive CycleAction where
  | tick (d : ℕ)
  | quick (p : RunParameters)
  | full (p : RunParameters)
  | snapshotGC (o : Outcome)

def State.after : Except Live Live → State
  | .ok l | .error l => l.state

def State.step (safety : SafetyParameters) (st : State) : CycleAction → Option State
  | .tick d => some { st with now := st.now + d }
  | .quick p => some (.after (runQuickMaintenance safety p ⟨st, st.stored⟩))
  | .full p => some (.after (runFullMaintenance safety p ⟨st, st.stored⟩))
  | .snapshotGC o => some (.after (reportRun .snapshotGarbageCollection o ⟨st, st.stored⟩))

def State.Initial (st : State) : Prop := ∃ now > 0, st = ⟨now, fun _ => [], [], []⟩

end Warphold.Maintenance.Cycle
