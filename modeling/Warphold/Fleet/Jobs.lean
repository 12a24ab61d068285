import Warphold.Lib.Encoding
import Warphold.Lib.Runs

/-!
# The job table and the scheduler

One table holds the jobs of every kind: those of the whole fleet, which have no agent, and those of
one agent. The scheduler keeps the kinds that have an interval enqueued by looking at the newest row
of the kind, claims due rows and runs them one at a time. The API and the revocation of an agent
insert rows at any time, also between the scheduler's look and its insert.

Times are in nanoseconds; the table keeps them in seconds.
-/

namespace Warphold.Fleet

inductive Kind where
  | mirror
  | verify
  | testRestore
  | maintenance
  | reap
  | stats
  | digest
  deriving DecidableEq, Repr

inductive JobStatus where
  | pending
  | running
  | ok
  | error
  | skipped
  deriving DecidableEq, Repr

def JobStatus.outstanding : JobStatus → Bool
  | .pending | .running => true
  | .ok | .error | .skipped => false

structure Job where
  id : ℕ
  kind : Kind
  agentID : Option Str
  scheduledFor : ℤ
  startedAt : Option ℤ
  finishedAt : Option ℤ
  status : JobStatus
  deriving DecidableEq, Repr

def ts (t : ℤ) : ℤ := t / 10 ^ 9

def parseTS (s : ℤ) : ℤ := s * 10 ^ 9

structure Jobs where
  rows : List Job
  ordered : rows.Pairwise fun a b => a.id < b.id

namespace Jobs

def empty : Jobs := ⟨[], .nil⟩

def nextID (t : Jobs) : ℕ := (t.rows.map (·.id)).foldr max 0 + 1

lemma lt_nextID (t : Jobs) {j : Job} (h : j ∈ t.rows) : j.id < t.nextID := by
  have hle : ∀ l : List ℕ, ∀ n ∈ l, n ≤ l.foldr max 0 := by
    intro l
    induction l with
    | nil => exact fun n hn => absurd hn List.not_mem_nil
    | cons m l ih =>
      intro n hn
      rcases List.mem_cons.1 hn with rfl | hn
      · exact le_max_left _ _
      · exact (ih n hn).trans (le_max_right _ _)
  exact Nat.lt_succ_of_le (hle _ _ (List.mem_map_of_mem h))

def newJob (t : Jobs) (kind : Kind) (agentID : Option Str) (scheduledFor : ℤ) : Job :=
  ⟨t.nextID, kind, agentID, ts scheduledFor, none, none, .pending⟩

def enqueueJob (t : Jobs) (kind : Kind) (agentID : Option Str) (scheduledFor : ℤ) : Jobs where
  rows := t.rows ++ [t.newJob kind agentID scheduledFor]
  ordered := List.pairwise_append.2 ⟨t.ordered, List.pairwise_singleton _ _, fun _ ha _ hb =>
    List.mem_singleton.1 hb ▸ t.lt_nextID ha⟩

def update (t : Jobs) (f : Job → Job) (hf : ∀ j, (f j).id = j.id) : Jobs where
  rows := t.rows.map f
  ordered := by
    rw [List.pairwise_map]
    exact t.ordered.imp fun {a b} hab => by rw [hf, hf]; exact hab

def claimRow (id : ℕ) (now : ℤ) (j : Job) : Job :=
  if j.id = id then { j with status := .running, startedAt := some (ts now) } else j

def finishRow (id : ℕ) (now : ℤ) (status : JobStatus) (j : Job) : Job :=
  if j.id = id then { j with status := status, finishedAt := some (ts now) } else j

def requeueRow (kind : Kind) (cutoff : ℤ) (j : Job) : Job :=
  if j.status = .running ∧ j.kind = kind ∧ j.startedAt.all (· < ts cutoff) then
    { j with status := .pending, startedAt := none }
  else j

@[simp] lemma claimRow_id (id : ℕ) (now : ℤ) (j : Job) : (claimRow id now j).id = j.id := by
  unfold claimRow
  split_ifs <;> rfl

@[simp] lemma finishRow_id (id : ℕ) (now : ℤ) (status : JobStatus) (j : Job) :
    (finishRow id now status j).id = j.id := by
  unfold finishRow
  split_ifs <;> rfl

@[simp] lemma requeueRow_id (kind : Kind) (cutoff : ℤ) (j : Job) :
    (requeueRow kind cutoff j).id = j.id := by
  unfold requeueRow
  split_ifs <;> rfl

/-- The oldest due pending job: the first scheduled, and of those the one of the least ID. -/
def dueJob (t : Jobs) (now : ℤ) : Option Job :=
  (t.rows.filter fun j => j.status = .pending && j.scheduledFor ≤ ts now).foldl
    (fun best j => match best with
      | none => some j
      | some b => if j.scheduledFor < b.scheduledFor then some j else some b) none

def claimDueJob (t : Jobs) (now : ℤ) : Jobs × Option ℕ :=
  match t.dueJob now with
  | none => (t, none)
  | some j => (t.update (claimRow j.id now) (claimRow_id _ _), some j.id)

def finishJob (t : Jobs) (id : ℕ) (now : ℤ) (status : JobStatus) : Jobs :=
  t.update (finishRow id now status) (finishRow_id _ _ _)

def requeueStaleJobs (t : Jobs) (kind : Kind) (cutoff : ℤ) : Jobs :=
  t.update (requeueRow kind cutoff) (requeueRow_id _ _)

def recentJobs (t : Jobs) (kind : Kind) (limit : ℕ) : List Job :=
  (t.rows.reverse.filter fun j => j.kind = kind).take (if limit = 0 then 50 else limit)

end Jobs

namespace Scheduler

def second : ℤ := 10 ^ 9

def minute : ℤ := 60 * second

def hour : ℤ := 60 * minute

def day : ℤ := 24 * hour

structure Interval where
  setting : Str
  default : ℤ
  min : ℤ

def intervals : Kind → Interval
  | .mirror => ⟨str "mirror_interval", hour, 5 * minute⟩
  | .verify => ⟨str "verify_interval", 7 * day, hour⟩
  | .testRestore => ⟨str "test_restore_interval", 30 * day, hour⟩
  | .maintenance => ⟨str "maintenance_interval", day, hour⟩
  | .reap => ⟨str "reap_interval", day, hour⟩
  | .stats => ⟨str "stats_interval", day, hour⟩
  | .digest => ⟨str "digest_interval", 7 * day, day⟩

def maxIntervalSeconds : ℤ := 365 * 24 * 60 * 60

def intervalFor (settings : Str → Option Str) (iv : Interval) : ℤ :=
  match settings iv.setting with
  | none => iv.default
  | some [] => iv.default
  | some v =>
    match Strconv.parseInt v with
    | none => iv.default
    | some secs =>
      if secs < 0 then iv.min
      else
        let d := (if maxIntervalSeconds < secs then maxIntervalSeconds else secs) * second
        if iv.min ≤ d then d else iv.min

def wants (every now : ℤ) : List Job → Bool
  | [] => true
  | last :: _ =>
    if last.status.outstanding then false
    else match last.finishedAt with
      | some f => !(now - parseTS f < every)
      | none => true

/-- The scheduler's settings: the kinds it has runners for and the timeouts of their runs. -/
structure Config where
  runners : List Kind
  timeout : Kind → ℤ

section Tick

variable (cfg : Config) (settings : Str → Option Str) (now : ℤ)

def enqueues (t : Jobs) (kind : Kind) : Bool :=
  kind ∈ cfg.runners && wants (intervalFor settings (intervals kind)) now (t.recentJobs kind 1)

def enqueueInterval (t : Jobs) (kind : Kind) : Jobs :=
  if enqueues cfg settings now t kind then t.enqueueJob kind none now else t

structure Order where
  kinds : List Kind
  nodup : kinds.Nodup
  complete : ∀ kind, kind ∈ kinds

def enqueueIntervals (order : Order) (t : Jobs) : Jobs :=
  order.kinds.foldl (enqueueInterval cfg settings now) t

end Tick

end Scheduler

inductive SchedulerPc where
  | idle
  | enqueue (kind : Kind) (now : ℤ)
  | running (id : ℕ)
  deriving DecidableEq, Repr

structure Scheduling where
  jobs : Jobs
  pc : SchedulerPc

namespace Scheduling

inductive Action where
  | requeueStale (kind : Kind) (now : ℤ)
  | look (kind : Kind) (settings : Str → Option Str) (now : ℤ)
  | insert
  | claim (now : ℤ)
  /-- The run of a job ends; `none` is that its outcome could not be recorded. -/
  | finish (now : ℤ) (status : Option JobStatus)
  | crash
  | create (kind : Kind) (agentID : Option Str) (now : ℤ)
  | revoke (agentID : Str) (now retention : ℤ)

def step (cfg : Scheduler.Config) (s : Scheduling) : Action → Option Scheduling
  | .requeueStale kind now =>
    if s.pc = .idle ∧ kind ∈ cfg.runners then
      some { s with jobs := s.jobs.requeueStaleJobs kind (now - cfg.timeout kind) }
    else none
  | .look kind settings now =>
    if s.pc ≠ .idle then none
    else if Scheduler.enqueues cfg settings now s.jobs kind then some { s with pc := .enqueue kind now }
    else some s
  | .insert =>
    match s.pc with
    | .enqueue kind now => some ⟨s.jobs.enqueueJob kind none now, .idle⟩
    | _ => none
  | .claim now =>
    if s.pc ≠ .idle then none
    else match s.jobs.claimDueJob now with
      | (jobs, none) => some { s with jobs }
      | (jobs, some id) => some ⟨jobs, .running id⟩
  | .finish now status =>
    match s.pc, status with
    | .running id, some .ok => some ⟨s.jobs.finishJob id now .ok, .idle⟩
    | .running id, some .error => some ⟨s.jobs.finishJob id now .error, .idle⟩
    | .running id, some .skipped => some ⟨s.jobs.finishJob id now .skipped, .idle⟩
    | .running _, none => some { s with pc := .idle }
    | _, _ => none
  | .crash => some { s with pc := .idle }
  | .create kind agentID now => some { s with jobs := s.jobs.enqueueJob kind agentID now }
  | .revoke agentID now retention =>
    some { s with jobs := s.jobs.enqueueJob .reap (some agentID) (now + retention) }

def start : Scheduling := ⟨.empty, .idle⟩

end Scheduling

end Warphold.Fleet
