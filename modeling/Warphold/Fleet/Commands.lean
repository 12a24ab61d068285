import Warphold.Lib.Encoding
import Warphold.Lib.Runs

/-!
# Command delivery

An admin queues commands for agents. An agent polls: it is sent the policy and its pending commands,
runs them and reports each, and the report of a command acknowledges it. The agent also reports the
tasks it sees finished.

A message is a request or an answer that was sent at some time. Whether, when, how often and in which
order messages arrive is left open: what was sent may be delivered at any time later. A handler is a
sequence of statements on the store, and the handlers of different requests take turns.
-/

namespace Warphold.Fleet.Commands

structure Command where
  id : ℕ
  agentID : Str
  kind : Str
  source : Str
  ackedAt : Option ℤ
  deriving DecidableEq

structure PollCommand where
  id : ℕ
  kind : Str
  source : Str
  deriving DecidableEq

structure Policy where
  etag : Str
  name : Str
  sources : List (Str × Str)
  pollIntervalSeconds : ℤ
  deriving DecidableEq

inductive PollResponse where
  | notModified
  | ok (policy : Policy) (commands : List PollCommand)
  deriving DecidableEq

structure Report where
  taskID : Str
  kind : Str
  commandID : ℕ
  source : Str
  startedAt : ℤ
  finishedAt : ℤ
  status : Str
  bytes : ℤ
  files : ℤ
  snapshotID : Str
  stderr : Str
  deriving DecidableEq

/-- A row of the reports; the table has no column for the command, which is history here. -/
structure Row where
  agentID : Str
  report : Report
  deriving DecidableEq

/-- A poll that was answered, and the commands there were when its handler started. -/
structure Answer where
  agentID : Str
  before : List ℕ
  response : PollResponse

inductive Handler where
  | polling (agentID etag : Str) (policy : Policy) (before : List ℕ)
  | polled (agentID etag : Str) (policy : Policy) (before : List ℕ) (pending : List Command)
  | reporting (agentID : Str) (report : Report)
  | reported (agentID : Str) (report : Report)

structure AgentState where
  etag : Str
  queue : List PollCommand

structure State where
  commands : List Command
  reports : List Row
  policies : Str → Policy
  revoked : Str → Bool
  agents : Str → AgentState
  handlers : ℕ → Option Handler
  sentPolls : List (Str × Str)
  sentReports : List (Str × Report)
  answers : List Answer

section Store

variable (s : State)

def State.nextCommandID : ℕ := (s.commands.map (·.id)).foldr max 0 + 1

def State.addCommand (agentID kind source : Str) : State :=
  { s with commands := s.commands ++ [⟨s.nextCommandID, agentID, kind, source, none⟩] }

def State.pendingCommands (agentID : Str) : List Command :=
  s.commands.filter fun c => c.agentID = agentID && c.ackedAt = none

def State.commandAgentID (id : ℕ) : Option Str :=
  (s.commands.find? fun c => c.id = id).map (·.agentID)

/-- `AddReport`: a report of the same agent and task is there already or is inserted. -/
def State.addReport (agentID : Str) (r : Report) : State :=
  if s.reports.any fun row => row.agentID = agentID && row.report.taskID = r.taskID then s
  else { s with reports := s.reports ++ [⟨agentID, r⟩] }

def Command.ack (id : ℕ) (agentID : Str) (at_ : ℤ) (c : Command) : Command :=
  if c.id = id ∧ c.agentID = agentID ∧ c.ackedAt = none then { c with ackedAt := some at_ } else c

def State.ackCommand (id : ℕ) (agentID : Str) (at_ : ℤ) : State :=
  { s with commands := s.commands.map (Command.ack id agentID at_) }

end Store

def maxReportStderr : ℕ := 8 * 2 ^ 10

def pollResponse (etag : Str) (policy : Policy) (pending : List Command) : PollResponse :=
  if etag = policy.etag ∧ pending = [] then .notModified
  else .ok policy (pending.map fun c => ⟨c.id, c.kind, c.source⟩)

section Agent

def commandTaskID (id : ℕ) : Str := str "cmd-" ++ Strconv.formatInt id

/-- What running a command gave: an error, or for a verification its own report. -/
def commandReport (c : PollCommand) (started finished : ℤ) (result : Except Str Report) : Report :=
  let rep : Report := ⟨[], str "command", 0, [], started, 0, str "ok", 0, 0, [], []⟩
  let ran : Report × Option Str :=
    if c.kind = str "snapshot-now" ∨ c.kind = str "pause" ∨ c.kind = str "resume" then
      match result with
      | .ok _ => (rep, none)
      | .error e => (rep, some e)
    else if c.kind = str "verify" then
      match result with
      | .ok vr => (vr, none)
      | .error e => ({ rep with kind := str "verify" }, some e)
    else (rep, some (str "unknown command " ++ c.kind))
  let rep := { ran.1 with
    taskID := commandTaskID c.id, commandID := c.id, source := c.source, finishedAt := finished }
  match ran.2 with
  | none => rep
  | some e => { rep with status := str "error", stderr := e }

def digit36 (d : ℕ) : UInt8 := if d < 10 then UInt8.ofNat (48 + d) else UInt8.ofNat (87 + d)

def formatInt36 (n : ℕ) : Str := (Nat.digits 36 n).reverse.map digit36

/-- A task that has finished. Its start is read from a clock that is past the first 50 microseconds
of 1970. -/
structure TaskInfo where
  taskID : Str
  startNano : ℕ
  past : 36 ^ 3 ≤ startNano
  report : Report

def watchReport (t : TaskInfo) : Report :=
  { t.report with taskID := formatInt36 t.startNano ++ 45 :: t.taskID, commandID := 0 }

/-- `PollOnce` once it has an answer: a new policy is applied before the commands are run. -/
def AgentState.receive (a : AgentState) (response : PollResponse) (applied : Bool) : AgentState :=
  match response with
  | .notModified => a
  | .ok policy commands =>
    if policy.etag = a.etag then { a with queue := commands }
    else if applied then ⟨policy.etag, commands⟩ else a

end Agent

inductive CommandAction where
  | addCommand (agentID kind source : Str)
  | setPolicy (agentID : Str) (policy : Policy)
  | revoke (agentID : Str)
  | sendPoll (agentID : Str)
  | pollBegin (i : ℕ) (agentID etag : Str)
  | pollPending (i : ℕ)
  | pollRespond (i : ℕ)
  | receive (agentID : Str) (response : PollResponse) (applied : Bool)
  | runCommand (agentID : Str) (started finished : ℤ) (result : Except Str Report) (answered : Bool)
  | watch (agentID : Str) (t : TaskInfo)
  | reportBegin (i : ℕ) (agentID : Str) (r : Report)
  | reportInsert (i : ℕ)
  | reportAck (i : ℕ) (at_ : ℤ)
  | fail (i : ℕ)

namespace State

variable (s : State)

def setHandler (i : ℕ) (h : Option Handler) : State :=
  { s with handlers := Function.update s.handlers i h }

def setAgent (agentID : Str) (a : AgentState) : State :=
  { s with agents := Function.update s.agents agentID a }

def allowedCommands : List Str := [str "snapshot-now", str "pause", str "resume", str "verify"]

def stepServer : CommandAction → Option State
  | .addCommand agentID kind source =>
    if kind ∈ allowedCommands then some (s.addCommand agentID kind source) else none
  | .setPolicy agentID policy =>
    some { s with policies := Function.update s.policies agentID policy }
  | .revoke agentID => some { s with revoked := Function.update s.revoked agentID true }
  | .pollBegin i agentID etag =>
    if (agentID, etag) ∈ s.sentPolls ∧ s.revoked agentID = false ∧ (s.handlers i).isNone then
      some (s.setHandler i (some (.polling agentID etag (s.policies agentID)
        (s.commands.map (·.id)))))
    else none
  | .pollPending i =>
    match s.handlers i with
    | some (.polling agentID etag policy before) =>
      some (s.setHandler i (some (.polled agentID etag policy before (s.pendingCommands agentID))))
    | _ => none
  | .pollRespond i =>
    match s.handlers i with
    | some (.polled agentID etag policy before pending) =>
      some { s.setHandler i none with
        answers := ⟨agentID, before, pollResponse etag policy pending⟩ :: s.answers }
    | _ => none
  | .reportBegin i agentID r =>
    if (agentID, r) ∈ s.sentReports ∧ s.revoked agentID = false ∧ (s.handlers i).isNone
        ∧ r.taskID ≠ [] ∧ r.kind ≠ [] ∧ r.status ≠ []
        ∧ (r.commandID = 0 ∨ s.commandAgentID r.commandID = some agentID) then
      some (s.setHandler i (some (.reporting agentID
        { r with stderr := r.stderr.take maxReportStderr })))
    else none
  | .reportInsert i =>
    match s.handlers i with
    | some (.reporting agentID r) =>
      some ((s.addReport agentID r).setHandler i (some (.reported agentID r)))
    | _ => none
  | .reportAck i at_ =>
    match s.handlers i with
    | some (.reported agentID r) =>
      if r.commandID = 0 then some (s.setHandler i none)
      else some ((s.ackCommand r.commandID agentID at_).setHandler i none)
    | _ => none
  | .fail i => some (s.setHandler i none)
  | _ => none

/-- What is done by an agent. A report that is not answered makes it give up the commands left. -/
def stepAgent : CommandAction → Option State
  | .sendPoll agentID =>
    some { s with sentPolls := (agentID, (s.agents agentID).etag) :: s.sentPolls }
  | .receive agentID response applied =>
    if ∃ a ∈ s.answers, a.agentID = agentID ∧ a.response = response then
      some (s.setAgent agentID ((s.agents agentID).receive response applied))
    else none
  | .runCommand agentID started finished result answered =>
    match (s.agents agentID).queue with
    | [] => none
    | c :: queue =>
      some { s.setAgent agentID ⟨(s.agents agentID).etag, if answered then queue else []⟩ with
        sentReports := (agentID, commandReport c started finished result) :: s.sentReports }
  | .watch agentID t => some { s with sentReports := (agentID, watchReport t) :: s.sentReports }
  | _ => none

def step (a : CommandAction) : Option State :=
  match a with
  | .sendPoll _ | .receive _ _ _ | .runCommand _ _ _ _ _ | .watch _ _ => s.stepAgent a
  | .addCommand _ _ _ | .setPolicy _ _ | .revoke _ | .pollBegin _ _ _ | .pollPending _
  | .pollRespond _ | .reportBegin _ _ _ | .reportInsert _ | .reportAck _ _ | .fail _ =>
    s.stepServer a

def Initial (s : State) : Prop :=
  ∃ (policies : Str → Policy) (agents : Str → Str), s = ⟨[], [], policies, fun _ => false,
    fun a => ⟨agents a, []⟩, fun _ => none, [], [], []⟩

end State

end Warphold.Fleet.Commands
