import Warphold.Lib.Encoding

/-!
# Polls and reports of an agent

Both kinds of requests read the agent's row when they are authenticated and write its version and
policy tag back at their end, each in a statement of its own.
-/

namespace Warphold.Fleet

structure AgentRow where
  version : Str
  policyETag : Str
  deriving DecidableEq

inductive AgentRequest where
  | poll (etag version : Str)
  | report
  deriving DecidableEq

def AgentRequest.touch (a : AgentRow) : AgentRequest → AgentRow
  | poll etag version => ⟨if version = [] then a.version else version, etag⟩
  | report => a

/-- The agent's row, the requests in flight with the rows they read, and the row as the polls written
so far set it (a poll that carries no version leaves it). -/
structure AgentStatus where
  row : AgentRow
  inFlight : ℕ → Option (AgentRequest × AgentRow)
  polled : AgentRow

inductive StatusAction where
  | requireAgent (i : ℕ) (r : AgentRequest)
  | touchAgent (i : ℕ)
  | giveUp (i : ℕ)

def AgentStatus.step (s : AgentStatus) : StatusAction → Option AgentStatus
  | .requireAgent i r =>
    match s.inFlight i with
    | some _ => none
    | none => some { s with inFlight := Function.update s.inFlight i (some (r, s.row)) }
  | .touchAgent i =>
    match s.inFlight i with
    | none => none
    | some (r, a) => some
      { row := r.touch a
        inFlight := Function.update s.inFlight i none
        polled := r.touch s.polled }
  -- the request ends with an error before its write, or the write fails
  | .giveUp i =>
    match s.inFlight i with
    | none => none
    | some _ => some { s with inFlight := Function.update s.inFlight i none }

def AgentStatus.start (s : AgentStatus) : Prop := s.inFlight = (fun _ => none) ∧ s.polled = s.row

end Warphold.Fleet
