import Warphold.Lib.Runs
import Warphold.Lib.Strings

/-!
# Restoring a snapshot tree

The copier handles each entry in a callback of a work queue that a number of workers share. A
directory's callback enqueues its entries; the last of them to complete finishes the directory and
completes it in turn, on the worker it happens to run on. An action lets one worker take its next
step, so a run is an interleaving of the workers.

An entry is named by its position: the index at each level, innermost first. What the output does
with an entry, and what exists there already, is a function of the position; the restore is not
cancelled.
-/

namespace Warphold.Restore

inductive Entry where
  | file (name : Str) (size : Int)
  | symlink (name target : Str)
  | dir (name : Str) (entries : List Entry)
  | other (name : Str)

abbrev Pos := List Nat

def Entry.at (root : Entry) : Pos → Option Entry
  | [] => some root
  | i :: p =>
    match root.at p with
    | some (.dir _ es) => es[i]?
    | _ => none

structure Job where
  root : Entry
  parallel : Int := 1
  numCPU : Nat := 1
  parallelizable : Bool := true
  ignoreErrors : Bool := false
  /-- Skipped by an incremental restore: what is there already is the same. -/
  present : Pos → Bool := fun _ => false
  shallow : Pos → Bool := fun _ => false
  writeFails : Pos → Bool := fun _ => false
  beginFails : Pos → Bool := fun _ => false
  /-- Deleting extra files or reading the directory's entries fails. -/
  contentFails : Pos → Bool := fun _ => false
  finishFails : Pos → Bool := fun _ => false

def Job.numWorkers (j : Job) : Nat :=
  if !j.parallelizable then 1
  else if j.parallel = 0 then j.numCPU
  else j.parallel.toNat

/-- The number of entries of a directory that is not restored as a placeholder. -/
def Job.opened (j : Job) (p : Pos) : Option Nat :=
  match j.root.at p with
  | some (.dir _ es) => if j.shallow p then none else some es.length
  | _ => none

inductive Event where
  | written (p : Pos)
  | skipped (p : Pos)
  | begun (p : Pos)
  | finished (p : Pos)
  | failed (p : Pos)
  | ignored (p : Pos)
deriving DecidableEq

/-- Where a worker is. `finishing task p` and `completing task p` are within the callback of `task`:
about to finish the directory `p`, about to call the completion of `p`. -/
inductive Worker where
  | idle
  | running (p : Pos)
  | enqueueing (p : Pos) (i n : Nat)
  | finishing (task p : Pos)
  | completing (task p : Pos)
  | returned (err : Bool)
  | stopped (err : Bool)
deriving DecidableEq

def Worker.active : Worker → Bool
  | .idle => false
  | .stopped _ => false
  | _ => true

structure State where
  queue : List Pos
  workers : Nat → Worker
  remaining : Pos → Int
  log : List Event

inductive Action where
  | dequeue (w : Nat)
  | noMoreWork (w : Nat)
  | contextDone (w : Nat)
  | work (w : Nat)
  | completed (w : Nat)

namespace State

variable (j : Job) (s : State) (w : Nat)

def goto (x : Worker) : State := { s with workers := Function.update s.workers w x }

def record (e : Event) : State := { s with log := e :: s.log }

def fail (task p : Pos) : State :=
  if j.ignoreErrors then (((s.record (.failed p)).record (.ignored task)).goto w (.returned false))
  else (s.record (.failed p)).goto w (.returned true)

def copyDirectory (p : Pos) (n : Nat) : State :=
  if j.beginFails p then s.fail j w p p
  else if j.contentFails p then (s.record (.begun p)).fail j w p p
  else if n = 0 then (s.record (.begun p)).goto w (.finishing p p)
  else
    ({ s with remaining := Function.update s.remaining p n }.record (.begun p)).goto w
      (.enqueueing p 0 n)

def write (p : Pos) : State :=
  if j.writeFails p then s.fail j w p p
  else (s.record (.written p)).goto w (.completing p p)

def copyEntry (p : Pos) : State :=
  match j.root.at p with
  | some (.dir _ es) => if j.shallow p then s.write j w p else s.copyDirectory j w p es.length
  | some (.file _ _) | some (.symlink _ _) =>
    if j.present p then (s.record (.skipped p)).goto w (.completing p p) else s.write j w p
  | some (.other _) => s.fail j w p p
  | none => s.fail j w p p

def enqueue (p : Pos) : State :=
  match j.root.at p with
  | some (.dir _ _) => { s with queue := p :: s.queue }
  | _ => { s with queue := s.queue ++ [p] }

def complete (task : Pos) : Pos → State
  | [] => s.goto w (.returned false)
  | _ :: q =>
    let n := s.remaining q - 1
    let s' := { s with remaining := Function.update s.remaining q n }
    if n = 0 then s'.goto w (.finishing task q) else s'.goto w (.returned false)

def work : Option State :=
  match s.workers w with
  | .running p => some (s.copyEntry j w p)
  | .enqueueing p i n =>
    some ((s.enqueue j (i :: p)).goto w
      (if i + 1 < n then .enqueueing p (i + 1) n else .returned false))
  | .finishing task p =>
    if j.finishFails p then some (s.fail j w task p)
    else some ((s.record (.finished p)).goto w (.completing task p))
  | .completing task p => some (s.complete w task p)
  | _ => none

def anyActive : Bool := (List.range j.numWorkers).any fun w => (s.workers w).active

def step (s : State) : Action → Option State
  | .dequeue w =>
    if w < j.numWorkers ∧ s.workers w = .idle then
      match s.queue with
      | [] => none
      | p :: rest => some ({ s with queue := rest }.goto w (.running p))
    else none
  | .noMoreWork w =>
    if w < j.numWorkers ∧ s.workers w = .idle ∧ s.queue = [] ∧ s.anyActive j = false then
      some (s.goto w (.stopped false))
    else none
  | .contextDone w =>
    if w < j.numWorkers ∧ s.workers w = .idle ∧
        (List.range j.numWorkers).any (fun v => s.workers v = .stopped true) = true then
      some (s.goto w (.stopped true))
    else none
  | .work w => if w < j.numWorkers then s.work j w else none
  | .completed w =>
    match s.workers w with
    | .returned err => some (s.goto w (if err then .stopped true else .idle))
    | _ => none

def initial : State where
  queue := [[]]
  workers := fun _ => .idle
  remaining := fun _ => 0
  log := []

/-- What `Process` returns once every worker has stopped: is it success? -/
def result : Option Bool :=
  if (List.range j.numWorkers).all fun w => s.workers w = .stopped false ∨ s.workers w = .stopped true
  then some ((List.range j.numWorkers).all fun w => s.workers w = .stopped false)
  else none

end State

end Warphold.Restore
