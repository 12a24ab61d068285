import Warphold.Content.Index
import Warphold.Lib.Runs

/-!
# Deleting unreferenced packs

A writer puts a session marker, then packs whose names carry its session ID, then index blobs that
refer to the packs, and at last deletes the marker. A maintenance run notes when it started, reads the
index blobs, does other work, lists the sessions that have a marker, and then goes over the pack and
marker blobs: one that no index entry it knows of refers to, that is old enough and whose session is
not active is deleted.

The store is linearizable and there is one clock. The blobs are looked at one by one and deleted one
by one, in any order and with any steps of writers between them.
-/

namespace Warphold.Maintenance

open Content

abbrev SessionID := Str

/-- `SessionIDFromBlobID`: the first part after a dash that starts with `s`. -/
def sessionIDFromBlobID (b : Str) : SessionID :=
  match Strings.split b 45 with
  | [] => []
  | _ :: parts => (parts.find? fun sid => Strings.hasPrefix sid [115]).getD []

def SessionID.valid (sid : SessionID) : Bool := Strings.hasPrefix sid [115] && !sid.contains 45

def packBlobID (pre rand : Str) (sid : SessionID) : Str :=
  pre ++ Hex.encodeToString rand ++ 45 :: sid

def packPrefixes : List Str := [str "p", str "q"]

structure SafetyParameters where
  packDeleteMinAge : ℤ
  sessionExpirationAge : ℤ
  deriving DecidableEq, Repr

def hour : ℤ := 3600 * 10 ^ 9

def SafetyParameters.full : SafetyParameters := ⟨24 * hour, 96 * hour⟩

def cutoffTimeSlack : ℤ := 10 ^ 9

/-- The marker of a session, with the time in it and the time stamp of its blob. -/
structure Marker where
  checkpointTime : ℤ
  timestamp : ℤ
  deriving DecidableEq, Repr

structure Writer where
  checkpointTime : ℤ
  packs : List Str
  deriving DecidableEq, Repr

inductive Blob where
  | pack (id : Str)
  | marker (sid : SessionID)
  deriving DecidableEq, Repr

def Blob.sessionID : Blob → SessionID
  | .pack id => sessionIDFromBlobID id
  | .marker sid => sid

inductive Phase where
  | idle
  | started (start : ℤ)
  | refreshed (start : ℤ) (view : List Index)
  | listing (start : ℤ) (view : List Index) (names : List SessionID) (active : SessionID → Option ℤ)
  | deleting (start : ℤ) (active : SessionID → Option ℤ) (used : List Str) (queue : List Blob)

structure Repo where
  now : ℤ
  packs : Str → Option ℤ
  markers : AList fun _ : SessionID => Marker
  index : List Index
  writers : SessionID → Option Writer
  sessions : List SessionID
  phase : Phase

def usedPacks (view : List Index) : List Str :=
  (Builder.addAll ∅ view.flatten).infos.map (·.packBlobID)

section Check
variable (safety : SafetyParameters)

def tooYoung (start timestamp : ℤ) : Bool :=
  start + cutoffTimeSlack < timestamp ||
    start + cutoffTimeSlack - timestamp < safety.packDeleteMinAge

def unexpired (start checkpointTime : ℤ) : Bool :=
  start + cutoffTimeSlack - checkpointTime < safety.sessionExpirationAge

/-- The checks of `DeleteUnreferencedPacks` on a blob no known entry refers to. -/
def deletable (start : ℤ) (active : SessionID → Option ℤ) (b : Blob) (timestamp : ℤ) : Bool :=
  !tooYoung safety start timestamp && !(active b.sessionID).any (unexpired safety start)

end Check

def addSession (active : SessionID → Option ℤ) (sid : SessionID) (m : Marker) :
    SessionID → Option ℤ :=
  match active sid with
  | none => Function.update active sid (some m.checkpointTime)
  | some old =>
    if old < m.checkpointTime then Function.update active sid (some m.checkpointTime) else active

inductive Action where
  | tick (d : ℕ)
  | startSession (sid : SessionID) (checkpointTime : ℤ)
  | putPack (sid : SessionID) (pre rand : Str)
  | putIndex (sid : SessionID) (is : Index)
  | commitSession (sid : SessionID)
  | crash (sid : SessionID)
  | start
  | refresh
  | addIndexBlob (ndx : Index)
  | listMarkers
  | readMarker
  | findUsed
  | scan (b : Blob)
  | delete (b : Blob)
  | stop

namespace Repo

variable (safety : SafetyParameters)

def timestamp (s : Repo) : Blob → Option ℤ
  | .pack id => s.packs id
  | .marker sid => (s.markers.lookup sid).map (·.timestamp)

def deleteBlob (s : Repo) : Blob → Repo
  | .pack id => { s with packs := Function.update s.packs id none }
  | .marker sid => { s with markers := s.markers.erase sid }

def writer (s : Repo) (sid : SessionID) : Option Writer :=
  (s.writers sid).filter fun w => s.now < w.checkpointTime + safety.sessionExpirationAge

def stepWriter (s : Repo) : Action → Option Repo
  | .startSession sid checkpointTime =>
    if sid.valid ∧ checkpointTime ≤ s.now ∧ sid ∉ s.sessions then
      some { s with
        sessions := sid :: s.sessions
        markers := s.markers.insert sid ⟨checkpointTime, s.now⟩
        writers := Function.update s.writers sid (some ⟨checkpointTime, []⟩) }
    else none
  | .putPack sid pre rand => do
    let w ← s.writer safety sid
    let b := packBlobID pre rand sid
    if pre ∈ packPrefixes ∧ sid.valid ∧ (s.packs b).isNone then
      some { s with
        packs := Function.update s.packs b (some s.now)
        writers := Function.update s.writers sid (some { w with packs := b :: w.packs }) }
    else none
  | .putIndex sid is => do
    let w ← s.writer safety sid
    if ∀ i ∈ is, i.packBlobID ∈ w.packs then some { s with index := s.index ++ [is] } else none
  | .commitSession sid => do
    let _ ← s.writer safety sid
    some { s with
      markers := s.markers.erase sid
      writers := Function.update s.writers sid none }
  | .crash sid => some { s with writers := Function.update s.writers sid none }
  | _ => none

def stepRun (s : Repo) : Action → Option Repo
  | .start =>
    match s.phase with
    | .idle => some { s with phase := .started s.now }
    | _ => none
  | .refresh =>
    match s.phase with
    | .started start => some { s with phase := .refreshed start s.index }
    | _ => none
  | .addIndexBlob ndx =>
    match s.phase with
    | .refreshed start view =>
      if ndx ∈ s.index then some { s with phase := .refreshed start (view ++ [ndx]) } else none
    | _ => none
  | .listMarkers =>
    match s.phase with
    | .refreshed start view =>
      some { s with phase := .listing start view s.markers.keys fun _ => none }
    | _ => none
  | .readMarker =>
    match s.phase with
    | .listing start view (sid :: names) active =>
      -- a marker that is gone by now is skipped
      let active := ((s.markers.lookup sid).map (addSession active sid)).getD active
      some { s with phase := .listing start view names active }
    | _ => none
  | .findUsed =>
    match s.phase with
    | .listing start view [] active =>
      some { s with phase := .deleting start active (usedPacks view) [] }
    | _ => none
  | .scan b =>
    match s.phase, s.timestamp b with
    | .deleting start active used queue, some timestamp =>
      if (∀ id ∈ used, b ≠ .pack id) ∧ deletable safety start active b timestamp then
        some { s with phase := .deleting start active used (b :: queue) }
      else some s
    | _, _ => none
  | .delete b =>
    match s.phase with
    | .deleting start active used queue =>
      if b ∈ queue then
        some { s.deleteBlob b with phase := .deleting start active used (queue.filter (· ≠ b)) }
      else none
    | _ => none
  | .stop => some { s with phase := .idle }
  | _ => none

def step (s : Repo) (a : Action) : Option Repo :=
  match a with
  | .tick d => some { s with now := s.now + d }
  | .startSession .. | .putPack .. | .putIndex .. | .commitSession .. | .crash .. =>
    s.stepWriter safety a
  | _ => s.stepRun safety a

structure Initial (s : Repo) : Prop where
  idle : s.phase = .idle
  writers : ∀ sid, s.writers sid = none
  sessions : ∀ sid ∈ s.markers, sid ∈ s.sessions
  index : ∀ i ∈ s.index.flatten, (s.packs i.packBlobID).isSome

end Repo

end Warphold.Maintenance
