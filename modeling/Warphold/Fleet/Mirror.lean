import Warphold.Fleet.Jobs
import Warphold.Gateway.Handler

/-!
# The mirror job

For every hosted disk target with a mirror, the job pages the local objects, takes them one device
at a time, uploads what the mirror bucket lacks and hides there what is gone locally. The hides of
a device are reserved first, in one transaction that refuses them when those of the last seven days
would pass the limit.

The job is a machine that makes one call of a store, or of the database, in a step; what the call
meets is in the action (`Outcome`). Between two steps the devices, or anyone else, may change the
local store. Times are in nanoseconds; the table of hides keeps them in seconds.
-/

namespace Warphold.Fleet.Mirror

open Gateway
open Std (ExtTreeMap ExtTreeSet)

def listPage : ℤ := 1000

def hideWindow : ℤ := 7 * Scheduler.day

def percent : ℤ := 100

structure IntSetting where
  default : ℤ
  min : ℤ
  max : ℤ

def mirrorHideMaxPercent : IntSetting := ⟨25, 1, percent⟩

def mirrorHideMinCount : IntSetting := ⟨50, 1, 1000000⟩

def mirrorHideSetting (spec : IntSetting) (v : Str) : ℤ :=
  match Strconv.parseInt v with
  | some n => if spec.min ≤ n ∧ n ≤ spec.max then n else spec.default
  | none => spec.default

structure HideRow where
  target : ℕ
  device : Str
  hiddenAt : ℤ
  n : ℤ
  deriving DecidableEq, Repr

def earlierHides (rows : List HideRow) (target : ℕ) (device : Str) (since : ℤ) : ℤ :=
  ((rows.filter fun r => r.target = target && r.device = device && since ≤ r.hiddenAt).map (·.n)).sum

/-- `ReserveMirrorHides`: the table after it, the hides already in the window, and whether these
were reserved. A refusal rolls the pruning back. -/
def reserveMirrorHides (rows : List HideRow) (target : ℕ) (device : Str) (time since n limit : ℤ) :
    List HideRow × ℤ × Bool :=
  let kept := rows.filter fun r => ts since ≤ r.hiddenAt
  let earlier := earlierHides kept target device (ts since)
  if limit < earlier + n then (rows, earlier, false)
  else (kept ++ [⟨target, device, ts time, n⟩], earlier, true)

abbrev Bucket := ExtTreeMap Str ℤ

namespace Cloud

def probeName : Str := str ".warphold-probe"

def objectName (key : Str) : Except StoreErr Str :=
  if checkKey key ≠ none then .error .errBadKey
  else if (Strings.cut key 47).1 = probeName then .error .errBadKey
  else .ok key

/-- `List`: a page of the visible keys under `pre` after `after`, and whether more follow. -/
def list (b : Bucket) (pre after : Str) (max : ℤ) : List Str × Bool :=
  let max := if max ≤ 0 ∨ (maxKeys : ℤ) < max then maxKeys else max.toNat
  let keys := b.keys.filter fun k => Strings.hasPrefix k pre && Strings.lt after k
  (keys.take max, decide (max < keys.length))

def put (b : Bucket) (key : Str) (size : ℤ) (overwrite : Bool) : Bucket × Except StoreErr ℤ :=
  match objectName key with
  | .error e => (b, .error e)
  | .ok key =>
    if defaultMaxObjectSize < size then (b, .error .errTooLarge)
    else if !overwrite && b.contains key then (b, .error .errExists)
    else (b.insert key size, .ok size)

def delete (b : Bucket) (key : Str) : Bucket × Except StoreErr Unit :=
  match objectName key with
  | .error e => (b, .error e)
  | .ok key => if b.contains key then (b.erase key, .ok ()) else (b, .error .errNotFound)

end Cloud

inductive Failure where
  | notVerified
  | openingStores
  | cancelled
  | listingRoot
  | listingMirror
  | reading (key : Str) (e : StoreErr)
  | uploading (key : Str) (e : StoreErr)
  | unversioned
  | reserving
  | hideGuard (gone held earlier limit : ℤ)
  | hiding (key : Str) (e : StoreErr)
  | recording
  deriving DecidableEq, Repr

/-- What a step's call meets: nothing, a failure before it did anything, or one after. -/
inductive Outcome where
  | ok
  | failed
  | lost
  deriving DecidableEq, Repr

structure Walk where
  after : Str
  device : Str
  objs : List ObjectInfo
  deriving DecidableEq, Repr

/-- A call of `device`, with the rest of the page it was made in; the last call has none. -/
structure Frame where
  device : Str
  objs : List ObjectInfo
  ret : Option (Walk × List ObjectInfo × Bool)
  deriving DecidableEq, Repr

/-- Where a run stands: each state but `idle` and `targets` is in a target's `walk`. -/
inductive Pc where
  | idle
  | targets
  | list (w : Walk)
  | mirrored (f : Frame) (held : ExtTreeSet Str) (after : Str)
  | copy (f : Frame) (held : ExtTreeSet Str) (todo : List ObjectInfo) (offsite : ℤ)
  | hide (f : Frame) (todo : List Str) (offsite : ℤ)
  | record (f : Frame) (offsite : ℤ)

def callDevice (w : Walk) (ret : Option (Walk × List ObjectInfo × Bool)) (otherwise : Pc) : Pc :=
  if w.device = [] ∨ w.objs = [] then otherwise
  else .mirrored ⟨w.device, w.objs, ret⟩ ∅ []

/-- The loop of `walk` over a page, to the next call of `device` or of `List`. -/
def scan (truncated : Bool) : Walk → List ObjectInfo → Pc
  | w, [] => if truncated then .list w else callDevice w none .targets
  | w, o :: page =>
    let c := Strings.cut o.key 47
    if !c.2.2 || c.1 = [] then scan truncated w page
    else if c.1 ≠ w.device then
      let w' : Walk := { w with device := c.1, objs := [o] }
      callDevice w (some (w', page, truncated)) (scan truncated w' page)
    else scan truncated { w with objs := w.objs ++ [o] } page

def resume (f : Frame) : Pc :=
  match f.ret with
  | none => .targets
  | some (w, page, truncated) => scan truncated w page

/-- A target with its two stores, and what a run did there: the keys it listed, the calls of
`device` it made and the keys it hid. -/
structure Site where
  name : Str
  kind : Str
  storageMode : Str
  mirrorKind : Str
  lockVerified : Bool
  conditionalPut : Option Bool
  versioned : Bool
  tree : Tree
  bucket : Bucket
  listed : List Str
  processed : List (Str × List Str)
  hidden : List Str

def Site.plain (t : Site) : Bool := t.conditionalPut = some false

def Site.mirrors (t : Site) : Bool :=
  t.kind = str "hosted" && t.storageMode = str "disk" && t.mirrorKind ≠ []

/-- A reservation of hides that was recorded, what its limit was taken from, and how many objects
were hidden under it. -/
structure Reservation where
  target : ℕ
  device : Str
  time : ℤ
  n : ℤ
  held : ℤ
  hidePercent : ℤ
  hideMin : ℤ
  hid : ℤ
  deriving DecidableEq, Repr

def Reservation.row (r : Reservation) : HideRow := ⟨r.target, r.device, ts r.time, r.n⟩

structure Counters where
  objects : ℕ
  skipped : ℕ
  hidden : ℕ
  bytes : ℤ
  deriving DecidableEq, Repr

/-- The targets, the table of hides and the run, with the reservations made so far, the newest
first. -/
structure State where
  sites : ℕ → Site
  hides : List HideRow
  now : ℤ
  hidePercent : ℤ
  hideMin : ℤ
  cur : ℕ
  rest : List ℕ
  pc : Pc
  errs : List (Str × Failure)
  counters : Counters
  /-- The agents the fleet knows, and what is recorded of their offsite progress. -/
  agents : List Str
  offsite : List (Str × ℤ × ℤ)
  reserved : List Reservation

namespace State

def site (s : State) : Site := s.sites s.cur

def setSite (s : State) (t : Site) : State := { s with sites := Function.update s.sites s.cur t }

def setBucket (s : State) (b : Bucket) : State := s.setSite { s.site with bucket := b }

def goto (s : State) (pc : Pc) : State := { s with pc := pc }

def fail (s : State) (what : Str) (e : Failure) : State := { s with errs := s.errs ++ [(what, e)] }

def count (s : State) (f : Counters → Counters) : State := { s with counters := f s.counters }

def failAt (s : State) (f : Frame) (e : Failure) : State :=
  s.fail (s.site.name ++ [47] ++ f.device) e

def back (s : State) (f : Frame) : State :=
  (s.setSite { s.site with processed := s.site.processed ++ [(f.device, f.objs.map (·.key))] }).goto
    (resume f)

def addHid (s : State) : State :=
  { s with reserved := match s.reserved with
      | [] => []
      | r :: rs => { r with hid := r.hid + 1 } :: rs }

end State

section Steps
variable (s : State) (o : Outcome)

/-- The loop of `Mirror` over the targets, and `target` up to its call of `walk`. A failure is a
context that has ended; a lost call is one to open the target's stores. -/
def nextTarget : State :=
  match s.rest with
  | [] => s.goto .idle
  | t :: rest =>
    if o = .failed then { s.fail (str "mirror") .cancelled with rest := [] }.goto .idle
    else
      let s := { s with cur := t, rest := rest }
      if !s.site.mirrors then s
      else if !s.site.lockVerified then s.fail s.site.name .notVerified
      else if o = .lost then s.fail s.site.name .openingStores
      else s.goto (.list ⟨[], [], []⟩)

def listLocal (w : Walk) : State :=
  match (if o = .ok then Local.list (.healthy s.now) s.site.tree [] w.after listPage
      else .error .other) with
  | .error _ => (s.fail s.site.name .listingRoot).goto .targets
  | .ok (page, truncated) =>
    let s := s.setSite { s.site with listed := s.site.listed ++ page.map (·.key) }
    match page.getLast? with
    | none => s.goto (callDevice w none .targets)
    | some last => s.goto (scan truncated { w with after := last.key } page)

def listMirror (f : Frame) (held : ExtTreeSet Str) (after : Str) : State :=
  if o ≠ .ok then (s.failAt f .listingMirror).back f
  else
    let r := Cloud.list s.site.bucket (f.device ++ [47]) after listPage
    let held := held.insertMany r.1
    match r.1.getLast?, r.2 with
    | some last, true => s.goto (.mirrored f held last)
    | _, _ => s.goto (.copy f held f.objs 0)

def copyOne (f : Frame) (held : ExtTreeSet Str) (x : ObjectInfo) (todo : List ObjectInfo)
    (offsite : ℤ) : State :=
  if o = .failed then (s.failAt f .cancelled).back f
  else if held.contains x.key then
    (s.count fun c => { c with skipped := c.skipped + 1 }).goto (.copy f held todo (offsite + x.size))
  else match Local.get (.healthy s.now) s.site.tree x.key 0 (-1) with
    | .error e => (s.failAt f (.reading x.key e)).back f
    | .ok (_, info) =>
      let put := Cloud.put s.site.bucket x.key info.size s.site.plain
      let s := s.setBucket put.1
      if o = .lost then (s.failAt f (.uploading x.key .other)).back f
      else match put.2 with
        | .error .errExists =>
          (s.count fun c => { c with skipped := c.skipped + 1 }).goto
            (.copy f held todo (offsite + x.size))
        | .error e => (s.failAt f (.uploading x.key e)).back f
        | .ok n =>
          (s.count fun c => { c with objects := c.objects + 1, bytes := c.bytes + n }).goto
            (.copy f held todo (offsite + n))

def goneKeys (f : Frame) (held : ExtTreeSet Str) : List Str :=
  held.toList.filter fun k => !(f.objs.map (·.key)).contains k

/-- `hide` up to its first deletion. A lost call is a transaction that was committed. -/
def hideBegin (f : Frame) (held : ExtTreeSet Str) (offsite : ℤ) : State :=
  let gone := goneKeys f held
  if gone = [] then s.goto (.record f offsite)
  else if !s.site.lockVerified || !s.site.versioned then
    (s.failAt f .unversioned).goto (.record f offsite)
  else
    let limit := max s.hideMin (held.size * s.hidePercent / percent)
    let r := reserveMirrorHides s.hides s.cur f.device s.now (s.now - hideWindow) gone.length limit
    if o = .failed then (s.failAt f .reserving).goto (.record f offsite)
    else if !r.2.2 then
      (s.failAt f (.hideGuard gone.length held.size r.2.1 limit)).goto (.record f offsite)
    else
      let made : Reservation :=
        ⟨s.cur, f.device, s.now, gone.length, held.size, s.hidePercent, s.hideMin, 0⟩
      let s := { s with hides := r.1, reserved := made :: s.reserved }
      if o = .lost then (s.failAt f .reserving).goto (.record f offsite)
      else s.goto (.hide f gone offsite)

def hideOne (f : Frame) (k : Str) (todo : List Str) (offsite : ℤ) : State :=
  if o = .failed then (s.failAt f (.hiding k .other)).goto (.record f offsite)
  else
    let r := Cloud.delete s.site.bucket k
    match r.2 with
    | .error .errNotFound => s.goto (.hide f todo offsite)
    | .error e => (s.failAt f (.hiding k e)).goto (.record f offsite)
    | .ok () =>
      let s := (s.setSite { s.site with bucket := r.1, hidden := s.site.hidden ++ [k] }).addHid
      if o = .lost then (s.failAt f (.hiding k .other)).goto (.record f offsite)
      else (s.count fun c => { c with hidden := c.hidden + 1 }).goto (.hide f todo offsite)

def recordDevice (f : Frame) (offsite : ℤ) : State :=
  if o ≠ .ok then (s.failAt f .recording).back f
  else if s.agents.contains f.device then
    { s with offsite := s.offsite ++ [(f.device, s.now, offsite)] }.back f
  else s.back f

def next : Option State :=
  match s.pc with
  | .idle => none
  | .targets => some (nextTarget s o)
  | .list w => some (listLocal s o w)
  | .mirrored f held after => some (listMirror s o f held after)
  | .copy f held (x :: todo) offsite => some (copyOne s o f held x todo offsite)
  | .copy f held [] offsite => some (hideBegin s o f held offsite)
  | .hide f (k :: todo) offsite => some (hideOne s o f k todo offsite)
  | .hide f [] offsite => some (s.goto (.record f offsite))
  | .record f offsite => some (recordDevice s o f offsite)

end Steps

/-- What happens next: a run starts, with the texts of its two settings; it makes its next call; a
device creates an object or deletes a session marker; a target's contents change in another way. -/
inductive Action where
  | start (now : ℤ) (maxPercent minCount : Str) (targets : List ℕ)
  | next (o : Outcome)
  | put (target : ℕ) (device name : Str) (obj : Obj)
  | delete (target : ℕ) (device name : Str)
  | change (target : ℕ) (tree : Tree) (bucket : Bucket)

def Site.fresh (t : Site) : Site := { t with listed := [], processed := [], hidden := [] }

def start (s : State) (now : ℤ) (maxPercent minCount : Str) (targets : List ℕ) : State :=
  { s with
    sites := fun i => (s.sites i).fresh
    now := now
    hidePercent := mirrorHideSetting mirrorHideMaxPercent maxPercent
    hideMin := mirrorHideSetting mirrorHideMinCount minCount
    rest := targets
    pc := .targets
    errs := []
    counters := ⟨0, 0, 0, 0⟩ }

def State.setTree (s : State) (i : ℕ) (t : Tree) : State :=
  { s with sites := Function.update s.sites i { s.sites i with tree := t } }

def step (s : State) : Action → Option State
  | .start now maxPercent minCount targets =>
    match s.pc with
    | .idle => some (start s now maxPercent minCount targets)
    | _ => none
  | .next o => next s o
  | .put i device name obj =>
    let t := (s.sites i).tree
    if checkKey (device ++ 47 :: name) = none ∧ device.length ≤ 255 ∧ name.length ≤ 255
        ∧ t.entry device name = none ∧ (obj.bytes.length : ℤ) ≤ defaultMaxObjectSize then
      some (s.setTree i (t.setEntry device name (.file obj)))
    else none
  | .delete i device name =>
    if allowDelete name then
      some (s.setTree i (Local.delete (.healthy s.now) (s.sites i).tree (device ++ 47 :: name)).1)
    else none
  | .change i tree bucket =>
    some { s with
      sites := Function.update s.sites i { s.sites i with tree := tree, bucket := bucket } }

end Warphold.Fleet.Mirror
