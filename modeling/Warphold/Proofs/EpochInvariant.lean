import Warphold.Epoch.Protocol
import Warphold.Proofs.Snapshots

/-!
# What holds between the steps of the epoch protocol

An index blob counts if it was put while the epoch two later had not begun: a write that succeeds
only puts such blobs, and nobody compacts an epoch before the one two later has begun.
-/

namespace Warphold.Epoch

namespace World

/-- Every index blob of the epoch that counts is among the given. -/
def Covers (s : World) (e : ℤ) (ids : List BlobID) : Prop :=
  ∀ n, .uncompacted e n ∈ s.timely → .uncompacted e n ∈ ids

def Superseded (p : Parameters) (s : World) (e : ℤ) : Prop :=
  ∃ m ∈ s.blobs, (∃ n, m.blobID = .singleEpochCompaction e n)
    ∧ m.timestamp + p.cleanupSafetyMargin < s.now

end World

def BlobID.isCompacted (id : BlobID) : Bool := id.isSingleEpochCompaction || id.isRangeCheckpoint

structure StoreOk (p : Parameters) (s : World) : Prop where
  stamped : ∀ m ∈ s.blobs, m.timestamp ≤ s.now
  timely : ∀ e n, .uncompacted e n ∈ s.timely →
    s.has (.uncompacted e n) = true ∨ .uncompacted e n ∈ s.cleaned
  cleaned : ∀ e n, .uncompacted e n ∈ s.cleaned → s.Superseded p e
  singles : ∀ m ∈ s.blobs, ∀ e n, m.blobID = .singleEpochCompaction e n →
    (∃ id, n.set = some (id, 1)) ∧ e + 2 ≤ s.writeEpoch ∧ s.Covers e (s.covers m.blobID)
  ranges : ∀ m ∈ s.blobs, ∀ lo hi n, m.blobID = .rangeCheckpoint lo hi n →
    lo < hi ∧ hi + 2 ≤ s.writeEpoch ∧ ∀ e, lo ≤ e → e ≤ hi → s.Covers e (s.covers m.blobID)
  succeeded : ∀ id ∈ s.succeeded, ∃ e n i, id = .uncompacted e n ∧ id ∈ s.timely
    ∧ 0 ≤ e ∧ e ≤ s.writeEpoch ∧ s.owner n = some i ∧ s.tasks i = none
  owners : ∀ n i, s.owner n = some i → i < s.next

structure SnapOk (p : Parameters) (s : World) (k : Snap) : Prop where
  begun : k.begun ≤ s.now
  valid : k.cs.validUntil = k.begun + p.epochRefreshFrequency
  nonneg : 0 ≤ k.cs.writeEpoch
  epoch : k.cs.writeEpoch ≤ s.writeEpoch
  singles : ∀ e set, k.cs.singleEpochCompactionSets.lookup e = some set →
    set ≠ [] ∧ ∀ m ∈ set, m ∈ s.blobs ∧ ∃ n, m.blobID = .singleEpochCompaction e n
  chain : Chain 0 k.cs.longestRangeCheckpointSets
  ranges : ∀ c ∈ k.cs.longestRangeCheckpointSets, c.minEpoch < c.maxEpoch ∧ c.blobs ≠ []
    ∧ ∀ m ∈ c.blobs, m ∈ s.blobs ∧ ∃ n, m.blobID = .rangeCheckpoint c.minEpoch c.maxEpoch n
  old : ∀ m ∈ s.blobs, ∀ e n, m.blobID = .singleEpochCompaction e n → m.timestamp < k.begun →
    e + 2 ≤ k.cs.writeEpoch ∧ ∃ set, k.cs.singleEpochCompactionSets.lookup e = some set
  listed : ∀ e bms, (e, bms) ∈ k.cs.uncompactedEpochSets →
    k.cs.writeEpoch - 1 ≤ e ∧ (∀ m ∈ bms, m.timestamp ≤ s.now)
      ∧ ∀ n, .uncompacted e n ∈ k.before → .uncompacted e n ∈ bms.map (·.blobID)
  before : k.before ⊆ s.succeeded
    ∧ ∀ e n, .uncompacted e n ∈ k.before → e ≤ k.cs.writeEpoch
  markers : ∀ m ∈ k.cs.epochMarkerBlobs, m.blobID.isEpochMarker = true
  watermarks : ∀ m ∈ k.cs.deletionWatermarkBlobs, m.blobID.isDeletionWatermark = true

structure RefreshOk (p : Parameters) (s : World) (r : Refresh) : Prop where
  begun : r.begun ≤ s.now
  before : r.before ⊆ s.succeeded
  markers : ∀ ms, r.markers = some ms →
    (∀ m ∈ ms, m.blobID.isEpochMarker = true) ∧ loadWriteEpoch ms ≤ s.writeEpoch
      ∧ (∀ e n, .uncompacted e n ∈ r.before → e ≤ loadWriteEpoch ms)
      ∧ ∀ m ∈ s.blobs, ∀ e n, m.blobID = .singleEpochCompaction e n → m.timestamp < r.begun →
        e + 2 ≤ loadWriteEpoch ms
  watermarks : ∀ ms, r.watermarks = some ms → ∀ m ∈ ms, m.blobID.isDeletionWatermark = true
  singles : ∀ ms, r.singles = some ms →
    (∀ m ∈ ms, m ∈ s.blobs ∧ m.blobID.isSingleEpochCompaction = true)
      ∧ ∀ m ∈ s.blobs, m.blobID.isSingleEpochCompaction = true → m.timestamp < r.begun → m ∈ ms
  ranges : ∀ ms, r.ranges = some ms →
    ∀ m ∈ ms, m ∈ s.blobs ∧ m.blobID.isRangeCheckpoint = true
  uncompacted : ∀ e bms, (e, bms) ∈ r.uncompacted → (∀ m ∈ bms, m.timestamp ≤ s.now)
    ∧ (s.now ≤ r.begun + p.epochRefreshFrequency →
      ∀ n, .uncompacted e n ∈ r.before → .uncompacted e n ∈ bms.map (·.blobID))

structure ClientOk (p : Parameters) (s : World) (x : Client) : Prop where
  known : ∀ k, x.known = some k → SnapOk p s k
  refresh : ∀ r, x.refresh = some r → RefreshOk p s r

def Client.Since (x : Client) (since : ℤ) : Prop :=
  (∀ k, x.known = some k → since ≤ k.cs.writeEpoch)
    ∧ ∀ r ms, x.refresh = some r → r.markers = some ms → since ≤ loadWriteEpoch ms

/-- The call's shards are its own, and what it wrote counts unless the epoch two later has begun. -/
structure WriteOk (s : World) (i : ℕ) (w : Write) : Prop where
  owned : ∀ n ∈ w.shards, s.owner n = some i
  written : w.written ⊆ w.shards
  timely : s.writeEpoch ≤ w.epoch + 1 → ∀ n ∈ w.written, .uncompacted w.epoch n ∈ s.timely

def ListedOk (s : World) (k : Snap) (listed : List (ℤ × List Metadata)) : Prop :=
  s.now ≤ k.cs.validUntil → ∀ e bms, (e, bms) ∈ listed →
    (e + 2 ≤ k.cs.writeEpoch ∧ ∃ set, k.cs.singleEpochCompactionSets.lookup e = some set)
    ∨ (∀ n, .uncompacted e n ∈ k.before → .uncompacted e n ∈ bms.map (·.blobID))
      ∧ (e + 2 ≤ k.cs.writeEpoch → s.Covers e (bms.map (·.blobID)))

def TaskOk (p : Parameters) (s : World) (i c : ℕ) : Task → Prop
  | .writing w => WriteOk s i w
  | .dropping w k => WriteOk s i w ∧ SnapOk p s k
  | .putting w k => WriteOk s i w ∧ SnapOk p s k ∧ w.epoch = k.cs.writeEpoch
  | .checking w since => WriteOk s i w ∧ 0 ≤ w.epoch ∧ w.epoch ≤ s.writeEpoch
    ∧ since ≤ s.writeEpoch ∧ (s.clients c).Since since
    ∧ (since ≤ w.epoch + 1 → ∀ n ∈ w.written, .uncompacted w.epoch n ∈ s.timely)
  | .withdrawing w => WriteOk s i w
  | .compacting k e => SnapOk p s k ∧ e + 2 ≤ k.cs.writeEpoch
  | .compacted e covers => e + 2 ≤ s.writeEpoch ∧ s.Covers e covers
  | .ranging k lo hi listed => SnapOk p s k ∧ lo < hi ∧ hi + 2 ≤ k.cs.writeEpoch
    ∧ (∀ c ∈ k.cs.longestRangeCheckpointSets, c.maxEpoch < lo) ∧ ListedOk s k listed
  | .ranged lo hi covers => lo < hi ∧ hi + 2 ≤ s.writeEpoch
    ∧ ∀ e, lo ≤ e → e ≤ hi → s.Covers e covers
  | .cleaning k => SnapOk p s k ∧ k.cs.maxCleanupTime ≠ zeroTime
  | .deleting ids => ∀ id ∈ ids, ∃ e n, id = .uncompacted e n ∧ s.Superseded p e
  | .deletingMarkers ids => ∀ id ∈ ids,
    (∃ e, id = .epochMarker e ∧ e < s.writeEpoch) ∨ id.isDeletionWatermark = true
  | .reading k listed => SnapOk p s k ∧ ListedOk s k listed
  | .advancing _ | .watermarking _ | .watermarked => True

structure Inv (p : Parameters) (s : World) : Prop where
  store : StoreOk p s
  clients : ∀ c, ClientOk p s (s.clients c)
  tasks : ∀ i c t, s.tasks i = some (c, t) → i < s.next ∧ TaskOk p s i c t
  reads : ∀ r ∈ s.reads, r.before ⊆ r.covered

/-- What a step does to what facts about operations rest on. Only the operation `j`, if any, takes
back index blobs, and those are its own. -/
structure Moves (j : Option ℕ) (s s' : World) : Prop where
  now : s.now ≤ s'.now
  epoch : s.writeEpoch ≤ s'.writeEpoch
  kept : ∀ m ∈ s.blobs, m.blobID.isCompacted = true →
    m ∈ s'.blobs ∧ s'.covers m.blobID = s.covers m.blobID
  singles : ∀ m ∈ s'.blobs, m.blobID.isSingleEpochCompaction = true →
    m ∈ s.blobs ∨ s.now ≤ m.timestamp
  added : ∀ e n, .uncompacted e n ∈ s'.timely →
    .uncompacted e n ∈ s.timely ∨ s.writeEpoch ≤ e + 1
  withdrawn : ∀ e n, .uncompacted e n ∈ s.timely →
    .uncompacted e n ∈ s'.timely ∨ ∃ i, j = some i ∧ s.owner n = some i
  succeeded : s.succeeded ⊆ s'.succeeded
  owner : ∀ n i, s.owner n = some i → s'.owner n = some i
  since : ∀ c since, since ≤ s.writeEpoch → (s.clients c).Since since → (s'.clients c).Since since

section Moves

variable {p : Parameters} {j : Option ℕ} {s s' : World} (m : Moves j s s')
include m

lemma Moves.covers {e : ℤ} {ids : List BlobID} (he : e + 2 ≤ s.writeEpoch)
    (h : s.Covers e ids) : s'.Covers e ids := by
  intro n hn
  rcases m.added e n hn with hold | hnew
  · exact h n hold
  · omega

lemma Moves.superseded {e : ℤ} (h : s.Superseded p e) : s'.Superseded p e := by
  obtain ⟨bm, hbm, ⟨n, hid⟩, hold⟩ := h
  refine ⟨bm, (m.kept bm hbm (by rw [hid]; rfl)).1, ⟨n, hid⟩, ?_⟩
  have := m.now
  omega

lemma Moves.snapOk {k : Snap} (h : SnapOk p s k) : SnapOk p s' k where
  __ := h
  begun := h.begun.trans m.now
  epoch := h.epoch.trans m.epoch
  singles e set hset := by
    obtain ⟨hne, hall⟩ := h.singles e set hset
    refine ⟨hne, fun bm hbm => ?_⟩
    obtain ⟨hmem, n, hid⟩ := hall bm hbm
    exact ⟨(m.kept bm hmem (by rw [hid]; rfl)).1, n, hid⟩
  ranges c hc := by
    obtain ⟨hlt, hne, hall⟩ := h.ranges c hc
    refine ⟨hlt, hne, fun bm hbm => ?_⟩
    obtain ⟨hmem, n, hid⟩ := hall bm hbm
    exact ⟨(m.kept bm hmem (by rw [hid]; rfl)).1, n, hid⟩
  old bm hbm e n hid hlt := by
    rcases m.singles bm hbm (by rw [hid]; rfl) with hold | hnew
    · exact h.old bm hold e n hid hlt
    · have := h.begun
      omega
  listed e bms hbms := by
    obtain ⟨hge, hstamp, hall⟩ := h.listed e bms hbms
    exact ⟨hge, fun bm hbm => (hstamp bm hbm).trans m.now, hall⟩
  before := ⟨fun _ hid => m.succeeded (h.before.1 hid), h.before.2⟩

lemma Moves.refreshOk {r : Refresh} (h : RefreshOk p s r) : RefreshOk p s' r where
  begun := h.begun.trans m.now
  before _ hid := m.succeeded (h.before hid)
  markers ms hms := by
    obtain ⟨hkind, hle, hbefore, hold⟩ := h.markers ms hms
    refine ⟨hkind, hle.trans m.epoch, hbefore, fun bm hbm e n hid hlt => ?_⟩
    rcases m.singles bm hbm (by rw [hid]; rfl) with hmem | hnew
    · exact hold bm hmem e n hid hlt
    · have := h.begun
      omega
  watermarks := h.watermarks
  singles ms hms := by
    obtain ⟨hall, hold⟩ := h.singles ms hms
    refine ⟨fun bm hbm => ?_, fun bm hbm hkind hlt => ?_⟩
    · obtain ⟨hmem, hkind⟩ := hall bm hbm
      exact ⟨(m.kept bm hmem (by simp [BlobID.isCompacted, hkind])).1, hkind⟩
    · rcases m.singles bm hbm hkind with hmem | hnew
      · exact hold bm hmem hkind hlt
      · have := h.begun
        omega
  ranges ms hms bm hbm := by
    obtain ⟨hmem, hkind⟩ := h.ranges ms hms bm hbm
    exact ⟨(m.kept bm hmem (by simp [BlobID.isCompacted, hkind])).1, hkind⟩
  uncompacted e bms hbms := by
    obtain ⟨hstamp, hall⟩ := h.uncompacted e bms hbms
    exact ⟨fun bm hbm => (hstamp bm hbm).trans m.now, fun hnow => hall (m.now.trans hnow)⟩

lemma Moves.clientOk {x : Client} (h : ClientOk p s x) : ClientOk p s' x :=
  ⟨fun k hk => m.snapOk (h.known k hk), fun r hr => m.refreshOk (h.refresh r hr)⟩

lemma Moves.writeOk {i : ℕ} {w : Write} (hj : j ≠ some i) (h : WriteOk s i w) :
    WriteOk s' i w where
  owned n hn := m.owner n i (h.owned n hn)
  written := h.written
  timely hle n hn := by
    rcases m.withdrawn _ n (h.timely (m.epoch.trans hle) n hn) with hkept | ⟨i', hi', ho⟩
    · exact hkept
    · rw [h.owned n (h.written hn), Option.some.injEq] at ho
      exact absurd (ho ▸ hi') hj

lemma Moves.listedOk {k : Snap} (hk : SnapOk p s k) {listed : List (ℤ × List Metadata)}
    (h : ListedOk s k listed) : ListedOk s' k listed := by
  intro hnow e bms hbms
  rcases h (m.now.trans hnow) e bms hbms with hsingle | ⟨hbefore, hcov⟩
  · exact Or.inl hsingle
  · refine Or.inr ⟨hbefore, fun he => m.covers ?_ (hcov he)⟩
    have := hk.epoch
    omega

lemma Moves.taskOk {i c : ℕ} {t : Task} (hj : j ≠ some i) (h : TaskOk p s i c t) :
    TaskOk p s' i c t := by
  have hepoch := m.epoch
  cases t with
  | writing w => exact m.writeOk hj h
  | dropping w k => exact ⟨m.writeOk hj h.1, m.snapOk h.2⟩
  | putting w k => exact ⟨m.writeOk hj h.1, m.snapOk h.2.1, h.2.2⟩
  | checking w since =>
    obtain ⟨hw, h0, hle, hsince, hclient, htimely⟩ := h
    refine ⟨m.writeOk hj hw, h0, hle.trans hepoch, hsince.trans hepoch,
      m.since c since hsince hclient, fun hlt n hn => ?_⟩
    rcases m.withdrawn _ n (htimely hlt n hn) with hkept | ⟨i', hi', ho⟩
    · exact hkept
    · rw [hw.owned n (hw.written hn), Option.some.injEq] at ho
      exact absurd (ho ▸ hi') hj
  | withdrawing w => exact m.writeOk hj h
  | compacting k e => exact ⟨m.snapOk h.1, h.2⟩
  | compacted e covers => exact ⟨h.1.trans hepoch, m.covers h.1 h.2⟩
  | ranging k lo hi listed =>
    obtain ⟨hk, hlt, hhi, hchain, hlisted⟩ := h
    exact ⟨m.snapOk hk, hlt, hhi, hchain, m.listedOk hk hlisted⟩
  | ranged lo hi covers =>
    obtain ⟨hlt, hhi, hcov⟩ := h
    exact ⟨hlt, hhi.trans hepoch, fun e h₁ h₂ => m.covers (by omega) (hcov e h₁ h₂)⟩
  | cleaning k => exact ⟨m.snapOk h.1, h.2⟩
  | deleting ids =>
    intro id hid
    obtain ⟨e, n, heq, hsup⟩ := h id hid
    exact ⟨e, n, heq, m.superseded hsup⟩
  | deletingMarkers ids =>
    intro id hid
    rcases h id hid with ⟨e, heq, hlt⟩ | hw
    · exact Or.inl ⟨e, heq, hlt.trans_le hepoch⟩
    · exact Or.inr hw
  | reading k listed => exact ⟨m.snapOk h.1, m.listedOk h.1 h.2⟩
  | advancing _ => trivial
  | watermarking _ => trivial
  | watermarked => trivial

end Moves

end Warphold.Epoch
