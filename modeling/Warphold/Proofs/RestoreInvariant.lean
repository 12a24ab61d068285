import Warphold.Restore.Copier

/-!
# Every entry is in one place

While nothing has failed, each entry is not yet enqueued, in the queue, in the hands of one worker,
waiting for its own entries, or completed (`Phase`), and a directory waits for as many entries as
are not completed.
-/

namespace Warphold.Restore

open Function Finset Worker

/-- The entries a restore gets to: those below placeholders are left out. -/
def Job.Visible (j : Job) : Pos → Prop
  | [] => True
  | i :: p => j.Visible p ∧ ∃ n, j.opened p = some n ∧ i < n

def Job.entryFails (j : Job) (p : Pos) : Bool :=
  match j.root.at p with
  | some (.dir _ _) => if j.shallow p then j.writeFails p else j.beginFails p || j.contentFails p
  | some (.file _ _) | some (.symlink _ _) => !j.present p && j.writeFails p
  | _ => true

/-- When errors are ignored there are none. -/
def Job.Clean (j : Job) : Prop :=
  j.ignoreErrors = true → ∀ p, j.Visible p → j.entryFails p = false ∧
    (j.opened p ≠ none → j.finishFails p = false)

inductive Stage where
  | running
  | finishing
  | completing
deriving DecidableEq

inductive Phase where
  | unborn
  | queued
  | held (w : Nat) (st : Stage)
  | waiting
  | notified
deriving DecidableEq

def Phase.started : Phase → Bool
  | .waiting | .held _ .finishing | .held _ .completing | .notified => true
  | _ => false

def Phase.closed : Phase → Bool
  | .held _ .finishing | .held _ .completing | .notified => true
  | _ => false

def Phase.done : Phase → Bool
  | .held _ .completing | .notified => true
  | _ => false

def Worker.token : Worker → Option (Pos × Stage)
  | .running p => some (p, .running)
  | .finishing _ p => some (p, .finishing)
  | .completing _ p => some (p, .completing)
  | _ => none

def open_ (ph : Pos → Phase) (p : Pos) (n : Nat) : Finset Nat :=
  (Finset.range n).filter fun k => ph (k :: p) ≠ .notified

structure Placed (j : Job) (s : State) (ph : Pos → Phase) : Prop where
  nodup : s.queue.Nodup
  queued : ∀ p, p ∈ s.queue ↔ ph p = .queued
  token : ∀ w p st, (s.workers w).token = some (p, st) ↔ ph p = .held w st
  enqueueing : ∀ w p i n, s.workers w = .enqueueing p i n →
    j.opened p = some n ∧ ph p = .waiting ∧ i < n ∧ ∀ k, i ≤ k → ph (k :: p) = .unborn
  unique : ∀ w w' p i n i' n', s.workers w = .enqueueing p i n →
    s.workers w' = .enqueueing p i' n' → w = w'
  visible : ∀ p, ph p ≠ .unborn → j.Visible p
  root : ph [] ≠ .unborn
  parent : ∀ k p, ph (k :: p) ≠ .unborn → (ph p).started = true
  counted : ∀ p, ph p = .waiting → ∃ n, j.opened p = some n ∧ s.remaining p = (open_ ph p n).card ∧
    ∀ k < n, ph (k :: p) = .unborn → ∃ w i, s.workers w = .enqueueing p i n ∧ i ≤ k
  closed : ∀ p, (ph p).closed = true → ∀ k, j.Visible (k :: p) → ph (k :: p) = .notified
  stopped : ∀ w, s.workers w = .stopped false →
    s.queue = [] ∧ ∀ w', (s.workers w').active = false

structure Logged (j : Job) (log : List Event) (ph : Pos → Phase) : Prop where
  handled : ∀ p, log.count (.written p) + log.count (.skipped p) =
    if j.opened p = none ∧ (ph p).done = true then 1 else 0
  begun : ∀ p, log.count (.begun p) = if j.opened p ≠ none ∧ (ph p).started = true then 1 else 0
  finished : ∀ p, log.count (.finished p) = if j.opened p ≠ none ∧ (ph p).done = true then 1 else 0

section Moves

variable {j : Job} {s s' : State} {ph : Pos → Phase} {w : Nat} {p : Pos}

/-- `w` can take a step with `p`: nobody else has it, and `w` has nothing else. -/
structure Movable (s : State) (ph : Pos → Phase) (w : Nat) (p : Pos) : Prop where
  born : ph p ≠ .unborn
  own : ∀ w' st, ph p = .held w' st → w' = w
  token : ∀ q st, (s.workers w).token = some (q, st) → q = p
  notEnqueueing : ∀ q i n, s.workers w ≠ .enqueueing q i n
  notEnqueued : ∀ v i n, s.workers v ≠ .enqueueing p i n
  notStopped : ∀ v, s.workers v ≠ .stopped false

variable {x : Worker} {y : Phase}

lemma active_of_token {t : Pos × Stage} (h : x.token = some t) : x.active = true := by
  cases x <;> simp [token] at h <;> rfl

lemma Placed.notEnqueued (h : Placed j s ph) (hp : ph p ≠ .waiting) (v i n : Nat) :
    s.workers v ≠ .enqueueing p i n :=
  fun hv => hp (h.enqueueing v p i n hv).2.1

lemma Placed.movable_queued (h : Placed j s ph) (hp : ph p = .queued) (hw : s.workers w = .idle) :
    Movable s ph w p where
  born := by simp [hp]
  own := by simp [hp]
  token := by simp [hw, Worker.token]
  notEnqueueing := by simp [hw]
  notEnqueued := h.notEnqueued (by simp [hp])
  notStopped v hv := by
    have := (h.queued p).mpr hp
    simp [(h.stopped v hv).1] at this

lemma Placed.movable_held (h : Placed j s ph) {st : Stage} (hw : (s.workers w).token = some (p, st)) :
    Movable s ph w p := by
  have hp := (h.token w p st).mp hw
  exact
    { born := by simp [hp]
      own := by
        intro w' st' hc
        rw [hp] at hc
        simp only [Phase.held.injEq] at hc
        exact hc.1.symm
      token := by
        intro q st' hc
        rw [hw] at hc
        simp only [Option.some.injEq, Prod.mk.injEq] at hc
        exact hc.1.symm
      notEnqueueing := by
        intro q i n hc
        simp [hc, Worker.token] at hw
      notEnqueued := h.notEnqueued (by simp [hp])
      notStopped := by
        intro v hv
        have := active_of_token hw
        simp [(h.stopped v hv).2 w] at this }

lemma token_update (h : Placed j s ph) (hm : Movable s ph w p)
    (hx : ∀ q st, x.token = some (q, st) ↔ q = p ∧ y = .held w st)
    (hy : ∀ w' st, y = .held w' st → w' = w) (v : Nat) (q : Pos) (st : Stage) :
    (update s.workers w x v).token = some (q, st) ↔
      update ph p y q = .held v st := by
  by_cases hv : v = w
  · subst hv
    rw [update_self, hx]
    by_cases hq : q = p
    · subst hq
      simp
    · rw [update_of_ne hq]
      exact ⟨fun hc => absurd hc.1 hq, fun hc => absurd (hm.token _ _ ((h.token v q st).mpr hc)) hq⟩
  · rw [update_of_ne hv, h.token]
    by_cases hq : q = p
    · subst hq
      rw [update_self]
      exact ⟨fun hc => absurd (hm.own _ _ hc) hv, fun hc => absurd (hy _ _ hc) hv⟩
    · rw [update_of_ne hq]

lemma enqueueing_update (h : Placed j s ph) (hm : Movable s ph w p)
    {v : Nat} {q : Pos} {i n : Nat} (hvw : v ≠ w)
    (hv : update s.workers w x v = .enqueueing q i n) :
    s.workers v = .enqueueing q i n ∧ j.opened q = some n ∧ update ph p y q = .waiting ∧
      i < n ∧ ∀ k, i ≤ k → update ph p y (k :: q) = .unborn := by
  rw [update_of_ne hvw] at hv
  obtain ⟨ho, hq, hi, hk⟩ := h.enqueueing v q i n hv
  have hqp : q ≠ p := fun hc => hm.notEnqueued v i n (hc ▸ hv)
  refine ⟨hv, ho, by rw [update_of_ne hqp, hq], hi, fun k hik => ?_⟩
  have hkp : (k :: q : Pos) ≠ p := fun hc => hm.born (hc ▸ hk k hik)
  rw [update_of_ne hkp, hk k hik]

lemma Placed.move (h : Placed j s ph) (hm : Movable s ph w p)
    (hx : ∀ q st, x.token = some (q, st) ↔ q = p ∧ y = .held w st)
    (hxe : ∀ q i n, x = .enqueueing q i n → q = p ∧ j.opened p = some n ∧ y = .waiting ∧ i < n ∧
      ∀ k, i ≤ k → ph (k :: p) = .unborn)
    (hxs : x ≠ .stopped false) (hy : y ≠ .unborn ∧ y ≠ .queued ∧ ∀ w' st, y = .held w' st → w' = w)
    (hqueue : s'.queue = s.queue.erase p) (hworkers : s'.workers = update s.workers w x)
    (hstart : (ph p).started = true → y.started = true)
    (hcard : ∀ q n, q ≠ p → ph q = .waiting → j.opened q = some n →
      s'.remaining q - (open_ (update ph p y) q n).card =
        s.remaining q - (open_ ph q n).card)
    (hwait : y = .waiting → ∃ n, j.opened p = some n ∧
      s'.remaining p = (open_ (update ph p y) p n).card ∧ x = .enqueueing p 0 n)
    (hclosed : y.closed = true → ∀ k, j.Visible (k :: p) → ph (k :: p) = .notified)
    (hnot : ph p ≠ .notified) :
    Placed j s' (update ph p y) := by
  obtain ⟨hyu, hyq, hyw⟩ := hy
  have hself : ∀ k : Nat, (k :: p : Pos) ≠ p := fun k => List.cons_ne_self k p
  constructor
  · rw [hqueue]
    exact h.nodup.erase p
  · intro q
    rw [hqueue, h.nodup.mem_erase_iff, h.queued]
    by_cases hq : q = p
    · subst hq
      simp [hyq]
    · simp [hq]
  · rw [hworkers]
    exact token_update h hm hx hyw
  · intro v q i n hv
    rw [hworkers] at hv
    by_cases hvw : v = w
    · subst hvw
      rw [update_self] at hv
      obtain ⟨rfl, ho, hyw, hi, hk⟩ := hxe _ _ _ hv
      refine ⟨ho, by rw [update_self, hyw], hi, fun k hik => ?_⟩
      rw [update_of_ne (hself k), hk k hik]
    · exact (enqueueing_update h hm hvw hv).2
  · intro v v' q i n i' n' hv hv'
    rw [hworkers] at hv hv'
    by_cases hvw : v = w <;> by_cases hvw' : v' = w
    · rw [hvw, hvw']
    · subst hvw
      rw [update_self] at hv
      obtain ⟨rfl, -⟩ := hxe _ _ _ hv
      exact absurd (enqueueing_update (y := y) h hm hvw' hv').1 (hm.notEnqueued _ _ _)
    · subst hvw'
      rw [update_self] at hv'
      obtain ⟨rfl, -⟩ := hxe _ _ _ hv'
      exact absurd (enqueueing_update (y := y) h hm hvw hv).1 (hm.notEnqueued _ _ _)
    · exact h.unique _ _ _ _ _ _ _ (enqueueing_update (y := y) h hm hvw hv).1
        (enqueueing_update (y := y) h hm hvw' hv').1
  · intro q hq
    by_cases hqp : q = p
    · exact hqp ▸ h.visible p hm.born
    · rw [update_of_ne hqp] at hq
      exact h.visible q hq
  · by_cases hr : ([] : Pos) = p
    · rw [hr, update_self]
      exact hyu
    · rw [update_of_ne hr]
      exact h.root
  · intro k q hkq
    have hstarted : (ph q).started = true := by
      by_cases hkp : (k :: q : Pos) = p
      · exact h.parent k q (hkp ▸ hm.born)
      · rw [update_of_ne hkp] at hkq
        exact h.parent k q hkq
    by_cases hqp : q = p
    · subst hqp
      rw [update_self]
      exact hstart hstarted
    · rwa [update_of_ne hqp]
  · intro q hq
    by_cases hqp : q = p
    · subst hqp
      rw [update_self] at hq
      obtain ⟨n, ho, hrem, hxn⟩ := hwait hq
      exact ⟨n, ho, hrem, fun k _ _ => ⟨w, 0, by rw [hworkers, update_self, hxn], k.zero_le⟩⟩
    · rw [update_of_ne hqp] at hq
      obtain ⟨n, ho, hc, hk⟩ := h.counted q hq
      have hrem := hcard q n hqp hq ho
      refine ⟨n, ho, by omega, fun k hkn hku => ?_⟩
      have hkp : (k :: q : Pos) ≠ p := by
        rintro hc
        rw [hc, update_self] at hku
        exact hyu hku
      rw [update_of_ne hkp] at hku
      obtain ⟨v, i, hv, hik⟩ := hk k hkn hku
      have hvw : v ≠ w := by
        rintro rfl
        exact hm.notEnqueueing _ _ _ hv
      exact ⟨v, i, by rw [hworkers, update_of_ne hvw, hv], hik⟩
  · intro q hq k hvis
    by_cases hqp : q = p
    · subst hqp
      rw [update_self] at hq
      rw [update_of_ne (hself k)]
      exact hclosed hq k hvis
    · rw [update_of_ne hqp] at hq
      have hkq := h.closed q hq k hvis
      have hkp : (k :: q : Pos) ≠ p := fun hc => hnot (hc ▸ hkq)
      rwa [update_of_ne hkp]
  · intro v hv
    rw [hworkers] at hv
    by_cases hvw : v = w
    · subst hvw
      rw [update_self] at hv
      exact absurd hv hxs
    · rw [update_of_ne hvw] at hv
      exact absurd hv (hm.notStopped v)

lemma open_congr {ph ph' : Pos → Phase} {p : Pos} {n : Nat}
    (h : ∀ k < n, ph' (k :: p) = .notified ↔ ph (k :: p) = .notified) :
    open_ ph' p n = open_ ph p n := by
  unfold open_
  refine filter_congr fun k hk => ?_
  rw [ne_eq, ne_eq, h k (mem_range.mp hk)]

lemma open_update_of_ne (hp : ph p ≠ .notified) (hy : y ≠ .notified) (q : Pos) (n : Nat) :
    open_ (update ph p y) q n = open_ ph q n := by
  refine open_congr fun k _ => ?_
  by_cases hkp : (k :: q : Pos) = p
  · rw [hkp, update_self]
    simp [hp, hy]
  · rw [update_of_ne hkp]

lemma card_open_notified {q : Pos} {k n : Nat} (hk : k < n) (hp : ph (k :: q) ≠ .notified) :
    (open_ (update ph (k :: q) .notified) q n).card + 1 = (open_ ph q n).card := by
  have herase : open_ (update ph (k :: q) .notified) q n = (open_ ph q n).erase k := by
    ext i
    unfold open_
    simp only [mem_filter, mem_erase, mem_range]
    by_cases hik : i = k
    · subst hik
      simp
    · rw [update_of_ne (by simpa using hik)]
      tauto
  rw [herase, card_erase_add_one]
  exact mem_filter.mpr ⟨mem_range.mpr hk, hp⟩

lemma Placed.hold (h : Placed j s ph) (hm : Movable s ph w p) {st : Stage}
    (hx : x.token = some (p, st)) (hqueue : s'.queue = s.queue.erase p)
    (hworkers : s'.workers = update s.workers w x) (hrem : ∀ q ≠ p, s'.remaining q = s.remaining q)
    (hnot : ph p ≠ .notified)
    (hstart : (ph p).started = true → (Phase.held w st).started = true)
    (hclosed : (Phase.held w st).closed = true → ∀ k, j.Visible (k :: p) → ph (k :: p) = .notified) :
    Placed j s' (update ph p (.held w st)) := by
  refine h.move hm (fun q st' => ?_) ?_ ?_ (by simp [eq_comm]) hqueue hworkers hstart ?_ (by simp)
    hclosed hnot
  · rw [hx]
    simp [eq_comm]
  · rintro q i n rfl
    simp [Worker.token] at hx
  · rintro rfl
    simp [Worker.token] at hx
  · intro q n hq _ _
    rw [open_update_of_ne hnot (by simp), hrem q hq]

lemma Placed.unborn_of_running (h : Placed j s ph) (hw : s.workers w = .running p) (k : Nat) :
    ph (k :: p) = .unborn := by
  by_contra hk
  have hp : ph p = .held w .running := (h.token w p .running).mp (by rw [hw]; rfl)
  have := h.parent k p hk
  simp [hp, Phase.started] at this

lemma Placed.begin (h : Placed j s ph) (hw : s.workers w = .running p) {n : Nat}
    (ho : j.opened p = some n) (hn : 0 < n) (hqueue : s'.queue = s.queue)
    (hworkers : s'.workers = update s.workers w (.enqueueing p 0 n))
    (hrem : s'.remaining = update s.remaining p n) :
    Placed j s' (update ph p .waiting) := by
  have htok : (s.workers w).token = some (p, .running) := by rw [hw]; rfl
  have hp := (h.token w p .running).mp htok
  have hunborn := h.unborn_of_running hw
  have hopen : open_ (update ph p .waiting) p n = range n := by
    rw [open_update_of_ne (by simp [hp]) (by simp)]
    unfold open_
    simp [hunborn]
  refine h.move (h.movable_held htok) (by simp [Worker.token]) ?_ (by simp) (by simp) ?_ hworkers ?_ ?_
    ?_ (by simp [Phase.closed]) (by simp [hp])
  · rintro q i m hc
    simp only [enqueueing.injEq] at hc
    obtain ⟨rfl, rfl, rfl⟩ := hc
    exact ⟨rfl, ho, rfl, hn, fun k _ => hunborn k⟩
  · have : p ∉ s.queue := by
      rw [h.queued, hp]
      simp
    rw [hqueue, List.erase_of_not_mem this]
  · simp [Phase.started]
  · intro q m hq _ _
    rw [open_update_of_ne (by simp [hp]) (by simp), hrem, update_of_ne hq]
  · intro _
    exact ⟨n, ho, by rw [hrem, update_self, hopen, card_range], rfl⟩

lemma Placed.notify (h : Placed j s ph) {task : Pos} (hw : s.workers w = .completing task p)
    (hqueue : s'.queue = s.queue) (hworkers : s'.workers = update s.workers w (.returned false))
    (hkid : ∀ k q, p = k :: q → s'.remaining q = s.remaining q - 1)
    (hother : ∀ q, (∀ k, p ≠ k :: q) → s'.remaining q = s.remaining q) :
    Placed j s' (update ph p .notified) := by
  have htok : (s.workers w).token = some (p, .completing) := by rw [hw]; rfl
  have hp := (h.token w p .completing).mp htok
  refine h.move (h.movable_held htok) (by simp [Worker.token]) (by simp) (by simp) (by simp) ?_ hworkers
    (by simp [Phase.started]) ?_ (by simp) ?_ (by simp [hp])
  · have : p ∉ s.queue := by
      rw [h.queued, hp]
      simp
    rw [hqueue, List.erase_of_not_mem this]
  · intro q n hq hwq ho
    by_cases hk : ∃ k, p = k :: q
    · obtain ⟨k, rfl⟩ := hk
      rw [hkid k q rfl]
      obtain ⟨-, m, hm, hkm⟩ := h.visible (k :: q) (by simp [hp])
      rw [ho] at hm
      cases hm
      have hcard : (open_ (update ph (k :: q) .notified) q n).card + 1 = (open_ ph q n).card :=
        card_open_notified hkm (by rw [hp]; simp)
      omega
    · have : open_ (update ph p .notified) q n = open_ ph q n := by
        refine open_congr fun k _ => ?_
        rw [update_of_ne fun hc => hk ⟨k, hc.symm⟩]
      rw [this, hother q fun k hc => hk ⟨k, hc⟩]
  · intro _ k hk
    exact h.closed p (by simp [hp, Phase.closed]) k hk

lemma Placed.notStopped_of_active (h : Placed j s ph) {v : Nat} (hw : (s.workers w).active = true) :
    s.workers v ≠ .stopped false := by
  intro hv
  simp [(h.stopped v hv).2 w] at hw

lemma Placed.finish (h : Placed j s ph) {task q : Pos} {k : Nat}
    (hw : s.workers w = .completing task (k :: q)) (hwq : ph q = .waiting)
    (hzero : s.remaining q - 1 = 0) (hqueue : s'.queue = s.queue)
    (hworkers : s'.workers = update s.workers w (.finishing task q))
    (hrem : s'.remaining = update s.remaining q (s.remaining q - 1)) :
    Placed j s' (update (update ph (k :: q) .notified) q (.held w .finishing)) := by
  have hne : q ≠ k :: q := (List.cons_ne_self k q).symm
  -- the entry is completed first; the counter of `q` is then zero
  have hmid : Placed j { s' with workers := update s.workers w (.returned false) }
      (update ph (k :: q) .notified) := by
    refine h.notify hw hqueue rfl (fun k' q' hc => ?_) fun q' hc => ?_
    · cases hc
      simp [hrem]
    · have : q' ≠ q := fun he => hc k (by rw [he])
      simp [hrem, this]
  have hwq' : update ph (k :: q) .notified q = .waiting := by
    rw [update_of_ne hne, hwq]
  obtain ⟨n, ho, hc, -⟩ := hmid.counted q hwq'
  have hall : ∀ i, j.Visible (i :: q) → update ph (k :: q) .notified (i :: q) = .notified := by
    rintro i ⟨-, m, hm, hi⟩
    rw [ho] at hm
    cases hm
    have hcard : (open_ (update ph (k :: q) .notified) q n).card = 0 := by
      simp only [hrem, update_self] at hc
      omega
    by_contra hopen
    rw [card_eq_zero] at hcard
    have : i ∈ open_ (update ph (k :: q) .notified) q n :=
      mem_filter.mpr ⟨mem_range.mpr hi, hopen⟩
    simp [hcard] at this
  have hm : Movable { s' with workers := update s.workers w (.returned false) }
      (update ph (k :: q) .notified) w q :=
    { born := by rw [hwq']; simp
      own := by rw [hwq']; simp
      token := by simp [Worker.token]
      notEnqueueing := by simp
      notEnqueued := by
        intro v i m hv
        obtain ⟨ho', -, hi, hk⟩ := hmid.enqueueing v q i m hv
        have := hall i ⟨hmid.visible q (by rw [hwq']; simp), m, ho', hi⟩
        rw [hk i le_rfl] at this
        cases this
      notStopped := by
        intro v hv
        have := (hmid.stopped v hv).2 w
        simp [active] at this }
  refine hmid.hold hm (show (finishing task q).token = some (q, .finishing) from rfl) ?_ ?_
    (fun _ _ => rfl) (by rw [hwq']; simp) (by simp [Phase.started]) fun _ => hall
  · have : q ∉ s'.queue := by
      rw [hmid.queued, hwq']
      simp
    exact (List.erase_of_not_mem this).symm
  · rw [hworkers]
    simp

section Enqueue

variable {i n : Nat} {x : Worker}

lemma queue_enqueued (hnodup : s.queue.Nodup) (hnq : i :: p ∉ s.queue)
    (hqueue : s'.queue = (i :: p) :: s.queue ∨ s'.queue = s.queue ++ [i :: p]) :
    s'.queue.Nodup ∧ ∀ q, q ∈ s'.queue ↔ q = i :: p ∨ q ∈ s.queue := by
  rcases hqueue with hq | hq
  · rw [hq]
    exact ⟨List.nodup_cons.mpr ⟨hnq, hnodup⟩, fun q => List.mem_cons⟩
  · rw [hq]
    refine ⟨List.nodup_append.mpr ⟨hnodup, by simp, fun a ha b hb hab => hnq ?_⟩, fun q => ?_⟩
    · rw [List.mem_singleton] at hb
      exact hb ▸ hab ▸ ha
    · simp [or_comm]

lemma workers_enqueued (h : Placed j s ph) (hw : s.workers w = .enqueueing p i n)
    (hx : x = if i + 1 < n then .enqueueing p (i + 1) n else .returned false) {v : Nat} {q : Pos}
    {m l : Nat} (hv : update s.workers w x v = .enqueueing q m l) :
    (v = w ∧ q = p ∧ m = i + 1 ∧ l = n ∧ i + 1 < n) ∨
      (v ≠ w ∧ s.workers v = .enqueueing q m l ∧ q ≠ p) := by
  by_cases hvw : v = w
  · subst hvw
    rw [update_self, hx] at hv
    split_ifs at hv with hin
    simp only [enqueueing.injEq] at hv
    exact .inl ⟨rfl, hv.1.symm, hv.2.1.symm, hv.2.2.symm, hin⟩
  · rw [update_of_ne hvw] at hv
    refine .inr ⟨hvw, hv, ?_⟩
    rintro rfl
    exact hvw (h.unique _ _ _ _ _ _ _ hv hw)

lemma token_enqueued (h : Placed j s ph) (hw : s.workers w = .enqueueing p i n)
    (hxt : x.token = none) (hu : ph (i :: p) = .unborn) (v : Nat) (q : Pos) (st : Stage) :
    (update s.workers w x v).token = some (q, st) ↔
      update ph (i :: p) .queued q = .held v st := by
  by_cases hvw : v = w
  · subst hvw
    rw [update_self, hxt]
    have htok := h.token v q st
    rw [hw] at htok
    by_cases hq : q = i :: p
    · simp [hq]
    · rw [update_of_ne hq]
      simpa [token] using htok
  · rw [update_of_ne hvw, h.token]
    by_cases hq : q = i :: p
    · subst hq
      simp [hu]
    · rw [update_of_ne hq]

lemma counted_enqueued (h : Placed j s ph) (hw : s.workers w = .enqueueing p i n)
    (hx : x = if i + 1 < n then .enqueueing p (i + 1) n else .returned false)
    (hu : ph (i :: p) = .unborn) (hworkers : s'.workers = update s.workers w x)
    (hrem : s'.remaining = s.remaining) {q : Pos} (hq : ph q = .waiting) :
    ∃ m, j.opened q = some m ∧
      s'.remaining q = (open_ (update ph (i :: p) .queued) q m).card ∧
      ∀ k < m, update ph (i :: p) .queued (k :: q) = .unborn →
        ∃ v l, s'.workers v = .enqueueing q l m ∧ l ≤ k := by
  obtain ⟨m, ho', hc, hk'⟩ := h.counted q hq
  refine ⟨m, ho', ?_, fun k hkm hku => ?_⟩
  · rw [hrem, open_update_of_ne (by simp [hu]) (by simp), hc]
  · have hki : (k :: q : Pos) ≠ i :: p := fun hc => by simp [hc] at hku
    rw [update_of_ne hki] at hku
    obtain ⟨v, l, hv, hlk⟩ := hk' k hkm hku
    by_cases hvw : v = w
    · subst hvw
      rw [hw] at hv
      simp only [enqueueing.injEq] at hv
      obtain ⟨rfl, rfl, rfl⟩ := hv
      have hne : k ≠ i := fun hc => hki (by rw [hc])
      refine ⟨v, i + 1, ?_, by omega⟩
      rw [hworkers, update_self, hx, if_pos (by omega)]
    · exact ⟨v, l, by rw [hworkers, update_of_ne hvw, hv], hlk⟩

lemma Placed.enqueue (h : Placed j s ph) {i n : Nat} (hw : s.workers w = .enqueueing p i n)
    {x : Worker} (hx : x = if i + 1 < n then .enqueueing p (i + 1) n else .returned false)
    (hqueue : s'.queue = (i :: p) :: s.queue ∨ s'.queue = s.queue ++ [i :: p])
    (hworkers : s'.workers = update s.workers w x) (hrem : s'.remaining = s.remaining) :
    Placed j s' (update ph (i :: p) .queued) := by
  obtain ⟨ho, hp, hi, hk⟩ := h.enqueueing w p i n hw
  have hu : ph (i :: p) = .unborn := hk i le_rfl
  have hself : p ≠ i :: p := (List.cons_ne_self i p).symm
  have hnq : i :: p ∉ s.queue := by
    rw [h.queued, hu]
    simp
  obtain ⟨hnodup, hmem⟩ := queue_enqueued h.nodup hnq hqueue
  have hxt : x.token = none := by
    rw [hx]
    split_ifs <;> rfl
  have hact : (s.workers w).active = true := by rw [hw]; rfl
  constructor
  · exact hnodup
  · intro q
    rw [hmem, h.queued]
    by_cases hq : q = i :: p
    · simp [hq]
    · simp [hq]
  · rw [hworkers]
    exact token_enqueued h hw hxt hu
  · intro v q m l hv
    rw [hworkers] at hv
    rcases workers_enqueued h hw hx hv with ⟨-, rfl, rfl, rfl, hin⟩ | ⟨-, hv, hqp⟩
    · refine ⟨ho, by rw [update_of_ne hself, hp], hin, fun k hik => ?_⟩
      have : (k :: q : Pos) ≠ i :: q := by
        simp only [ne_eq, List.cons.injEq, and_true]
        omega
      rw [update_of_ne this, hk k (by omega)]
    · obtain ⟨ho', hq', hi', hk'⟩ := h.enqueueing v q m l hv
      have hqi : q ≠ i :: p := fun hc => by simp [← hc, hq'] at hu
      refine ⟨ho', by rw [update_of_ne hqi, hq'], hi', fun k hmk => ?_⟩
      have : (k :: q : Pos) ≠ i :: p := fun hc => hqp (List.cons.inj hc).2
      rw [update_of_ne this, hk' k hmk]
  · intro v v' q m l m' l' hv hv'
    rw [hworkers] at hv hv'
    rcases workers_enqueued h hw hx hv with ⟨rfl, rfl, -⟩ | ⟨-, hv, hqp⟩ <;>
      rcases workers_enqueued h hw hx hv' with ⟨rfl, hq', -⟩ | ⟨-, hv', hqp'⟩
    · rfl
    · exact absurd rfl hqp'
    · exact absurd hq' hqp
    · exact h.unique _ _ _ _ _ _ _ hv hv'
  · intro q hq
    by_cases hqi : q = i :: p
    · subst hqi
      exact ⟨h.visible p (by simp [hp]), n, ho, hi⟩
    · rw [update_of_ne hqi] at hq
      exact h.visible q hq
  · rw [update_of_ne (by simp)]
    exact h.root
  · intro k q hkq
    have hq : (ph q).started = true := by
      by_cases hki : (k :: q : Pos) = i :: p
      · rw [(List.cons.inj hki).2, hp]
        rfl
      · rw [update_of_ne hki] at hkq
        exact h.parent k q hkq
    have hqi : q ≠ i :: p := fun hc => by simp [hc, hu, Phase.started] at hq
    rwa [update_of_ne hqi]
  · intro q hq
    have hqi : q ≠ i :: p := fun hc => by simp [hc] at hq
    rw [update_of_ne hqi] at hq
    exact counted_enqueued h hw hx hu hworkers hrem hq
  · intro q hq k hvis
    have hqi : q ≠ i :: p := fun hc => by simp [hc, Phase.closed] at hq
    rw [update_of_ne hqi] at hq
    have hkq := h.closed q hq k hvis
    have hki : (k :: q : Pos) ≠ i :: p := fun hc => by simp [← hc, hkq] at hu
    rwa [update_of_ne hki]
  · intro v hv
    rw [hworkers] at hv
    by_cases hvw : v = w
    · subst hvw
      rw [update_self, hx] at hv
      split_ifs at hv
    · rw [update_of_ne hvw] at hv
      exact absurd hv (h.notStopped_of_active hact)

end Enqueue

lemma Placed.rest (h : Placed j s ph) (htok : (s.workers w).token = none)
    (hne : ∀ q i n, s.workers w ≠ .enqueueing q i n) (hxt : x.token = none)
    (hxe : ∀ q i n, x ≠ .enqueueing q i n) (hqueue : s'.queue = s.queue)
    (hworkers : s'.workers = update s.workers w x) (hrem : s'.remaining = s.remaining)
    (hstopped : ∀ v, s'.workers v = .stopped false →
      s'.queue = [] ∧ ∀ v', (s'.workers v').active = false) : Placed j s' ph := by
  have hback : ∀ {v q i n}, s'.workers v = .enqueueing q i n → s.workers v = .enqueueing q i n := by
    intro v q i n hv
    rw [hworkers] at hv
    by_cases hvw : v = w
    · subst hvw
      rw [update_self] at hv
      exact absurd hv (hxe _ _ _)
    · rwa [update_of_ne hvw] at hv
  constructor
  · rw [hqueue]
    exact h.nodup
  · rw [hqueue]
    exact h.queued
  · intro v q st
    rw [← h.token, hworkers]
    by_cases hvw : v = w
    · subst hvw
      rw [update_self, hxt, htok]
    · rw [update_of_ne hvw]
  · intro v q i n hv
    exact h.enqueueing v q i n (hback hv)
  · intro v v' q i n i' n' hv hv'
    exact h.unique _ _ _ _ _ _ _ (hback hv) (hback hv')
  · exact h.visible
  · exact h.root
  · exact h.parent
  · intro q hq
    obtain ⟨n, ho, hc, hk⟩ := h.counted q hq
    refine ⟨n, ho, by rw [hrem, hc], fun k hkn hku => ?_⟩
    obtain ⟨v, i, hv, hik⟩ := hk k hkn hku
    have hvw : v ≠ w := by
      rintro rfl
      exact hne _ _ _ hv
    exact ⟨v, i, by rw [hworkers, update_of_ne hvw, hv], hik⟩
  · exact h.closed
  · exact hstopped

end Moves

end Warphold.Restore
