import Warphold.Proofs.RestoreInvariant

/-!
# A restore that succeeds has finished every directory

Every step keeps `Good`, the placement of the entries with what the log says of them, or ends a
callback with an error (`good_step`); an error stays (`erred_step`).
-/

namespace Warphold.Restore

open Function List State Option Phase Worker Job

variable {j : Job}

def Below (p q : Pos) : Prop := p <:+ q ∧ q ≠ p

def HandledIn (j : Job) (log : List Event) (q : Pos) : Prop :=
  (j.opened q = none → Event.written q ∈ log ∨ Event.skipped q ∈ log) ∧
    (j.opened q ≠ none → Event.finished q ∈ log)

/-- Directories are finished after all entries below them have been handled. The log has the latest
event first. -/
def Ordered (j : Job) : List Event → Prop
  | [] => True
  | e :: older => Ordered j older ∧
    ∀ p, e = .finished p → ∀ q, Below p q → j.Visible q → HandledIn j older q

section Log

variable {log : List Event} {ph ph' : Pos → Phase} {p : Pos} {y : Phase}

lemma Logged.congr (h : Logged j log ph) (hdone : ∀ q, (ph' q).done = (ph q).done)
    (hstarted : ∀ q, (ph' q).started = (ph q).started) : Logged j log ph' where
  handled q := by rw [h.handled, hdone]
  begun q := by rw [h.begun, hstarted]
  finished q := by rw [h.finished, hdone]

lemma apply_update {β : Type*} {f : Phase → β} (h : f y = f (ph p)) (q : Pos) :
    f (update ph p y q) = f (ph q) := by
  by_cases hq : q = p
  · subst hq
    rw [update_self, h]
  · rw [update_of_ne hq]

/-- An event of one position changes the counts of that position alone. -/
lemma Logged.event (h : Logged j log ph) {e : Event}
    (he : e = .written p ∨ e = .skipped p ∨ e = .begun p ∨ e = .finished p)
    (hh : (e :: log).count (.written p) + (e :: log).count (.skipped p) =
      if j.opened p = none ∧ y.done = true then 1 else 0)
    (hb : (e :: log).count (.begun p) = if j.opened p ≠ none ∧ y.started = true then 1 else 0)
    (hf : (e :: log).count (.finished p) = if j.opened p ≠ none ∧ y.done = true then 1 else 0) :
    Logged j (e :: log) (update ph p y) := by
  refine ⟨fun q => ?_, fun q => ?_, fun q => ?_⟩ <;> rcases eq_or_ne p q with rfl | hne
  · rwa [update_self]
  · rw [update_of_ne hne.symm, ← h.handled q]
    rcases he with rfl | rfl | rfl | rfl <;> simp [hne]
  · rwa [update_self]
  · rw [update_of_ne hne.symm, ← h.begun q]
    rcases he with rfl | rfl | rfl | rfl <;> simp [hne]
  · rwa [update_self]
  · rw [update_of_ne hne.symm, ← h.finished q]
    rcases he with rfl | rfl | rfl | rfl <;> simp [hne]

lemma Logged.leaf (h : Logged j log ph) {e : Event} (he : e = .written p ∨ e = .skipped p)
    (ho : j.opened p = none) (hd : (ph p).done = false) (hy : y.done = true) :
    Logged j (e :: log) (update ph p y) := by
  have hh := h.handled p
  have hb := h.begun p
  have hf := h.finished p
  simp only [ho, hd, Bool.false_eq_true, ne_eq, not_true_eq_false, and_false, false_and, if_false] at hh hb hf
  refine h.event (he.imp_right .inl) ?_ ?_ ?_ <;> rcases he with rfl | rfl <;> simp [ho, hy] <;> omega

lemma Logged.begin (h : Logged j log ph) (ho : j.opened p ≠ none) (hs : (ph p).started = false)
    (hd : y.done = (ph p).done) (hy : y.started = true) :
    Logged j (.begun p :: log) (update ph p y) := by
  refine h.event (.inr (.inr (.inl rfl))) ?_ ?_ ?_
  · simpa [hd] using h.handled p
  · simpa [ho, hy, hs] using h.begun p
  · simpa [hd] using h.finished p

lemma Logged.finish (h : Logged j log ph) (ho : j.opened p ≠ none) (hd : (ph p).done = false)
    (hs : y.started = (ph p).started) (hy : y.done = true) :
    Logged j (.finished p :: log) (update ph p y) := by
  refine h.event (.inr (.inr (.inr rfl))) ?_ ?_ ?_
  · simpa [ho] using h.handled p
  · simpa [hs] using h.begun p
  · simpa [ho, hy, hd] using h.finished p

lemma Logged.handledIn (h : Logged j log ph) {q : Pos} (hq : (ph q).done = true) :
    HandledIn j log q := by
  constructor
  · intro ho
    have := h.handled q
    rw [if_pos ⟨ho, hq⟩] at this
    by_contra hc
    rw [not_or] at hc
    rw [count_eq_zero.mpr hc.1, count_eq_zero.mpr hc.2] at this
    cases this
  · intro ho
    have := h.finished q
    rw [if_pos ⟨ho, hq⟩] at this
    exact count_pos_iff.mp (by omega)

end Log

lemma Placed.notified_below {s : State} {ph : Pos → Phase} (h : Placed j s ph) {p : Pos}
    (hp : (ph p).closed = true) : ∀ q, Below p q → j.Visible q → ph q = .notified
  | [], hb, _ => absurd (suffix_nil.mp hb.1).symm hb.2
  | k :: q, hb, hv => by
    rcases suffix_cons_iff.mp hb.1 with hc | hc
    · exact absurd hc.symm hb.2
    · by_cases hq : q = p
      · subst hq
        exact h.closed q hp k hv
      · have := h.notified_below hp q ⟨hc, hq⟩ hv.1
        exact h.closed q (by rw [this]; rfl) k hv

structure Fits (j : Job) (s : State) (ph : Pos → Phase) : Prop where
  placed : Placed j s ph
  positive : ∀ p, ph p = .waiting → 0 < s.remaining p
  opened : ∀ p w, ph p = .held w .finishing → j.opened p ≠ none
  logged : Logged j s.log ph
  ordered : Ordered j s.log

def Good (j : Job) (s : State) : Prop := ∃ ph, Fits j s ph

def Erred (j : Job) (s : State) : Prop :=
  ∃ w < j.numWorkers, s.workers w = .returned true ∨ s.workers w = .stopped true

section Cases

variable (s : State) (w : Nat) (p : Pos)

lemma opened_of_shallow (h : j.shallow p = true) : j.opened p = none := by
  unfold opened
  split <;> simp [h]

lemma copyEntry_cases :
    (j.entryFails p = true ∧ ∃ s₀, s.copyEntry j w p = fail j s₀ w p p ∧ s₀.workers = s.workers) ∨
    (j.opened p = none ∧ ∃ e, (e = .written p ∨ e = .skipped p) ∧
      s.copyEntry j w p = (s.record e).goto w (.completing p p)) ∨
    (j.opened p = some 0 ∧ s.copyEntry j w p = (s.record (.begun p)).goto w (.finishing p p)) ∨
    ∃ n, 0 < n ∧ j.opened p = some n ∧ s.copyEntry j w p =
      ({ s with remaining := update s.remaining p n }.record (.begun p)).goto w
        (.enqueueing p 0 n) := by
  have hwrite : j.opened p = none → (j.writeFails p = true → j.entryFails p = true) →
      (j.entryFails p = true ∧ ∃ s₀, s.write j w p = fail j s₀ w p p ∧ s₀.workers = s.workers) ∨
      (j.opened p = none ∧ ∃ e, (e = .written p ∨ e = .skipped p) ∧
        s.write j w p = (s.record e).goto w (.completing p p)) := by
    intro ho hf
    unfold write
    split_ifs with h
    · exact .inl ⟨hf h, s, rfl, rfl⟩
    · exact .inr ⟨ho, _, .inl rfl, rfl⟩
  have hleaf : j.opened p = none → (j.present p = false → j.writeFails p = true → j.entryFails p = true) →
      (j.entryFails p = true ∧ ∃ s₀, (if j.present p then (s.record (.skipped p)).goto w (.completing p p)
          else s.write j w p) = fail j s₀ w p p ∧ s₀.workers = s.workers) ∨
      (j.opened p = none ∧ ∃ e, (e = .written p ∨ e = .skipped p) ∧
        (if j.present p then (s.record (.skipped p)).goto w (.completing p p) else s.write j w p) =
          (s.record e).goto w (.completing p p)) := by
    intro ho hf
    split_ifs with h
    · exact .inr ⟨ho, _, .inr rfl, rfl⟩
    · exact hwrite ho (hf (Bool.eq_false_iff.mpr h))
  unfold copyEntry
  rcases hat : j.root.at p with _ | e
  · exact .inl ⟨by simp [entryFails, hat], s, rfl, rfl⟩
  · rcases e with ⟨name, size⟩ | ⟨name, target⟩ | ⟨name, es⟩ | name
    · refine (hleaf (by simp [opened, hat]) fun h h' => ?_).imp_right .inl
      simp [entryFails, hat, h, h']
    · refine (hleaf (by simp [opened, hat]) fun h h' => ?_).imp_right .inl
      simp [entryFails, hat, h, h']
    · dsimp only
      by_cases hsh : j.shallow p = true
      · rw [if_pos hsh]
        refine (hwrite (opened_of_shallow p hsh) fun h => ?_).imp_right .inl
        simp [entryFails, hat, hsh, h]
      · rw [if_neg hsh]
        have ho : j.opened p = some es.length := by simp [opened, hat, hsh]
        unfold copyDirectory
        split_ifs with hb hc hn
        · exact .inl ⟨by simp [entryFails, hat, hsh, hb], s, rfl, rfl⟩
        · exact .inl ⟨by simp [entryFails, hat, hsh, hc], s.record (.begun p), rfl, rfl⟩
        · exact .inr (.inr (.inl ⟨by rw [ho, hn], rfl⟩))
        · exact .inr (.inr (.inr ⟨es.length, Nat.pos_of_ne_zero hn, ho, rfl⟩))
    · exact .inl ⟨by simp [entryFails, hat], s, rfl, rfl⟩

lemma enqueue_queue :
    ((s.enqueue j p).queue = p :: s.queue ∨ (s.enqueue j p).queue = s.queue ++ [p]) ∧
      (s.enqueue j p).workers = s.workers ∧ (s.enqueue j p).remaining = s.remaining ∧
      (s.enqueue j p).log = s.log := by
  unfold enqueue
  split
  · exact ⟨.inl rfl, rfl, rfl, rfl⟩
  · exact ⟨.inr rfl, rfl, rfl, rfl⟩

lemma fail_erred {s : State} {w : Nat} {task : Pos} (hw : w < j.numWorkers) (hi : j.ignoreErrors = false) :
    Erred j (fail j s w task p) := by
  refine ⟨w, hw, .inl ?_⟩
  simp [fail, hi, goto]

end Cases

section Steps

variable {s s' : State} {ph : Pos → Phase} {w : Nat} {p : Pos}

lemma waiting_of_started {y : Phase} (hs : y.started = true) (hc : y.closed ≠ true) : y = .waiting := by
  unfold started at hs
  unfold closed at hc
  split at hs <;> simp_all

lemma queue_erase (h : Placed j s ph) (hp : ph p ≠ .queued) : s.queue = s.queue.erase p := by
  rw [erase_of_not_mem]
  rwa [h.queued]

lemma update_held_finishing {y : Phase} (h : Fits j s ph)
    (hy : ∀ v, y = .held v .finishing → j.opened p ≠ none) (q : Pos) (v : Nat)
    (hq : update ph p y q = .held v .finishing) : j.opened q ≠ none := by
  by_cases hqp : q = p
  · subst hqp
    rw [update_self] at hq
    exact hy v hq
  · rw [update_of_ne hqp] at hq
    exact h.opened q v hq

lemma update_waiting {y : Phase} (h : Fits j s ph) (hy : y ≠ .waiting)
    (hrem : ∀ q, ph q = .waiting → s'.remaining q = s.remaining q) (q : Pos)
    (hq : update ph p y q = .waiting) : 0 < s'.remaining q := by
  by_cases hqp : q = p
  · subst hqp
    rw [update_self] at hq
    exact absurd hq hy
  · rw [update_of_ne hqp] at hq
    rw [hrem q hq]
    exact h.positive q hq

lemma ordered_cons {log : List Event} (h : Ordered j log) {e : Event} (he : ∀ p, e ≠ .finished p) :
    Ordered j (e :: log) :=
  ⟨h, fun p hp => absurd hp (he p)⟩

lemma Fits.dequeue (h : Fits j s ph) {rest : List Pos} (hq : s.queue = p :: rest)
    (hw : s.workers w = .idle) : Good j ({ s with queue := rest }.goto w (.running p)) := by
  have hp : ph p = .queued := (h.placed.queued p).mp (by simp [hq])
  refine ⟨update ph p (.held w .running), ?_, ?_, ?_, ?_, h.ordered⟩
  · refine h.placed.hold (h.placed.movable_queued hp hw)
      (show (running p).token = some (p, .running) from rfl) ?_ rfl (fun _ _ => rfl) (by simp [hp])
      (by simp [hp, started]) (by simp [closed])
    simp [goto, hq]
  · exact update_waiting h (by simp) fun _ _ => rfl
  · exact update_held_finishing h (by simp)
  · exact h.logged.congr (apply_update (by simp [hp, done])) (apply_update (by simp [hp, started]))

lemma Fits.running (h : Fits j s ph) (hw : s.workers w = .running p) :
    ph p = .held w .running ∧ j.Visible p ∧ Movable s ph w p := by
  have htok : (s.workers w).token = some (p, .running) := by rw [hw]; rfl
  have hp := (h.placed.token w p _).mp htok
  exact ⟨hp, h.placed.visible p (by simp [hp]), h.placed.movable_held htok⟩

lemma Fits.leaf (h : Fits j s ph) (hw : s.workers w = .running p) (ho : j.opened p = none) {e : Event}
    (he : e = .written p ∨ e = .skipped p) : Good j ((s.record e).goto w (.completing p p)) := by
  obtain ⟨hp, -, hm⟩ := h.running hw
  have herase : s.queue = s.queue.erase p := queue_erase h.placed (by simp [hp])
  refine ⟨update ph p (.held w .completing), ?_, ?_, ?_, ?_, ?_⟩
  · refine h.placed.hold hm (show (completing p p).token = some (p, .completing) from rfl)
      herase rfl (fun _ _ => rfl) (by simp [hp]) (by simp [hp, started]) ?_
    rintro - k ⟨-, n, hn, -⟩
    simp [ho] at hn
  · exact update_waiting h (by simp) fun _ _ => rfl
  · exact update_held_finishing h (by simp)
  · exact h.logged.leaf he ho (by simp [hp, done]) rfl
  · exact ordered_cons h.ordered (by rcases he with rfl | rfl <;> simp)

lemma Fits.beginEmpty (h : Fits j s ph) (hw : s.workers w = .running p) (ho : j.opened p = some 0) :
    Good j ((s.record (.begun p)).goto w (.finishing p p)) := by
  obtain ⟨hp, -, hm⟩ := h.running hw
  have herase : s.queue = s.queue.erase p := queue_erase h.placed (by simp [hp])
  refine ⟨update ph p (.held w .finishing), ?_, ?_, ?_, ?_, ordered_cons h.ordered (by simp)⟩
  · refine h.placed.hold hm (show (finishing p p).token = some (p, .finishing) from rfl)
      herase rfl (fun _ _ => rfl) (by simp [hp]) (by simp [hp, started]) ?_
    rintro - k ⟨-, n, hn, hk⟩
    rw [ho] at hn
    cases hn
    exact absurd hk (Nat.not_lt_zero k)
  · exact update_waiting h (by simp) fun _ _ => rfl
  · exact update_held_finishing h (by simp [ho])
  · exact h.logged.begin (by simp [ho]) (by simp [hp, started]) (by simp [hp, done]) rfl

lemma Fits.begin (h : Fits j s ph) (hw : s.workers w = .running p) {n : Nat} (hn : 0 < n)
    (ho : j.opened p = some n) :
    Good j (({ s with remaining := update s.remaining p n }.record (.begun p)).goto w
      (.enqueueing p 0 n)) := by
  obtain ⟨hp, -, -⟩ := h.running hw
  refine ⟨update ph p .waiting, h.placed.begin hw ho hn rfl rfl rfl, ?_, ?_, ?_,
    ordered_cons h.ordered (by simp)⟩
  · intro q hq
    by_cases hqp : q = p
    · subst hqp
      simpa [goto, record] using hn
    · rw [update_of_ne hqp] at hq
      simpa [goto, record, hqp] using h.positive q hq
  · exact update_held_finishing h (by simp)
  · exact h.logged.begin (by simp [ho]) (by simp [hp, started]) (by simp [hp, done]) rfl

lemma Fits.enqueue (h : Fits j s ph) {i n : Nat} (hw : s.workers w = .enqueueing p i n) :
    Good j ((s.enqueue j (i :: p)).goto w
      (if i + 1 < n then .enqueueing p (i + 1) n else .returned false)) := by
  obtain ⟨hqueue, hworkers, hrem, hlog⟩ := enqueue_queue (j := j) s (i :: p)
  have hu : ph (i :: p) = .unborn := (h.placed.enqueueing w p i n hw).2.2.2 i le_rfl
  refine ⟨update ph (i :: p) .queued, ?_, ?_, ?_, ?_, ?_⟩
  · refine h.placed.enqueue hw rfl hqueue ?_ hrem
    unfold goto
    rw [hworkers]
  · exact update_waiting h (by simp) fun q _ => by rw [goto, hrem]
  · exact update_held_finishing h (by simp)
  · rw [goto, hlog]
    exact h.logged.congr (apply_update (by simp [hu, done])) (apply_update (by simp [hu, started]))
  · rw [goto, hlog]
    exact h.ordered

lemma Fits.finish (h : Fits j s ph) {task : Pos} (hw : s.workers w = .finishing task p) :
    Good j ((s.record (.finished p)).goto w (.completing task p)) := by
  have htok : (s.workers w).token = some (p, .finishing) := by rw [hw]; rfl
  have hp := (h.placed.token w p _).mp htok
  have hclosed : (ph p).closed = true := by rw [hp]; rfl
  have herase : s.queue = s.queue.erase p := queue_erase h.placed (by simp [hp])
  refine ⟨update ph p (.held w .completing), ?_, ?_, ?_, ?_, h.ordered, ?_⟩
  · exact h.placed.hold (h.placed.movable_held htok)
      (show (completing task p).token = some (p, .completing) from rfl)
      herase rfl (fun _ _ => rfl) (by simp [hp]) (by simp [started])
      fun _ => h.placed.closed p hclosed
  · exact update_waiting h (by simp) fun _ _ => rfl
  · exact update_held_finishing h (by simp)
  · exact h.logged.finish (h.opened p w hp) (by simp [hp, done]) (by simp [hp, started]) rfl
  · rintro p' hp' q hb hv
    cases hp'
    have := h.placed.notified_below hclosed q hb hv
    exact h.logged.handledIn (by rw [this]; rfl)

lemma Fits.complete (h : Fits j s ph) {task : Pos} (hw : s.workers w = .completing task p) :
    Good j (s.complete w task p) := by
  have htok : (s.workers w).token = some (p, .completing) := by rw [hw]; rfl
  have hp := (h.placed.token w p _).mp htok
  have hlogged : Logged j s.log (update ph p .notified) :=
    h.logged.congr (apply_update (by simp [hp, done])) (apply_update (by simp [hp, started]))
  rcases p with _ | ⟨k, q⟩
  · refine ⟨update ph [] .notified, ?_, ?_, ?_, hlogged, h.ordered⟩
    · exact h.placed.notify hw rfl rfl (by simp) fun _ _ => rfl
    · exact update_waiting h (by simp) fun _ _ => rfl
    · exact update_held_finishing h (by simp)
  · have hq : ph q = .waiting := by
      refine waiting_of_started (h.placed.parent k q (by simp [hp])) fun hc => ?_
      have := h.placed.closed q hc k (h.placed.visible _ (by simp [hp]))
      simp [hp] at this
    obtain ⟨n, ho, -⟩ := h.placed.counted q hq
    unfold complete
    dsimp only
    split_ifs with hzero
    · refine ⟨_, h.placed.finish hw hq hzero rfl rfl rfl, ?_, ?_, ?_, h.ordered⟩
      · intro r hr
        have hrq : r ≠ q := by
          rintro rfl
          simp at hr
        rw [update_of_ne hrq] at hr
        have hrk : r ≠ k :: q := by
          rintro rfl
          simp at hr
        rw [update_of_ne hrk] at hr
        simpa [goto, hrq] using h.positive r hr
      · intro r v hr
        by_cases hrq : r = q
        · subst hrq
          simp [ho]
        · rw [update_of_ne hrq] at hr
          exact update_held_finishing h (by simp) r v hr
      · have hne : q ≠ k :: q := (cons_ne_self k q).symm
        refine hlogged.congr (apply_update ?_) (apply_update ?_)
        · rw [update_of_ne hne, hq]
          rfl
        · rw [update_of_ne hne, hq]
          rfl
    · have hplaced : Placed j ({ s with remaining := update s.remaining q (s.remaining q - 1) }.goto w
          (.returned false)) (update ph (k :: q) .notified) := by
        refine h.placed.notify hw rfl rfl (fun k' q' hc => ?_) fun q' hc => ?_
        · cases hc
          simp [goto]
        · have : q' ≠ q := fun he => hc k (by rw [he])
          simp [goto, this]
      refine ⟨_, hplaced, ?_, update_held_finishing h (by simp), hlogged, h.ordered⟩
      intro r hr
      obtain ⟨m, -, hc, -⟩ := hplaced.counted r hr
      by_cases hrq : r = q
      · subst hrq
        simp only [goto, update_self] at hc ⊢
        omega
      · have hrk : r ≠ k :: q := by
          rintro rfl
          simp at hr
        rw [update_of_ne hrk] at hr
        simpa [goto, hrq] using h.positive r hr

lemma Fits.work (h : Fits j s ph) (hclean : j.Clean) (hw : w < j.numWorkers)
    (hs : s.work j w = some s') : Good j s' ∨ Erred j s' := by
  unfold State.work at hs
  rcases hx : s.workers w with _ | p | ⟨p, i, n⟩ | ⟨task, p⟩ | ⟨task, p⟩ | err | err <;>
    simp only [hx, reduceCtorEq] at hs
  · cases hs
    obtain ⟨-, hv, -⟩ := h.running hx
    rcases copyEntry_cases (j := j) s w p with ⟨hf, s₀, he, -⟩ | ⟨ho, e, he, heq⟩ | ⟨ho, heq⟩ | ⟨n, hn, ho, heq⟩
    · rw [he]
      refine .inr (fail_erred p hw (Bool.eq_false_iff.mpr fun hi => ?_))
      simp [(hclean hi p hv).1] at hf
    · rw [heq]
      exact .inl (h.leaf hx ho he)
    · rw [heq]
      exact .inl (h.beginEmpty hx ho)
    · rw [heq]
      exact .inl (h.begin hx hn ho)
  · cases hs
    exact .inl (h.enqueue hx)
  · split_ifs at hs with hf
    · cases hs
      have hp := (h.placed.token w p .finishing).mp (by rw [hx]; rfl)
      refine .inr (fail_erred p hw (Bool.eq_false_iff.mpr fun hi => ?_))
      have := (hclean hi p (h.placed.visible p (by simp [hp]))).2 (h.opened p w hp)
      simp [this] at hf
    · cases hs
      exact .inl (h.finish hx)
  · cases hs
    exact .inl (h.complete hx)

lemma Fits.rest (h : Fits j s ph) {x : Worker} (htok : (s.workers w).token = none)
    (hne : ∀ q i n, s.workers w ≠ .enqueueing q i n) (hxt : x.token = none)
    (hxe : ∀ q i n, x ≠ .enqueueing q i n)
    (hstopped : ∀ v, (s.goto w x).workers v = .stopped false →
      s.queue = [] ∧ ∀ v', ((s.goto w x).workers v').active = false) : Good j (s.goto w x) :=
  ⟨ph, h.placed.rest htok hne hxt hxe rfl rfl rfl hstopped, h.positive, h.opened, h.logged, h.ordered⟩

def Bounded (j : Job) (s : State) : Prop := ∀ w, j.numWorkers ≤ w → s.workers w = .idle

lemma good_step (hclean : j.Clean) (hb : Bounded j s) (h : Good j s) {a : Action}
    (hs : s.step j a = some s') : Good j s' ∨ Erred j s' := by
  obtain ⟨ph, h⟩ := h
  cases a with
  | dequeue w =>
    simp only [step] at hs
    split_ifs at hs with hw
    rcases hq : s.queue with _ | ⟨p, rest⟩ <;> simp only [hq, reduceCtorEq, some.injEq] at hs
    subst hs
    exact .inl (h.dequeue hq hw.2)
  | noMoreWork w =>
    simp only [step, ite_none_right_eq_some, some.injEq] at hs
    obtain ⟨⟨hw, hidle, hq, hact⟩, rfl⟩ := hs
    refine .inl (h.rest (by simp [hidle, token]) (by simp [hidle]) rfl (by simp) fun v _ => ⟨hq, ?_⟩)
    intro v'
    simp only [goto]
    by_cases hvw : v' = w
    · subst hvw
      simp [active]
    · rw [update_of_ne hvw]
      by_cases hv : v' < j.numWorkers
      · simp only [State.anyActive, List.any_eq_false, List.mem_range] at hact
        exact Bool.eq_false_iff.mpr (hact v' hv)
      · rw [hb v' (Nat.le_of_not_lt hv)]
        rfl
  | contextDone w =>
    simp only [step, ite_none_right_eq_some, some.injEq] at hs
    obtain ⟨⟨hw, -, -⟩, rfl⟩ := hs
    exact .inr ⟨w, hw, .inr (by simp [goto])⟩
  | work w =>
    simp only [step, ite_none_right_eq_some] at hs
    exact h.work hclean hs.1 hs.2
  | completed w =>
    simp only [step] at hs
    rcases hx : s.workers w with _ | p | ⟨p, i, n⟩ | ⟨task, p⟩ | ⟨task, p⟩ | err | err <;>
      simp only [hx, reduceCtorEq, some.injEq] at hs
    subst hs
    have hw : w < j.numWorkers := by
      by_contra hw
      simp [hb w (Nat.le_of_not_lt hw)] at hx
    cases err with
    | true => exact .inr ⟨w, hw, .inr (by simp [goto])⟩
    | false =>
      refine .inl (h.rest (by simp [hx, token]) (by simp [hx]) rfl (by simp) fun v hv => ?_)
      simp only [goto] at hv
      by_cases hvw : v = w
      · subst hvw
        simp at hv
      · rw [update_of_ne hvw] at hv
        exact absurd hv (h.placed.notStopped_of_active (by rw [hx]; rfl))

end Steps

section Errors

variable {s s' : State} {w : Nat}

/-- What a step does to the workers: one of them moves, and one that has returned an error stops with
it. A failure that is not ignored is the error of the worker that moves. -/
structure Moved (j : Job) (s s' : State) (w : Nat) (x : Worker) : Prop where
  workers : s'.workers = Function.update s.workers w x
  stopped : s.workers w ≠ .stopped true
  returned : s.workers w = .returned true → x = .stopped true
  started : w < j.numWorkers ∨ s.workers w ≠ .idle
  failed : j.ignoreErrors = false → ∀ p, .failed p ∈ s'.log →
    .failed p ∈ s.log ∨ (x = .returned true ∧ w < j.numWorkers)

lemma moved_fail {s₀ : State} (hs₀ : s₀.workers = s.workers) (hw : w < j.numWorkers) {task p : Pos}
    (hne : s.workers w ≠ .stopped true ∧ s.workers w ≠ .returned true) :
    ∃ x, Moved j s (fail j s₀ w task p) w x := by
  refine ⟨.returned (!j.ignoreErrors), ?_, hne.1, fun h => absurd h hne.2, .inl hw, fun hi q hq => ?_⟩
  · unfold fail
    split_ifs with h <;> simp [goto, record, hs₀, h]
  · exact .inr ⟨by simp [hi], hw⟩

lemma moved_copyEntry (hw : w < j.numWorkers) {p : Pos} (hx : s.workers w = .running p) :
    ∃ x, Moved j s (s.copyEntry j w p) w x := by
  have hne : s.workers w ≠ .stopped true ∧ s.workers w ≠ .returned true := by simp [hx]
  have hrec : ∀ {t : State} {x : Worker} {e : Event}, t.workers = update s.workers w x →
      t.log = e :: s.log → (∀ q, e ≠ .failed q) → ∃ x, Moved j s t w x := by
    intro t x e hwk hlog he
    refine ⟨x, hwk, hne.1, fun h => absurd h hne.2, .inl hw, fun _ q hq => .inl ?_⟩
    rw [hlog, mem_cons] at hq
    exact hq.resolve_left fun hc => he q hc.symm
  rcases copyEntry_cases (j := j) s w p with ⟨-, s₀, he, hs₀⟩ | ⟨-, e, he, heq⟩ | ⟨-, heq⟩ | ⟨n, -, -, heq⟩
  · rw [he]
    exact moved_fail hs₀ hw hne
  · rw [heq]
    exact hrec rfl rfl (by rcases he with rfl | rfl <;> simp)
  · rw [heq]
    exact hrec rfl rfl (by simp)
  · rw [heq]
    exact hrec rfl rfl (by simp)

lemma step_moved {a : Action} (hs : s.step j a = some s') : ∃ w x, Moved j s s' w x := by
  cases a with
  | dequeue w =>
    simp only [step] at hs
    split_ifs at hs with hw
    rcases hq : s.queue with _ | ⟨p, rest⟩ <;> simp only [hq, reduceCtorEq, some.injEq] at hs
    subst hs
    exact ⟨w, _, rfl, by simp [hw.2], by simp [hw.2], .inl hw.1, fun _ _ h => .inl h⟩
  | noMoreWork w =>
    simp only [step, ite_none_right_eq_some, some.injEq] at hs
    obtain ⟨⟨hw, hidle, -⟩, rfl⟩ := hs
    exact ⟨w, _, rfl, by simp [hidle], by simp [hidle], .inl hw, fun _ _ h => .inl h⟩
  | contextDone w =>
    simp only [step, ite_none_right_eq_some, some.injEq] at hs
    obtain ⟨⟨hw, hidle, -⟩, rfl⟩ := hs
    exact ⟨w, _, rfl, by simp [hidle], by simp [hidle], .inl hw, fun _ _ h => .inl h⟩
  | work w =>
    simp only [step, ite_none_right_eq_some] at hs
    obtain ⟨hw, hs⟩ := hs
    unfold work at hs
    rcases hx : s.workers w with _ | p | ⟨p, i, n⟩ | ⟨task, p⟩ | ⟨task, p⟩ | err | err <;>
      simp only [hx, reduceCtorEq] at hs
    · cases hs
      exact ⟨w, moved_copyEntry hw hx⟩
    · cases hs
      obtain ⟨-, hworkers, -, hlog⟩ := enqueue_queue (j := j) s (i :: p)
      refine ⟨w, _, by rw [goto, hworkers], by simp [hx], by simp [hx], .inl hw, fun _ q hq => ?_⟩
      rw [goto, hlog] at hq
      exact .inl hq
    · split_ifs at hs with hf <;> simp only [some.injEq] at hs <;> subst hs
      · exact ⟨w, moved_fail rfl hw (by simp [hx])⟩
      · refine ⟨w, _, rfl, by simp [hx], by simp [hx], .inl hw, fun _ q hq => .inl ?_⟩
        exact (mem_cons.mp hq).resolve_left (by simp)
    · cases hs
      refine ⟨w, (s.complete w task p).workers w, ?_, by simp [hx], by simp [hx], .inl hw, fun _ q hq => ?_⟩
      · rcases p with _ | ⟨k, q⟩
        · simp [complete, goto]
        · unfold complete
          dsimp only
          split_ifs <;> simp [goto]
      · rcases p with _ | ⟨k, r⟩
        · exact .inl hq
        · unfold complete at hq
          dsimp only at hq
          split_ifs at hq <;> exact .inl hq
  | completed w =>
    simp only [step] at hs
    rcases hx : s.workers w with _ | p | ⟨p, i, n⟩ | ⟨task, p⟩ | ⟨task, p⟩ | err | err <;>
      simp only [hx, reduceCtorEq, some.injEq] at hs
    subst hs
    refine ⟨w, _, rfl, by simp [hx], ?_, .inr (by simp [hx]), fun _ _ h => .inl h⟩
    intro h
    rw [hx] at h
    simp only [returned.injEq] at h
    rw [h, if_pos rfl]

lemma Moved.bounded {x : Worker} (hm : Moved j s s' w x) (hb : Bounded j s) : Bounded j s' := by
  intro v hv
  have hvw : v ≠ w := by
    rintro rfl
    rcases hm.started with h | h
    · omega
    · exact h (hb v hv)
  rw [hm.workers, update_of_ne hvw, hb v hv]

lemma Moved.erred {x : Worker} (hm : Moved j s s' w x) (h : Erred j s) : Erred j s' := by
  obtain ⟨v, hv, herr⟩ := h
  refine ⟨v, hv, ?_⟩
  rw [hm.workers]
  by_cases hvw : v = w
  · subst hvw
    rw [update_self]
    exact .inr (hm.returned (herr.resolve_right hm.stopped))
  · rwa [update_of_ne hvw]

lemma reach_bounded (h : Runs.Reach (step j) Runs.Free (· = initial) s) : Bounded j s := by
  refine h.invariant (fun s hs w _ => by rw [hs]; rfl) fun s a s' hb _ hstep => ?_
  obtain ⟨w, x, hm⟩ := step_moved hstep
  exact hm.bounded hb

lemma reach_failed (hi : j.ignoreErrors = false)
    (h : Runs.Reach (step j) Runs.Free (· = initial) s) {p : Pos}
    (hp : .failed p ∈ s.log) : Erred j s := by
  induction h with
  | init hs =>
    rw [hs] at hp
    cases hp
  | step _ _ hstep ih =>
    obtain ⟨w, x, hm⟩ := step_moved hstep
    rcases hm.failed hi p hp with hp | ⟨rfl, hw⟩
    · exact hm.erred (ih hp)
    · exact ⟨w, hw, .inl (by rw [hm.workers, update_self])⟩

end Errors

section Main

variable {s : State} {ph : Pos → Phase}

lemma good_initial : Good j initial := by
  refine ⟨update (fun _ => .unborn) [] .queued, ?_, ?_, ?_, ?_, trivial⟩
  · constructor
    · exact nodup_singleton _
    · intro p
      by_cases hp : p = []
      · simp [hp, initial]
      · simp [hp, initial]
    · intro w p st
      by_cases hp : p = []
      · simp [hp, initial, token]
      · simp [hp, initial, token]
    · simp [initial]
    · simp [initial]
    · intro p hp
      by_cases hpn : p = []
      · subst hpn
        trivial
      · simp [hpn] at hp
    · simp
    · simp
    · intro p hp
      by_cases hpn : p = [] <;> simp [hpn] at hp
    · intro p hp
      by_cases hpn : p = [] <;> simp [hpn, closed] at hp
    · simp [initial]
  · intro p hp
    by_cases hpn : p = [] <;> simp [hpn] at hp
  · intro p w hp
    by_cases hpn : p = [] <;> simp [hpn] at hp
  · constructor <;> intro p <;> by_cases hpn : p = [] <;>
      simp [hpn, initial, done, started]

lemma reach_good (hclean : j.Clean)
    (h : Runs.Reach (step j) Runs.Free (· = initial) s) : Good j s ∨ Erred j s := by
  induction h with
  | init hs => exact .inl (hs ▸ good_initial)
  | step hreach _ hstep ih =>
    rcases ih with hg | he
    · exact good_step hclean (reach_bounded hreach) hg hstep
    · obtain ⟨w, x, hm⟩ := step_moved hstep
      exact .inr (hm.erred he)

/-- Nobody has anything in hand and the queue is empty. -/
structure Quiet (s : State) : Prop where
  queue : s.queue = []
  inactive : ∀ w, (s.workers w).active = false

lemma Quiet.not_held (hq : Quiet s) (h : Placed j s ph) (p : Pos) (w : Nat) (st : Stage) :
    ph p ≠ .held w st := by
  intro hp
  have := active_of_token ((h.token w p st).mpr hp)
  simp [hq.inactive w] at this

lemma Quiet.not_waiting (hq : Quiet s) (h : Fits j s ph) :
    ∀ (e : Entry) (p : Pos), j.root.at p = some e → ph p ≠ .waiting := by
  intro e
  induction hn : sizeOf e using Nat.strong_induction_on generalizing e with
  | _ m ih =>
    intro p hat hp
    obtain ⟨n, ho, hc, hk⟩ := h.placed.counted p hp
    have hpos := h.positive p hp
    obtain ⟨k, hkopen⟩ : (open_ ph p n).Nonempty := by
      rw [← Finset.card_pos]
      omega
    obtain ⟨hkn, hne⟩ := Finset.mem_filter.mp hkopen
    rw [Finset.mem_range] at hkn
    unfold opened at ho
    rw [hat] at ho
    rcases e with ⟨name, size⟩ | ⟨name, target⟩ | ⟨name, es⟩ | name <;> simp only [reduceCtorEq] at ho
    split_ifs at ho
    cases ho
    have hatk : j.root.at (k :: p) = some (es.get ⟨k, hkn⟩) := by
      simp [Entry.at, hat, hkn]
    have hlt : sizeOf (es.get ⟨k, hkn⟩) < sizeOf (Entry.dir name es) := by
      have := sizeOf_lt_of_mem (es.get_mem ⟨k, hkn⟩)
      simp only [Entry.dir.sizeOf_spec]
      omega
    rcases hphk : ph (k :: p) with _ | _ | ⟨w, st⟩ | _ | _
    · obtain ⟨w, i, hw, -⟩ := hk k hkn hphk
      have := hq.inactive w
      simp [hw, active] at this
    · have := (h.placed.queued (k :: p)).mpr hphk
      simp [hq.queue] at this
    · exact hq.not_held h.placed _ _ _ hphk
    · exact ih _ (hn ▸ hlt) _ rfl (k :: p) hatk hphk
    · exact hne hphk

lemma Quiet.notified (hq : Quiet s) (h : Fits j s ph) : ∀ p, j.Visible p → ph p = .notified
  | [], hv => by
    rcases hp : ph [] with _ | _ | ⟨w, st⟩ | _ | _
    · exact absurd hp h.placed.root
    · have := (h.placed.queued []).mpr hp
      simp [hq.queue] at this
    · exact absurd hp (hq.not_held h.placed _ _ _)
    · exact absurd hp (hq.not_waiting h j.root [] rfl)
    · rfl
  | k :: p, hv => h.placed.closed p (by rw [hq.notified h p hv.1]; rfl) k hv

/-- With at least one worker, and no failure when errors are ignored: if the restore succeeds, every
entry was written or skipped once, and every directory begun once and finished once, after all entries
below it; and if an entry fails while errors are not ignored, the restore does not succeed. -/
theorem reach_restore_complete (j : Job) (hclean : j.Clean) (hworkers : 0 < j.numWorkers) (s : State)
    (h : Runs.Reach (State.step j) Runs.Free (· = State.initial) s) :
    (s.result j = some true →
      (∀ p, j.Visible p → j.opened p = none →
        s.log.count (.written p) + s.log.count (.skipped p) = 1) ∧
      (∀ p, j.Visible p → j.opened p ≠ none →
        s.log.count (.begun p) = 1 ∧ s.log.count (.finished p) = 1) ∧ Ordered j s.log) ∧
    (j.ignoreErrors = false → ∀ p, .failed p ∈ s.log → s.result j ≠ some true) := by
  have hall : s.result j = some true → ∀ w < j.numWorkers, s.workers w = .stopped false := by
    intro hres w hw
    unfold result at hres
    split_ifs at hres
    simp only [Option.some.injEq, List.all_eq_true, List.mem_range, decide_eq_true_eq] at hres
    exact hres w hw
  have hnot : Erred j s → s.result j ≠ some true := by
    rintro ⟨w, hw, herr⟩ hres
    rw [hall hres w hw] at herr
    simp at herr
  refine ⟨fun hres => ?_, fun hi p hp => hnot (reach_failed hi h hp)⟩
  rcases reach_good hclean h with ⟨ph, hfits⟩ | herr
  · obtain ⟨hq, hin⟩ := hfits.placed.stopped 0 (hall hres 0 hworkers)
    have hquiet : Quiet s := ⟨hq, hin⟩
    refine ⟨fun p hv ho => ?_, fun p hv ho => ?_, hfits.ordered⟩
    · rw [hfits.logged.handled, hquiet.notified hfits p hv, if_pos ⟨ho, rfl⟩]
    · rw [hfits.logged.begun, hfits.logged.finished, hquiet.notified hfits p hv, if_pos ⟨ho, rfl⟩,
        if_pos ⟨ho, rfl⟩]
      exact ⟨rfl, rfl⟩
  · exact absurd hres (hnot herr)

def smallJob : Job where
  root := .dir [] [.file (str "a") 3, .dir (str "d") []]
  parallel := 2

theorem reach_restore_complete_smallJob :
    ∃ s, Runs.Reach (State.step smallJob) Runs.Free (· = State.initial) s ∧
      s.result smallJob = some true ∧ s.log.count (.written [0]) + s.log.count (.skipped [0]) = 1 ∧
      s.log.count (.begun []) = 1 ∧ s.log.count (.finished []) = 1 ∧ Ordered smallJob s.log := by
  obtain ⟨s, hreach, hres⟩ : ∃ s, Runs.Reach (step smallJob) Runs.Free (· = initial) s
      ∧ s.result smallJob = some true := Runs.exists_reach rfl
    [.dequeue 0, .work 0, .work 0, .dequeue 1, .work 1, .work 0, .completed 0, .dequeue 0, .work 0,
      .work 1, .work 0, .work 0, .completed 1, .work 0, .work 0, .completed 0, .noMoreWork 0,
      .noMoreWork 1] (by decide)
  have hclean : smallJob.Clean := fun hi => absurd hi (by decide)
  obtain ⟨hleaf, hdir, hord⟩ :=
    (reach_restore_complete smallJob hclean (by decide) s hreach).1 hres
  have hroot := hdir [] trivial (by decide)
  exact ⟨s, hreach, hres, hleaf [0] ⟨trivial, 2, by decide, by decide⟩ (by decide), hroot.1, hroot.2, hord⟩

def failingJob : Job where
  root := .dir [] [.file (str "a") 3]
  ignoreErrors := true
  writeFails := fun p => p == [0]

/-- The restore succeeds and the directory it began is never finished. -/
theorem ignored_failure_leaves_directory :
    ∃ s, Runs.Reach (State.step failingJob) Runs.Free (· = State.initial) s ∧
      s.result failingJob = some true ∧ s.log.count (.begun []) = 1 ∧
      s.log.count (.finished []) = 0 :=
  Runs.exists_reach rfl
    [.dequeue 0, .work 0, .work 0, .completed 0, .dequeue 0, .work 0, .completed 0, .noMoreWork 0]
    (by decide)

end Main

end Warphold.Restore
