import Warphold.Fleet.Mirror

/-!
# The hide guard

A step of a run leaves the table of hides alone, records a reservation that stays within its limit,
or deletes one object under the newest reservation (`next_guard`).
-/

namespace Warphold.Fleet.Mirror

open List Reservation

open Std (ExtTreeSet)

lemma ts_mono {a b : ℤ} (h : a ≤ b) : ts a ≤ ts b := Int.ediv_le_ediv (by norm_num) h

/-- The hides recorded for a reservation's device and target in the seven days that end with it,
itself included. -/
def Reservation.inWindow (r : Reservation) (earlier : List Reservation) : ℤ :=
  (((r :: earlier).filter fun q => q.target = r.target && q.device = r.device
    && r.time - hideWindow ≤ q.time && q.time ≤ r.time).map (·.n)).sum

/-- The larger of the configured minimum and the configured percentage of the objects seen. -/
def Reservation.limit (r : Reservation) : ℤ := max r.hideMin (r.held * r.hidePercent / percent)

def Pc.toHide : Pc → List Str
  | .hide _ todo _ => todo
  | _ => []

section Table
variable {target : ℕ} {device : Str} {c : ℤ}

lemma earlierHides_append (rows rows' : List HideRow) :
    earlierHides (rows ++ rows') target device c
      = earlierHides rows target device c + earlierHides rows' target device c := by
  simp [earlierHides]

lemma earlierHides_filter {d : ℤ} (h : d ≤ c) (rows : List HideRow) :
    earlierHides (rows.filter fun r => d ≤ r.hiddenAt) target device c
      = earlierHides rows target device c := by
  unfold earlierHides
  rw [filter_filter]
  congr 2
  refine filter_congr fun r _ => ?_
  by_cases hc : c ≤ r.hiddenAt
  · simp [hc, h.trans hc]
  · simp [hc]

lemma sum_filter_le {α : Type*} {f : α → ℤ} {p q : α → Bool} :
    ∀ {l : List α}, (∀ x ∈ l, 0 ≤ f x) → (∀ x ∈ l, p x = true → q x = true) →
      ((l.filter p).map f).sum ≤ ((l.filter q).map f).sum
  | [], _, _ => le_refl _
  | x :: l, hf, hpq => by
    have ih := sum_filter_le (fun y hy => hf y (.tail _ hy)) fun y hy => hpq y (.tail _ hy)
    have hx := hf x mem_cons_self
    have hq := hpq x mem_cons_self
    rcases hp : p x with _ | _ <;> rcases hq' : q x with _ | _ <;> simp_all
    omega

/-- What the transaction answers is the sum over the whole table: the pruning takes nothing out of
the window. -/
lemma reserveMirrorHides_spec {rows rows' : List HideRow} {time since n limit earlier : ℤ}
    (h : reserveMirrorHides rows target device time since n limit = (rows', earlier, true)) :
    earlierHides rows target device (ts since) + n ≤ limit
      ∧ rows' = (rows.filter fun r => ts since ≤ r.hiddenAt) ++ [⟨target, device, ts time, n⟩] := by
  simp only [reserveMirrorHides, earlierHides_filter (le_refl _)] at h
  split_ifs at h with hl
  · simp at h
  · obtain ⟨rfl, -⟩ := Prod.mk.inj h
    exact ⟨not_lt.1 hl, rfl⟩

end Table

lemma toHide_callDevice {w : Walk} {ret : Option (Walk × List Gateway.ObjectInfo × Bool)} {pc : Pc}
    (h : pc.toHide = []) : (callDevice w ret pc).toHide = [] := by
  unfold callDevice
  split_ifs
  · exact h
  · rfl

lemma toHide_scan (truncated : Bool) : ∀ (w : Walk) (page : List Gateway.ObjectInfo),
    (scan truncated w page).toHide = []
  | w, [] => by
    simp only [scan]
    split_ifs
    · rfl
    · exact toHide_callDevice rfl
  | w, o :: page => by
    simp only [scan]
    split_ifs
    · exact toHide_scan truncated _ page
    · exact toHide_callDevice (toHide_scan truncated _ page)
    · exact toHide_scan truncated _ page

lemma toHide_resume (f : Frame) : (resume f).toHide = [] := by
  unfold resume
  split
  · rfl
  · exact toHide_scan _ _ _

inductive GuardStep (s s' : State) : Prop where
  | same : s'.hides = s.hides → s'.reserved = s.reserved →
      s'.pc.toHide.length ≤ s.pc.toHide.length → GuardStep s s'
  | reserve (made : Reservation) : made.time = s.now → made.hid = 0 → 0 ≤ made.n →
      earlierHides s.hides made.target made.device (ts (s.now - hideWindow)) + made.n ≤ made.limit →
      s'.hides = (s.hides.filter fun r => ts (s.now - hideWindow) ≤ r.hiddenAt) ++ [made.row] →
      s'.reserved = made :: s.reserved → s'.pc.toHide.length ≤ made.n → GuardStep s s'
  | hid : s'.hides = s.hides → s'.reserved = s.addHid.reserved →
      s'.pc.toHide.length < s.pc.toHide.length → GuardStep s s'

lemma nextTarget_guard (s : State) (o : Outcome) : GuardStep s (nextTarget s o) := by
  unfold nextTarget
  split
  · exact .same rfl rfl (Nat.zero_le _)
  · simp only
    split
    · exact .same rfl rfl (Nat.zero_le _)
    · split_ifs
      · exact .same rfl rfl (le_refl _)
      · exact .same rfl rfl (le_refl _)
      · exact .same rfl rfl (le_refl _)
      · exact .same rfl rfl (Nat.zero_le _)

variable {s s' : State}

lemma GuardStep.goto {pc : Pc} (hh : s'.hides = s.hides)
    (hr : s'.reserved = s.reserved) (hpc : pc.toHide = []) : GuardStep s (s'.goto pc) :=
  .same hh hr (by simp only [State.goto, hpc]; exact Nat.zero_le _)

lemma GuardStep.back (f : Frame) (hh : s'.hides = s.hides)
    (hr : s'.reserved = s.reserved) : GuardStep s (s'.back f) :=
  .goto hh hr (toHide_resume f)

lemma listLocal_guard (s : State) (o : Outcome) (w : Walk) : GuardStep s (listLocal s o w) := by
  unfold listLocal
  split
  · exact .goto rfl rfl rfl
  · split
    · exact .goto rfl rfl (toHide_callDevice rfl)
    · exact .goto rfl rfl (toHide_scan _ _ _)

lemma listMirror_guard (s : State) (o : Outcome) (f : Frame) (held : ExtTreeSet Str) (after : Str) :
    GuardStep s (listMirror s o f held after) := by
  unfold listMirror
  split_ifs
  · exact .back f rfl rfl
  · simp only
    split
    · exact .goto rfl rfl rfl
    · exact .goto rfl rfl rfl

lemma copyOne_guard (s : State) (o : Outcome) (f : Frame) (held : ExtTreeSet Str)
    (x : Gateway.ObjectInfo) (todo : List Gateway.ObjectInfo) (offsite : ℤ) :
    GuardStep s (copyOne s o f held x todo offsite) := by
  unfold copyOne
  split
  · exact .back f rfl rfl
  split
  · exact .goto rfl rfl rfl
  split
  · exact .back f rfl rfl
  simp only
  split
  · exact .back f rfl rfl
  split
  · exact .goto rfl rfl rfl
  · exact .back f rfl rfl
  · exact .goto rfl rfl rfl

lemma hideBegin_guard (s : State) (o : Outcome) (f : Frame) (held : ExtTreeSet Str) (offsite : ℤ) :
    GuardStep s (hideBegin s o f held offsite) := by
  unfold hideBegin
  extract_lets gone limit r made
  split_ifs with h₁ h₂ h₃ h₄ h₅
  · exact .goto rfl rfl rfl
  · exact .goto rfl rfl rfl
  · exact .goto rfl rfl rfl
  · exact .goto rfl rfl rfl
  all_goals
    have hr : r = (r.1, r.2.1, true) := by
      rw [← (show r.2.2 = true by simpa using h₄)]
    obtain ⟨hle, hrows⟩ := reserveMirrorHides_spec hr
  · exact .reserve made rfl rfl (Int.natCast_nonneg _) hle hrows rfl (Int.natCast_nonneg _)
  · exact .reserve made rfl rfl (Int.natCast_nonneg _) hle hrows rfl (le_refl _)

lemma hideOne_guard {f : Frame} {k : Str} {todo : List Str} {offsite : ℤ}
    (hpc : s.pc = .hide f (k :: todo) offsite) (o : Outcome) :
    GuardStep s (hideOne s o f k todo offsite) := by
  have hlt : todo.length < s.pc.toHide.length := by
    rw [hpc]
    exact Nat.lt_succ_self _
  unfold hideOne
  split
  · exact .goto rfl rfl rfl
  simp only
  split
  · exact .same rfl rfl hlt.le
  · exact .goto rfl rfl rfl
  split
  · exact .hid rfl rfl (Nat.lt_of_le_of_lt (Nat.zero_le _) hlt)
  · exact .hid rfl rfl hlt

lemma recordDevice_guard (s : State) (o : Outcome) (f : Frame) (offsite : ℤ) :
    GuardStep s (recordDevice s o f offsite) := by
  unfold recordDevice
  split_ifs
  · exact .back f rfl rfl
  · exact .back f rfl rfl
  · exact .back f rfl rfl

lemma next_guard {o : Outcome} (h : next s o = some s') : GuardStep s s' := by
  unfold next at h
  split at h <;> cases h
  · exact nextTarget_guard s o
  · exact listLocal_guard s o _
  · exact listMirror_guard s o _ _ _
  · exact copyOne_guard s o _ _ _ _ _
  · exact hideBegin_guard s o _ _ _
  · exact hideOne_guard ‹_› o
  · exact .goto rfl rfl rfl
  · exact recordDevice_guard s o _ _

/-- Runs start at nondecreasing times. -/
def Ordered (s : State) : Action → Prop
  | .start now _ _ _ => s.now ≤ now
  | _ => True

instance (s : State) : ∀ a, Decidable (Ordered s a)
  | .start .. | .next .. | .put .. | .delete .. | .change .. => by unfold Ordered; infer_instance

/-- No run is under way and no hide was ever recorded. -/
def Initial (s : State) : Prop := s.pc.toHide = [] ∧ s.hides = [] ∧ s.reserved = []

structure GuardInv (s : State) : Prop where
  nonneg : ∀ r ∈ s.reserved, 0 ≤ r.n
  covered : ∀ target device c, ts (s.now - hideWindow) ≤ c →
    earlierHides s.hides target device c = earlierHides (s.reserved.map (·.row)) target device c
  bounded : ∀ r l, (r :: l) <:+ s.reserved → r.inWindow l ≤ r.limit
  hid : ∀ r ∈ s.reserved, r.hid ≤ r.n
  underway : s.pc.toHide ≠ [] →
    ∃ r l, s.reserved = r :: l ∧ r.hid + s.pc.toHide.length ≤ r.n

lemma inWindow_le {r : Reservation} {l : List Reservation} (hn : ∀ q ∈ r :: l, 0 ≤ q.n) :
    r.inWindow l
      ≤ earlierHides ((r :: l).map (·.row)) r.target r.device (ts (r.time - hideWindow)) := by
  unfold inWindow earlierHides
  rw [filter_map, map_map]
  refine sum_filter_le hn fun q _ hq => ?_
  simp only [Bool.and_eq_true, decide_eq_true_eq] at hq
  simp only [Function.comp_apply, row, Bool.and_eq_true, decide_eq_true_eq]
  exact ⟨hq.1.1, ts_mono hq.1.2⟩

@[simp] lemma inWindow_hid (r : Reservation) (l : List Reservation) (n : ℤ) :
    ({ r with hid := n } : Reservation).inWindow l = r.inWindow l := by
  simp only [inWindow, filter_cons]
  split_ifs <;> rfl

lemma GuardInv.of_guardStep (hi : GuardInv s) (hnow : s'.now = s.now)
    (h : GuardStep s s') : GuardInv s' := by
  rcases h with ⟨hh, hr, hpc⟩ | ⟨made, ht, h0, hn, hle, hh, hr, hpc⟩ | ⟨hh, hr, hpc⟩
  · refine ⟨hr ▸ hi.nonneg, by rw [hh, hr, hnow]; exact hi.covered, hr ▸ hi.bounded, hr ▸ hi.hid,
      fun hne => ?_⟩
    have hpos := length_pos_iff.2 hne
    obtain ⟨r, l, hrl, hle⟩ := hi.underway (length_pos_iff.1 (by omega))
    exact ⟨r, l, hr.trans hrl, by omega⟩
  · have hnonneg : ∀ q ∈ made :: s.reserved, 0 ≤ q.n := by
      rintro q (_ | ⟨_, hq⟩)
      · exact hn
      · exact hi.nonneg q hq
    have hcov : ∀ target device c, ts (s.now - hideWindow) ≤ c → earlierHides s'.hides target device c
        = earlierHides ((made :: s.reserved).map (·.row)) target device c := by
      intro target device c hc
      rw [hh, earlierHides_append, earlierHides_filter hc, hi.covered target device c hc, add_comm,
        ← earlierHides_append]
      rfl
    refine ⟨hr ▸ hnonneg, by rw [hr, hnow]; exact hcov, ?_, ?_, fun _ => ⟨made, _, hr, by omega⟩⟩
    · intro r l hrl
      rw [hr, suffix_cons_iff] at hrl
      rcases hrl with heq | hrl
      · cases heq
        refine (inWindow_le hnonneg).trans ?_
        rw [ht, map_cons, ← singleton_append, earlierHides_append,
          ← hi.covered _ _ _ (le_refl _)]
        have hrow : earlierHides [made.row] made.target made.device (ts (s.now - hideWindow))
            ≤ made.n := by
          unfold earlierHides row
          by_cases hc : ts (s.now - hideWindow) ≤ ts made.time <;> simp [hc, hn]
        omega
      · exact hi.bounded r l hrl
    · rw [hr]
      rintro q (_ | ⟨_, hq⟩)
      · omega
      · exact hi.hid q hq
  · obtain ⟨r, l, hrl, hle⟩ := hi.underway (length_pos_iff.1 (by omega))
    have hr' : s'.reserved = { r with hid := r.hid + 1 } :: l := by
      rw [hr, State.addHid, hrl]
    have hpos := hi.nonneg
    rw [hrl] at hpos
    refine ⟨?_, ?_, ?_, ?_, fun _ => ⟨_, l, hr', ?_⟩⟩
    · rw [hr']
      rintro q (_ | ⟨_, hq⟩)
      · exact hpos r mem_cons_self
      · exact hpos q (.tail _ hq)
    · have hrows : s'.reserved.map (·.row) = s.reserved.map (·.row) := by rw [hr', hrl]; rfl
      rw [hrows, hh, hnow]
      exact hi.covered
    · intro q m hqm
      rw [hr', suffix_cons_iff] at hqm
      rcases hqm with heq | hqm
      · cases heq
        rw [inWindow_hid]
        exact hi.bounded r l (hrl ▸ suffix_rfl)
      · exact hi.bounded q m (hrl ▸ hqm.trans (suffix_cons r l))
    · rw [hr']
      have hhid := hi.hid
      rw [hrl] at hhid
      rintro q (_ | ⟨_, hq⟩)
      · show r.hid + 1 ≤ r.n
        omega
      · exact hhid q (.tail _ hq)
    · show r.hid + 1 + (s'.pc.toHide.length : ℤ) ≤ r.n
      omega

lemma next_now {o : Outcome} (h : next s o = some s') : s'.now = s.now := by
  unfold next at h
  split at h <;> cases h
  · unfold nextTarget
    split
    · rfl
    · simp only
      split_ifs <;> rfl
  · unfold listLocal
    split
    · rfl
    · simp only
      split <;> rfl
  · unfold listMirror
    split_ifs
    · rfl
    · simp only
      split <;> rfl
  · unfold copyOne
    split_ifs
    · rfl
    · rfl
    all_goals
      split
      · rfl
      · simp only
        first
          | rfl
          | split <;> rfl
  · unfold hideBegin
    simp only
    split_ifs <;> rfl
  · unfold hideOne
    split
    · rfl
    · simp only
      split
      · rfl
      · rfl
      · split_ifs <;> rfl
  · rfl
  · unfold recordDevice
    split_ifs <;> rfl

lemma GuardInv.next {a : Action} (hi : GuardInv s) (hok : Ordered s a)
    (h : step s a = some s') : GuardInv s' := by
  cases a with
  | start now maxPercent minCount targets =>
    simp only [step] at h
    split at h <;> cases h
    refine ⟨hi.nonneg, fun target device c hc => hi.covered target device c ?_, hi.bounded, hi.hid,
      fun hne => absurd rfl hne⟩
    exact (ts_mono (Int.sub_le_sub_right hok _)).trans hc
  | next o => exact hi.of_guardStep (next_now h) (next_guard h)
  | put i device name obj =>
    simp only [step] at h
    split_ifs at h
    cases h
    exact { hi with }
  | delete i device name =>
    simp only [step] at h
    split_ifs at h
    cases h
    exact { hi with }
  | change i tree bucket =>
    cases h
    exact { hi with }

/-- However the stores change and whatever fails, the hides recorded for a device on a target in the
seven days up to a reservation are within the limit of the run that made it, and no more objects are
hidden under it than it is for. -/
theorem reach_hides_bounded {s : State} (h : Runs.Reach step Ordered Initial s) :
    (∀ r earlier, (r :: earlier) <:+ s.reserved → r.inWindow earlier ≤ r.limit)
      ∧ ∀ r ∈ s.reserved, r.hid ≤ r.n := by
  have hinv : GuardInv s := by
    refine h.invariant ?_ fun s a s' hi hok hs => hi.next hok hs
    rintro s ⟨hpc, hh, hr⟩
    refine ⟨?_, ?_, ?_, ?_, fun hne => absurd hpc hne⟩
    · rw [hr]
      exact fun r hr => absurd hr not_mem_nil
    · intro target device c _
      rw [hh, hr]
      rfl
    · intro r l hrl
      rw [hr] at hrl
      exact absurd (suffix_nil.1 hrl) (cons_ne_nil _ _)
    · rw [hr]
      exact fun r hr => absurd hr not_mem_nil
  exact ⟨hinv.bounded, hinv.hid⟩

def Site.sample (tree : Gateway.Tree) (bucket : Bucket) : Site where
  name := str "t"
  kind := str "hosted"
  storageMode := str "disk"
  mirrorKind := str "s3"
  lockVerified := true
  conditionalPut := none
  versioned := true
  tree := tree
  bucket := bucket
  listed := []
  processed := []
  hidden := []

def State.sample (site : Site) : State where
  sites := fun _ => site
  hides := []
  now := 0
  hidePercent := 0
  hideMin := 0
  cur := 0
  rest := []
  pc := .idle
  errs := []
  counters := ⟨0, 0, 0, 0⟩
  agents := []
  offsite := []
  reserved := []

def sampleTree (keys : List (String × String)) : Gateway.Tree :=
  keys.foldl (fun t k => t.setEntry (str k.1) (str k.2) (.file ⟨[0], 0, none⟩)) ∅

def sampleBucket (keys : List String) : Bucket := keys.foldl (fun b k => b.insert (str k) 1) ∅

/-- A run that hides the one object maintenance removed, and fails to record it. -/
theorem reach_hides_bounded_sample : ∃ s, Runs.Reach step Ordered Initial s
    ∧ s.reserved.map (fun r => (r.n, r.hid, r.limit)) = [(1, 1, 50)] ∧ s.errs ≠ []
    ∧ (∀ r earlier, (r :: earlier) <:+ s.reserved → r.inWindow earlier ≤ r.limit)
    ∧ ∀ r ∈ s.reserved, r.hid ≤ r.n := by
  obtain ⟨s, hreach, hr, he⟩ : ∃ s, Runs.Reach step Ordered Initial s
      ∧ s.reserved.map (fun r => (r.n, r.hid, r.limit)) = [(1, 1, 50)] ∧ s.errs ≠ [] :=
    Runs.exists_reach
      (s := .sample (.sample (sampleTree [("a", "p2")]) (sampleBucket ["a/p1", "a/p2"])))
      ⟨rfl, rfl, rfl⟩
      (.start 0 [] [] [0] :: replicate 7 (.next .ok) ++ [.next .failed, .next .ok]) (by decide)
  exact ⟨s, hreach, hr, he, reach_hides_bounded hreach⟩

end Warphold.Fleet.Mirror
