import Warphold.Proofs.Snapshots

/-!
# The longest range checkpoint

The search compares with the epoch 0 it starts from. No chain of the ranges beats what it finds
(`startingAt_beats`), but a range of epoch 0 alone does not beat the empty list.
-/

namespace Warphold.Epoch

open List

variable {ranges l c : List RangeMetadata} {start : ℤ}

/-- The epoch that the list ends at, for the empty list 0. -/
def lastEpoch (l : List RangeMetadata) : ℤ := (l.getLast?.map (·.maxEpoch)).getD 0

lemma lastEpoch_nil : lastEpoch [] = 0 := rfl

lemma lastEpoch_cons : ∀ (c : RangeMetadata) (rest : List RangeMetadata),
    lastEpoch (c :: rest) = chainEnd (c.maxEpoch + 1) rest - 1
  | c, [] => by simp [lastEpoch, chainEnd]
  | c, d :: rest => by
    have h := lastEpoch_cons d rest
    simp only [lastEpoch, getLast?_cons_cons, chainEnd] at h ⊢
    exact h

/-- The list ends later than the other one, or at the same epoch with as few ranges. -/
def Beats (l c : List RangeMetadata) : Prop :=
  lastEpoch c < lastEpoch l ∨ lastEpoch c = lastEpoch l ∧ l.length ≤ c.length

lemma Beats.trans {b : List RangeMetadata} (h : Beats l b) (h' : Beats b c) : Beats l c := by
  simp only [Beats] at *
  omega

lemma longer_beats (b c : List RangeMetadata) :
    ∃ b', longer (lastEpoch b, b) c = (lastEpoch b', b') ∧ Beats b' b ∧ Beats b' c := by
  have heq : longer (lastEpoch b, b) c = if lastEpoch c > lastEpoch b
      ∨ lastEpoch c = lastEpoch b ∧ c.length < b.length then (lastEpoch c, c) else (lastEpoch b, b) := rfl
  simp only [Beats]
  split_ifs at heq
  · exact ⟨c, heq, by omega, by omega⟩
  · exact ⟨b, heq, by omega, by omega⟩

lemma foldl_longer_beats (f : RangeMetadata → List RangeMetadata) :
    ∀ (l : List RangeMetadata) (b : List RangeMetadata),
      let r := (l.foldl (fun best c => longer best (f c)) (lastEpoch b, b)).2
      Beats r b ∧ ∀ c ∈ l, Beats r (f c)
  | [], b => by simp [Beats]
  | c :: l, b => by
    obtain ⟨b', heq, hold, hnew⟩ := longer_beats b (f c)
    obtain ⟨hbest, hall⟩ := foldl_longer_beats f l b'
    rw [foldl_cons, heq]
    exact ⟨hbest.trans hold, forall_mem_cons.2 ⟨hbest.trans hnew, hall⟩⟩

section Search

variable (hr : ∀ r ∈ ranges, r.minEpoch ≤ r.maxEpoch)
include hr

lemma le_lastEpoch {d : RangeMetadata} (h : Chain start (d :: l)) (hs : d :: l ⊆ ranges) :
    start ≤ lastEpoch (d :: l) := by
  have hrest := le_chainEnd h.2 fun r hmem => hr r (hs (mem_cons_of_mem _ hmem))
  have hd := hr d (hs mem_cons_self)
  rw [lastEpoch_cons, ← h.1]
  omega

lemma Beats.cons {d : RangeMetadata} (hd : 0 ≤ d.maxEpoch) (hl : Chain (d.maxEpoch + 1) l)
    (hls : l ⊆ ranges) (hc : Chain (d.maxEpoch + 1) c) (hcs : c ⊆ ranges) (h : Beats l c) :
    Beats (d :: l) (d :: c) := by
  rcases l with _ | ⟨e, l⟩
  · rcases c with _ | ⟨e', c⟩
    · exact .inr ⟨rfl, le_rfl⟩
    · have hend := le_lastEpoch hr hc hcs
      simp only [Beats, lastEpoch_nil] at h
      omega
  · rcases c with _ | ⟨e', c⟩
    · exact .inl (show d.maxEpoch + 1 ≤ lastEpoch (e :: l) from le_lastEpoch hr hl hls)
    · simpa only [Beats, lastEpoch, getLast?_cons_cons, length_cons, Nat.add_le_add_iff_right] using h

lemma startingAt_beats : ∀ (c : List RangeMetadata) {fuel : ℕ} {start : ℤ}, c.length < fuel →
    0 ≤ start → Chain start c → c ⊆ ranges →
      Beats (findLongestRangeCheckpointStartingAt ranges fuel start) c
  | [], fuel + 1, start, _, _, _, _ => (foldl_longer_beats _ _ []).1
  | d :: c, fuel + 1, start, hlen, h0, hc, hs => by
    obtain ⟨hd, hcs⟩ := cons_subset.1 hs
    have hle := hr d hd
    have hmin := hc.1
    obtain ⟨hchain, hsub⟩ := findLongestRangeCheckpointStartingAt_chain ranges fuel (d.maxEpoch + 1)
    have hrest := startingAt_beats c (Nat.lt_of_succ_lt_succ hlen) (by omega) hc.2 hcs
    have hall := (foldl_longer_beats (fun c =>
      c :: findLongestRangeCheckpointStartingAt ranges fuel (c.maxEpoch + 1))
      (ranges.filter fun r => r.minEpoch = start) []).2
    exact (hall d (mem_filter.2 ⟨hd, decide_eq_true hmin⟩)).trans
      (hrest.cons hr (by omega) hchain hsub hc.2 hcs)

lemma Chain.nodup : ∀ {c : List RangeMetadata} {start : ℤ}, Chain start c → c ⊆ ranges →
    c.Nodup ∧ ∀ d ∈ c, start ≤ d.minEpoch
  | [], _, _, _ => ⟨.nil, nofun⟩
  | d :: c, start, h, hs => by
    obtain ⟨hd, hcs⟩ := cons_subset.1 hs
    obtain ⟨hnodup, hlater⟩ := h.2.nodup hcs
    have hle := hr d hd
    have hmin := h.1
    refine ⟨nodup_cons.2 ⟨fun hmem => ?_, hnodup⟩, forall_mem_cons.2 ⟨hmin.ge, fun e he => ?_⟩⟩
    · have := hlater d hmem
      omega
    · have := hlater e he
      omega

end Search

end Warphold.Epoch
