import Warphold.Gateway.Limit

/-!
# The client's address and the bound on its requests

The walk over the hops stops at the last untrusted one, so what precedes it plays no part.
-/

namespace Warphold.Gateway

open List Option Function Limiter

section Address

variable {IP IPNet : Type} (a : Addresses IP IPNet) (trusted : List IPNet)

lemma walk_append (peer : Str) {hop : Str} {ip : IP} (hip : a.parseHop hop = some ip)
    (huntrusted : a.isTrusted (some ip) trusted = false) (far : List Str) : ∀ near : List Str,
    (∀ h ∈ near, ∃ i, a.parseHop h = some i ∧ a.isTrusted (some i) trusted = true) →
      a.walk peer trusted (near ++ hop :: far) = a.string ip
  | [], _ => by simp [Addresses.walk, hip, huntrusted]
  | h :: near, hnear => by
    obtain ⟨i, hi, ht⟩ := hnear h (mem_cons_self ..)
    have ih := walk_append peer hip huntrusted far near fun h' hh' =>
      hnear h' (mem_cons_of_mem _ hh')
    simp [Addresses.walk, hi, ht, ih]

/-- An untrusted peer is the client, and behind trusted ones the client is the last untrusted hop. -/
theorem client_address (remoteAddr : Str) (forwardedFor : List Str) :
    (a.isTrusted (a.parseIP (a.peerIP remoteAddr)) trusted = false →
      a.clientIP remoteAddr forwardedFor trusted = a.peerIP remoteAddr)
    ∧ ∀ (far : List Str) (hop : Str) (near : List Str) (ip : IP),
      a.isTrusted (a.parseIP (a.peerIP remoteAddr)) trusted = true →
      Addresses.hops forwardedFor = far ++ hop :: near →
      a.parseHop hop = some ip → a.isTrusted (some ip) trusted = false →
      (∀ h ∈ near, ∃ i, a.parseHop h = some i ∧ a.isTrusted (some i) trusted = true) →
      a.clientIP remoteAddr forwardedFor trusted = a.string ip := by
  constructor
  · intro h
    simp [Addresses.clientIP, h]
  · intro far hop near ip hpeer hhops hip huntrusted hnear
    have hne : trusted.length ≠ 0 := by
      intro h0
      rw [List.length_eq_zero_iff] at h0
      subst h0
      rcases hp : a.parseIP (a.peerIP remoteAddr) with _ | i <;>
        simp [Addresses.isTrusted, hp] at hpeer
    have hwalk := walk_append a trusted (a.peerIP remoteAddr) hip huntrusted far.reverse
      near.reverse fun h hh => hnear h (List.mem_reverse.1 hh)
    simpa [Addresses.clientIP, hne, hpeer, hhops] using hwalk

def plainAddresses : Addresses Str Str where
  parseIP s := if s = [] then none else some s
  string := id
  contains n i := n = i
  splitHostPort _ := none

theorem client_address_sample : plainAddresses.clientIP (str "p") [str "x", str "c,p"] [str "p"]
      = str "c" ∧ plainAddresses.clientIP (str "q") [str "c"] [str "p"] = str "q" :=
  ⟨(client_address plainAddresses [str "p"] (str "p") [str "x", str "c,p"]).2 [str "x"] (str "c")
      [str "p"] (str "c") (by decide) (by decide) (by decide) (by decide)
      (by simp only [List.mem_singleton, forall_eq]; exact ⟨str "p", by decide, by decide⟩),
    (client_address plainAddresses [str "p"] (str "q") [str "c"]).1 (by decide)⟩

end Address

section Rate

variable {id : Str} {r b : ℚ}

/-- The bucket of a key never holds more at a time than a credit that grows at the rate; a call for
the key comes no earlier than the bucket's last one. -/
def Limiter.Credit (l : Limiter) (id : Str) (c : ℚ) (calls : List (Str × ℤ)) : Prop :=
  match l.buckets id with
  | some b => 0 ≤ b.tokens ∧ b.tokens ≤ c + b.last / 10 ^ 9 * l.rate
      ∧ ∀ t, (id, t) ∈ calls → b.last ≤ t
  | none => ∀ t, (id, t) ∈ calls → l.burst ≤ c + (t : ℤ) / 10 ^ 9 * l.rate

/-- Each call of the key carries a time no earlier than those of the calls executed before it. -/
def InOrder (id : Str) (calls : List (Str × ℤ)) : Prop :=
  calls.Pairwise fun x y => y.1 = id → x.2 ≤ y.2

variable {l : Limiter} {c : ℚ} {i : Str} {now : ℤ} {calls : List (Str × ℤ)}

lemma sweepLocked_fields (l : Limiter) (now : ℤ) :
    (l.sweepLocked now).rate = l.rate ∧ (l.sweepLocked now).burst = l.burst := by
  unfold sweepLocked
  split_ifs <;> exact ⟨rfl, rfl⟩

lemma Limiter.Credit.sweepLocked (h : l.Credit id c ((i, now) :: calls)) (hrate : 0 ≤ l.rate)
    (hidle : l.burst ≤ 600 * l.rate) (hord : InOrder id ((i, now) :: calls)) :
    (l.sweepLocked now).Credit id c ((i, now) :: calls) := by
  unfold Limiter.sweepLocked
  split_ifs with hs
  · exact h
  · unfold Credit at h ⊢
    rcases hb : l.buckets id with _ | b <;> rw [hb] at h
    · simpa [hb] using h
    · obtain ⟨h0, hc, hlast⟩ := h
      by_cases hidl : idleEvict < now - b.last
      · simp only [hb, filter_some, hidl, decide_true, Bool.not_true, Bool.false_eq_true,
          if_false]
        intro t ht
        have hnow : now ≤ t := by
          rcases mem_cons.1 ht with heq | ht
          · exact le_of_eq (Prod.ext_iff.1 heq).2.symm
          · exact (pairwise_cons.1 hord).1 _ ht rfl
        have hwait : (600 : ℚ) ≤ ((t : ℚ) - b.last) / 10 ^ 9 := by
          rw [le_div_iff₀ (by norm_num)]
          have : (600 * 10 ^ 9 : ℤ) ≤ t - b.last := by
            unfold idleEvict at hidl
            omega
          exact_mod_cast this
        have := mul_le_mul_of_nonneg_right hwait hrate
        rw [sub_div, sub_mul] at this
        linarith
      · simp only [hb, filter_some, hidl, decide_false, Bool.not_false, if_true]
        exact ⟨h0, hc, hlast⟩

lemma Limiter.Credit.refill (h : l.Credit id c ((id, now) :: calls)) (hrate : 0 ≤ l.rate)
    (hburst : 0 ≤ l.burst) :
    0 ≤ l.refill ((l.buckets id).getD ⟨l.burst, now⟩) now
    ∧ l.refill ((l.buckets id).getD ⟨l.burst, now⟩) now ≤ c + now / 10 ^ 9 * l.rate := by
  unfold Credit at h
  unfold Limiter.refill
  rcases hb : l.buckets id with _ | b <;> rw [hb] at h
  · have := h now (mem_cons_self ..)
    simpa using ⟨hburst, this⟩
  · obtain ⟨h0, hc, hlast⟩ := h
    have hle := hlast now (mem_cons_self ..)
    simp only [getD_some]
    split_ifs with hd
    · have hadd : 0 ≤ (now - b.last : ℤ) / (10 : ℚ) ^ 9 * l.rate := by
        have : (0 : ℚ) ≤ (now - b.last : ℤ) := by exact_mod_cast hd.le
        positivity
      refine ⟨le_min hburst (by linarith), (min_le_right _ _).trans ?_⟩
      push_cast
      rw [sub_div, sub_mul]
      linarith
    · obtain rfl : b.last = now := by omega
      exact ⟨h0, hc⟩

lemma Limiter.Credit.allow (h : l.Credit id c ((i, now) :: calls)) (hrate : 0 ≤ l.rate)
    (hburst : 0 ≤ l.burst) (hidle : l.burst ≤ 600 * l.rate) (hord : InOrder id ((i, now) :: calls)) :
    (l.allow i now).1.Credit id (c - if i = id ∧ (l.allow i now).2 then 1 else 0) calls
    ∧ (i = id → (l.allow i now).2 = true → 1 ≤ c + now / 10 ^ 9 * l.rate)
    ∧ (l.allow i now).1.rate = l.rate ∧ (l.allow i now).1.burst = l.burst := by
  have hs := h.sweepLocked hrate hidle hord
  obtain ⟨hr, hb⟩ := sweepLocked_fields l now
  unfold Limiter.allow
  generalize l.sweepLocked now = m at hs hr hb ⊢
  rw [← hr, ← hb]
  have hlater : ∀ t, (id, t) ∈ calls → now ≤ t := fun t ht => (pairwise_cons.1 hord).1 _ ht rfl
  by_cases hi : i = id
  · subst hi
    obtain ⟨h0, hc⟩ := hs.refill (hr ▸ hrate) (hb ▸ hburst)
    by_cases ht : m.refill ((m.buckets i).getD ⟨m.burst, now⟩) now < 1
    · simp only [ht, if_true, Bool.false_eq_true, and_false, if_false, sub_zero, IsEmpty.forall_iff,
        implies_true, and_self, and_true]
      simpa [Credit] using ⟨h0, hc, hlater⟩
    · simp only [ht, if_false, and_self, if_true, and_true]
      refine ⟨?_, fun _ _ => (not_lt.1 ht).trans hc⟩
      simp only [Credit, update_self]
      exact ⟨by linarith, by linarith, hlater⟩
  · have hkeep : ∀ x, ({ m with buckets := update m.buckets i x } : Limiter).Credit id c
        calls := fun x => by
      unfold Credit at hs ⊢
      simp only [update_of_ne (Ne.symm hi)]
      rcases hm : m.buckets id with _ | b <;> rw [hm] at hs
      · exact fun t ht => hs t (mem_cons_of_mem _ ht)
      · exact ⟨hs.1, hs.2.1, fun t ht => hs.2.2 t (mem_cons_of_mem _ ht)⟩
    simp only [hi, false_and, if_false, sub_zero, IsEmpty.forall_iff, true_and]
    split_ifs <;> exact ⟨hkeep _, rfl, rfl⟩

lemma admitted_le (hi : ℤ) : ∀ (calls : List (Str × ℤ)) (l : Limiter) (c : ℚ),
    l.Credit id c calls → 0 ≤ l.rate → 0 ≤ l.burst → l.burst ≤ 600 * l.rate → InOrder id calls →
    (∀ t, (id, t) ∈ calls → t ≤ hi) → 0 ≤ c + hi / 10 ^ 9 * l.rate →
    (l.admitted id calls : ℚ) ≤ c + hi / 10 ^ 9 * l.rate
  | [], l, c, _, _, _, _, _, _, h0 => by simpa [admitted] using h0
  | (i, now) :: calls, l, c, hc, hrate, hburst, hidle, hord, hhi, h0 => by
    obtain ⟨hc', hone, hr, hb⟩ := hc.allow hrate hburst hidle hord
    have ih := admitted_le hi calls _ _ hc' (hr ▸ hrate) (hb ▸ hburst) (by rw [hr, hb]; exact hidle)
      (pairwise_cons.1 hord).2 fun t ht => hhi t (mem_cons_of_mem _ ht)
    rw [hr] at ih
    rw [admitted]
    by_cases had : i = id ∧ (l.allow i now).2 = true
    · simp only [if_pos had] at ih ⊢
      have hnow : (now : ℚ) / 10 ^ 9 * l.rate ≤ hi / 10 ^ 9 * l.rate := by
        have : (now : ℚ) ≤ hi := by exact_mod_cast hhi now (had.1 ▸ mem_cons_self ..)
        gcongr
      have := hone had.1 had.2
      push_cast
      linarith [ih (by linarith)]
    · simp only [if_neg had, sub_zero] at ih ⊢
      simpa using ih h0

/-- Calls in order are admitted within the burst and the rate, if filling a bucket takes no longer
than a bucket is kept idle. -/
theorem rate_bound (hidle : (newLimiter r b).burst ≤ 600 * (newLimiter r b).rate)
    {calls : List (Str × ℤ)} (hord : InOrder id calls) {lo hi : ℤ} (hle : lo ≤ hi)
    (htimes : ∀ t, (id, t) ∈ calls → lo ≤ t ∧ t ≤ hi) :
    ((newLimiter r b).admitted id calls : ℚ)
      ≤ (newLimiter r b).burst + (newLimiter r b).rate * ((hi - lo : ℤ) / 10 ^ 9) := by
  have hrate : 0 ≤ (newLimiter r b).rate := by
    simp only [newLimiter]
    split_ifs <;> linarith
  have hburst : 0 ≤ (newLimiter r b).burst := by
    simp only [newLimiter]
    split_ifs <;> linarith
  have hlo : ∀ t : ℤ, lo ≤ t → (lo : ℚ) / 10 ^ 9 * (newLimiter r b).rate
      ≤ t / 10 ^ 9 * (newLimiter r b).rate := fun t ht => by
    have : (lo : ℚ) ≤ t := by exact_mod_cast ht
    gcongr
  have := admitted_le hi calls (newLimiter r b)
    ((newLimiter r b).burst - lo / 10 ^ 9 * (newLimiter r b).rate)
    (fun t ht => by linarith [hlo t (htimes t ht).1]) hrate hburst hidle hord
    (fun t ht => (htimes t ht).2) (by linarith [hlo hi hle])
  refine this.trans (le_of_eq ?_)
  push_cast
  ring

theorem rate_bound_sample : InOrder [] [([], 0), ([], 10 ^ 9)]
    ∧ ((newLimiter 1 1).admitted [] [([], 0), ([], 10 ^ 9)] : ℚ)
      ≤ (newLimiter 1 1).burst + (newLimiter 1 1).rate * ((10 ^ 9 - 0 : ℤ) / 10 ^ 9) :=
  have hord : InOrder [] [([], 0), ([], 10 ^ 9)] := by simp [InOrder]
  ⟨hord, rate_bound (by norm_num [newLimiter]) hord (by norm_num) (by simp)⟩

/-- A call with an earlier time sets the bucket back, so that a second is credited twice (the bound is
2); and an idle bucket that is not yet full is made anew (the bound is 1301). -/
theorem rate_exceeded :
    (newLimiter 1 1).admitted [] [([], 0), ([], 10 ^ 9), ([], 0), ([], 10 ^ 9)] = 3
    ∧ (newLimiter 1 700).admitted []
      (List.replicate 700 ([], 0) ++ List.replicate 700 ([], 601 * 10 ^ 9)) = 1400 := by
  constructor <;> decide +kernel

end Rate

end Warphold.Gateway
