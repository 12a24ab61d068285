import Warphold.Content.IndexBytes
import Warphold.Proofs.ShardedIndex

/-!
# Ranges of an index

IDs are in the order of their texts. So the IDs below a text are the first ones of an index, the
search finds where a range starts, the loop stops where it ends, and what lies between are the
entries of the range.
-/

namespace Warphold.Content

open List Nat IndexV2

section Text

lemma digit_lt_digit : ∀ m < 16, ∀ n < 16, m < n → Hex.digit m < Hex.digit n := by decide

lemma digit_lt_g : ∀ n < 16, Hex.digit n < 103 := by decide

lemma encode_lt : ∀ {s t : Str}, s < t → Hex.encodeToString s < Hex.encodeToString t
  | [], [], h => absurd h (by simp)
  | _ :: _, [], h => absurd h (by simp)
  | [], y :: t, _ => by
    simp only [Hex.encodeToString, flatMap_nil, flatMap_cons]
    exact Lex.nil
  | x :: s, y :: t, h => by
    have hx := x.toNat_lt
    have hy := y.toNat_lt
    simp only [Hex.encodeToString, flatMap_cons, cons_append, nil_append,
      cons_lt_cons_iff]
    rcases cons_lt_cons_iff.1 h with hlt | ⟨rfl, hlt⟩
    · have hlt' : x.toNat < y.toNat := hlt
      rcases lt_or_ge (x.toNat / 16) (y.toNat / 16) with hhi | hhi
      · exact .inl (digit_lt_digit _ (by omega) _ (by omega) hhi)
      · have heq : x.toNat / 16 = y.toNat / 16 := by omega
        exact .inr ⟨by rw [heq], .inl (digit_lt_digit _ (by omega) _ (by omega) (by omega))⟩
    · exact .inr ⟨rfl, .inr ⟨rfl, encode_lt hlt⟩⟩

lemma string_lt {a b : ID} (ha : PrefixOk a) (hb : PrefixOk b)
    (h : a.less b = true) : a.string < b.string := by
  have hstr : ∀ {c : ID}, PrefixOk c →
      c.pre = 0 ∧ c.prefixString = [] ∨ (103 ≤ c.pre ∧ c.prefixString = [c.pre]) := by
    intro c hc
    rcases hc with h0 | h1
    · refine .inl ⟨h0, ?_⟩
      rw [ID.prefixString, h0]
      rfl
    · refine .inr ⟨h1.1, ?_⟩
      rw [ID.prefixString, if_pos (by simp [h1.1, h1.2])]
  unfold ID.string
  rcases cons_lt_cons_iff.1 ((ID.less_iff a b).1 h) with hlt | ⟨heq, hlt⟩
  · rcases hstr hb with ⟨hb0, -⟩ | ⟨hb1, hbs⟩
    · rw [hb0] at hlt
      exact absurd hlt (UInt8.not_lt.2 UInt8.zero_le)
    · rw [hbs]
      rcases hstr ha with ⟨-, has⟩ | ⟨-, has⟩
      · rw [has, nil_append, singleton_append]
        rcases hh : a.hash with _ | ⟨x, xs⟩
        · exact Lex.nil
        · have hx := x.toNat_lt
          rw [Hex.encodeToString, flatMap_cons, cons_append, cons_lt_cons_iff]
          exact .inl (UInt8.lt_of_lt_of_le (digit_lt_g _ (by omega)) hb1)
      · rw [has, singleton_append, singleton_append, cons_lt_cons_iff]
        exact .inl hlt
  · have hsame : a.prefixString = b.prefixString := by rw [ID.prefixString, ID.prefixString, heq]
    rw [hsame]
    rcases hstr hb with ⟨-, hbs⟩ | ⟨-, hbs⟩
    · rw [hbs]
      exact encode_lt hlt
    · rw [hbs, singleton_append, singleton_append, cons_lt_cons_iff]
      exact .inr ⟨rfl, encode_lt hlt⟩

lemma string_bound (c : ID) : ∀ x ∈ c.string, x < 123 := by
  intro x hx
  rcases mem_append.1 hx with hx | hx
  · unfold ID.prefixString at hx
    split_ifs at hx with hp
    · simp only [Bool.and_eq_true, decide_eq_true_eq] at hp
      rw [mem_singleton.1 hx]
      exact UInt8.lt_of_le_of_lt hp.2 (by decide)
    · cases hx
  · obtain ⟨b, -, hx⟩ := mem_flatMap.1 hx
    have hb := b.toNat_lt
    simp only [mem_cons, not_mem_nil, or_false] at hx
    rcases hx with rfl | rfl <;> exact Merged.digit_lt _ (by omega)

lemma belowPrefix_mono {a b : ID} (ha : PrefixOk a) (hb : PrefixOk b)
    (h : a.less b = true) {p : Str} (hp : b.belowPrefix p = true) : a.belowPrefix p = true := by
  unfold ID.belowPrefix at hp ⊢
  split_ifs at hp ⊢ with hnil
  exact decide_eq_true (List.lt_trans (string_lt ha hb h) (of_decide_eq_true hp))

lemma prefix_iff_between : ∀ {p s : Str}, (∀ x ∈ s, x < 123) →
    ((¬ s < p ∧ s < p ++ [123]) ↔ p <+: s)
  | [], [], _ => by simp
  | [], y :: s, h => by
    have hy := h y mem_cons_self
    simp [cons_lt_cons_iff, hy]
  | x :: p, [], _ => by simp
  | x :: p, y :: s, h => by
    have ih := prefix_iff_between (p := p) (s := s) fun c hc => h c (mem_cons_of_mem _ hc)
    rw [cons_append, cons_lt_cons_iff, cons_lt_cons_iff, cons_prefix_cons, ← ih]
    rcases lt_trichotomy y.toNat x.toNat with hlt | heq | hgt
    · have hyx : y < x := hlt
      have hne : x ≠ y := fun heq => by simp [heq] at hlt
      simp [hyx, hne]
    · obtain rfl := UInt8.toNat_inj.1 heq
      simp
    · have hyx : ¬ y < x := UInt8.not_lt.2 (le_of_lt hgt)
      have hne : x ≠ y := fun heq => by simp [heq] at hgt
      simp [hyx, hne, hne.symm]

end Text

section Lists

lemma filter_eq_drop {α : Type} {l : List α} {g : α → Bool} {k : ℕ}
    (h₁ : ∀ p x, l[p]? = some x → p < k → g x = false)
    (h₂ : ∀ p x, l[p]? = some x → k ≤ p → g x = true) : l.filter g = l.drop k := by
  have htake : (l.take k).filter g = [] := by
    refine filter_eq_nil_iff.2 fun x hx => ?_
    obtain ⟨p, hp⟩ := mem_iff_getElem?.1 hx
    have hlt : p < k := by
      have := (List.getElem?_eq_some_iff.1 hp).1
      rw [List.length_take] at this
      omega
    rw [getElem?_take_of_lt hlt] at hp
    rw [h₁ p x hp hlt]
    exact Bool.false_ne_true
  have hdrop : (l.drop k).filter g = l.drop k := by
    refine filter_eq_self.2 fun x hx => ?_
    obtain ⟨p, hp⟩ := mem_iff_getElem?.1 hx
    rw [getElem?_drop] at hp
    exact h₂ _ x hp (le_add_right _ _)
  conv_lhs => rw [← take_append_drop k l]
  rw [filter_append, htake, hdrop, nil_append]

lemma takeWhile_eq_filter {α : Type} {R : α → α → Prop} {q : α → Bool} : ∀ {l : List α},
    l.Pairwise R → (∀ x ∈ l, ∀ y ∈ l, R x y → q y = true → q x = true) →
    l.takeWhile q = l.filter q
  | [], _, _ => rfl
  | x :: l, h, hq => by
    obtain ⟨hx, hl⟩ := pairwise_cons.1 h
    have ih := takeWhile_eq_filter hl fun a ha b hb =>
      hq a (mem_cons_of_mem _ ha) b (mem_cons_of_mem _ hb)
    rw [takeWhile_cons, filter_cons]
    split_ifs with hqx
    · rw [ih]
    · refine (filter_eq_nil_iff.2 fun y hy hqy => hqx ?_).symm
      exact hq x mem_cons_self y (mem_cons_of_mem _ hy) (hx y hy) hqy

end Lists

namespace Reader

open Go

variable {b : Reader}

lemma search_spec {f : ℕ → Go Bool} {g : ℕ → Bool} : ∀ (n : ℕ) {i j : ℕ}, j ≤ i + n → i ≤ j →
    (∀ p, i ≤ p → p < j → f p = .ok (g p)) →
    (∀ p q, i ≤ p → p ≤ q → q < j → g p = true → g q = true) →
    ∃ k, search f n i j = .ok k ∧ i ≤ k ∧ k ≤ j ∧ (∀ p, i ≤ p → p < k → g p = false) ∧
      ∀ p, k ≤ p → p < j → g p = true
  | 0, i, j, hn, hij, _, _ => by
    obtain rfl : i = j := by omega
    exact ⟨i, rfl, le_rfl, le_rfl, fun p h₁ h₂ => by omega, fun p h₁ h₂ => by omega⟩
  | n + 1, i, j, hn, hij, hf, hg => by
    rw [search]
    split_ifs with hlt
    · have hmid : f ((i + j) / 2) = .ok (g ((i + j) / 2)) := hf _ (by omega) (by omega)
      rw [hmid]
      cases hgm : g ((i + j) / 2) with
      | true =>
        obtain ⟨k, hk, h₁, h₂, h₃, h₄⟩ := search_spec n (i := i) (j := (i + j) / 2) (by omega)
          (by omega) (fun p hp hq => hf p hp (by omega)) fun p q hp hpq hq =>
            hg p q hp hpq (by omega)
        refine ⟨k, hk, h₁, by omega, h₃, fun p hp hq => ?_⟩
        rcases Nat.lt_or_ge p ((i + j) / 2) with hpm | hpm
        · exact h₄ p hp hpm
        · exact hg _ p (by omega) hpm hq hgm
      | false =>
        obtain ⟨k, hk, h₁, h₂, h₃, h₄⟩ := search_spec n (i := (i + j) / 2 + 1) (j := j) (by omega)
          (by omega) (fun p hp hq => hf p (by omega) hq) fun p q hp hpq hq =>
            hg p q (by omega) hpq hq
        refine ⟨k, hk, by omega, h₂, fun p hp hq => ?_, h₄⟩
        rcases Nat.lt_or_ge p ((i + j) / 2 + 1) with hpm | hpm
        · by_contra hc
          rw [Bool.not_eq_false] at hc
          have := hg p _ hp (Nat.lt_succ_iff.1 hpm) (by omega) hc
          rw [hgm] at this
          cases this
        · exact h₃ p hpm hq
    · obtain rfl : i = j := by omega
      exact ⟨i, rfl, le_rfl, le_rfl, fun p h₁ h₂ => by omega, fun p h₁ h₂ => by omega⟩

lemma bind_ok {α β : Type} {x : Go α} {f : α → Go β} {y : β} (h : (x >>= f) = .ok y) :
    ∃ a, x = .ok a ∧ f a = .ok y := by
  cases x with
  | ok a => exact ⟨a, rfl, h⟩
  | error => cases h
  | panic => cases h

lemma search_start {f : ℕ → Go Bool} (hf : ∀ p v, f p = .ok v → v = true) : ∀ (n : ℕ) {i j k : ℕ},
    search f n i j = .ok k → k = i
  | 0, i, j, k, h => by
    cases h
    rfl
  | n + 1, i, j, k, h => by
    rw [search] at h
    split_ifs at h
    · obtain ⟨v, hv, h⟩ := bind_ok h
      rw [if_pos (hf _ v hv)] at h
      exact search_start hf n h
    · cases h
      rfl

structure Reads (b : Reader) (p : ℕ) (i : Info) (entry key value : Str) : Prop where
  entryRead : safeSlice b.data (b.entryOffset p) b.stride = .ok entry
  keyRead : slice entry 0 b.keySize = .ok key
  idRead : bytesToContentID key = .ok i.contentID
  valueRead : sliceFrom entry b.keySize = .ok value
  infoRead : b.entryToInfo i.contentID value = .ok i

lemma ok_bind {α β : Type} {x : Go α} {a : α} (h : x = .ok a) (f : α → Go β) :
    (x >>= f) = f a := by
  rw [h]
  rfl

lemma below_allIDs (c : ID) : c.belowPrefix IDRange.allIDs.endID = true := by
  have := Merged.contains_allIDs c
  rw [IDRange.contains, Bool.and_eq_true_iff] at this
  exact this.2

lemma reads_of_iterateFrom (hb : ∀ id d i, b.entryToInfo id d = .ok i → i.contentID = id) :
    ∀ (n s : ℕ) {full : List Info}, b.iterateFrom .allIDs n s = .ok full →
      full.length = n ∧ ∀ p i, full[p]? = some i → ∃ entry key value, Reads b (s + p) i entry key value
  | 0, s, full, h => by
    cases h
    exact ⟨rfl, nofun⟩
  | n + 1, s, full, h => by
    rw [iterateFrom] at h
    obtain ⟨entry, hentry, h⟩ := bind_ok h
    obtain ⟨key, hkey, h⟩ := bind_ok h
    obtain ⟨id, hid, h⟩ := bind_ok h
    rw [below_allIDs, Bool.not_true, if_neg Bool.false_ne_true] at h
    obtain ⟨value, hvalue, h⟩ := bind_ok h
    obtain ⟨info, hinfo, h⟩ := bind_ok h
    obtain ⟨rest, hrest, h⟩ := bind_ok h
    cases h
    obtain ⟨hlen, hall⟩ := reads_of_iterateFrom hb n (s + 1) hrest
    obtain rfl := hb _ _ _ hinfo
    refine ⟨by rw [length_cons, hlen], fun p i hp => ?_⟩
    cases p with
    | zero =>
      cases hp
      exact ⟨entry, key, value, hentry, hkey, hid, hvalue, hinfo⟩
    | succ p =>
      rw [add_comm p 1, ← add_assoc]
      exact hall p i hp

lemma safeSlice_ok {d out : Str} {off len : ℕ} :
    safeSlice d off len = .ok out ↔ off + len ≤ d.length ∧ (d.drop off).take len = out := by
  unfold safeSlice slice
  split_ifs with h
  · rw [Nat.add_sub_cancel_left]
    constructor
    · intro heq
      cases heq
      exact ⟨h.2, rfl⟩
    · rintro ⟨-, rfl⟩
      rfl
  · constructor
    · intro heq
      cases heq
    · rintro ⟨hle, -⟩
      exact absurd ⟨le_add_right _ _, hle⟩ h

lemma Reads.keySlice {p : ℕ} {i : Info} {entry key value : Str} (h : Reads b p i entry key value) :
    safeSlice b.data (b.entryOffset p) b.keySize = .ok key := by
  obtain ⟨hle, rfl⟩ := safeSlice_ok.1 h.entryRead
  have hkey := h.keyRead
  unfold slice at hkey
  split_ifs at hkey with hk
  cases hkey
  refine safeSlice_ok.2 ⟨?_, ?_⟩
  · unfold Reader.stride at hle
    omega
  · rw [drop_zero, Nat.sub_zero, take_take, Reader.stride, min_eq_left (Nat.le_add_right _ _)]

lemma iterateFrom_eq {full : List Info} (r : IDRange)
    (hreads : ∀ p i, full[p]? = some i → ∃ entry key value, Reads b p i entry key value) :
    ∀ (n s : ℕ), n = full.length - s →
      b.iterateFrom r n s = .ok ((full.drop s).takeWhile (·.contentID.belowPrefix r.endID))
  | 0, s, hn => by
    rw [drop_eq_nil_of_le (by omega)]
    rfl
  | n + 1, s, hn => by
    have hs : s < full.length := by omega
    obtain ⟨entry, key, value, hr⟩ := hreads s full[s] (getElem?_eq_getElem hs)
    rw [iterateFrom, ok_bind hr.entryRead, ok_bind hr.keyRead, ok_bind hr.idRead, drop_eq_getElem_cons hs,
      takeWhile_cons]
    cases hbelow : full[s].contentID.belowPrefix r.endID with
    | false => rfl
    | true =>
      rw [Bool.not_true, if_neg Bool.false_ne_true, if_pos rfl, ok_bind hr.valueRead, ok_bind hr.infoRead,
        ok_bind (iterateFrom_eq r hreads n (s + 1) (by omega))]
      rfl

variable {full : List Info}

lemma iterate_eq_filter (hb : ∀ id d i, b.entryToInfo id d = .ok i → i.contentID = id)
    (hfull : b.iterate .allIDs = .ok full) (hasc : Ascending full)
    (hids : ∀ i ∈ full, PrefixOk i.contentID) (r : IDRange) :
    b.iterate r = .ok (full.filter fun i => r.contains i.contentID) := by
  obtain ⟨start, hstart, hfull⟩ := bind_ok hfull
  obtain rfl : start = 0 := search_start (fun p v hv => by
    obtain ⟨_, -, hv⟩ := bind_ok hv
    obtain ⟨_, -, hv⟩ := bind_ok hv
    cases hv
    rfl) _ hstart
  obtain ⟨hlen, hreads⟩ := reads_of_iterateFrom hb _ 0 hfull
  rw [Nat.sub_zero] at hlen
  simp only [zero_add] at hreads
  have hmono : ∀ (t : Str) (p q : ℕ) (i j : Info), full[p]? = some i → full[q]? = some j → p ≤ q →
      j.contentID.belowPrefix t = true → i.contentID.belowPrefix t = true := by
    intro t p q i j hi hj hpq hbelow
    rcases lt_or_ge p q with hlt | hge
    · obtain ⟨hp, rfl⟩ := List.getElem?_eq_some_iff.1 hi
      obtain ⟨hq, rfl⟩ := List.getElem?_eq_some_iff.1 hj
      exact belowPrefix_mono (hids _ (List.getElem_mem hp)) (hids _ (List.getElem_mem hq))
        (pairwise_iff_getElem.1 hasc p q hp hq hlt) hbelow
    · obtain rfl : p = q := by omega
      rw [hi] at hj
      cases hj
      exact hbelow
  obtain ⟨k, hk, -, -, hbefore, hafter⟩ := search_spec (f := fun p => do
      let key ← safeSlice b.data (b.entryOffset p) b.keySize
      let id ← bytesToContentID key
      return !id.belowPrefix r.startID)
    (g := fun p => (full[p]?).all fun i => !i.contentID.belowPrefix r.startID) b.entryCount
    (i := 0) (j := b.entryCount) (by omega) (zero_le _)
    (fun p _ hp => by
      have hget := getElem?_eq_getElem (hp.trans_eq hlen.symm)
      obtain ⟨entry, key, value, hr⟩ := hreads p _ hget
      rw [ok_bind hr.keySlice, ok_bind hr.idRead, hget]
      rfl)
    (fun p q _ hpq hq h => by
      have hgp := getElem?_eq_getElem (show p < full.length by omega)
      have hgq := getElem?_eq_getElem (show q < full.length by omega)
      rw [hgp, Option.all_some, Bool.not_eq_true'] at h
      rw [hgq, Option.all_some, Bool.not_eq_true', ← Bool.not_eq_true]
      intro hc
      rw [hmono _ p q _ _ hgp hgq hpq hc] at h
      cases h)
  have hdrop : full.filter (fun i => !i.contentID.belowPrefix r.startID) = full.drop k := by
    refine filter_eq_drop (fun p i hi hp => ?_) fun p i hi hp => ?_
    · have := hbefore p (zero_le _) hp
      rwa [hi, Option.all_some] at this
    · have := hafter p hp ((List.getElem?_eq_some_iff.1 hi).1.trans_eq hlen)
      rwa [hi, Option.all_some] at this
  have htake : (full.drop k).takeWhile (·.contentID.belowPrefix r.endID)
      = (full.drop k).filter (·.contentID.belowPrefix r.endID) := by
    refine takeWhile_eq_filter (hasc.sublist (drop_sublist k full)) fun i hi j hj hij hbelow => ?_
    exact belowPrefix_mono (hids i (mem_of_mem_drop hi)) (hids j (mem_of_mem_drop hj)) hij
      hbelow
  rw [iterate, findEntryPosition, ok_bind hk, iterateFrom_eq r hreads _ k (by rw [hlen]), htake,
    ← hdrop, filter_filter]
  refine congrArg Go.ok (filter_congr fun i _ => ?_)
  rw [IDRange.contains, Bool.and_comm]

end Reader

lemma IndexV1.contentID_entryToInfo {file : Str} {overhead : ℕ} {id : ID} {d : Str} {i : Info}
    (h : IndexV1.entryToInfo file overhead id d = .ok i) : i.contentID = id := by
  unfold IndexV1.entryToInfo at h
  split_ifs at h
  iterate 8 obtain ⟨_, -, h⟩ := Reader.bind_ok h
  cases h
  rfl

lemma IndexV2.contentID_entryToInfo {hdr : Header} {formats : List FormatInfo}
    {packBlobIDs : List Str} {id : ID} {d : Str} {i : Info}
    (h : entryToInfoStruct hdr formats packBlobIDs id d = .ok i) : i.contentID = id := by
  unfold entryToInfoStruct at h
  split_ifs at h
  iterate 11 obtain ⟨_, -, h⟩ := Reader.bind_ok h
  cases h
  rfl

lemma contentID_of_openBytes {data : Str} {overhead : ℕ} {b : Reader}
    (h : openBytes data overhead = .ok b) :
    ∀ id d i, b.entryToInfo id d = .ok i → i.contentID = id := by
  obtain ⟨hdr, -, h⟩ := Reader.bind_ok h
  split_ifs at h with h1 h2
  · cases h
    exact fun _ _ _ hi => IndexV1.contentID_entryToInfo hi
  · obtain ⟨hi, -, h⟩ := Reader.bind_ok h
    split_ifs at h
    iterate 3 obtain ⟨_, -, h⟩ := Reader.bind_ok h
    cases h
    exact fun _ _ _ hi => contentID_entryToInfo hi

def IDRange.prefixRange (p : Str) : IDRange := ⟨p, p ++ [123]⟩

lemma contains_prefixRange (p : Str) (c : ID) :
    (IDRange.prefixRange p).contains c = true ↔ Strings.hasPrefix c.string p = true := by
  have hiff := prefix_iff_between (p := p) (string_bound c)
  rw [Strings.hasPrefix_iff, ← hiff, IDRange.contains, Bool.and_eq_true_iff, Bool.not_eq_true',
    IDRange.prefixRange]
  have hne : p ++ [123] ≠ [] := by simp
  unfold ID.belowPrefix
  rw [if_neg hne, decide_eq_true_eq]
  refine and_congr_left' ?_
  split_ifs with hp
  · subst hp
    simp
  · rw [decide_eq_false_iff_not]

def sampleV1 : Str :=
  [1, 2, 0, 20, 0, 0, 0, 2] ++
  [0, 5] ++ [0, 0, 0, 0, 0, 9, 2, 1] ++ [0, 0, 0, 52] ++ [0, 0, 0, 0] ++ [0, 0, 0, 7] ++
  [107, 5] ++ [0, 0, 0, 0, 0, 9, 2, 1] ++ [0, 0, 0, 52] ++ [0, 0, 0, 7] ++ [0, 0, 0, 7] ++ [112]

def sampleV1Entry (pre : UInt8) (offset : ℕ) : Info :=
  ⟨[112], 9, 7, 7, offset, 0, ⟨pre, [5]⟩, false, 2, 0⟩

end Warphold.Content
