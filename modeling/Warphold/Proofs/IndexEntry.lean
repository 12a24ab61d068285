import Warphold.Content.IndexV2
import Warphold.Proofs.Resolution

/-!
# Reading back an index entry

What the builder leaves off an entry is zero, so the entry is read back from what is there.
-/

namespace Warphold.Content.IndexV2

open List hiding get

open Binary UInt8

section Unique
variable {α : Type} [DecidableEq α]

lemma mem_foldl_unique (x : α) : ∀ (l seen : List α),
    x ∈ l.foldl (fun seen x => if x ∈ seen then seen else seen ++ [x]) seen ↔ x ∈ seen ∨ x ∈ l
  | [], seen => by simp
  | y :: l, seen => by
    rw [foldl_cons, mem_foldl_unique x l]
    split_ifs with hy
    · constructor
      · rintro (h | h)
        · exact .inl h
        · exact .inr (by simp [h])
      · rintro (h | h)
        · exact .inl h
        · rcases mem_cons.1 h with rfl | h
          · exact .inl hy
          · exact .inr h
    · simp only [mem_append, mem_cons]
      tauto

lemma mem_unique {x : α} {l : List α} : x ∈ unique l ↔ x ∈ l := by
  simp [unique, mem_foldl_unique]

lemma idxOf_unique [BEq α] [LawfulBEq α] {x : α} {l : List α} (h : x ∈ l) :
    (unique l).idxOf x < (unique l).length ∧ (unique l)[(unique l).idxOf x]? = some x := by
  have hlt : (unique l).idxOf x < (unique l).length := idxOf_lt_length_iff.2 (mem_unique.2 h)
  exact ⟨hlt, by rw [getElem?_eq_getElem hlt, getElem_idxOf]⟩

end Unique

lemma le_maxOf (f : Info → ℕ) : ∀ (is : List Info) (m : ℕ),
    m ≤ is.foldl (fun m i => max m (f i)) m ∧
      ∀ i ∈ is, f i ≤ is.foldl (fun m i => max m (f i)) m
  | [], m => by simp
  | j :: is, m => by
    obtain ⟨h₁, h₂⟩ := le_maxOf f is (max m (f j))
    rw [foldl_cons]
    refine ⟨(le_max_left _ _).trans h₁, fun i hi => ?_⟩
    rcases mem_cons.1 hi with rfl | hi
    · exact (le_max_right _ _).trans h₁
    · exact h₂ i hi

structure Built (is : List Info) (b : IndexBuilder) : Prop where
  formats : b.formats = unique (is.map formatInfo)
  packs : b.packs = unique (is.map (·.packBlobID))
  entryCount : b.entryCount = is.length
  keyLength : b.keyLength = (is.head?.map fun i => i.contentID.toBytes.length).getD 0
  size : 16 ≤ b.entrySize ∧ b.entrySize ≤ 19
  formatCount : b.formats.length ≤ 255
  packCount : b.packs.length ≤ 2 ^ 24
  small : ∀ i ∈ is, i.packedLength < 2 ^ 28 ∧ i.originalLength < 2 ^ 28 ∧ i.packOffset < 2 ^ 30
  oneFormat : b.entrySize ≤ 16 → b.formats.length ≤ 1
  shortPack : b.entrySize ≤ 17 → b.packs.length ≤ 2 ^ 16
  shortLength : b.entrySize ≤ 18 →
    ∀ i ∈ is, i.packedLength < 2 ^ 24 ∧ i.originalLength < 2 ^ 24

lemma entrySizeFor_spec (f p l o : ℕ) :
    (16 ≤ entrySizeFor f p l o ∧ entrySizeFor f p l o ≤ 19) ∧
      (entrySizeFor f p l o ≤ 16 → f ≤ 1) ∧ (entrySizeFor f p l o ≤ 17 → p ≤ 2 ^ 16) ∧
      (entrySizeFor f p l o ≤ 18 → l < 2 ^ 24 ∧ o < 2 ^ 24) := by
  simp only [entrySizeFor, entryMinLength]
  split_ifs <;> omega

lemma built_of_newIndexBuilder {is : List Info} {b : IndexBuilder}
    (h : newIndexBuilder is = .ok b) : Built is b := by
  have hp : ∀ i ∈ is, i.packedLength ≤ maxOf (·.packedLength) is := (le_maxOf _ is 0).2
  have ho : ∀ i ∈ is, i.originalLength ≤ maxOf (·.originalLength) is := (le_maxOf _ is 0).2
  have hf : ∀ i ∈ is, i.packOffset ≤ maxOf (·.packOffset) is := (le_maxOf _ is 0).2
  simp only [newIndexBuilder] at h
  split_ifs at h with h₁ h₂ h₃ h₄
  obtain rfl := Except.ok.inj h
  simp only [not_or, not_le, not_lt] at h₁ h₂ h₃ h₄
  obtain ⟨hsize, h₅, h₆, h₇⟩ := entrySizeFor_spec (unique (is.map formatInfo)).length
    (unique (is.map (·.packBlobID))).length (maxOf (·.packedLength) is)
    (maxOf (·.originalLength) is)
  refine ⟨rfl, rfl, rfl, rfl, hsize, h₁, h₂, fun i hi => ?_, h₅, h₆, fun he i hi => ?_⟩
  · exact ⟨(hp i hi).trans_lt h₃.1, (ho i hi).trans_lt h₃.2, (hf i hi).trans_lt h₄⟩
  · exact ⟨(hp i hi).trans_lt (h₇ he).1, (ho i hi).trans_lt (h₇ he).2⟩

section Entry
variable {is : List Info} {b : IndexBuilder} {i : Info}

@[simp] lemma length_valueBytes (b : IndexBuilder) (i : Info) : (b.valueBytes i).length = 19 := by
  simp [IndexBuilder.valueBytes]

lemma Built.writeIndexValueEntry (h : Built is b) (hi : i ∈ is) :
    b.writeIndexValueEntry i = .ok ((b.valueBytes i).take b.entrySize) := by
  have hfmt : formatInfo i ∈ is.map formatInfo := mem_map_of_mem hi
  have hpack : i.packBlobID ∈ is.map (·.packBlobID) := mem_map_of_mem hi
  have hf := (idxOf_unique hfmt).1
  have hp := (idxOf_unique hpack).1
  rw [← h.formats] at hf
  rw [← h.packs] at hp
  have hdrop : b.valueBytes i = (put 4 (i.timestampSeconds % 2 ^ 32).toNat
      ++ put 4 (if i.deleted then i.packOffset ||| 2 ^ 31 else i.packOffset)
      ++ put 3 i.originalLength ++ put 3 i.packedLength ++ put 2 (b.packs.idxOf i.packBlobID))
      ++ [ofNat (b.formats.idxOf (formatInfo i)),
        ofNat (b.packs.idxOf i.packBlobID / 2 ^ 16),
        ofNat (i.packedLength / 2 ^ 24) ||| ofNat (i.originalLength / 2 ^ 24 * 2 ^ 4)] :=
    rfl
  have h16 : b.entrySize ≤ 16 → ofNat (b.formats.idxOf (formatInfo i)) = 0 := fun he => by
    have := h.oneFormat he
    rw [show b.formats.idxOf (formatInfo i) = 0 by omega]
    rfl
  have h17 : b.entrySize ≤ 17 → ofNat (b.packs.idxOf i.packBlobID / 2 ^ 16) = 0 := fun he => by
    have := h.shortPack he
    rw [Nat.div_eq_of_lt (by omega)]
    rfl
  have h18 : b.entrySize ≤ 18 → ofNat (i.packedLength / 2 ^ 24) |||
      ofNat (i.originalLength / 2 ^ 24 * 2 ^ 4) = 0 := fun he => by
    obtain ⟨h₁, h₂⟩ := h.shortLength he i hi
    rw [Nat.div_eq_of_lt h₁, Nat.div_eq_of_lt h₂]
    rfl
  have hzero : ((b.valueBytes i).drop b.entrySize).any (· ≠ 0) = false := by
    rw [hdrop, drop_append]
    obtain ⟨hlo, hhi⟩ := h.size
    simp only [length_append, length_put]
    rw [drop_of_length_le (by simp; omega), nil_append]
    generalize ofNat (b.formats.idxOf (formatInfo i)) = x at h16 ⊢
    generalize ofNat (b.packs.idxOf i.packBlobID / 2 ^ 16) = y at h17 ⊢
    generalize ofNat (i.packedLength / 2 ^ 24) |||
      ofNat (i.originalLength / 2 ^ 24 * 2 ^ 4) = z at h18 ⊢
    obtain he | he | he | he : b.entrySize = 16 ∨ b.entrySize = 17 ∨ b.entrySize = 18 ∨
      b.entrySize = 19 := by omega
    · simp [he, h16 (by omega), h17 (by omega), h18 (by omega)]
    · simp [he, h17 (by omega), h18 (by omega)]
    · simp [he, h18 (by omega)]
    · simp [he]
  rw [IndexBuilder.writeIndexValueEntry, if_neg (by rw [hzero]; exact Bool.false_ne_true)]

lemma field_take {s : Str} {off len e : ℕ} (h : off + len ≤ e) :
    field (s.take e) off len = field s off len := by
  rw [field, field, drop_take, take_take, Nat.min_eq_left (by omega)]

lemma get_singleton (c : UInt8) : get [c] = c.toNat := by simp [Binary.get]

lemma toNat_ofNat_of_lt {n : ℕ} (h : n < 256) : (ofNat n).toNat = n :=
  toNat_ofNat_of_lt' h

lemma or_mul_pow {n m k : ℕ} (h : n < 2 ^ k) : n ||| m * 2 ^ k = m * 2 ^ k + n := by
  rw [Nat.or_comm, Nat.mul_comm, Nat.two_pow_add_eq_or_of_lt h]

lemma or_halves : ∀ x < 16, ∀ y < 16,
    (ofNat x ||| ofNat (y * 2 ^ 4)).toNat / 2 ^ 4 = y ∧
      (ofNat x ||| ofNat (y * 2 ^ 4)).toNat &&& 0xF = x := by
  decide

lemma and_high_bit : ∀ n < 256, (n &&& 0x80 ≠ 0 ↔ 128 ≤ n) := by
  decide +kernel

lemma offset_flag {off : ℕ} (deleted : Bool) (h : off < 2 ^ 30) :
    let n := if deleted then off ||| 2 ^ 31 else off
    n < 256 ^ 4 ∧ n &&& (2 ^ 31 - 1) = off ∧
      (decide ((ofNat (n / 256 ^ 3)).toNat &&& 0x80 ≠ 0)) = deleted := by
  have hor : off ||| 2 ^ 31 = 2 ^ 31 + off := by
    have := or_mul_pow (m := 1) (k := 31) (show off < 2 ^ 31 by omega)
    omega
  have hn : ∀ n, n < 256 ^ 4 → (ofNat (n / 256 ^ 3)).toNat = n / 256 ^ 3 := fun n hn =>
    toNat_ofNat_of_lt (by omega)
  cases deleted with
  | true =>
    simp only [if_true, hor]
    refine ⟨by omega, ?_, ?_⟩
    · rw [Nat.and_two_pow_sub_one_eq_mod]
      omega
    · rw [hn _ (by omega)]
      have := (and_high_bit ((2 ^ 31 + off) / 256 ^ 3) (by omega)).2 (by omega)
      simpa using this
  | false =>
    simp only [Bool.false_eq_true, if_false]
    refine ⟨by omega, ?_, ?_⟩
    · rw [Nat.and_two_pow_sub_one_eq_mod]
      omega
    · rw [hn _ (by omega)]
      have := (and_high_bit (off / 256 ^ 3) (by omega)).not.2 (by omega)
      simpa using this

lemma field_parts {t o l p k : Str} (x y z : UInt8) (ht : t.length = 4) (ho : o.length = 4)
    (hl : l.length = 3) (hp : p.length = 3) (hk : k.length = 2) :
    let v := t ++ o ++ l ++ p ++ k ++ [x, y, z]
    (field v 0 4 = get t ∧ field v 4 4 = get o ∧ field v 4 1 = get (o.take 1) ∧
      field v 8 3 = get l ∧ field v 11 3 = get p ∧ field v 14 2 = get k) ∧
    field v 16 1 = x.toNat ∧ field v 17 1 = y.toNat ∧ field v 18 1 = z.toNat := by
  obtain ⟨t₁, t₂, t₃, t₄, rfl⟩ := length_eq_four.1 ht
  obtain ⟨o₁, o₂, o₃, o₄, rfl⟩ := length_eq_four.1 ho
  obtain ⟨l₁, l₂, l₃, rfl⟩ := length_eq_three.1 hl
  obtain ⟨p₁, p₂, p₃, rfl⟩ := length_eq_three.1 hp
  obtain ⟨k₁, k₂, rfl⟩ := length_eq_two.1 hk
  exact ⟨⟨rfl, rfl, rfl, rfl, rfl, rfl⟩, get_singleton x, get_singleton y, get_singleton z⟩

/-- What the format asks of an entry, its fields being of the widths that they have in memory. -/
structure Encodable (hashLength : ℕ) (i : Info) : Prop where
  hashLength : i.contentID.hash.length = hashLength
  idPrefix : i.contentID.pre = 0 ∨ 103 ≤ i.contentID.pre ∧ i.contentID.pre ≤ 122
  time : 0 ≤ i.timestampSeconds ∧ i.timestampSeconds < 2 ^ 32
  packName : i.packBlobID.length ≤ 255
  compression : i.compressionHeaderID < 2 ^ 32
  version : i.formatVersion < 256
  key : i.encryptionKeyID < 256

lemma Built.entryToInfo (h : Built is b) (hi : i ∈ is) {n : ℕ} (he : Encodable n i)
    {ndx : Opened} (hformats : ndx.formats = b.formats) (hpacks : ndx.packBlobIDs = b.packs)
    (hcount : ndx.hdr.packCount = b.packs.length) (hbase : ndx.hdr.baseTimestamp = 0) :
    ndx.entryToInfo i.contentID ((b.valueBytes i).take b.entrySize) = some i := by
  obtain ⟨hlo, hhi⟩ := h.size
  obtain ⟨hpk, hor, hoff⟩ := h.small i hi
  generalize hv : (b.valueBytes i).take b.entrySize = v
  have hlen : v.length = b.entrySize := by
    rw [← hv, length_take, length_valueBytes]
    omega
  have htake : ∀ {k n}, k + n ≤ b.entrySize → field v k n = field (b.valueBytes i) k n :=
    fun hk => hv ▸ field_take hk
  have hfmt := idxOf_unique (mem_map_of_mem (f := formatInfo) hi)
  have hpack := idxOf_unique (mem_map_of_mem (f := fun i : Info => i.packBlobID) hi)
  rw [← h.formats] at hfmt
  rw [← h.packs] at hpack
  obtain ⟨hn, hmask, hflag⟩ := offset_flag i.deleted hoff
  obtain ⟨⟨f0, f4, f41, f8, f11, f14⟩, f16, f17, f18⟩ := field_parts
    (ofNat (b.formats.idxOf (formatInfo i))) (ofNat (b.packs.idxOf i.packBlobID / 2 ^ 16))
    (ofNat (i.packedLength / 2 ^ 24) ||| ofNat (i.originalLength / 2 ^ 24 * 2 ^ 4))
    (length_put 4 (i.timestampSeconds % 2 ^ 32).toNat)
    (length_put 4 (if i.deleted then i.packOffset ||| 2 ^ 31 else i.packOffset))
    (length_put 3 i.originalLength) (length_put 3 i.packedLength)
    (length_put 2 (b.packs.idxOf i.packBlobID))
  rw [← IndexBuilder.valueBytes] at f0 f4 f41 f8 f11 f14 f16 f17 f18
  have htime : (field v 0 4 : ℤ) + ndx.hdr.baseTimestamp
      = i.timestampSeconds := by
    have := he.time
    rw [htake (by omega), f0, get_put_of_lt (by omega), hbase]
    omega
  have hoffset : field v 4 4 &&& (2 ^ 31 - 1) = i.packOffset := by
    rw [htake (by omega), f4, get_put_of_lt hn, hmask]
  have hdeleted : decide (field v 4 1 &&& 0x80 ≠ 0)
      = i.deleted := by
    rw [htake (by omega), f41, put, take_succ_cons, take_zero, get_singleton, hflag]
  have hlengths : field v 8 3 |||
        ((if 18 < b.entrySize then field v 18 1 else 0) / 2 ^ 4)
          * 2 ^ 24 = i.originalLength ∧
      field v 11 3 |||
        ((if 18 < b.entrySize then field v 18 1 else 0) &&& 0xF)
          * 2 ^ 24 = i.packedLength := by
    have g8 : field v 8 3 = i.originalLength % 256 ^ 3 := by
      rw [htake (by omega), f8, get_put]
    have g11 : field v 11 3 = i.packedLength % 256 ^ 3 := by
      rw [htake (by omega), f11, get_put]
    rw [g8, g11]
    by_cases h19 : 18 < b.entrySize
    · obtain ⟨hy, hx⟩ := or_halves (i.packedLength / 2 ^ 24) (by omega)
        (i.originalLength / 2 ^ 24) (by omega)
      rw [if_pos h19, htake (by omega), f18, hy, hx, or_mul_pow (by omega),
        or_mul_pow (by omega)]
      omega
    · obtain ⟨h₁, h₂⟩ := h.shortLength (by omega) i hi
      rw [if_neg h19, Nat.zero_div, Nat.zero_and, Nat.zero_mul, Nat.or_zero, Nat.or_zero]
      omega
  have hpackID : ndx.getPackBlobIDByIndex (field v 14 2 |||
      (if 17 < b.entrySize then field v 17 1 else 0) * 2 ^ 16)
      = i.packBlobID := by
    have hnum : field v 14 2 |||
        (if 17 < b.entrySize then field v 17 1 else 0) * 2 ^ 16
        = b.packs.idxOf i.packBlobID := by
      have hmax := h.packCount
      have hlt := hpack.1
      rw [htake (by omega), f14, get_put]
      by_cases h18 : 17 < b.entrySize
      · rw [if_pos h18, htake (by omega), f17, toNat_ofNat_of_lt (by omega),
          or_mul_pow (by omega)]
        omega
      · have hshort := h.shortPack (by omega)
        rw [if_neg h18, Nat.zero_mul, Nat.or_zero]
        omega
    rw [hnum, Opened.getPackBlobIDByIndex, hcount, if_neg (not_le.2 hpack.1), hpacks,
      getD_eq_getElem?_getD, hpack.2]
    rfl
  have hformat : ndx.formats.getD
      (if 16 < b.entrySize then field v 16 1 else 0)
      ⟨0xFFFF, 0xFF, 0xFF⟩ = formatInfo i := by
    have hmax := h.formatCount
    have hlt := hfmt.1
    have hnum : (if 16 < b.entrySize then field v 16 1 else 0)
        = b.formats.idxOf (formatInfo i) := by
      by_cases h17 : 16 < b.entrySize
      · rw [if_pos h17, htake (by omega), f16, toNat_ofNat_of_lt (by omega)]
      · have := h.oneFormat (by omega)
        rw [if_neg h17]
        omega
    rw [hnum, hformats, getD_eq_getElem?_getD, hfmt.2]
    rfl
  rw [Opened.entryToInfo, hlen, if_neg (by simp only [entryMinLength]; omega)]
  simp only [htime, hoffset, hdeleted, hlengths.1, hlengths.2, hpackID, hformat]
  rfl

end Entry

end Warphold.Content.IndexV2
