import Warphold.Lib.Strings

/-!
# Variable-length numbers and checksums

The base-128 form of a number, seven bits a byte from the least on, with the high bit set in all bytes
but the last, and the 32-bit cyclic redundancy check.
-/

namespace Varint

def putUvarint (n : ℕ) : Str :=
  if n < 128 then [UInt8.ofNat n] else UInt8.ofNat (n % 128 + 128) :: putUvarint (n / 128)

/-- `binary.Uvarint` from its byte `i` on: the number and what follows it. A number of more than 64
bits is refused. -/
def uvarintFrom : ℕ → Str → Option (ℕ × Str)
  | _, [] => none
  | i, b :: rest =>
    if i = 10 then none
    else if b.toNat < 128 then
      if i = 9 ∧ 1 < b.toNat then none else some (b.toNat, rest)
    else (uvarintFrom (i + 1) rest).map fun r => (b.toNat % 128 + 128 * r.1, r.2)

def uvarint (s : Str) : Option (ℕ × Str) := uvarintFrom 0 s

lemma uvarintFrom_putUvarint (rest : Str) : ∀ (k i n : ℕ), k + i = 9 → n < 2 * 128 ^ k →
    uvarintFrom i (putUvarint n ++ rest) = some (n, rest)
  | 0, i, n, hi, hn => by
    have hb : (UInt8.ofNat n).toNat = n := by
      rw [UInt8.toNat_ofNat']
      omega
    rw [putUvarint, if_pos (by omega), List.singleton_append, uvarintFrom, hb, if_neg (by omega),
      if_pos (by omega), if_neg (by omega)]
  | k + 1, i, n, hi, hn => by
    rw [putUvarint]
    split_ifs with hsmall
    · have hb : (UInt8.ofNat n).toNat = n := by
        rw [UInt8.toNat_ofNat']
        omega
      rw [List.singleton_append, uvarintFrom, hb, if_neg (by omega), if_pos hsmall,
        if_neg (by omega)]
    · have hb : (UInt8.ofNat (n % 128 + 128)).toNat = n % 128 + 128 := by
        rw [UInt8.toNat_ofNat']
        omega
      have hdiv : n / 128 < 2 * 128 ^ k := by
        rw [Nat.div_lt_iff_lt_mul (by decide)]
        rw [pow_succ] at hn
        omega
      rw [List.cons_append, uvarintFrom, hb, if_neg (by omega), if_neg (by omega),
        uvarintFrom_putUvarint rest k (i + 1) (n / 128) (by omega) hdiv, Option.map_some]
      have hval : (n % 128 + 128) % 128 + 128 * (n / 128) = n := by omega
      rw [hval]

lemma uvarint_putUvarint {n : ℕ} (hn : n < 2 ^ 64) (rest : Str) :
    uvarint (putUvarint n ++ rest) = some (n, rest) :=
  uvarintFrom_putUvarint rest 9 0 n rfl (lt_of_lt_of_eq hn (by norm_num))

def crcBit (c : ℕ) : ℕ := if c % 2 = 1 then (c / 2) ^^^ 0xedb88320 else c / 2

def crcByte (c : ℕ) (b : UInt8) : ℕ := crcBit^[8] (c ^^^ b.toNat)

def checksumIEEE (s : Str) : ℕ := s.foldl crcByte 0xffffffff ^^^ 0xffffffff

lemma crcBit_lt {c : ℕ} (h : c < 2 ^ 32) : crcBit c < 2 ^ 32 := by
  rw [crcBit]
  split_ifs
  · exact Nat.xor_lt_two_pow (by omega) (by norm_num)
  · omega

lemma crcByte_lt {c : ℕ} (h : c < 2 ^ 32) (b : UInt8) : crcByte c b < 2 ^ 32 := by
  have hb : b.toNat < 2 ^ 32 := lt_trans b.toNat_lt (by norm_num)
  have hiter : ∀ k x, x < 2 ^ 32 → crcBit^[k] x < 2 ^ 32 := by
    intro k
    induction k with
    | zero => exact fun x hx => hx
    | succ k ih => exact fun x hx => ih _ (crcBit_lt hx)
  exact hiter 8 _ (Nat.xor_lt_two_pow h hb)

lemma checksumIEEE_lt (s : Str) : checksumIEEE s < 2 ^ 32 := by
  have hfold : ∀ (s : Str) (c : ℕ), c < 2 ^ 32 → s.foldl crcByte c < 2 ^ 32 := by
    intro s
    induction s with
    | nil => exact fun c hc => hc
    | cons b s ih => exact fun c hc => ih _ (crcByte_lt hc b)
  exact Nat.xor_lt_two_pow (hfold s _ (by norm_num)) (by norm_num)

end Varint
