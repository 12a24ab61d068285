import Warphold.Content.Recovery

/-!
# What recovery returns

A postamble that was written is read back from the end of any bytes, and the section it names is
found in every part of the blob that has it whole.
-/

namespace Warphold.Content.Recovery

open List Option Binary Varint

section Section

lemma appendRest_eq : ∀ (slices : List Str) (size : ℕ),
    appendRest slices size = slices.flatten.take size
  | [], size => by rw [appendRest, flatten_nil, take_nil]
  | s :: slices, size => by
    rw [appendRest, flatten_cons, take_append]
    split_ifs with hz
    · rw [hz, take_zero, Nat.zero_sub, take_zero, append_nil]
    · rw [appendRest_eq slices]
      rcases le_total size s.length with h | h
      · rw [Nat.min_eq_left h, Nat.sub_self, Nat.sub_eq_zero_of_le h]
      · rw [Nat.min_eq_right h, take_of_length_le h, take_length]

lemma appendSectionTo_eq : ∀ (slices : List Str) (offset size : ℕ),
    appendSectionTo slices offset size = (slices.flatten.drop offset).take size
  | [], offset, size => by
    rw [appendSectionTo, flatten_nil, drop_nil, take_nil]
  | s :: slices, offset, size => by
    rw [appendSectionTo, flatten_cons, drop_append]
    split_ifs with hoff hfit
    · simp only []
      rw [Nat.sub_self, appendRest_eq, take_zero, append_nil,
        Nat.sub_eq_zero_of_le hoff.le, drop_zero, take_append_of_le_length]
      rw [length_drop]
      omega
    · simp only []
      have hchunk : (s.drop offset).take (s.length - offset) = s.drop offset :=
        take_of_length_le (length_drop).le
      have hall : (s.drop offset).take size = s.drop offset :=
        take_of_length_le (by rw [length_drop]; omega)
      rw [appendRest_eq, Nat.sub_eq_zero_of_le hoff.le, drop_zero, take_append,
        length_drop, hchunk, hall]
    · have hnil : s.drop offset = [] := drop_of_length_le (by omega)
      rw [appendSectionTo_eq slices, hnil, nil_append]

end Section

section Postambles

lemma findPostamble_eq (b : Str) :
    findPostamble b = (named b).map fun r => ⟨r.1, r.2.1 % 2 ^ 32, r.2.2 % 2 ^ 32⟩ := by
  rw [findPostamble, named]
  cases findPayload b <;> rfl

lemma decodeNumbers_payload (p : Postamble) (hiv : p.localIndexIV.length < 2 ^ 64)
    (hoff : p.localIndexOffset < 2 ^ 64) (hlen : p.localIndexLength < 2 ^ 64) :
    decodeNumbers p.payload
      = some (p.localIndexIV, p.localIndexOffset, p.localIndexLength) := by
  have hlast := uvarint_putUvarint hlen []
  rw [append_nil] at hlast
  rw [decodeNumbers, Postamble.payload, append_assoc, append_assoc, append_assoc,
    uvarint_putUvarint (by norm_num)]
  simp only [ne_eq, not_true, if_false]
  rw [uvarint_putUvarint hiv]
  simp only [length_append]
  rw [if_neg (by omega), drop_left, uvarint_putUvarint hoff]
  simp only [hlast, take_left]

lemma findPayload_append (x : Str) {payload : Str} (hne : payload ≠ [])
    (hlen : payload.length + 4 ≤ 255) :
    findPayload (x ++ (payload ++ put 4 (checksumIEEE payload)
      ++ [UInt8.ofNat (payload.length + 4)])) = some payload := by
  have hpos : 0 < payload.length := length_pos_of_ne_nil hne
  have hn : (UInt8.ofNat (payload.length + 4)).toNat = payload.length + 4 := by
    rw [UInt8.toNat_ofNat']
    omega
  have hbody : (payload ++ put 4 (checksumIEEE payload)).length = payload.length + 4 := by
    rw [length_append, length_put]
  have hcrc : Binary.get (Binary.put 4 (checksumIEEE payload)) = checksumIEEE payload :=
    Binary.get_put_of_lt (lt_of_lt_of_eq (checksumIEEE_lt payload) (by norm_num))
  rw [findPayload, ← append_assoc, getLast?_append, getLast?_singleton,
    some_or]
  simp only [hn]
  rw [if_neg (by omega), if_neg (by simp only [length_append, hbody, length_singleton]; omega)]
  have htake : (((x ++ (payload ++ put 4 (checksumIEEE payload)))
      ++ [UInt8.ofNat (payload.length + 4)]).drop
        (((x ++ (payload ++ put 4 (checksumIEEE payload)))
          ++ [UInt8.ofNat (payload.length + 4)]).length - 1 - (payload.length + 4))).take
            (payload.length + 4) = payload ++ put 4 (checksumIEEE payload) := by
    rw [append_assoc, drop_left' (by
      simp only [length_append, length_put, length_singleton]; omega),
      take_left' hbody]
  rw [htake, Nat.add_sub_cancel, take_left, drop_left, hcrc, if_neg (fun h => h rfl)]

lemma findPostamble_toBytes {p : Postamble} {bytes : Str} (hoff : p.localIndexOffset < 2 ^ 32)
    (hlen : p.localIndexLength < 2 ^ 32) (h : p.toBytes = some bytes) (x : Str) :
    named (x ++ bytes) = some (p.localIndexIV, p.localIndexOffset, p.localIndexLength) ∧
      bytes.length ≤ 256 := by
  rw [Postamble.toBytes] at h
  split_ifs at h with hbig
  cases h
  have hne : p.payload ≠ [] := by
    rw [Postamble.payload, putUvarint, if_pos (by decide)]
    exact cons_ne_nil _ _
  have hiv : p.localIndexIV.length ≤ p.payload.length := by
    simp only [Postamble.payload, length_append]
    omega
  refine ⟨?_, ?_⟩
  · rw [named, findPayload_append x hne (by omega), bind_some]
    exact decodeNumbers_payload p (by omega) (by omega) (by omega)
  · simp only [length_append, length_put, length_singleton]
    omega

lemma findPayload_drop {blob : Str} {start : ℕ} (h : start + 256 ≤ blob.length) :
    findPayload (blob.drop start) = findPayload blob := by
  have hlast : (blob.drop start).getLast? = blob.getLast? := by
    rw [getLast?_drop, if_neg (by omega)]
  rw [findPayload, findPayload, hlast]
  rcases blob.getLast? with _ | last
  · rfl
  · have hb := last.toNat_lt
    simp only [length_drop, drop_drop]
    have hpos : start + (blob.length - start - 1 - last.toNat) = blob.length - 1 - last.toNat := by
      omega
    rw [hpos]
    by_cases hshort : last.toNat < 5
    · rw [if_pos hshort, if_pos hshort]
    · have hwindow : ¬ blob.length - start < 1 + last.toNat := by omega
      have hwhole : ¬ blob.length < 1 + last.toNat := by omega
      rw [if_neg hshort, if_neg hshort, if_neg hwindow, if_neg hwhole]

lemma named_drop {blob : Str} {start : ℕ} (h : start = 0 ∨ start + 256 ≤ blob.length) :
    named (blob.drop start) = named blob := by
  rcases h with rfl | h
  · rw [drop_zero]
  · rw [named, named, findPayload_drop h]

end Postambles

section Attempts

variable (sl : Slicing) {blob iv : Str} {start off len : ℕ}

lemma attemptRead_none (hstart : start = 0 ∨ start + 256 ≤ blob.length)
    (hnamed : named blob = none) : attemptRead sl blob start = none := by
  simp only [attemptRead, findPostamble_eq, named_drop hstart, hnamed, map_none]

lemma attemptRead_some (hstart : start = 0 ∨ start + 256 ≤ blob.length)
    (hnamed : named blob = some (iv, off, len)) (hblob : blob.length < 2 ^ 32) :
    attemptRead sl blob start =
      if off % 2 ^ 32 < start ∨
        blob.length - start < (off % 2 ^ 32 - start + len % 2 ^ 32) % 2 ^ 32 then none
      else some (((blob.drop start).drop (off % 2 ^ 32 - start)).take (len % 2 ^ 32), iv) := by
  have hmod : start % 2 ^ 32 = start := Nat.mod_eq_of_lt (by omega)
  simp only [attemptRead, findPostamble_eq, named_drop hstart, hnamed, map_some, hmod,
    appendSectionTo_eq, sl.flatten_slices, length_drop]
  by_cases h₁ : off % 2 ^ 32 < start
  · rw [if_pos h₁, if_pos (.inl h₁)]
  · by_cases h₂ : blob.length - start < (off % 2 ^ 32 - start + len % 2 ^ 32) % 2 ^ 32
    · rw [if_neg h₁, if_pos h₂, if_pos (.inr h₂)]
    · rw [if_neg h₁, if_neg h₂, if_neg (not_or.mpr ⟨h₁, h₂⟩)]

lemma attemptRead_inside (hstart : start = 0 ∨ start + 256 ≤ blob.length)
    (hnamed : named blob = some (iv, off, len)) (hblob : blob.length < 2 ^ 32)
    (hin : off + len ≤ blob.length) :
    attemptRead sl blob start =
      if off < start then none else some ((blob.drop off).take len, iv) := by
  have hoff : off % 2 ^ 32 = off := Nat.mod_eq_of_lt (by omega)
  have hlen : len % 2 ^ 32 = len := Nat.mod_eq_of_lt (by omega)
  rw [attemptRead_some sl hstart hnamed hblob, hoff, hlen]
  by_cases h : off < start
  · rw [if_pos (.inl h), if_pos h]
  · have hsum : (off - start + len) % 2 ^ 32 = off - start + len := Nat.mod_eq_of_lt (by omega)
    rw [if_neg (by rw [hsum]; omega), if_neg h, drop_drop]
    have hpos : start + (off - start) = off := by omega
    rw [hpos]

lemma accepted_whole {r : Str × Str} (hstart : start = 0 ∨ start + 256 ≤ blob.length)
    (hblob : blob.length < 2 ^ 32) (h : attemptRead sl blob start = some r) :
    ∃ iv off len, named blob = some (iv, off, len) ∧ (off + len) % 2 ^ 32 ≤ blob.length := by
  rcases hnamed : named blob with _ | ⟨iv, off, len⟩
  · rw [attemptRead_none sl hstart hnamed] at h
    cases h
  · refine ⟨iv, off, len, rfl, ?_⟩
    rw [attemptRead_some sl hstart hnamed hblob] at h
    split_ifs at h with hno
    rw [not_or, not_lt, not_lt] at hno
    omega

lemma window_start (h : indexRecoverPostambleSize ≤ blob.length) :
    blob.length - indexRecoverPostambleSize = 0 ∨
      blob.length - indexRecoverPostambleSize + 256 ≤ blob.length := by
  right
  simp only [indexRecoverPostambleSize] at h ⊢
  omega

variable (decrypt : (payload iv : Str) → Option Str)

lemma read_from {x : Str} (h : readPackFileLocalIndex sl decrypt blob = some x) :
    ∃ start, (start = 0 ∨ start + 256 ≤ blob.length) ∧
      attemptReadPackFileLocalIndex sl decrypt blob start = some x := by
  rw [readPackFileLocalIndex] at h
  split_ifs at h with hbig
  · rcases hopt : attemptReadPackFileLocalIndex sl decrypt blob
        (blob.length - indexRecoverPostambleSize) with _ | y
    · rw [hopt] at h
      exact ⟨0, .inl rfl, h⟩
    · rw [hopt] at h
      exact ⟨_, window_start hbig, hopt.trans h⟩
  · exact ⟨0, .inl rfl, h⟩

lemma read_isSome {x : Str} (h : attemptReadPackFileLocalIndex sl decrypt blob 0 = some x) :
    ∃ y, readPackFileLocalIndex sl decrypt blob = some y := by
  rw [readPackFileLocalIndex]
  split_ifs
  · rcases attemptReadPackFileLocalIndex sl decrypt blob
        (blob.length - indexRecoverPostambleSize) with _ | y
    · exact ⟨x, h⟩
    · exact ⟨y, rfl⟩
  · exact ⟨x, h⟩

end Attempts

section Main

variable (sl : Slicing)

/-- Whatever the decryption, what is read is the section that the blob's postamble names. -/
def Exact (blob : Str) : Prop :=
  ∀ (decrypt : (payload iv : Str) → Option Str) x,
    readPackFileLocalIndex sl decrypt blob = some x →
    ∃ iv off len, named blob = some (iv, off, len) ∧ off + len ≤ blob.length ∧
      decrypt ((blob.drop off).take len) iv = some x

lemma exact_iff {blob : Str} (hblob : blob.length < 2 ^ 32) : Exact sl blob ↔
    ∀ iv off len, named blob = some (iv, off, len) → (off + len) % 2 ^ 32 ≤ blob.length →
      off + len ≤ blob.length := by
  constructor
  · intro hexact iv off len hnamed hcheck
    have hfull : attemptReadPackFileLocalIndex sl (fun _ _ => some []) blob 0 = some [] := by
      rw [attemptReadPackFileLocalIndex, attemptRead_some sl (.inl rfl) hnamed hblob,
        if_neg (by omega), bind_some]
    obtain ⟨y, hy⟩ := read_isSome sl _ hfull
    obtain ⟨iv', off', len', hnamed', hin, -⟩ := hexact _ y hy
    rw [hnamed, some.injEq, Prod.mk.injEq, Prod.mk.injEq] at hnamed'
    omega
  · intro hcheck decrypt x hread
    obtain ⟨start, hstart, hattempt⟩ := read_from sl decrypt hread
    obtain ⟨r, hr, hdec⟩ := bind_eq_some_iff.mp hattempt
    obtain ⟨iv, off, len, hnamed, hsum⟩ := accepted_whole sl hstart hblob hr
    have hin := hcheck iv off len hnamed hsum
    refine ⟨iv, off, len, hnamed, hin, ?_⟩
    rw [attemptRead_inside sl hstart hnamed hblob hin] at hr
    split_ifs at hr
    rw [← some.inj hr] at hdec
    exact hdec

lemma read_appended {output enc iv blob : Str}
    (h : appendPackFileIndexRecoveryData output enc iv = some blob) (hblob : blob.length < 2 ^ 32) :
    named blob = some (iv, output.length, enc.length) ∧
    (∀ start, start = 0 ∨ start + 256 ≤ blob.length → attemptRead sl blob start =
      if output.length < start then none else some (enc, iv)) := by
  obtain ⟨bytes, hbytes, rfl⟩ := map_eq_some_iff.mp h
  simp only [length_append] at hblob
  have hoff : output.length % 2 ^ 32 = output.length := Nat.mod_eq_of_lt (by omega)
  have hlen : enc.length % 2 ^ 32 = enc.length := Nat.mod_eq_of_lt (by omega)
  rw [hoff, hlen] at hbytes
  have hnamed := (findPostamble_toBytes (by simp only; omega) (by simp only; omega) hbytes
    (output ++ enc)).1
  refine ⟨hnamed, fun start hstart => ?_⟩
  rw [attemptRead_inside sl hstart hnamed (by simp only [length_append]; omega)
    (by simp only [length_append]; omega), append_assoc, drop_left, take_left]

def Slicing.whole : Slicing := ⟨fun s => [s], fun s => by simp⟩

/-- Five bytes and a postamble that names five bytes from offset `2 ^ 32` on. -/
def wrappedBlob : Str :=
  [7, 7, 7, 7, 7] ++ ([1, 0, 128, 128, 128, 128, 16, 5] : Str) ++
    Binary.put 4 (checksumIEEE [1, 0, 128, 128, 128, 128, 16, 5]) ++ [12]

end Main

end Warphold.Content.Recovery
