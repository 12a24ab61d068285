import Warphold.Content.IndexBytes

/-!
# Index bytes that may be anything

Every access of the two decoders is within what `safeSlice` checked before it, with one exception:
`bytesToContentID` panics on a key of more than 33 bytes, and neither `Open` refuses a header with
such a key size.
-/

namespace Warphold.Content

open List Nat IndexV2 IndexV1 Binary Go

namespace Go
variable {α β : Type}

lemma bind_ne_panic {x : Go α} {f : α → Go β} (hx : x ≠ .panic)
    (hf : ∀ a, x = .ok a → f a ≠ .panic) : (x >>= f) ≠ .panic := by
  cases x with
  | ok a => exact hf a rfl
  | error => exact nofun
  | panic => exact absurd rfl hx

lemma bind_eq_ok {x : Go α} {f : α → Go β} {r : β} (h : (x >>= f) = .ok r) :
    ∃ a, x = .ok a ∧ f a = .ok r := by
  cases x with
  | ok a => exact ⟨a, rfl, h⟩
  | error => cases h
  | panic => cases h

variable {s : Str}

lemma slice_eq {a b : ℕ} (hab : a ≤ b) (hb : b ≤ s.length) :
    slice s a b = .ok ((s.drop a).take (b - a)) := if_pos ⟨hab, hb⟩

lemma slice_ne_panic {a b : ℕ} (hab : a ≤ b) (hb : b ≤ s.length) :
    slice s a b ≠ .panic := by
  rw [slice_eq hab hb]
  exact nofun

lemma slice_length {r : Str} {a b : ℕ} (h : slice s a b = .ok r) : r.length = b - a := by
  unfold slice at h
  split_ifs at h with hab
  cases h
  rw [length_take, length_drop]
  omega

lemma safeSlice_ne_panic (data : Str) (offset length : ℕ) : safeSlice data offset length ≠ .panic := by
  unfold safeSlice
  cases slice data offset (offset + length) <;> exact nofun

lemma safeSlice_eq {data : Str} {offset length : ℕ} (h : offset + length ≤ data.length) :
    safeSlice data offset length = .ok ((data.drop offset).take length) := by
  unfold safeSlice
  rw [slice_eq (Nat.le_add_right _ _) h, Nat.add_sub_cancel_left]
  rfl

lemma safeSlice_eq_error {data : Str} {offset length : ℕ} (h : data.length < offset + length) :
    safeSlice data offset length = .error := by
  unfold safeSlice slice
  rw [if_neg (by omega)]
  rfl

lemma safeSlice_ok {data r : Str} {offset length : ℕ} (h : safeSlice data offset length = .ok r) :
    offset + length ≤ data.length ∧ r = (data.drop offset).take length ∧ r.length = length := by
  rcases lt_or_ge data.length (offset + length) with hlt | hge
  · rw [safeSlice_eq_error hlt] at h
    cases h
  · rw [safeSlice_eq hge] at h
    cases h
    refine ⟨hge, rfl, ?_⟩
    rw [length_take, length_drop]
    omega

lemma byteAt_ne_panic {i : ℕ} (h : i < s.length) : byteAt s i ≠ .panic := by
  unfold byteAt
  rw [getElem?_eq_getElem h]
  exact nofun

lemma decodeAt_ne_panic {n : ℕ} {d : Str} {off : ℕ} (h : off + n ≤ d.length) :
    decodeAt n d off ≠ .panic := by
  refine bind_ne_panic (slice_ne_panic (by omega) (le_refl _)) fun s hs => ?_
  rw [decodeBigEndian, if_neg (by rw [slice_length hs]; omega)]
  exact nofun

lemma decodeBigEndian_ne_panic {n : ℕ} {d : Str} (h : n ≤ d.length) :
    decodeBigEndian n d ≠ .panic := by
  rw [decodeBigEndian, if_neg (by omega)]
  exact nofun

lemma decode_slice_ne_panic {n a b : ℕ} {d : Str} {f : ℕ → Go β} (hab : a ≤ b) (hb : b ≤ d.length)
    (hn : n ≤ b - a) (hf : ∀ x, f x ≠ .panic) :
    (slice d a b >>= fun s => decodeBigEndian n s >>= f) ≠ .panic := by
  refine bind_ne_panic (slice_ne_panic hab hb) fun s hs => ?_
  exact bind_ne_panic (decodeBigEndian_ne_panic (hn.trans (slice_length hs).ge)) fun x _ => hf x

end Go

lemma bytesToContentID_eq_panic {key : Str} :
    bytesToContentID key = .panic ↔ maxIDLength + 1 < key.length := by
  cases key with
  | nil => simp [bytesToContentID]
  | cons pre hash =>
    simp only [bytesToContentID]
    split_ifs with h
    · exact iff_of_true rfl h
    · exact iff_of_false nofun h

namespace Reader
variable {b : Reader}

lemma search_ne_panic {f : ℕ → Go Bool} (hf : ∀ p, f p ≠ .panic) :
    ∀ n i j, search f n i j ≠ .panic
  | 0, i, j => nofun
  | n + 1, i, j => by
    unfold search
    split_ifs
    · refine bind_ne_panic (hf _) fun t _ => ?_
      split_ifs
      · exact search_ne_panic hf n _ _
      · exact search_ne_panic hf n _ _
    · exact nofun

lemma getInfo_ne_panic (hb : ∀ id data, b.entryToInfo id data ≠ .panic) (id : ID) :
    b.getInfo id ≠ .panic := by
  have hexact : ∀ key, b.findEntryPositionExact key ≠ .panic := fun key => by
    refine search_ne_panic (fun p => ?_) _ _ _
    refine bind_ne_panic (safeSlice_ne_panic _ _ _) fun k hk => ?_
    exact bind_ne_panic (slice_ne_panic (zero_le _) (safeSlice_ok hk).2.2.ge) fun _ _ => nofun
  have hfind : b.findEntry id ≠ .panic := by
    unfold findEntry
    simp only
    split_ifs with hunknown hlen
    · exact nofun
    · exact nofun
    rw [not_not] at hlen
    refine bind_ne_panic (hexact _) fun position _ => ?_
    split_ifs
    · exact nofun
    refine bind_ne_panic (safeSlice_ne_panic _ _ _) fun entry hentry => ?_
    have hle : id.toBytes.length ≤ entry.length := by
      rw [(safeSlice_ok hentry).2.2, hlen]
      exact le_add_right _ _
    refine bind_ne_panic (slice_ne_panic (zero_le _) hle) fun k _ => ?_
    split_ifs
    · exact bind_ne_panic (slice_ne_panic hle (le_refl _)) fun _ _ => nofun
    · exact nofun
  refine bind_ne_panic hfind fun e _ => ?_
  cases e with
  | none => exact nofun
  | some e => exact bind_ne_panic (hb id e) fun _ _ => nofun

lemma iterateFrom_ne_panic (hb : ∀ id data, b.entryToInfo id data ≠ .panic)
    (hkey : b.keySize ≤ maxIDLength + 1) (r : IDRange) : ∀ n i, b.iterateFrom r n i ≠ .panic
  | 0, i => nofun
  | n + 1, i => by
    unfold iterateFrom
    refine bind_ne_panic (safeSlice_ne_panic _ _ _) fun entry hentry => ?_
    have hle : b.keySize ≤ entry.length := by
      rw [(safeSlice_ok hentry).2.2]
      exact le_add_right _ _
    refine bind_ne_panic (slice_ne_panic (zero_le _) hle) fun key hk => ?_
    have hid : bytesToContentID key ≠ .panic := by
      rw [ne_eq, bytesToContentID_eq_panic, slice_length hk]
      omega
    refine bind_ne_panic hid fun id _ => ?_
    split_ifs
    · exact nofun
    refine bind_ne_panic (slice_ne_panic hle (le_refl _)) fun value _ => ?_
    refine bind_ne_panic (hb id value) fun info _ => ?_
    exact bind_ne_panic (iterateFrom_ne_panic hb hkey r n (i + 1)) fun _ _ => nofun

lemma test_eq_panic (p : ℕ) (start : Str) : (do
      let key ← safeSlice b.data (b.entryOffset p) b.keySize
      let id ← bytesToContentID key
      return !id.belowPrefix start : Go Bool) = .panic
    ↔ maxIDLength + 1 < b.keySize ∧ b.entryOffset p + b.keySize ≤ b.data.length := by
  rcases lt_or_ge b.data.length (b.entryOffset p + b.keySize) with hlt | hge
  · rw [safeSlice_eq_error hlt]
    exact iff_of_false nofun fun h => by omega
  · obtain ⟨key, hs, hlen⟩ : ∃ key, safeSlice b.data (b.entryOffset p) b.keySize = .ok key
        ∧ key.length = b.keySize := ⟨_, safeSlice_eq hge, (safeSlice_ok (safeSlice_eq hge)).2.2⟩
    rw [hs, and_iff_left hge, ← hlen, ← bytesToContentID_eq_panic]
    show (bytesToContentID key >>= fun id => pure !id.belowPrefix start) = .panic ↔ _
    cases bytesToContentID key with
    | ok id => exact iff_of_false nofun nofun
    | error => exact iff_of_false nofun nofun
    | panic => exact iff_of_true rfl rfl

lemma iterate_eq_panic (hb : ∀ id data, b.entryToInfo id data ≠ .panic) (r : IDRange) :
    b.iterate r = .panic ↔ maxIDLength + 1 < b.keySize ∧ 0 < b.entryCount
      ∧ b.entryOffset (b.entryCount / 2) + b.keySize ≤ b.data.length := by
  rcases lt_or_ge (maxIDLength + 1) b.keySize with hlong | hshort
  swap
  · refine iff_of_false ?_ fun h => by omega
    refine bind_ne_panic (search_ne_panic (fun p => ?_) _ _ _) fun start _ =>
      iterateFrom_ne_panic hb hshort r _ _
    rw [ne_eq, test_eq_panic]
    omega
  rw [and_iff_right hlong]
  rcases Nat.eq_zero_or_pos b.entryCount with hzero | hpos
  · have hi : b.iterate r = .ok [] := by
      unfold iterate findEntryPosition
      rw [hzero]
      rfl
    rw [hi]
    exact iff_of_false nofun fun h => by omega
  rw [and_iff_right hpos]
  obtain ⟨n, hn⟩ : ∃ n, b.entryCount = n + 1 := ⟨b.entryCount - 1, by omega⟩
  have htest := test_eq_panic (b := b) (b.entryCount / 2) r.startID
  rw [and_iff_right hlong] at htest
  rw [← htest]
  unfold iterate findEntryPosition
  generalize hf : (fun p => do
      let key ← safeSlice b.data (b.entryOffset p) b.keySize
      let id ← bytesToContentID key
      return !id.belowPrefix r.startID : ℕ → Go Bool) = f
  have hmid : (do
      let key ← safeSlice b.data (b.entryOffset (b.entryCount / 2)) b.keySize
      let id ← bytesToContentID key
      return !id.belowPrefix r.startID : Go Bool) = f ((0 + b.entryCount) / 2) := by
    rw [← hf, zero_add]
  -- keys that are too long give a panic or, beyond the data, an error; never an answer
  have hnone : ∀ t, f ((0 + b.entryCount) / 2) ≠ .ok t := by
    intro t ht
    rw [← hmid] at ht
    obtain ⟨key, hkey, ht⟩ := bind_eq_ok ht
    obtain ⟨id, hid, -⟩ := bind_eq_ok ht
    have hpanic := bytesToContentID_eq_panic.2 (by rw [(safeSlice_ok hkey).2.2]; exact hlong)
    rw [hid] at hpanic
    cases hpanic
  rw [hmid, hn, search, if_pos (succ_pos n), ← hn]
  cases hcase : f ((0 + b.entryCount) / 2) with
  | ok t => exact absurd hcase (hnone t)
  | error => exact iff_of_false nofun nofun
  | panic => exact iff_of_true rfl rfl

end Reader

lemma IndexV1.entryToInfo_ne_panic (file : Str) (overhead : ℕ) (id : ID) (data : Str) :
    entryToInfo file overhead id data ≠ .panic := by
  have hname : ∀ off len, packBlobIDForOffset file off len ≠ .panic := fun off len => by
    unfold packBlobIDForOffset
    split
    · rename_i hs
      exact slice_ne_panic (zero_le _) (safeSlice_ok hs).2.2.ge
    · exact nofun
    · rename_i hs
      exact absurd hs (safeSlice_ne_panic _ _ _)
  unfold entryToInfo
  split_ifs with hlen
  · exact nofun
  rw [not_not] at hlen
  have hlen : data.length = 20 := hlen
  refine bind_ne_panic (decodeBigEndian_ne_panic (by omega)) fun _ _ => ?_
  iterate 2 refine bind_ne_panic (byteAt_ne_panic (by omega)) fun _ _ => ?_
  refine bind_ne_panic (decodeAt_ne_panic (by omega)) fun _ _ => ?_
  refine bind_ne_panic (hname _ _) fun _ _ => ?_
  refine bind_ne_panic (byteAt_ne_panic (by omega)) fun _ _ => ?_
  refine bind_ne_panic (decodeAt_ne_panic (by omega)) fun _ _ => ?_
  exact bind_ne_panic (decodeAt_ne_panic (by omega)) fun _ _ => nofun

namespace IndexV2

lemma optionalByte_ne_panic (data : Str) (i : ℕ) : optionalByte data i ≠ .panic := by
  unfold optionalByte
  split_ifs with h
  · exact byteAt_ne_panic h
  · exact nofun

lemma entryToInfoStruct_ne_panic {hdr : Header} {packBlobIDs : List Str}
    (hpacks : packBlobIDs.length = hdr.packCount) (formats : List FormatInfo) (id : ID) (data : Str) :
    entryToInfoStruct hdr formats packBlobIDs id data ≠ .panic := by
  have hfmt : ∀ fid, readFormat formats fid ≠ .panic := fun fid => by
    unfold readFormat
    split_ifs with h
    · exact nofun
    · rw [getElem?_eq_getElem (not_le.1 h)]
      exact nofun
  have hpack : ∀ ndx, packBlobIDByIndex hdr.packCount packBlobIDs ndx ≠ .panic := fun ndx => by
    unfold packBlobIDByIndex
    split_ifs with h
    · exact nofun
    · rw [getElem?_eq_getElem (hpacks ▸ not_le.1 h)]
      exact nofun
  unfold entryToInfoStruct
  split_ifs with hlen
  · exact nofun
  have hlen : 16 ≤ data.length := not_lt.1 hlen
  refine bind_ne_panic (decodeAt_ne_panic (by omega)) fun _ _ => ?_
  refine bind_ne_panic (byteAt_ne_panic (by omega)) fun _ _ => ?_
  iterate 2 refine bind_ne_panic (decodeAt_ne_panic (by omega)) fun _ _ => ?_
  refine bind_ne_panic (optionalByte_ne_panic _ _) fun _ _ => ?_
  refine bind_ne_panic (decodeAt_ne_panic (by omega)) fun _ _ => ?_
  refine bind_ne_panic (optionalByte_ne_panic _ _) fun _ _ => ?_
  refine bind_ne_panic (hfmt _) fun _ _ => ?_
  refine bind_ne_panic (decodeAt_ne_panic (by omega)) fun _ _ => ?_
  refine bind_ne_panic (optionalByte_ne_panic _ _) fun _ _ => ?_
  exact bind_ne_panic (hpack _) fun _ _ => nofun

lemma readAll_ne_panic {α : Type} {f : ℕ → Go α} : ∀ {n i : ℕ},
    (∀ p, i ≤ p → p < i + n → f p ≠ .panic) → readAll f n i ≠ .panic
  | 0, i, _ => nofun
  | n + 1, i, hf => by
    unfold readAll
    refine bind_ne_panic (hf i (le_refl _) (by omega)) fun a _ => ?_
    refine bind_ne_panic (readAll_ne_panic fun p hp hpn => hf p (by omega) (by omega)) fun _ _ => nofun

lemma readAll_length {α : Type} {f : ℕ → Go α} : ∀ {n i : ℕ} {l : List α},
    readAll f n i = .ok l → l.length = n
  | 0, i, l, h => by
    cases h
    rfl
  | n + 1, i, l, h => by
    unfold readAll at h
    obtain ⟨a, -, h⟩ := bind_eq_ok h
    obtain ⟨l', hl', h⟩ := bind_eq_ok h
    cases h
    rw [length_cons, readAll_length hl']

lemma readPackID_ne_panic (data : Str) (hdr : Header) (i : ℕ) : readPackID data hdr i ≠ .panic := by
  refine bind_ne_panic (safeSlice_ne_panic _ _ _) fun buf hbuf => ?_
  have hlen : buf.length = 5 := (safeSlice_ok hbuf).2.2
  refine bind_ne_panic (byteAt_ne_panic (by omega)) fun _ _ => ?_
  exact bind_ne_panic (decodeAt_ne_panic (by omega)) fun _ _ => safeSlice_ne_panic _ _ _

lemma parseFormatAt_ne_panic {buf : Str} {n i : ℕ} (hlen : buf.length = n * formatInfoSize)
    (hi : i < n) : parseFormatAt buf i ≠ .panic := by
  have hle : formatInfoSize * i + formatInfoSize ≤ buf.length := by
    rw [hlen, mul_comm n, ← mul_succ]
    exact mul_le_mul_left _ hi
  refine bind_ne_panic (slice_ne_panic (by omega) (le_refl _)) fun f hf => ?_
  have hf : 6 ≤ f.length := by
    rw [slice_length hf]
    exact le_sub_of_add_le (by rw [add_comm]; exact hle)
  refine bind_ne_panic (decodeAt_ne_panic (by omega)) fun _ _ => ?_
  refine bind_ne_panic (byteAt_ne_panic (by omega)) fun _ _ => ?_
  exact bind_ne_panic (byteAt_ne_panic (by omega)) fun _ _ => nofun

end IndexV2

section Open
open IndexV2 (field)
variable {data : Str} {overhead : ℕ}

lemma byteAt_field {header : Str} {n i : ℕ} (h : safeSlice data 0 n = .ok header) (hi : i < n) :
    byteAt header i = .ok (field data i 1) := by
  obtain ⟨hlen, rfl, -⟩ := safeSlice_ok h
  have hd : i < data.length := by omega
  have hget : ((data.drop 0).take n)[i]? = some (data.get ⟨i, hd⟩) := by
    rw [getElem?_take_of_lt hi, getElem?_drop, zero_add, getElem?_eq_getElem hd]
    rfl
  have hone : (data.drop i).take 1 = [data.get ⟨i, hd⟩] := by
    rw [drop_eq_getElem_cons hd]
    rfl
  unfold byteAt field
  rw [hget, hone]
  simp [Binary.get]

lemma decode_field {header : Str} {n a b : ℕ} (h : safeSlice data 0 n = .ok header) (hab : a ≤ b)
    (hbn : b ≤ n) : (do decodeBigEndian (b - a) (← Go.slice header a b)) = .ok (field data a (b - a)) := by
  obtain ⟨hlen, rfl, hn⟩ := safeSlice_ok h
  rw [slice_eq hab (by omega)]
  show decodeBigEndian (b - a) _ = _
  have hs : (((data.drop 0).take n).drop a).take (b - a) = (data.drop a).take (b - a) := by
    rw [drop_zero, drop_take, take_take, min_eq_left (by omega)]
  rw [hs, decodeBigEndian, if_neg, take_take, min_self]
  · rfl
  · rw [length_take, length_drop]
    omega

lemma IndexV1.readHeader_ne_panic : readHeader data ≠ .panic := by
  refine bind_ne_panic (safeSlice_ne_panic _ _ _) fun header h => ?_
  rw [byteAt_field h (by decide), byteAt_field h (by decide)]
  have hlen : header.length = 8 := (safeSlice_ok h).2.2
  refine bind_ne_panic nofun fun _ _ => bind_ne_panic nofun fun _ _ => ?_
  iterate 2 refine decode_slice_ne_panic (by decide) (by omega) (by decide) fun _ => ?_
  split_ifs <;> exact nofun

lemma IndexV1.readHeader_ok {h : Header} (hh : readHeader data = .ok h) :
    h = ⟨field data 0 1, field data 1 1, field data 2 2, field data 4 4⟩ := by
  obtain ⟨header, hs, hh⟩ := bind_eq_ok hh
  rw [byteAt_field hs (by decide), byteAt_field hs (by decide)] at hh
  obtain ⟨v, hv, hh⟩ := bind_eq_ok hh
  obtain ⟨k, hk, hh⟩ := bind_eq_ok hh
  obtain ⟨s₂, hs₂, hh⟩ := bind_eq_ok hh
  obtain ⟨e, he, hh⟩ := bind_eq_ok hh
  obtain ⟨s₄, hs₄, hh⟩ := bind_eq_ok hh
  obtain ⟨c, hc, hh⟩ := bind_eq_ok hh
  have h₂ := decode_field hs (show 2 ≤ 4 by decide) (show 4 ≤ 8 by decide)
  have h₄ := decode_field hs (show 4 ≤ 8 by decide) (show 8 ≤ 8 by decide)
  rw [hs₂] at h₂
  rw [hs₄] at h₄
  cases hv
  cases hk
  cases he.symm.trans h₂
  cases hc.symm.trans h₄
  split_ifs at hh
  cases hh
  rfl

lemma IndexV2.readHeaderInfo_ne_panic : readHeaderInfo data ≠ .panic := by
  refine bind_ne_panic (safeSlice_ne_panic _ _ _) fun header h => ?_
  have hlen : header.length = 17 := (safeSlice_ok h).2.2
  refine bind_ne_panic (byteAt_ne_panic (by omega)) fun _ _ => ?_
  iterate 3 refine decode_slice_ne_panic (by decide) (by omega) (by decide) fun _ => ?_
  refine bind_ne_panic (byteAt_ne_panic (by omega)) fun _ _ => ?_
  exact decode_slice_ne_panic (by decide) (by omega) (by decide) fun _ => nofun

lemma IndexV2.readHeaderInfo_ok {h : Header} (hh : readHeaderInfo data = .ok h) :
    h.keySize = field data 1 1 ∧ h.entrySize = field data 2 2 ∧ h.entryCount = field data 4 4 := by
  obtain ⟨header, hs, hh⟩ := bind_eq_ok hh
  rw [byteAt_field hs (by decide)] at hh
  obtain ⟨k, hk, hh⟩ := bind_eq_ok hh
  obtain ⟨s₂, hs₂, hh⟩ := bind_eq_ok hh
  obtain ⟨e, he, hh⟩ := bind_eq_ok hh
  obtain ⟨s₄, hs₄, hh⟩ := bind_eq_ok hh
  obtain ⟨c, hc, hh⟩ := bind_eq_ok hh
  iterate 5 obtain ⟨_, _, hh⟩ := bind_eq_ok hh
  have h₂ := decode_field hs (show 2 ≤ 4 by decide) (show 4 ≤ 17 by decide)
  have h₄ := decode_field hs (show 4 ≤ 8 by decide) (show 8 ≤ 17 by decide)
  rw [hs₂] at h₂
  rw [hs₄] at h₄
  cases hk
  cases he.symm.trans h₂
  cases hc.symm.trans h₄
  cases hh
  exact ⟨rfl, rfl, rfl⟩

lemma IndexV2.openPackIndex_ne_panic : openPackIndex data ≠ .panic := by
  refine bind_ne_panic readHeaderInfo_ne_panic fun hi _ => ?_
  split_ifs
  · exact nofun
  refine bind_ne_panic (safeSlice_ne_panic _ _ _) fun buf hbuf => ?_
  refine bind_ne_panic (readAll_ne_panic fun p _ _ => readPackID_ne_panic _ _ _)
    fun packs _ => ?_
  refine bind_ne_panic (readAll_ne_panic fun p _ hp => ?_) fun formats _ => nofun
  exact parseFormatAt_ne_panic (safeSlice_ok hbuf).2.2 (by omega)

lemma openBytes_ne_panic : openBytes data overhead ≠ .panic := by
  refine bind_ne_panic readHeader_ne_panic fun h _ => ?_
  split_ifs
  · exact nofun
  · exact openPackIndex_ne_panic
  · exact nofun

def entriesOffset (data : Str) : ℕ := if field data 0 1 = 1 then 8 else 17

lemma openBytes_ok {b : Reader} (h : openBytes data overhead = .ok b) :
    b.data = data ∧ b.base = entriesOffset data ∧ b.keySize = field data 1 1
      ∧ b.valueSize = field data 2 2 ∧ b.entryCount = field data 4 4
      ∧ ∀ id d, b.entryToInfo id d ≠ .panic := by
  obtain ⟨hdr, hhdr, h⟩ := bind_eq_ok h
  have hfields := readHeader_ok hhdr
  unfold entriesOffset
  split_ifs at h with h₁ h₂
  · cases h
    rw [hfields] at h₁ ⊢
    rw [if_pos h₁]
    exact ⟨rfl, rfl, rfl, rfl, rfl, entryToInfo_ne_panic data overhead⟩
  · rw [hfields] at h₁
    rw [if_neg h₁]
    obtain ⟨hi, hhi, h⟩ := bind_eq_ok h
    obtain ⟨hk, he, hc⟩ := readHeaderInfo_ok hhi
    split_ifs at h
    obtain ⟨buf, -, h⟩ := bind_eq_ok h
    obtain ⟨packs, hpacks, h⟩ := bind_eq_ok h
    obtain ⟨formats, -, h⟩ := bind_eq_ok h
    cases h
    exact ⟨rfl, rfl, hk, he, hc,
      entryToInfoStruct_ne_panic (readAll_length hpacks) formats⟩

/-- The header's key size is one that content IDs have, or the middle key, which an iteration reads
first, is not there. -/
def KeysFit (data : Str) : Prop :=
  field data 1 1 ≤ maxIDLength + 1 ∨ field data 4 4 = 0
    ∨ data.length < entriesOffset data + (field data 1 1 + field data 2 2) * (field data 4 4 / 2)
      + field data 1 1

instance : Decidable (KeysFit data) := inferInstanceAs (Decidable (_ ∨ _ ∨ _))

/-- Whatever the bytes are, opening them does not panic; and what is opened never panics exactly if
its keys fit. -/
theorem openBytes_safe_iff (data : Str) (overhead : ℕ) :
    (openBytes data overhead ≠ .panic ∧ ∀ b, openBytes data overhead = .ok b →
        (∀ id, b.getInfo id ≠ .panic) ∧ ∀ r, b.iterate r ≠ .panic)
      ↔ ((∃ b, openBytes data overhead = .ok b) → KeysFit data) := by
  have hiter : ∀ b, openBytes data overhead = .ok b → ∀ r, b.iterate r = .panic ↔ ¬ KeysFit data := by
    intro b hb r
    obtain ⟨hdata, hbase, hk, hv, hc, hentry⟩ := openBytes_ok hb
    rw [b.iterate_eq_panic hentry, Reader.entryOffset, Reader.stride, hdata, hbase, hk, hv, hc, KeysFit]
    omega
  constructor
  · rintro ⟨-, hsafe⟩ ⟨b, hb⟩
    by_contra hfit
    exact (hsafe b hb).2 .allIDs ((hiter b hb _).2 hfit)
  · intro hfit
    refine ⟨openBytes_ne_panic, fun b hb => ⟨?_, fun r hr => ?_⟩⟩
    · exact b.getInfo_ne_panic (openBytes_ok hb).2.2.2.2.2
    · exact (hiter b hb r).1 hr (hfit ⟨b, hb⟩)

lemma exists_open_panic {data : Str} {overhead : ℕ}
    (h : (match openBytes data overhead with
      | .ok b => decide (b.iterate .allIDs = .panic)
      | _ => false) = true) :
    ∃ b, openBytes data overhead = .ok b ∧ b.iterate .allIDs = .panic := by
  rcases hb : openBytes data overhead with b | _ | _ <;> rw [hb] at h
  · exact ⟨b, rfl, of_decide_eq_true h⟩
  · exact Bool.noConfusion h
  · exact Bool.noConfusion h

/-- A header that gives keys of 34 bytes is accepted in both versions, and iterating over its one
entry panics. -/
theorem long_key_panics :
    (∃ b, openBytes ([1, 34, 0, 16, 0, 0, 0, 1] ++ List.replicate 59 0) 0 = .ok b
      ∧ b.iterate .allIDs = .panic) ∧
    ∃ b, openBytes ([2, 34, 0, 16, 0, 0, 0, 1] ++ List.replicate 59 0) 0 = .ok b
      ∧ b.iterate .allIDs = .panic :=
  ⟨exists_open_panic (by decide), exists_open_panic (by decide +kernel)⟩

end Open

end Warphold.Content
