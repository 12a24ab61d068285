import Warphold.Proofs.IndexEntry

/-!
# Reading back an index

The header, the rows of the tables and the names are where the reader looks for them, whatever follows
the index, and the keys are in order, so the search finds the one there is.
-/

namespace Warphold.Content.IndexV2

open List hiding get
open IndexBuilder Option Binary Builder Opened

section Names

def Named (st : (AList fun _ : Str => ℕ) × Str) : Prop :=
  ∀ p off, st.1.lookup p = some off → slice st.2 off p.length = some p

lemma length_le_addPackName : ∀ (is : List Info) (st : (AList fun _ : Str => ℕ) × Str),
    st.2.length ≤ (is.foldl addPackName st).2.length
  | [], _ => le_rfl
  | i :: is, st => by
    refine le_trans ?_ (length_le_addPackName is _)
    unfold addPackName
    split_ifs
    · exact le_rfl
    · simp

lemma Named.addPackName {st : (AList fun _ : Str => ℕ) × Str} (h : Named st)
    (hlen : st.2.length < 2 ^ 32) (i : Info) : Named (addPackName st i) := by
  unfold IndexV2.addPackName
  split_ifs with hc
  · exact h
  · intro p off hp
    by_cases heq : p = i.packBlobID
    · subst heq
      rw [AList.lookup_insert, some.injEq, Nat.mod_eq_of_lt hlen] at hp
      have := slice_append st.2 i.packBlobID [] hp rfl
      rwa [append_nil] at this
    · rw [AList.lookup_insert_ne heq] at hp
      exact slice_append_right (h p off hp) _

lemma foldl_addPackName : ∀ (is : List Info) (st : (AList fun _ : Str => ℕ) × Str), Named st →
    (is.foldl addPackName st).2.length < 2 ^ 32 → Named (is.foldl addPackName st) ∧
      (∀ p, (st.1.lookup p).isSome → ((is.foldl addPackName st).1.lookup p).isSome) ∧
      ∀ i ∈ is, i.packBlobID ≠ [] → ((is.foldl addPackName st).1.lookup i.packBlobID).isSome
  | [], _, h, _ => ⟨h, fun _ hp => hp, by simp⟩
  | i :: is, st, h, hlen => by
    have hst : st.2.length < 2 ^ 32 :=
      lt_of_le_of_lt (length_le_addPackName (i :: is) st) hlen
    obtain ⟨h₁, h₂, h₃⟩ := foldl_addPackName is _ (h.addPackName hst i) hlen
    have hkeep : ∀ p, (st.1.lookup p).isSome → ((addPackName st i).1.lookup p).isSome := by
      intro p hp
      unfold addPackName
      split_ifs
      · exact hp
      · by_cases heq : p = i.packBlobID
        · subst heq
          simp
        · rwa [AList.lookup_insert_ne heq]
    have hnew : i.packBlobID ≠ [] → ((addPackName st i).1.lookup i.packBlobID).isSome := by
      intro hne
      unfold addPackName
      split_ifs with hc
      · exact hc.resolve_left hne
      · simp
    refine ⟨h₁, fun p hp => h₂ p (hkeep p hp), fun j hj hne => ?_⟩
    rcases mem_cons.1 hj with rfl | hj
    · exact h₂ _ (hnew hne)
    · exact h₃ j hj hne

end Names

section Layout
variable {is : List Info} {b : IndexBuilder} {n : ℕ}

/-- An entry with its key. -/
def row (b : IndexBuilder) (i : Info) : Str :=
  i.contentID.toBytes ++ (b.valueBytes i).take b.entrySize

def layout (b : IndexBuilder) (is : List Info) (suffix : Str) : Str :=
  b.header ++ (is.flatMap (row b) ++ (b.packs.flatMap (b.writePackIDEntry (prepareExtraData is).1)
    ++ (b.formats.flatMap IndexBuilder.writeFormatInfoEntry ++ ((prepareExtraData is).2 ++ suffix))))

lemma mapM_ok {α β ε : Type} {f : α → Except ε β} {g : α → β} : ∀ (l : List α),
    (∀ x ∈ l, f x = .ok (g x)) → l.mapM f = .ok (l.map g)
  | [], _ => rfl
  | x :: l, h => by
    rw [mapM_cons, h x (by simp), mapM_ok l fun y hy => h y (by simp [hy])]
    rfl

lemma mapM_error {α β ε : Type} {f : α → Except ε β} {e : ε} : ∀ (l : List α),
    l.mapM f = .error e → ∃ x ∈ l, f x = .error e
  | [], h => by cases h
  | x :: l, h => by
    rw [mapM_cons] at h
    cases hx : f x with
    | error e' =>
      rw [hx] at h
      obtain rfl : e' = e := Except.error.inj h
      exact ⟨x, by simp, hx⟩
    | ok y =>
      cases hl : l.mapM f with
      | error e' =>
        rw [hx, hl] at h
        obtain rfl : e' = e := Except.error.inj h
        obtain ⟨z, hz, hfz⟩ := mapM_error l hl
        exact ⟨z, by simp [hz], hfz⟩
      | ok ys =>
        rw [hx, hl] at h
        cases h

lemma Built.keyLength_eq (h : Built is b) (hkey : 1 < b.keyLength)
    (he : ∀ i ∈ is, Encodable n i) : b.keyLength = n + 1 := by
  have hk := h.keyLength
  cases is with
  | nil => simp at hk; omega
  | cons i is =>
    have := (he i (by simp)).hashLength
    simpa [ID.toBytes, this] using hk

lemma buildV2_ok (he : ∀ i ∈ is, Encodable n i) {out : Str} (hb : buildV2 is = .ok out) :
    ∃ b, Built is b ∧ b.keyLength = n + 1 ∧ 1 ≤ n ∧ out = layout b is [] := by
  unfold buildV2 at hb
  cases hnew : newIndexBuilder is with
  | error e =>
    rw [hnew] at hb
    cases hb
  | ok b =>
    have h := built_of_newIndexBuilder hnew
    simp only [hnew, bind, Except.bind] at hb
    split_ifs at hb with hkey
    have hk := h.keyLength_eq (not_le.1 hkey) he
    have hrows : is.mapM b.writeIndexEntry = .ok (is.map (row b)) := by
      refine mapM_ok is fun i hi => ?_
      have hlen : i.contentID.toBytes.length = b.keyLength := by
        rw [hk, ID.toBytes, length_cons, (he i hi).hashLength]
      simp [writeIndexEntry, hlen, h.writeIndexValueEntry hi, Except.map, row]
    rw [hrows] at hb
    refine ⟨b, h, hk, by omega, ?_⟩
    rw [← Except.ok.inj hb, layout, append_nil, flatMap_def (l := is)]

lemma buildV2_ne_encodingBug (is : List Info) : buildV2 is ≠ .error .encodingBug := by
  intro hb
  unfold buildV2 at hb
  cases hnew : newIndexBuilder is with
  | error e =>
    rw [hnew] at hb
    obtain rfl : e = .encodingBug := Except.error.inj hb
    simp only [newIndexBuilder] at hnew
    split_ifs at hnew <;> cases hnew
  | ok b =>
    have h := built_of_newIndexBuilder hnew
    simp only [hnew, bind, Except.bind] at hb
    split_ifs at hb with hkey
    · cases hb
    · cases hrows : is.mapM b.writeIndexEntry with
      | ok rows =>
        rw [hrows] at hb
        cases hb
      | error e =>
        rw [hrows] at hb
        obtain rfl : e = .encodingBug := Except.error.inj hb
        obtain ⟨i, hi, hrow⟩ := mapM_error is hrows
        rw [writeIndexEntry, h.writeIndexValueEntry hi] at hrow
        simp only [Except.map] at hrow
        split_ifs at hrow
        cases hrow

lemma header_fields {e c p t : Str} (x y : UInt8) (he : e.length = 2) (hc : c.length = 4)
    (hp : p.length = 4) (ht : t.length = 4) :
    let v := [2, x] ++ e ++ c ++ p ++ [y] ++ t
    field v 0 1 = 2 ∧ readHeader v = ⟨x.toNat, get e, get c, get p, y.toNat, get t⟩ := by
  obtain ⟨e₁, e₂, rfl⟩ := length_eq_two.1 he
  obtain ⟨c₁, c₂, c₃, c₄, rfl⟩ := length_eq_four.1 hc
  obtain ⟨p₁, p₂, p₃, p₄, rfl⟩ := length_eq_four.1 hp
  obtain ⟨t₁, t₂, t₃, t₄, rfl⟩ := length_eq_four.1 ht
  refine ⟨rfl, ?_⟩
  rw [← get_singleton x, ← get_singleton y]
  rfl

@[simp] lemma length_header (b : IndexBuilder) : b.header.length = headerSize := by
  simp [header, headerSize]

lemma parseFormat_take (s : Str) : parseFormat (s.take 6) = parseFormat s := by
  rw [parseFormat, parseFormat, field_take (by omega), field_take (by omega), take_take]
  rfl

lemma parseFormat_write {f : FormatInfo} (h₁ : f.compressionHeaderID < 2 ^ 32)
    (h₂ : f.formatVersion < 256) (h₃ : f.encryptionKeyID < 256) :
    parseFormat (writeFormatInfoEntry f) = f := by
  have hparts : ∀ (c : Str) (x y : UInt8), c.length = 4 →
      parseFormat (c ++ [x, y]) = ⟨get c, x.toNat, y.toNat⟩ := by
    intro c x y hc
    obtain ⟨c₁, c₂, c₃, c₄, rfl⟩ := length_eq_four.1 hc
    rw [← get_singleton x, ← get_singleton y]
    rfl
  rw [writeFormatInfoEntry, hparts _ _ _ (length_put 4 _), get_put_of_lt (by omega),
    toNat_ofNat_of_lt h₂, toNat_ofNat_of_lt h₃]

lemma parse_formats (formats : List FormatInfo)
    (h : ∀ f ∈ formats, parseFormat (writeFormatInfoEntry f) = f) :
    (range formats.length).map (fun j => parseFormat
      ((formats.flatMap writeFormatInfoEntry).drop (formatInfoSize * j)))
      = formats := by
  refine ext_getElem? fun j => ?_
  rw [getElem?_map]
  by_cases hj : j < formats.length
  · rw [getElem?_range hj, map_some, getElem?_eq_getElem hj]
    have hrow := slice_flatMap formats (f := writeFormatInfoEntry) (k := formatInfoSize)
      (fun f _ => by simp [writeFormatInfoEntry, formatInfoSize])
      (getElem?_eq_getElem hj)
    unfold slice at hrow
    split_ifs at hrow
    have htake := some.inj hrow
    rw [← parseFormat_take, show (6 : ℕ) = formatInfoSize from rfl, htake,
      h _ (getElem_mem hj)]
  · simp [not_lt.1 hj]

/-- The index and what it was built from, as far as they are the same. -/
structure Opens (is : List Info) (b : IndexBuilder) (ndx : Opened) (suffix : Str) : Prop where
  hdr : ndx.hdr = ⟨b.keyLength, b.entrySize, is.length, b.packs.length, b.formats.length, 0⟩
  data : ndx.data = layout b is suffix
  formats : ndx.formats = b.formats
  packs : ndx.packBlobIDs = b.packs

lemma length_row (h : Built is b) (hk : b.keyLength = n + 1) (he : ∀ i ∈ is, Encodable n i) :
    ∀ i ∈ is, (row b i).length = b.keyLength + b.entrySize := by
  intro i hi
  have := h.size
  simp only [row, ID.toBytes, length_append, length_cons, (he i hi).hashLength, hk,
    length_take, length_valueBytes]
  omega

lemma length_writePackIDEntry (offsets : AList fun _ : Str => ℕ) (p : Str) :
    (b.writePackIDEntry offsets p).length = packInfoSize := by
  simp [writePackIDEntry, packInfoSize]

lemma length_writeFormatInfoEntry (f : FormatInfo) :
    (writeFormatInfoEntry f).length = formatInfoSize := by
  simp [writeFormatInfoEntry, formatInfoSize]

lemma length_layout (h : Built is b) (hk : b.keyLength = n + 1) (he : ∀ i ∈ is, Encodable n i)
    (suffix : Str) : (layout b is suffix).length = headerSize + is.length * (b.keyLength + b.entrySize)
      + b.packs.length * packInfoSize + b.formats.length * formatInfoSize
      + (prepareExtraData is).2.length + suffix.length := by
  rw [layout, length_append, length_append, length_append, length_append,
    length_append, length_header, length_flatMap is (length_row h hk he),
    length_flatMap b.packs fun p _ => length_writePackIDEntry _ p,
    length_flatMap b.formats fun f _ => length_writeFormatInfoEntry f]
  omega

lemma Built.readHeader (h : Built is b) (hk : b.keyLength = n + 1) (hn : n ≤ maxHashSize)
    (hcount : is.length < 2 ^ 32) : field b.header 0 1 = 2 ∧ readHeader b.header =
      ⟨b.keyLength, b.entrySize, is.length, b.packs.length, b.formats.length, 0⟩ := by
  obtain ⟨h₁, h₂⟩ := header_fields (UInt8.ofNat b.keyLength) (UInt8.ofNat b.formats.length)
    (length_put 2 b.entrySize) (length_put 4 b.entryCount) (length_put 4 b.packs.length)
    (length_put 4 0)
  have hsize := h.size
  have hf := h.formatCount
  have hp := h.packCount
  unfold maxHashSize at hn
  rw [← header] at h₁ h₂
  rw [toNat_ofNat_of_lt (by omega), toNat_ofNat_of_lt (by omega), get_put_of_lt (by omega),
    get_put_of_lt (by rw [h.entryCount]; omega), get_put_of_lt (by omega), get_put_of_lt (by omega),
    h.entryCount] at h₂
  exact ⟨h₁, h₂⟩

lemma Built.packName (h : Built is b) (hk : b.keyLength = n + 1) (he : ∀ i ∈ is, Encodable n i)
    (hsize : (layout b is []).length < 2 ^ 32) (suffix : Str) {j : ℕ} {p : Str}
    (hj : b.packs[j]? = some p) :
    ∃ buf, slice (layout b is suffix)
        (headerSize + is.length * (b.keyLength + b.entrySize) + packInfoSize * j) packInfoSize
          = some buf ∧
      slice (layout b is suffix) (get (buf.drop 1)) (get (buf.take 1)) = some p := by
  rw [length_layout h hk he] at hsize
  have hrows := length_flatMap is (length_row h hk he)
  have hpacks := length_flatMap b.packs fun p _ =>
    length_writePackIDEntry (b := b) (prepareExtraData is).1 p
  have hformats := length_flatMap b.formats fun f _ => length_writeFormatInfoEntry f
  obtain ⟨i, hi, rfl⟩ : ∃ i ∈ is, i.packBlobID = p := by
    have := mem_of_getElem? hj
    rw [h.packs, mem_unique] at this
    simpa using this
  have hbase : b.extraDataOffset = headerSize + is.length * (b.keyLength + b.entrySize)
      + b.packs.length * packInfoSize + b.formats.length * formatInfoSize := by
    rw [extraDataOffset, h.entryCount, Nat.mod_eq_of_lt (by omega)]
  obtain ⟨hnamed, -, hall⟩ := foldl_addPackName is (∅, []) (fun p off hp => by simp at hp)
    (show (prepareExtraData is).2.length < 2 ^ 32 by omega)
  refine ⟨b.writePackIDEntry (prepareExtraData is).1 i.packBlobID, ?_, ?_⟩
  · have hrow := slice_flatMap b.packs
      (fun p _ => length_writePackIDEntry (b := b) (prepareExtraData is).1 p) hj
    rw [layout, ← append_assoc]
    exact slice_of_slice (by rw [length_append, length_header, hrows]) hrow
  · have hone : get ((b.writePackIDEntry (prepareExtraData is).1 i.packBlobID).take 1)
        = i.packBlobID.length := by
      have := (he i hi).packName
      rw [writePackIDEntry, take_succ_cons, take_zero, get_singleton,
        toNat_ofNat_of_lt (by omega)]
    have hdata : layout b is suffix = (b.header ++ is.flatMap (row b)
        ++ b.packs.flatMap (b.writePackIDEntry (prepareExtraData is).1)
        ++ b.formats.flatMap writeFormatInfoEntry)
          ++ ((prepareExtraData is).2 ++ suffix) := by
      simp only [layout, append_assoc]
    have hpre : (b.header ++ is.flatMap (row b)
        ++ b.packs.flatMap (b.writePackIDEntry (prepareExtraData is).1)
        ++ b.formats.flatMap writeFormatInfoEntry).length = b.extraDataOffset := by
      rw [length_append, length_append, length_append, length_header, hrows, hpacks,
        hformats, hbase]
    have hslice : ∀ off, slice (prepareExtraData is).2 off i.packBlobID.length = some i.packBlobID →
        get (put 4 (off + b.extraDataOffset)) = off + b.extraDataOffset ∧
          slice (layout b is suffix) (off + b.extraDataOffset) i.packBlobID.length
            = some i.packBlobID := by
      intro off hoff
      have hle : off ≤ (prepareExtraData is).2.length := by
        unfold slice at hoff
        split_ifs at hoff with hb
        omega
      refine ⟨get_put_of_lt (by rw [hbase]; omega), ?_⟩
      rw [hdata, Nat.add_comm]
      exact slice_of_slice hpre hoff
    rw [hone, writePackIDEntry, drop_succ_cons, drop_zero]
    cases hlook : (prepareExtraData is).1.lookup i.packBlobID with
    | some off =>
      obtain ⟨h₁, h₂⟩ := hslice off (hnamed _ _ hlook)
      rw [getD_some, h₁, h₂]
    | none =>
      have hnil : i.packBlobID = [] := by
        by_contra hne
        have := hall i hi hne
        rw [show (foldl addPackName (∅, []) is).1.lookup i.packBlobID = none from hlook] at this
        cases this
      obtain ⟨h₁, h₂⟩ := hslice 0 (by simp [slice, hnil])
      rw [getD_none, h₁, h₂]

lemma Built.openIndex (h : Built is b) (hk : b.keyLength = n + 1) (h1 : 1 ≤ n)
    (hn : n ≤ maxHashSize) (he : ∀ i ∈ is, Encodable n i)
    (hsize : (layout b is []).length < 2 ^ 32) (suffix : Str) :
    ∃ ndx, openIndex (layout b is suffix) = some ndx ∧ Opens is b ndx suffix := by
  have hlen := hsize
  rw [length_layout h hk he] at hlen
  have hcount : is.length < 2 ^ 32 := by
    have : is.length ≤ is.length * (b.keyLength + b.entrySize) := Nat.le_mul_of_pos_right _ (by omega)
    omega
  obtain ⟨hversion, hread⟩ := h.readHeader hk hn hcount
  have hhead : slice (layout b is suffix) 0 headerSize = some b.header := by
    have := slice_append [] b.header (is.flatMap (row b) ++
      (b.packs.flatMap (b.writePackIDEntry (prepareExtraData is).1)
      ++ (b.formats.flatMap writeFormatInfoEntry ++ ((prepareExtraData is).2 ++ suffix))))
      rfl (length_header b)
    simpa [layout] using this
  have hrows := length_flatMap is (length_row h hk he)
  have hpacks := length_flatMap b.packs fun p _ =>
    length_writePackIDEntry (b := b) (prepareExtraData is).1 p
  have hformats := length_flatMap b.formats fun f _ => length_writeFormatInfoEntry f
  have hbuf : slice (layout b is suffix)
      (headerSize + is.length * (b.keyLength + b.entrySize) + b.packs.length * packInfoSize)
      (b.formats.length * formatInfoSize)
      = some (b.formats.flatMap writeFormatInfoEntry) := by
    have := slice_append (b.header ++ is.flatMap (row b)
      ++ b.packs.flatMap (b.writePackIDEntry (prepareExtraData is).1))
      (b.formats.flatMap writeFormatInfoEntry) ((prepareExtraData is).2 ++ suffix)
      (by rw [List.length_append, List.length_append, length_header, hrows, hpacks]) hformats
    simpa only [layout, List.append_assoc] using this
  have hnames : (List.range b.packs.length).mapM (fun j => do
      let buf ← slice (layout b is suffix)
        (headerSize + is.length * (b.keyLength + b.entrySize) + packInfoSize * j) packInfoSize
      slice (layout b is suffix) (get (buf.drop 1)) (get (buf.take 1))) = some b.packs := by
    rw [List.range_eq_range']
    refine mapM_range' b.packs 0 fun j p hj => ?_
    obtain ⟨buf, hrow, hname⟩ := h.packName hk he hsize suffix hj
    simp only [Nat.zero_add, hrow, bind_eq_bind, bind_some]
    exact hname
  have hparsed := parse_formats b.formats fun f hf => by
    rw [h.formats, mem_unique, List.mem_map] at hf
    obtain ⟨i, hi, rfl⟩ := hf
    exact parseFormat_write (he i hi).compression (he i hi).version (he i hi).key
  refine ⟨⟨⟨b.keyLength, b.entrySize, is.length, b.packs.length, b.formats.length, 0⟩,
    layout b is suffix, b.formats, b.packs⟩, ?_, ⟨rfl, rfl, rfl, rfl⟩⟩
  have hes := h.size
  have hkey : field b.header 1 1 = b.keyLength := congrArg Header.keySize hread
  have hcheck : ¬ (b.keyLength ≤ 1 ∨ b.entrySize < entryMinLength ∨ entryMaxLength < b.entrySize
      ∨ maxEntrySize < b.keyLength + b.entrySize) := by
    simp only [entryMinLength, entryMaxLength, maxEntrySize, maxHashSize] at hn ⊢
    omega
  rw [IndexV2.openIndex, slice_take hhead (by decide : 8 ≤ headerSize)]
  simp only [bind_eq_bind, bind_some, field_take (show 1 + 1 ≤ 8 by decide),
    field_take (show 0 + 1 ≤ 8 by decide), hkey, hversion]
  rw [if_neg (by omega), openV2PackIndex, hhead]
  simp only [bind_eq_bind, bind_some, hread, Header.stride, if_neg hcheck,
    Header.formatsOffset, Header.packsOffset, hbuf, hparsed]
  simp only [bind_eq_bind] at hnames
  rw [hnames, bind_some]

end Layout

section Read
variable {is : List Info} {b : IndexBuilder} {n : ℕ} {ndx : Opened} {suffix : Str}

lemma toBytes_injective {c d : ID} (h : c.toBytes = d.toBytes) : c = d := by
  cases c
  cases d
  simpa [ID.toBytes] using h

lemma ofBytes_toBytes {c : ID} (h : c.hash.length ≤ maxHashSize) :
    ID.ofBytes c.toBytes = some c := by
  simp [ID.ofBytes, ID.toBytes, not_lt.2 h]

lemma take_row (hk : b.keyLength = n + 1) {i : Info} (he : Encodable n i) :
    (row b i).take b.keyLength = i.contentID.toBytes ∧
      (row b i).drop b.keyLength = (b.valueBytes i).take b.entrySize := by
  have hlen : i.contentID.toBytes.length = b.keyLength := by
    rw [hk, ID.toBytes, length_cons, he.hashLength]
  rw [row, ← hlen]
  exact ⟨take_left, drop_left⟩

variable (ho : Opens is b ndx suffix) (h : Built is b) (hk : b.keyLength = n + 1)
  (he : ∀ i ∈ is, Encodable n i)
include ho h hk he

lemma Opens.entry {p : ℕ} {i : Info} (hp : is[p]? = some i) :
    slice ndx.data (ndx.entryOffset p) ndx.hdr.stride = some (row b i) := by
  have hrow := slice_flatMap is (length_row h hk he) hp
  rw [ho.data, entryOffset, ho.hdr]
  exact slice_of_slice (length_header b) hrow

lemma Opens.key {p : ℕ} {i : Info} (hp : is[p]? = some i) :
    ndx.key p = some i.contentID.toBytes := by
  have hrow := ho.entry h hk he hp
  have := slice_take (k := ndx.hdr.keySize) hrow (by simp [Header.stride])
  rw [Opened.key, this, ho.hdr, (take_row hk (he i (mem_of_getElem? hp))).1]

lemma Opens.findEntryPositionExact
    (hs : is.Pairwise fun i j => i.contentID.less j.contentID = true) (id : ID) :
    ∃ pos, ndx.findEntryPositionExact id.toBytes = some pos ∧
      (∀ p i, p < pos → is[p]? = some i → i.contentID.less id = true) ∧
      ∀ p i, pos ≤ p → is[p]? = some i → i.contentID.less id ≠ true := by
  have hcount : ndx.hdr.entryCount = is.length := by rw [ho.hdr]
  let g : ℕ → Bool := fun p => (is[p]?.map fun i => !i.contentID.less id).getD true
  have hless : ∀ i : Info, (!decide (i.contentID.toBytes < id.toBytes)) = !i.contentID.less id := by
    intro i
    congr 1
    rw [Bool.eq_iff_iff, decide_eq_true_eq, ID.less_iff]
    rfl
  have hf : ∀ p, 0 ≤ p → p < is.length →
      ((ndx.key p).map fun k => !decide (k < id.toBytes)) = some (g p) := by
    intro p _ hp
    rw [ho.key h hk he (getElem?_eq_getElem hp)]
    simp [g, getElem?_eq_getElem hp, hless]
  have hg : ∀ p q, 0 ≤ p → p ≤ q → q < is.length → g p = true → g q = true := by
    intro p q _ hpq hq hgp
    rcases hpq.eq_or_lt with rfl | hlt
    · exact hgp
    · have hp := getElem?_eq_getElem (hlt.trans hq)
      have hq' := getElem?_eq_getElem hq
      have hlt' := pairwise_iff_getElem.1 hs p q (hlt.trans hq) hq hlt
      simp only [g, hp, hq', map_some, getD_some, Bool.not_eq_true'] at hgp ⊢
      by_contra hc
      rw [Bool.not_eq_false] at hc
      rw [ID.less_trans hlt' hc] at hgp
      cases hgp
  obtain ⟨pos, hpos, -, -, h₁, h₂⟩ := search_eq (Nat.zero_le is.length) hf hg
  refine ⟨pos, by rw [Opened.findEntryPositionExact, hcount]; exact hpos, fun p i hp hi => ?_,
    fun p i hp hi => ?_⟩
  · have := h₁ p (Nat.zero_le _) hp
    simpa [g, hi] using this
  · have := h₂ p hp (List.getElem?_eq_some_iff.1 hi).1
    simpa [g, hi] using this

lemma Opens.getInfo_mem (hn : n ≤ maxHashSize)
    (hs : is.Pairwise fun i j => i.contentID.less j.contentID = true) {i : Info} (hi : i ∈ is) :
    ndx.getInfo i.contentID = some (some i) := by
  obtain ⟨pos, hpos, h₁, h₂⟩ := ho.findEntryPositionExact h hk he hs i.contentID
  obtain ⟨p, hp⟩ := List.getElem?_of_mem hi
  have hpp : pos = p := by
    rcases lt_trichotomy p pos with hlt | heq | hlt
    · have := h₁ p i hlt hp
      rw [ID.less_irrefl] at this
      cases this
    · exact heq.symm
    · have hlen := (List.getElem?_eq_some_iff.1 hp).1
      have hpos' := List.getElem?_eq_getElem (hlt.trans hlen)
      have := List.pairwise_iff_getElem.1 hs pos p (hlt.trans hlen) hlen hlt
      rw [(List.getElem?_eq_some_iff.1 hp).2] at this
      exact absurd this (h₂ pos _ le_rfl hpos')
  subst hpp
  have hlen := (List.getElem?_eq_some_iff.1 hp).1
  have hkey : i.contentID.toBytes.length = b.keyLength := by
    rw [hk, ID.toBytes, List.length_cons, (he i hi).hashLength]
  have hfind : ndx.findEntry i.contentID = some (some ((b.valueBytes i).take b.entrySize)) := by
    have hsz : ndx.hdr.keySize = b.keyLength := by rw [ho.hdr]
    have hcount : ndx.hdr.entryCount = is.length := by rw [ho.hdr]
    unfold maxHashSize at hn
    rw [findEntry, if_neg (by rw [hsz]; omega), if_neg (by rw [hsz, hkey]; simp)]
    simp only [hpos, bind_eq_bind, bind_some, hcount, ho.entry h hk he hp, hkey,
      (take_row hk (he i hi)).1, (take_row hk (he i hi)).2, if_true, not_le.2 hlen, if_false]
  have hinfo := h.entryToInfo hi (he i hi) ho.formats ho.packs (by rw [ho.hdr]) (by rw [ho.hdr])
  simp [getInfo, hfind, hinfo]

lemma Opens.getInfo_absent
    (hs : is.Pairwise fun i j => i.contentID.less j.contentID = true) {id : ID}
    (hid : id.hash.length = n) (habs : ∀ i ∈ is, i.contentID ≠ id) :
    ndx.getInfo id = some none := by
  obtain ⟨pos, hpos, -, -⟩ := ho.findEntryPositionExact h hk he hs id
  have hkey : id.toBytes.length = b.keyLength := by rw [hk, ID.toBytes, length_cons, hid]
  have hsz : ndx.hdr.keySize = b.keyLength := by rw [ho.hdr]
  have hcount : ndx.hdr.entryCount = is.length := by rw [ho.hdr]
  have hfind : ndx.findEntry id = some none := by
    rw [findEntry]
    split_ifs with h255 hne
    · rfl
    · exact absurd (hkey.trans hsz.symm) hne
    · simp only [hpos, bind_eq_bind, bind_some, hcount]
      split_ifs with hend
      · rfl
      · have hp := getElem?_eq_getElem (not_le.1 hend)
        have hmem : is[pos] ∈ is := getElem_mem _
        rw [ho.entry h hk he hp, bind_some, hkey, (take_row hk (he _ hmem)).1,
          if_neg fun heq => habs _ hmem (toBytes_injective heq)]
  simp [getInfo, hfind]

lemma Opens.iterateAt (hn : n ≤ maxHashSize) : ∀ (l : List Info) (s : ℕ),
    (∀ j i, l[j]? = some i → is[s + j]? = some i) →
      ndx.iterateAt .allIDs (range' s l.length) = some l
  | [], _, _ => rfl
  | i :: l, s, hl => by
    have hp : is[s]? = some i := hl 0 i rfl
    have hmem := mem_of_getElem? hp
    have ih := Opens.iterateAt hn l (s + 1) fun j x hx => by
      have := hl (j + 1) x (by simpa using hx)
      rwa [← Nat.add_assoc, Nat.add_right_comm] at this
    have hinfo := h.entryToInfo hmem (he i hmem) ho.formats ho.packs (by rw [ho.hdr])
      (by rw [ho.hdr])
    have hsz : ndx.hdr.keySize = b.keyLength := by rw [ho.hdr]
    have hbelow : i.contentID.belowPrefix IDRange.allIDs.endID = true := by
      have := Merged.contains_allIDs i.contentID
      simp only [IDRange.contains, Bool.and_eq_true] at this
      exact this.2
    rw [length_cons, range'_succ, Opened.iterateAt]
    simp only [ho.entry h hk he hp, bind_eq_bind, bind_some, hsz,
      (take_row hk (he i hmem)).1, (take_row hk (he i hmem)).2,
      ofBytes_toBytes ((he i hmem).hashLength.trans_le hn), hbelow, hinfo, ih]
    rfl

lemma Opens.iterate (hn : n ≤ maxHashSize) : ndx.iterate .allIDs = some is := by
  have hcount : ndx.hdr.entryCount = is.length := by rw [ho.hdr]
  have hstart : ndx.findEntryPosition IDRange.allIDs.startID = some 0 := by
    obtain ⟨pos, hpos, -, -, h₁, -⟩ := search_eq (f := fun p => do
        let id ← ID.ofBytes (← ndx.key p)
        return !id.belowPrefix IDRange.allIDs.startID) (g := fun _ => true) (i := 0)
      (j := is.length) (Nat.zero_le _) (fun p _ hp => by
        have hp' := getElem?_eq_getElem hp
        have hmem : is[p] ∈ is := getElem_mem _
        rw [ho.key h hk he hp']
        simp [ofBytes_toBytes ((he _ hmem).hashLength.trans_le hn), ID.belowPrefix,
          IDRange.allIDs]) fun _ _ _ _ _ h => h
    have h0 : pos = 0 := by
      by_contra hne
      have := h₁ 0 le_rfl (Nat.pos_of_ne_zero hne)
      cases this
    rw [findEntryPosition, hcount, hpos, h0]
  rw [Opened.iterate, hstart]
  simp only [bind_eq_bind, bind_some, hcount, Nat.sub_zero]
  exact ho.iterateAt h hk he hn is 0 fun j i hi => by rwa [Nat.zero_add]

end Read

section Sorted

lemma base36Value_idPrefix {c : UInt8} (h : c = 0 ∨ 103 ≤ c ∧ c ≤ 122) :
    base36Value c < 36 ∧ (c = 0 ∧ base36Value c = 0 ∨ c.toNat = base36Value c + 87 ∧ 16 ≤ base36Value c)
    := by
  have hall : ∀ k < 256, UInt8.ofNat k = 0 ∨ 103 ≤ UInt8.ofNat k ∧ UInt8.ofNat k ≤ 122 →
      base36Value (UInt8.ofNat k) < 36 ∧ (UInt8.ofNat k = 0 ∧ base36Value (UInt8.ofNat k) = 0 ∨
        (UInt8.ofNat k).toNat = base36Value (UInt8.ofNat k) + 87 ∧
          16 ≤ base36Value (UInt8.ofNat k)) := by
    decide +kernel
  have := hall c.toNat c.toNat_lt
  rw [UInt8.ofNat_toNat] at this
  exact this h

/-- The prefix of an ID is none or a letter from `g` to `z`. -/
def PrefixOk (c : ID) : Prop := c.pre = 0 ∨ 103 ≤ c.pre ∧ c.pre ≤ 122

lemma bucket_lt {c : ID} (hc : PrefixOk c) : bucket c < 576 := by
  have := (base36Value_idPrefix hc).1
  have hb := (c.hash.headD 0).toNat_lt
  unfold bucket
  omega

lemma less_of_bucket_lt {c d : ID} (hc : PrefixOk c) (hd : PrefixOk d)
    (h : bucket c < bucket d) : c.less d = true := by
  have hbc := (c.hash.headD 0).toNat_lt
  have hbd := (d.hash.headD 0).toNat_lt
  obtain ⟨-, hpc⟩ := base36Value_idPrefix hc
  obtain ⟨-, hpd⟩ := base36Value_idPrefix hd
  unfold bucket at h
  rw [ID.less_iff, cons_lt_cons_iff, UInt8.lt_iff_toNat_lt]
  by_cases hpre : c.pre = d.pre
  · right
    refine ⟨hpre, ?_⟩
    rw [hpre] at h
    cases hhd : d.hash with
    | nil => rw [hhd] at h; simp at h
    | cons y ys =>
      cases hhc : c.hash with
      | nil => exact nil_lt_cons y ys
      | cons x xs =>
        rw [hhc, hhd, headD_cons, headD_cons] at h
        rw [cons_lt_cons_iff, UInt8.lt_iff_toNat_lt]
        left
        omega
  · left
    have hne : c.pre.toNat ≠ d.pre.toNat := fun heq => hpre (UInt8.toNat_inj.1 heq)
    rcases hpc with ⟨h0, h₁⟩ | ⟨h₁, h₂⟩ <;> rcases hpd with ⟨h0', h₁'⟩ | ⟨h₁', h₂'⟩
    · exact absurd (h0.trans h0'.symm) hpre
    · rw [h0]
      simp
      omega
    · omega
    · omega

variable {b : Builder}

lemma nodup_infos (hk : b.Keyed) : (b.infos.map Info.contentID).Nodup := by
  have heq : b.infos.map Info.contentID = b.keys := by
    rw [infos, List.map_map, AList.keys, List.keys]
    refine map_congr_left fun e hmem => ?_
    exact hk e.1 e.2 (AList.mem_lookup_iff.2 hmem)
  rw [heq]
  exact b.nodupKeys

lemma mem_sortedContents (he : ∀ i ∈ b.infos, PrefixOk i.contentID) (i : Info) :
    i ∈ b.sortedContents ↔ i ∈ b.infos := by
  simp only [sortedContents, mem_flatMap, mem_range, mem_mergeSort,
    mem_filter, decide_eq_true_eq]
  constructor
  · rintro ⟨k, -, hi, -⟩
    exact hi
  · intro hi
    exact ⟨_, bucket_lt (he i hi), hi, rfl⟩

lemma sortedContents_ascending (hk : b.Keyed) (he : ∀ i ∈ b.infos, PrefixOk i.contentID) :
    b.sortedContents.Pairwise fun i j => i.contentID.less j.contentID = true := by
  rw [sortedContents, pairwise_flatMap]
  constructor
  · intro k _
    have hperm := mergeSort_perm (b.infos.filter fun i => bucket i.contentID = k)
      fun i j => !j.contentID.less i.contentID
    have hnodup : ((b.infos.filter fun i => bucket i.contentID = k).mergeSort
        fun i j => !j.contentID.less i.contentID).Pairwise fun i j => i.contentID ≠ j.contentID := by
      rw [← pairwise_map (f := Info.contentID) (R := (· ≠ ·))]
      exact (hperm.map _).nodup_iff.2 ((nodup_infos hk).sublist (filter_sublist.map _))
    have hsorted : ((b.infos.filter fun i => bucket i.contentID = k).mergeSort
        fun i j => !j.contentID.less i.contentID).Pairwise
          fun i j => (!j.contentID.less i.contentID) = true :=
      pairwise_mergeSort (fun i j k h₁ h₂ => ?_) (fun i j => ?_) _
    · refine (hsorted.and hnodup).imp fun {i j} hij => ?_
      exact ID.less_of_ne_of_not_less hij.2 (by simpa using hij.1)
    · simp only [Bool.not_eq_true'] at h₁ h₂ ⊢
      by_contra hc
      rw [Bool.not_eq_false] at hc
      have := ID.less_of_less_of_not_less hc (by simp [h₁] : j.contentID.less i.contentID ≠ true)
      rw [h₂] at this
      cases this
    · cases hc : j.contentID.less i.contentID with
      | false => simp
      | true =>
        have := ID.less_asymm hc
        simp [this]
  · refine pairwise_lt_range.imp fun {k l} hkl x hx y hy => ?_
    simp only [mem_mergeSort, mem_filter, decide_eq_true_eq] at hx hy
    exact less_of_bucket_lt (he x hx.1) (he y hy.1) (by rw [hx.2, hy.2]; exact hkl)

end Sorted

/-- Building and opening an index of version 2 gives back the entries, and the builder does not
panic. -/
theorem v2_roundTrip (b : Builder) (n : ℕ) (hk : b.Keyed) (hn : n ≤ maxHashSize)
    (he : ∀ i ∈ b.infos, Encodable n i) :
    buildV2 b.sortedContents ≠ .error .encodingBug ∧
    ∀ out, buildV2 b.sortedContents = .ok out → out.length < 2 ^ 32 → ∀ suffix,
      ∃ ndx, openIndex (out ++ suffix) = some ndx ∧
        (∀ id i, b.lookup id = some i → ndx.getInfo id = some (some i)) ∧
        (∀ id, id.hash.length = n → b.lookup id = none → ndx.getInfo id = some none) ∧
        ndx.iterate .allIDs = some b.sortedContents ∧
        (∀ i, i ∈ b.sortedContents ↔ b.lookup i.contentID = some i) ∧
        b.sortedContents.Pairwise fun i j => i.contentID.less j.contentID = true := by
  refine ⟨buildV2_ne_encodingBug _, fun out hout hsize suffix => ?_⟩
  have hpre : ∀ i ∈ b.infos, PrefixOk i.contentID := fun i hi => (he i hi).idPrefix
  have hmem := mem_sortedContents hpre
  have he' : ∀ i ∈ b.sortedContents, Encodable n i := fun i hi => he i ((hmem i).1 hi)
  have hlookup : ∀ i, i ∈ b.sortedContents ↔ b.lookup i.contentID = some i := by
    intro i
    rw [hmem, Builder.mem_infos]
    constructor
    · rintro ⟨c, hc⟩
      rwa [hk c i hc]
    · exact fun h => ⟨_, h⟩
  obtain ⟨ib, hb, hkey, h1, rfl⟩ := buildV2_ok he' hout
  have hs := sortedContents_ascending hk hpre
  obtain ⟨ndx, hopen, ho⟩ := hb.openIndex hkey h1 hn he' hsize suffix
  refine ⟨ndx, ?_, fun id i hi => ?_, fun id hid hnone => ?_, ho.iterate hb hkey he' hn, hlookup, hs⟩
  · have hlay : layout ib b.sortedContents [] ++ suffix = layout ib b.sortedContents suffix := by
      simp only [layout, List.append_assoc, List.append_nil]
    rw [hlay]
    exact hopen
  · obtain rfl := hk id i hi
    exact ho.getInfo_mem hb hkey he' hn hs ((hlookup i).2 hi)
  · refine ho.getInfo_absent hb hkey he' hs hid fun i hi heq => ?_
    have hl := (hlookup i).1 hi
    rw [heq, hnone] at hl
    cases hl

def sampleBuilder : Builder :=
  Builder.addAll ∅
    [⟨str "p1", 7, 20000000, 100, 5, 3, ⟨107, [2, 2]⟩, true, 2, 0⟩,
      ⟨str "p2", 8, 10, 10, 6, 0, ⟨0, [9, 9]⟩, false, 2, 1⟩]

theorem v2_roundTrip_sample : ∃ out ndx, buildV2 sampleBuilder.sortedContents = .ok out ∧
    openIndex (out ++ [1, 2, 3]) = some ndx ∧
    ndx.getInfo ⟨107, [2, 2]⟩ =
      some (some ⟨str "p1", 7, 20000000, 100, 5, 3, ⟨107, [2, 2]⟩, true, 2, 0⟩) := by
  have hk : sampleBuilder.Keyed := by
    intro c i hi
    have hall : ∀ e ∈ sampleBuilder.entries, e.2.contentID = e.1 := by decide
    exact hall ⟨c, i⟩ (AList.mem_lookup_iff.1 hi)
  have he : ∀ i ∈ sampleBuilder.infos, Encodable 2 i := by
    have hall : ∀ i ∈ sampleBuilder.infos, i.contentID.hash.length = 2 ∧
        (i.contentID.pre = 0 ∨ 103 ≤ i.contentID.pre ∧ i.contentID.pre ≤ 122) ∧
        (0 ≤ i.timestampSeconds ∧ i.timestampSeconds < 2 ^ 32) ∧ i.packBlobID.length ≤ 255 ∧
        i.compressionHeaderID < 2 ^ 32 ∧ i.formatVersion < 256 ∧ i.encryptionKeyID < 256 := by
      decide
    intro i hi
    obtain ⟨h₁, h₂, h₃, h₄, h₅, h₆, h₇⟩ := hall i hi
    exact ⟨h₁, h₂, h₃, h₄, h₅, h₆, h₇⟩
  obtain ⟨out, hout, hsize⟩ : ∃ out, buildV2 sampleBuilder.sortedContents = .ok out ∧
      out.length < 2 ^ 32 := by
    have hany : (buildV2 sampleBuilder.sortedContents).toOption.any
        (fun out => decide (out.length < 2 ^ 32)) = true := by decide +kernel
    cases hb : buildV2 sampleBuilder.sortedContents with
    | error e =>
      rw [hb] at hany
      cases hany
    | ok out =>
      rw [hb] at hany
      exact ⟨out, rfl, of_decide_eq_true hany⟩
  obtain ⟨ndx, hopen, hget, -⟩ :=
    (v2_roundTrip sampleBuilder 2 hk (by decide) he).2 out hout hsize [1, 2, 3]
  exact ⟨out, ndx, hout, hopen, hget _ _ (by decide)⟩

end Warphold.Content.IndexV2
