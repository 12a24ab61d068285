import Warphold.Object.Reader

/-!
# Verifying an object finds everything reading it asks for

`Verified cr S o` says what a successful walk leaves behind: the contents of `o` are in `S`, and if
`o` is indirect, those of its index object and of everything that lists.
-/

namespace Warphold.Object

open Traced List Option ObjectReader

variable {κ : Type*}

section Budget

structure Access.Below (a b : Access κ) : Prop where
  fuel : a.fuel ≤ b.fuel
  load : ∀ o, (a.loadIndexObject o).Below (b.loadIndexObject o)
  fetch : ∀ st, (a.fetchChunk st).Below (b.fetchChunk st)

variable {a b : Access κ} (cr : ContentReader κ)

lemma Access.Below.openAndAssertLength (h : a.Below b) (o : ID κ) (len : Int) :
    (openAndAssertLength cr a o len).Below (openAndAssertLength cr b o len) := by
  unfold Object.openAndAssertLength
  split
  · exact (h.load _).thenOk fun _ => .refl _
  · exact .refl _

lemma Access.Below.readLoop (h : a.Below b) : ∀ {n m : Nat}, n ≤ m →
    ∀ (r : ObjectReader κ) (remaining : Nat) (buffer : Bytes),
      (readLoop a n r remaining buffer).Below
        (readLoop b m r remaining buffer)
  | 0, _, _, _, _, _ => stop_below _
  | n + 1, 0, hnm, _, _, _ => absurd hnm (by omega)
  | n + 1, m + 1, hnm, r, remaining, buffer => by
    have ih := h.readLoop (Nat.le_of_succ_le_succ hnm)
    unfold ObjectReader.readLoop
    split_ifs
    · exact .refl _
    · rcases r.currentChunkData with _ | chunk
      · rcases r.seekTable[r.currentChunkIndex]? with _ | st
        · exact .refl _
        · refine (h.fetch st).bind fun res => ?_
          rcases res with e | c
          · exact .refl _
          · exact ih _ _ _
      · dsimp only
        split_ifs
        · exact ih _ _ _
        · exact ih _ _ _

lemma Access.Below.read (h : a.Below b) (n : Nat) (r : Reader κ) :
    (r.read a n).Below (r.read b n) := by
  rcases r with ⟨payload, pos⟩ | r
  · exact .refl _
  · refine Below.bind ?_ fun _ => .refl _
    unfold ObjectReader.read
    split_ifs
    · exact .refl _
    · exact (h.readLoop h.fuel _ _ _).bind fun _ => .refl _

lemma Access.Below.readFull (h : a.Below b) : ∀ {n m : Nat}, n ≤ m →
    ∀ (rd : Reader κ) (remaining : Nat) (buffer : Bytes),
      (readFull a n rd remaining buffer).Below (readFull b m rd remaining buffer)
  | 0, _, _, _, _, _ => stop_below _
  | n + 1, 0, hnm, _, _, _ => absurd hnm (by omega)
  | n + 1, m + 1, hnm, rd, remaining, buffer => by
    have ih := h.readFull (Nat.le_of_succ_le_succ hnm)
    unfold Object.readFull
    by_cases h0 : remaining = 0
    · simp only [if_pos h0]
      exact .refl _
    · simp only [if_neg h0]
      refine (h.read _ _).bind fun res => ?_
      rcases res with ⟨rd', e | c⟩
      · cases e <;> exact .refl _
      · exact ih _ _ _

lemma Access.Below.decodeLoop (h : a.Below b) : ∀ {n m : Nat}, n ≤ m →
    ∀ (r : Reader κ) (buffer : Bytes),
      (decodeLoop a cr n r buffer).Below (decodeLoop b cr m r buffer)
  | 0, _, _, _, _ => stop_below _
  | n + 1, 0, hnm, _, _ => absurd hnm (by omega)
  | n + 1, m + 1, hnm, r, buffer => by
    have ih := h.decodeLoop (Nat.le_of_succ_le_succ hnm)
    unfold Object.decodeLoop
    rcases cr.decode buffer with k | l | _
    · refine (h.read _ _).bind fun res => ?_
      rcases res with ⟨r', e | c⟩
      · cases e <;> exact .refl _
      · exact ih _ _
    · exact .refl _
    · exact .refl _

lemma Access.Below.loadIndexObject (h : a.Below b) (o : ID κ) :
    (Object.loadIndexObject a cr o).Below (Object.loadIndexObject b cr o) :=
  (h.openAndAssertLength cr o _).thenOk fun _ => h.decodeLoop cr h.fuel _ _

lemma Access.Below.openCurrentChunk (h : a.Below b) (st : IndirectObjectEntry κ) :
    (openCurrentChunk a cr st).Below (openCurrentChunk b cr st) := by
  refine (h.openAndAssertLength cr _ _).thenOk fun rd => ?_
  split_ifs
  · exact .refl _
  · exact h.readFull h.fuel _ _ _

lemma access_below : ∀ {n m : Nat}, n ≤ m → (access cr n).Below (access cr m)
  | 0, m, _ => ⟨Nat.zero_le _, fun _ => stop_below _, fun _ => stop_below _⟩
  | n + 1, 0, h => absurd h (by omega)
  | n + 1, m + 1, h =>
    have ih := access_below (Nat.le_of_succ_le_succ h)
    ⟨h, ih.loadIndexObject cr, ih.openCurrentChunk cr⟩

lemma load_unique {n m : Nat} {o : ID κ} {t t' : List (IndirectObjectEntry κ)}
    (h : ((access cr n).loadIndexObject o).result = some (.ok t))
    (h' : ((access cr m).loadIndexObject o).result = some (.ok t')) : t = t' := by
  have h₁ := (access_below cr (Nat.le_max_left n m)).load o _ h
  have h₂ := (access_below cr (Nat.le_max_right n m)).load o _ h'
  rw [h₁] at h₂
  simpa using h₂

end Budget

section Walk

variable (cr : ContentReader κ) (S : Set κ)

inductive Verified : ID κ → Prop where
  | direct {o : ID κ} : o.indexObjectID = none → o.cid ∈ S → Verified o
  | indirect {o ix : ID κ} {n : Nat} {table : List (IndirectObjectEntry κ)} :
    o.indexObjectID = some ix → Verified ix →
    ((access cr n).loadIndexObject ix).result = some (.ok table) →
    (∀ e ∈ table, Verified e.object) → Verified o

/-- What a reader can come to fetch. -/
def Reader.Sound : Reader κ → Prop
  | .data _ _ => True
  | .object r => ∀ e ∈ r.seekTable, Verified cr S e.object

/-- The calls further down keep to `S` on objects that were walked. -/
structure Access.Sound (a : Access κ) : Prop where
  load : ∀ o, Verified cr S o → (a.loadIndexObject o).Keeps S fun _ => True
  table : ∀ o t, (a.loadIndexObject o).result = some (.ok t) →
    ∃ n, ((access cr n).loadIndexObject o).result = some (.ok t)
  fetch : ∀ st, Verified cr S st.object → (a.fetchChunk st).Keeps S fun _ => True

variable {cr S} {a : Access κ}

variable {o : ID κ}

lemma newRawReader_keeps (hc : o.cid ∈ S) (len : Int) :
    (newRawReader cr o len).Keeps S (OnOk (Reader.Sound cr S)) := by
  unfold newRawReader
  rcases hcid : o.contentID with _ | ⟨c, compressed⟩
  · exact keeps_ret onOk_error
  · have hcS : c ∈ S := by
      unfold ID.contentID at hcid
      split_ifs at hcid
      simp only [some.injEq, Prod.mk.injEq] at hcid
      rw [← hcid.1]
      exact hc
    refine (keeps_request (P := fun _ => True) hcS trivial).bind fun res _ => ?_
    rcases res with e | payload
    · rcases e <;> exact keeps_ret onOk_error
    · dsimp only
      split
      · exact keeps_ret onOk_error
      · refine keeps_ret ?_
        split_ifs
        · exact onOk_error
        · exact onOk_ok trivial

lemma Access.Sound.openAndAssertLength (h : a.Sound cr S) (ho : Verified cr S o) (len : Int) :
    (openAndAssertLength cr a o len).Keeps S (OnOk (Reader.Sound cr S)) := by
  unfold Object.openAndAssertLength
  cases ho with
  | direct hix hc =>
    simp only [hix]
    exact newRawReader_keeps hc len
  | @indirect _ ix n table hix hv hload hall =>
    simp only [hix]
    have hk : (a.loadIndexObject ix).Keeps S (OnOk (· = table)) := by
      refine ⟨(h.load ix hv).1, fun res hres t ht => ?_⟩
      subst ht
      obtain ⟨m, hm⟩ := h.table ix t hres
      exact load_unique cr hm hload
    refine hk.thenOk fun t ht => ?_
    subst ht
    rcases t.getLast? with _ | last
    · exact keeps_stop
    · exact keeps_ret (onOk_ok hall)

lemma readLoop_keeps (hfetch : ∀ st, Verified cr S st.object →
      (a.fetchChunk st).Keeps S fun _ => True) :
    ∀ (n : Nat) (r : ObjectReader κ) (remaining : Nat) (buffer : Bytes),
      Reader.Sound cr S (.object r) →
      (readLoop a n r remaining buffer).Keeps S fun p => Reader.Sound cr S (.object p.1)
  | 0, _, _, _, _ => keeps_stop
  | n + 1, r, remaining, buffer, hr => by
    have ih := readLoop_keeps hfetch n
    unfold readLoop
    split_ifs
    · exact keeps_ret hr
    · rcases r.currentChunkData with _ | chunk
      · rcases hst : r.seekTable[r.currentChunkIndex]? with _ | st
        · exact keeps_ret hr
        · refine (hfetch st (hr st (mem_of_getElem? hst))).bind fun res _ => ?_
          rcases res with e | c
          · exact keeps_ret hr
          · exact ih _ _ _ hr
      · dsimp only
        split_ifs
        · exact ih _ _ _ hr
        · exact ih _ _ _ hr

lemma Access.Sound.read (h : a.Sound cr S) (n : Nat) {r : Reader κ} (hr : r.Sound cr S) :
    (r.read a n).Keeps S fun p => p.1.Sound cr S := by
  rcases r with ⟨payload, pos⟩ | r
  · unfold Reader.read
    dsimp only
    split_ifs
    · exact keeps_ret trivial
    · exact keeps_ret trivial
  · have hread : (r.read a n).Keeps S fun p => Reader.Sound cr S (.object p.1) := by
      unfold ObjectReader.read
      split_ifs
      · exact keeps_ret hr
      · refine (readLoop_keeps h.fetch _ _ _ _ hr).bind fun p hp => ?_
        split
        · exact keeps_ret hp
        · exact keeps_ret hp
    exact hread.bind fun p hp => keeps_ret hp

lemma Access.Sound.readFull (h : a.Sound cr S) : ∀ (n : Nat) (rd : Reader κ) (remaining : Nat)
    (buffer : Bytes), rd.Sound cr S → (readFull a n rd remaining buffer).Keeps S fun _ => True
  | 0, _, _, _, _ => keeps_stop
  | n + 1, rd, remaining, buffer, hrd => by
    unfold Object.readFull
    by_cases h0 : remaining = 0
    · simp only [if_pos h0]
      exact keeps_ret trivial
    · simp only [if_neg h0]
      refine (h.read _ hrd).bind fun p hp => ?_
      rcases p with ⟨rd', e | c⟩
      · cases e <;> exact keeps_ret trivial
      · exact h.readFull n _ _ _ hp

lemma Access.Sound.decodeLoop (h : a.Sound cr S) : ∀ (n : Nat) (r : Reader κ) (buffer : Bytes),
    r.Sound cr S → (decodeLoop a cr n r buffer).Keeps S fun _ => True
  | 0, _, _, _ => keeps_stop
  | n + 1, r, buffer, hr => by
    unfold Object.decodeLoop
    rcases cr.decode buffer with k | l | _
    · refine (h.read _ hr).bind fun p hp => ?_
      rcases p with ⟨r', e | c⟩
      · cases e <;> exact keeps_ret trivial
      · exact h.decodeLoop n _ _ hp
    · exact keeps_ret trivial
    · exact keeps_ret trivial

lemma keeps_true_thenOk {α β : Type*} {P : α → Prop} {m : Op κ α} {f : α → Op κ β}
    (hm : m.Keeps S (OnOk P)) (hf : ∀ x, P x → (f x).Keeps S fun _ => True) :
    (m.thenOk f).Keeps S fun _ => True :=
  (hm.thenOk (Q := fun _ => True) fun x hx => (hf x hx).imp fun _ _ _ _ => trivial).imp
    fun _ _ => trivial

lemma access_sound : ∀ n : Nat, (access cr n).Sound cr S
  | 0 =>
    { load := fun _ _ => keeps_stop
      table := fun _ _ h => ⟨0, h⟩
      fetch := fun _ _ => keeps_stop }
  | n + 1 =>
    have ih := access_sound n
    { load := fun o ho => keeps_true_thenOk (ih.openAndAssertLength ho _)
        fun r hr => ih.decodeLoop _ r _ hr
      table := fun _ _ h => ⟨n + 1, h⟩
      fetch := fun st hst => keeps_true_thenOk (ih.openAndAssertLength hst _) fun rd hrd => by
        split_ifs
        · exact keeps_stop
        · exact ih.readFull _ _ _ _ hrd }

lemma Access.Sound.seekTo (h : a.Sound cr S) {r : ObjectReader κ}
    (hr : Reader.Sound cr S (.object r)) (offset : Int) :
    (r.seekTo a offset).Keeps S fun p => Reader.Sound cr S (.object p.1) := by
  unfold ObjectReader.seekTo
  split_ifs
  · exact keeps_ret hr
  · rcases r.findChunkIndexForOffset offset with e | index
    · exact keeps_ret hr
    · dsimp only
      rcases hst : r.seekTable[index]? with _ | st
      · exact keeps_stop
      · dsimp only
        have hsound : Reader.Sound cr S (.object (if index ≠ r.currentChunkIndex then
            { r with currentChunkData := none, currentChunkIndex := index } else r)) := by
          split_ifs
          · exact hr
          · exact hr
        generalize (if index ≠ r.currentChunkIndex then
            { r with currentChunkData := none, currentChunkIndex := index } else r) = r' at hsound ⊢
        rcases r'.currentChunkData with _ | chunk
        · refine (h.fetch st (hr st (mem_of_getElem? hst))).bind fun res _ => ?_
          rcases res with e | c
          · exact keeps_ret hsound
          · exact keeps_ret hsound
        · exact keeps_ret hsound

lemma Access.Sound.seek (h : a.Sound cr S) {r : Reader κ} (hr : r.Sound cr S) (offset : Int)
    (whence : Whence) : (r.seek a offset whence).Keeps S fun p => p.1.Sound cr S := by
  rcases r with ⟨payload, pos⟩ | r
  · unfold Reader.seek
    dsimp only
    split_ifs
    · exact keeps_ret trivial
    · exact keeps_ret trivial
  · exact (h.seekTo hr _).bind fun p hp => keeps_ret hp

lemma Access.Sound.uses (h : a.Sound cr S) : ∀ (us : List Use) {r : Reader κ}, r.Sound cr S →
    (r.uses a us).Keeps S fun r' => r'.Sound cr S
  | [], _, hr => keeps_ret hr
  | .read n :: us, _, hr => (h.read n hr).bind fun _ hp => h.uses us hp
  | .seek offset whence :: us, _, hr => (h.seek hr offset whence).bind fun _ hp => h.uses us hp

lemma Verified.session (ho : Verified cr S o) (n : Nat) (us : List Use) :
    (session cr n o us).Keeps S fun _ => True :=
  keeps_true_thenOk ((access_sound n).openAndAssertLength ho _) fun _ hr =>
    ((access_sound n).uses us hr).bind fun _ _ => keeps_ret trivial

lemma Verified.mono {T : Set κ} (hST : S ⊆ T) (ho : Verified cr S o) : Verified cr T o := by
  induction ho with
  | direct hix hc => exact .direct hix (hST hc)
  | indirect hix _ hload _ ihx ihall => exact .indirect hix ihx hload ihall

end Walk

section Verify

variable {cr : ContentReader κ}

/-- What is tracked stays tracked, everything new has an index entry, and `o` was walked. -/
structure Walked (cr : ContentReader κ) (o : ID κ) (before after : List κ) : Prop where
  grows : before ⊆ after
  indexed : ∀ c ∈ after, c ∈ before ∨ cr.contentInfo c = .ok ()
  verified : Verified cr {c | c ∈ after} o

lemma iterateEntries_ok {visit : ID κ → List κ → Op κ (List κ)}
    (hvisit : ∀ o t t', (visit o t).result = some (.ok t') → Walked cr o t t') :
    ∀ (entries : List (IndirectObjectEntry κ)) {t t' : List κ},
      (iterateEntries visit entries t).result = some (.ok t') →
      t ⊆ t' ∧ (∀ c ∈ t', c ∈ t ∨ cr.contentInfo c = .ok ()) ∧
        ∀ e ∈ entries, Verified cr {c | c ∈ t'} e.object
  | [], t, t', h => by
    simp only [iterateEntries, ret, some.injEq, Except.ok.injEq] at h
    subst h
    exact ⟨fun _ hc => hc, fun _ hc => .inl hc, by simp⟩
  | m :: rest, t, t', h => by
    obtain ⟨t₁, h₁, h₂⟩ := result_thenOk_eq_ok.mp h
    have hm := hvisit _ _ _ h₁
    obtain ⟨hsub, hidx, hrest⟩ := iterateEntries_ok hvisit rest h₂
    refine ⟨fun c hc => hsub (hm.grows hc), fun c hc => ?_, fun e he => ?_⟩
    · rcases hidx c hc with hc | hc
      · exact hm.indexed c hc
      · exact .inr hc
    · rcases mem_cons.mp he with rfl | he
      · exact hm.verified.mono hsub
      · exact hrest e he

lemma contentID_of_direct {o : ID κ} (h : o.indexObjectID = none) :
    o.contentID = some (o.cid, o.compression) := by
  unfold ID.indexObjectID at h
  split at h
  · rename_i h0
    simp [ID.contentID, h0]
  · cases h

variable [DecidableEq κ]

lemma iterateBackingContents_ok : ∀ (n : Nat) {o : ID κ} {t t' : List κ},
    (iterateBackingContents cr n o t).result = some (.ok t') → Walked cr o t t'
  | 0, _, _, _, h => by simp [iterateBackingContents, stop] at h
  | n + 1, o, t, t', h => by
    unfold iterateBackingContents at h
    rcases hix : o.indexObjectID with _ | ix
    · simp only [hix, contentID_of_direct hix] at h
      rcases hinfo : cr.contentInfo o.cid with e | _
      · simp [hinfo, ret] at h
      · simp only [hinfo, ret, some.injEq, Except.ok.injEq] at h
        subst h
        refine ⟨subset_insert _ _, fun c hc => ?_, .direct hix (mem_insert_self)⟩
        rcases mem_insert_iff.mp hc with rfl | hc
        · exact .inr hinfo
        · exact .inl hc
    · simp only [hix] at h
      obtain ⟨t₁, h₁, h⟩ := result_thenOk_eq_ok.mp h
      obtain ⟨table, htable, h₂⟩ := result_thenOk_eq_ok.mp h
      have hw := iterateBackingContents_ok n h₁
      obtain ⟨hsub, hidx, hall⟩ :=
        iterateEntries_ok (fun _ _ _ h => iterateBackingContents_ok n h) table h₂
      refine ⟨fun c hc => hsub (hw.grows hc), fun c hc => ?_,
        .indirect hix (hw.verified.mono hsub) htable hall⟩
      rcases hidx c hc with hc | hc
      · exact hw.indexed c hc
      · exact .inr hc

/-- If verification succeeds, no way of reading the object asks for a content it did not return, and
every content it returned has an index entry. -/
theorem verifyObject_complete (cr : ContentReader κ) (o : ID κ) (n : Nat) (contents : List κ)
    (h : (verifyObject cr n o).result = some (.ok contents)) :
    (∀ (m : Nat) (us : List Use), ∀ c ∈ (session cr m o us).requests, c ∈ contents) ∧
      ∀ c ∈ contents, cr.contentInfo c = .ok () := by
  have hw := iterateBackingContents_ok n h
  refine ⟨fun m us => (hw.verified.session m us).1, fun c hc => ?_⟩
  rcases hw.indexed c hc with hc | hc
  · cases hc
  · exact hc

def twoChunks : ContentReader Nat where
  getContent c := match c with
    | 0 => .ok [9]
    | 1 => .ok [5, 6]
    | 2 => .ok [7]
    | _ => .error .contentNotFound
  contentInfo c := if c < 3 then .ok () else .error .contentNotFound
  decompressByHeader _ := none
  decode b := match b with
    | [] => .more 1
    | _ => .entries [⟨0, 2, ⟨1, 0, false⟩⟩, ⟨2, 1, ⟨2, 0, false⟩⟩]
  decodeAtEOF _ := none

theorem verifyObject_complete_twoChunks :
    (session twoChunks 6 ⟨0, 1, false⟩ [.read 3, .seek 0 .start]).requests = [0, 1, 2, 1] ∧
      ∃ contents, (verifyObject twoChunks 4 ⟨0, 1, false⟩).result = some (.ok contents) ∧
        (∀ m us, ∀ c ∈ (session twoChunks m ⟨0, 1, false⟩ us).requests, c ∈ contents) ∧
        ∀ c ∈ contents, twoChunks.contentInfo c = .ok () := by
  have hv : (verifyObject twoChunks 4 ⟨0, 1, false⟩).result = some (.ok [2, 1, 0]) := by rfl
  exact ⟨by rfl, [2, 1, 0], hv, verifyObject_complete twoChunks _ 4 _ hv⟩

end Verify

end Warphold.Object
