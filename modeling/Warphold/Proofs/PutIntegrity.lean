import Warphold.Proofs.AppendOnly

/-!
# What a PUT stores

A body reaches its key only whole: the copy into the temp file stops at the declared length plus
one, so a copy of the declared length has seen the end of the stream, and at the end the digest was
compared.
-/

namespace Warphold.Gateway

open Local Strings Reader

section Body
variable {md5 : Str → Str} {want : Str} {f : Faults}

lemma whole_md5Check : ∀ (body : List (ReadAns UInt8 Unit)) (seen : Str),
    whole (md5Check md5 want seen body)
      = (whole body).filter fun b => md5 (seen ++ b) = want
  | [], seen => by
    unfold md5Check
    by_cases h : md5 seen = want <;> simp [whole, Option.filter, h]
  | ⟨d, none⟩ :: l, seen => by
    rw [md5Check, whole, whole, whole_md5Check l (seen ++ d)]
    cases whole l with
    | none => rfl
    | some b =>
      by_cases h : md5 (seen ++ (d ++ b)) = want <;> simp [Option.filter, h]
  | ⟨d, some .eof⟩ :: l, seen => by
    rw [md5Check]
    by_cases h : md5 (seen ++ d) = want <;> simp [whole, Option.filter, h]
  | ⟨d, some (.fail ())⟩ :: l, seen => rfl

lemma Local.writeTemp_eq {body : List (ReadAns UInt8 StoreErr)} {size maxSize : ℤ} {b : Str}
    (hmax : size ≤ maxSize) (hw : f.write = false) (hs : f.sync = false)
    (hb : whole body = some b) (hlen : (b.length : ℤ) = size) :
    writeTemp md5 f body size maxSize
      = ⟨.ok (b, Hex.encodeToString (md5 b)), true⟩ := by
  have hlim : (if 0 ≤ size ∧ size < maxSize then size else maxSize) = size := by
    split_ifs <;> omega
  have hc := copyLimited_of_whole hb (n := (size + 1).toNat) (by omega)
  simp only [writeTemp, hlim, hc, hw, hs]
  simp [hlen, hmax]

lemma Local.writeTemp_ok {body : List (ReadAns UInt8 StoreErr)} {size maxSize : ℤ}
    (h0 : 0 ≤ size) (hmax : size ≤ maxSize) {w : Str × Str}
    (h : (writeTemp md5 f body size maxSize).result = .ok w) :
    f.write = false ∧ f.sync = false ∧ ∃ b, whole body = some b ∧ (b.length : ℤ) = size := by
  have hlim : (if 0 ≤ size ∧ size < maxSize then size else maxSize) = size := by
    split_ifs <;> omega
  simp only [writeTemp, hlim] at h
  generalize hc : copyLimited (size + 1).toNat body = c at h
  cases he : c.err with
  | some e =>
    simp only [he] at h
    split_ifs at h
  | none =>
    simp only [he] at h
    split_ifs at h with hw h1 h2 hs
    have hlen : (c.written.length : ℤ) = size := by
      by_contra hne
      exact h2 ⟨h0, hne⟩
    have hwhole := whole_of_copyLimited (n := (size + 1).toNat) (l := body)
      (by rw [hc, he]) (by rw [hc]; omega)
    rw [hc] at hwhole
    exact ⟨by simpa using hw, by simpa using hs, _, hwhole, hlen⟩

end Body

def Tree.object (t : Tree) (device name : Str) : Option Str :=
  match t.entry device name with
  | some (.file o) => some o.bytes
  | _ => none

section Put
variable (p : Prims) (g : Config) (f : Faults) (t : Tree) (r : Request) (key : Str)
  (readOnly : Bool)

/-- What a PUT promises: success says that the object is the whole body, of the declared length and
digest, and that no other object changed; any other answer says that no object changed. -/
def PutIntegrity : Prop :=
  let device := (Strings.cut key 47).1
  let name := (Strings.cut key 47).2.1
  let after := (put p g f t r key readOnly).1
  if (put p g f t r key readOnly).2.status = 200 then
    ∃ b, Reader.whole r.body = some b ∧ after.object device name = some b ∧
      (b.length : ℤ) = r.contentLength ∧
      Base64.stdDecodeString (Mime.get r.header (str "Content-MD5")) = some (p.md5 b) ∧
      ∀ d n, (d, n) ≠ (device, name) → after.object d n = t.object d n
  else ∀ d n, after.object d n = t.object d n

/-- A request whose body is stored: it is what it declares to be, the key is free, and the calls up to
the link succeed. -/
structure Accepted : Prop where
  writer : readOnly = false
  declared : 0 ≤ r.contentLength ∧ r.contentLength ≤ g.maxBytes ∧ r.contentLength ≤ g.maxSize
  whole : ∃ b, Reader.whole r.body = some b ∧ (b.length : ℤ) = r.contentLength ∧
    Base64.stdDecodeString (Mime.get r.header (str "Content-MD5")) = some (p.md5 b) ∧
    (p.md5 b).length = 16
  goodKey : checkKey key = none
  free : t.entry (Strings.cut key 47).1 (Strings.cut key 47).2.1 = none
  fits : f.nameTooLong (Strings.cut key 47).1 = false ∧
    f.nameTooLong (Strings.cut key 47).2.1 = false
  calls : f.ctxErr = false ∧ f.createTemp = false ∧ f.write = false ∧ f.sync = false ∧
    f.mkdir = false ∧ f.link = false

variable {p g f t r key readOnly}

lemma writeError_status (status : ℕ) (code : Code) (msg : Str) :
    (writeError r status code msg).status = status := by
  unfold writeError
  split_ifs <;> rfl

lemma putResponse_error (verified : Bool) (e : StoreErr) :
    (putResponse r verified (.error e)).status ≠ 200 := by
  cases e <;> simp [putResponse, writeError_status]

lemma Local.place_spec (f : Faults) (t : Tree) (key : Str) (w : Str × Str) :
    (f.nameTooLong (cut key 47).1 = false ∧ f.nameTooLong (cut key 47).2.1 = false ∧
      f.mkdir = false ∧ f.link = false ∧
      t.entry (cut key 47).1 (cut key 47).2.1 = none) ∨
    (∀ d n, (place f t key w false).1.entry d n = t.entry d n) ∧
      ∃ e, (place f t key w false).2 = .error e := by
  by_cases h1 : f.nameTooLong (cut key 47).1 = true
  · right
    simp [place, h1]
  by_cases h2 : f.mkdir = true
  · right
    simp [place, h1, h2]
  by_cases h3 : f.nameTooLong (cut key 47).2.1 = true
  · right
    simp [place, h1, h2, h3]
  by_cases h4 : (t.entry (cut key 47).1 (cut key 47).2.1).isSome = true
  · right
    simp [place, h1, h2, h3, h4]
  by_cases h5 : f.link = true
  · right
    simp [place, h1, h2, h3, h4, h5]
  · left
    simp_all

lemma Local.put_spec (f : Faults) (t : Tree) (key : Str) (md5 : Str → Str) (maxSize : ℤ)
    (body : List (ReadAns UInt8 StoreErr)) {size : ℤ} (h0 : 0 ≤ size) :
    (f.ctxErr = false ∧ checkKey key = none ∧ size ≤ maxSize ∧ f.createTemp = false ∧
      f.write = false ∧ f.sync = false ∧
      (∃ b, whole body = some b ∧ (b.length : ℤ) = size) ∧
      f.nameTooLong (cut key 47).1 = false ∧
      f.nameTooLong (cut key 47).2.1 = false ∧ f.mkdir = false ∧ f.link = false ∧
      t.entry (cut key 47).1 (cut key 47).2.1 = none) ∨
    (∀ d n, (put md5 f maxSize t key body size false).1.entry d n = t.entry d n) ∧
      ∃ e, (put md5 f maxSize t key body size false).2.1 = .error e := by
  by_cases h1 : f.ctxErr = true
  · right
    simp [put, h1]
  by_cases h2 : checkKey key = none
  · by_cases h3 : maxSize < size
    · right
      simp [put, h1, h2, h3]
    by_cases h4 : f.createTemp = true
    · right
      simp [put, h1, h2, h3, h4]
    cases hw : (writeTemp md5 f body size maxSize).result with
    | error e =>
      right
      simp [put, h1, h2, h3, h4, hw]
    | ok w =>
      obtain ⟨hwrite, hsync, hwhole⟩ := writeTemp_ok h0 (not_lt.1 h3) hw
      rcases place_spec f t key w with hp | hp
      · left
        exact ⟨by simpa using h1, h2, not_lt.1 h3, by simpa using h4, hwrite, hsync, hwhole,
          hp.1, hp.2.1, hp.2.2.1, hp.2.2.2.1, hp.2.2.2.2⟩
      · right
        simpa [put, h1, h2, h3, h4, hw] using hp
  · right
    simp [put, h1, h2]

lemma put_accepted (h : Accepted p g f t r key readOnly) : ∃ b,
    whole r.body = some b ∧ (b.length : ℤ) = r.contentLength ∧
    Base64.stdDecodeString (Mime.get r.header (str "Content-MD5")) = some (p.md5 b) ∧
    (∀ d n, (put p g f t r key readOnly).1.object d n =
      if (cut key 47).1 = d ∧ (cut key 47).2.1 = n then some b
      else t.object d n) ∧
    ((put p g f t r key readOnly).2.status = 200 ↔ f.stat = false) := by
  obtain ⟨rfl, ⟨h0, hbytes, hsize⟩, ⟨b, hb, hlen, hmd5, h16⟩, hkey, hfree, ⟨hf1, hf2⟩,
    hctx, htemp, hwrite, hsync, hmkdir, hlink⟩ := h
  have hwhole : whole (md5Check p.md5 (p.md5 b) [] r.body) = some b := by
    rw [whole_md5Check, hb]
    simp [Option.filter]
  have hput : put p g f t r key false =
      (((t.mkdirAll (cut key 47).1).setEntry (cut key 47).1
          (cut key 47).2.1 (.file (staged f (b, Hex.encodeToString (p.md5 b))))),
        putResponse r true (if f.stat then .error .other
          else .ok ⟨key, b.length, Hex.encodeToString (p.md5 b), f.modTime⟩)) := by
    simp only [put, hmd5, h16, Local.put, hkey, hctx, htemp, deviceOverwrite,
      Local.writeTemp_eq hsize hwrite hsync hwhole hlen, Local.place, hf1, hf2, hmkdir, hlink,
      Tree.entry_mkdirAll, hfree]
    simp [not_lt.2 h0, not_lt.2 hbytes, not_lt.2 hsize]
  refine ⟨b, hb, hlen, hmd5, fun d n => ?_, ?_⟩
  · rw [hput]
    simp only [Tree.object, Tree.entry_setEntry, Tree.entry_mkdirAll]
    split_ifs <;> rfl
  · rw [hput]
    cases hst : f.stat
    · simp [putResponse]
    · simp [putResponse_error]

lemma put_refused (h : ¬ Accepted p g f t r key readOnly) :
    (put p g f t r key readOnly).2.status ≠ 200 ∧
      ∀ d n, (put p g f t r key readOnly).1.entry d n = t.entry d n := by
  cases hro : readOnly with
  | true => simp [put, writeError_status]
  | false =>
    by_cases h0 : r.contentLength < 0
    · simp [put, h0, writeError_status]
    by_cases hbytes : g.maxBytes < r.contentLength
    · simp [put, h0, hbytes, writeError_status]
    cases hmd5 : Base64.stdDecodeString (Mime.get r.header (str "Content-MD5")) with
    | none => simp [put, h0, hbytes, hmd5, writeError_status]
    | some want =>
      by_cases h16 : want.length = 16
      · have hput : put p g f t r key false =
            let res := Local.put p.md5 f g.maxSize t key (md5Check p.md5 want [] r.body)
              r.contentLength false
            (res.1, putResponse r res.2.2 res.2.1) := by
          simp [put, h0, hbytes, hmd5, h16, deviceOverwrite]
        rw [hput]
        rcases put_spec f t key p.md5 g.maxSize
          (md5Check p.md5 want [] r.body) (not_lt.1 h0) with hok | ⟨hsame, e, he⟩
        · obtain ⟨hctx, hkey, hsize, htemp, hwrite, hsync, ⟨b, hb, hlen⟩, hf1, hf2, hmkdir, hlink,
            hfree⟩ := hok
          simp only [whole_md5Check, List.nil_append, Option.filter_eq_some_iff,
            decide_eq_true_eq] at hb
          obtain ⟨hb, rfl⟩ := hb
          exact absurd ⟨hro, ⟨not_lt.1 h0, not_lt.1 hbytes, hsize⟩, ⟨b, hb, hlen, hmd5, h16⟩, hkey,
            hfree, ⟨hf1, hf2⟩, hctx, htemp, hwrite, hsync, hmkdir, hlink⟩ h
        · refine ⟨?_, hsame⟩
          simp only [he]
          exact putResponse_error _ e
      · simp [put, h0, hbytes, hmd5, h16, writeError_status]

/-- A PUT keeps its promise unless the object is stored and the `Stat` after it fails. -/
theorem putIntegrity_iff : PutIntegrity p g f t r key readOnly ↔
    ¬ (f.stat = true ∧ Accepted p g f t r key readOnly) := by
  unfold PutIntegrity
  by_cases hacc : Accepted p g f t r key readOnly
  · obtain ⟨b, hb, hlen, hmd5, hobj, hstatus⟩ := put_accepted hacc
    have hself : (put p g f t r key readOnly).1.object (cut key 47).1
        (cut key 47).2.1 = some b := by
      rw [hobj, if_pos ⟨rfl, rfl⟩]
    have hbefore : t.object (cut key 47).1 (cut key 47).2.1 = none := by
      simp [Tree.object, hacc.free]
    simp only [hstatus, hacc, and_true, Bool.not_eq_true]
    cases hst : f.stat with
    | false =>
      simp only [if_true, iff_true]
      refine ⟨b, hb, hself, hlen, hmd5, fun d n hne => ?_⟩
      rw [hobj, if_neg]
      rintro ⟨rfl, rfl⟩
      exact hne rfl
    | true =>
      simp only [Bool.true_eq_false, if_false, iff_false]
      intro hsame
      have := hsame (cut key 47).1 (cut key 47).2.1
      rw [hself, hbefore] at this
      cases this
  · obtain ⟨hstatus, hsame⟩ := put_refused hacc
    simp only [hstatus, if_false, hacc, and_false, not_false_eq_true, iff_true]
    intro d n
    simp [Tree.object, hsame]

end Put

/-- The `Stat` after the link fails: the answer is 500 and the object is there. -/
theorem put_stat_fails :
    let f := { Faults.healthy 0 with stat := true }
    let r := Request.sample (str "PUT") (str "/warphold/a/p1") []
    let res := put .sample .sample f ∅ r (str "a/p1") false
    res.2.status = 500 ∧ (∅ : Tree).object (str "a") (str "p1") = none ∧
      res.1.object (str "a") (str "p1") = some (str "ab") ∧
      ¬ PutIntegrity .sample .sample f ∅ r (str "a/p1") false := by
  intro f r res
  have hstatus : res.2.status = 500 := by decide
  have hbefore : (∅ : Tree).object (str "a") (str "p1") = none := by decide
  have hafter : res.1.object (str "a") (str "p1") = some (str "ab") := by decide
  refine ⟨hstatus, hbefore, hafter, fun h => ?_⟩
  have hsame : ∀ d n, res.1.object d n = (∅ : Tree).object d n := by
    have h' := h
    unfold PutIntegrity at h'
    rwa [if_neg (by rw [hstatus]; decide)] at h'
  have := hsame (str "a") (str "p1")
  rw [hafter, hbefore] at this
  cases this

end Warphold.Gateway
