import Warphold.Proofs.AppendOnly

/-!
# A device sees and touches only its own directory

Two stores that agree on a device's keys answer its requests alike and still agree afterwards: every
store operation a request reaches is on a key of the device's directory, or lists that directory
alone.
-/

namespace Warphold.Gateway

open List Option Tree Strings

open Std (ExtTreeMap)

/-- Two stores hold the same under a device's keys. -/
def Tree.Agree (device : Str) (t u : Tree) : Prop := ∀ name, t.entry device name = u.entry device name

section Store
variable {md5 : Str → Str} {f : Faults} {t u : Tree} {key device name : Str}

lemma Tree.Agree.mkdirAll (h : Agree device t u) (d : Str) :
    Agree device (t.mkdirAll d) (u.mkdirAll d) := by
  intro n
  simpa using h n

lemma Tree.Agree.setEntry (h : Agree device t u) (d n : Str) (e : Entry) :
    Agree device (t.setEntry d n e) (u.setEntry d n e) := by
  intro n'
  simp only [entry_setEntry, h n']

lemma Tree.Agree.removeEntry (h : Agree device t u) (d n : Str) :
    Agree device (t.removeEntry d n) (u.removeEntry d n) := by
  intro n'
  simp only [entry_removeEntry, h n']

lemma Tree.Agree.toList (h : Agree device t u) :
    ((t[device]?).map (·.toList)).getD [] = ((u[device]?).map (·.toList)).getD [] := by
  simp only [Agree, entry] at h
  have hempty : ∀ d : ExtTreeMap Str Entry, (∀ n : Str, d[n]? = none) → d = ∅ := fun d hd =>
    ExtTreeMap.ext_getElem? fun {n} => by rw [hd n]; simp
  rcases ht : t[device]? with _ | d <;> rcases hu : u[device]? with _ | d' <;>
    rw [ht, hu] at h <;> simp only [bind_none, bind_some] at h
  · rw [hempty d' fun n => (h n).symm]
    simp
  · rw [hempty d h]
    simp
  · rw [ExtTreeMap.ext_getElem? fun {n} => h n]

namespace Local

lemma listLoop_congr {d : Str}
    (h : ((t[d]?).map (·.toList)).getD [] = ((u[d]?).map (·.toList)).getD []) (name after : Str)
    (max : ℕ) : listLoop f t name after max [d] [] = listLoop f u name after max [d] [] := by
  simp only [listLoop]
  split_ifs
  · rfl
  · rcases ht : t[d]? with _ | ents <;> rcases hu : u[d]? with _ | ents' <;> rw [ht, hu] at h <;>
      simp only [map_none, map_some, getD_none, getD_some] at h
    · simp only [← h, listEnts]
    · simp only [h, listEnts]
    · simp only [h]

lemma list_congr {pre rest : Str} (h : Agree device t u) (hpre : pre = device ++ 47 :: rest)
    (hd : 47 ∉ device) (after : Str) (max : ℤ) : list f t pre after max = list f u pre after max := by
  have hcut : cut pre 47 = (device, rest, true) := hpre ▸ cut_append hd rest
  simp only [list, listDirs, hcut, ↓reduceIte]
  split_ifs
  all_goals first
    | rfl
    | simp only [bind, Except.bind, listLoop_congr h.toList]

variable (h : Tree.Agree device t u) (hkey : key = device ++ 47 :: name) (hd : 47 ∉ device)
include h hkey hd

lemma lstatObject_congr : lstatObject f t key = lstatObject f u key := by
  have hcut : cut key 47 = (device, name, true) := hkey ▸ cut_append hd name
  simp only [lstatObject, hcut, h name]

lemma openObject_congr : openObject f t key = openObject f u key := by
  simp only [openObject, lstatObject_congr h hkey hd]

lemma get_congr (offset length : ℤ) : get f t key offset length = get f u key offset length := by
  simp only [get, openObject_congr h hkey hd]

lemma head_congr : head md5 f t key = head md5 f u key := by
  simp only [head, openObject_congr h hkey hd]

lemma place_congr (w : Str × Str) (overwrite : Bool) :
    (place f t key w overwrite).2 = (place f u key w overwrite).2
      ∧ Agree device (place f t key w overwrite).1 (place f u key w overwrite).1 := by
  have hcut : cut key 47 = (device, name, true) := hkey ▸ cut_append hd name
  have hdir := h.mkdirAll device
  have hfile := hdir.setEntry device name (.file (staged f w))
  simp only [place, hcut, entry_mkdirAll, h name]
  split_ifs
  · exact ⟨rfl, h⟩
  · exact ⟨rfl, h⟩
  · exact ⟨rfl, hdir⟩
  · exact ⟨rfl, hdir⟩
  · exact ⟨rfl, hfile⟩
  · exact ⟨rfl, hfile⟩
  · exact ⟨rfl, hdir⟩
  · exact ⟨rfl, hdir⟩
  · exact ⟨rfl, hfile⟩
  · exact ⟨rfl, hfile⟩

variable (md5 f) in
lemma put_congr (maxSize size : ℤ) (body : List (ReadAns UInt8 StoreErr)) (overwrite : Bool) :
    (put md5 f maxSize t key body size overwrite).2 = (put md5 f maxSize u key body size overwrite).2
      ∧ Agree device (put md5 f maxSize t key body size overwrite).1
        (put md5 f maxSize u key body size overwrite).1 := by
  unfold put
  split_ifs
  · exact ⟨rfl, h⟩
  · exact ⟨rfl, h⟩
  · exact ⟨rfl, h⟩
  · exact ⟨rfl, h⟩
  · simp only []
    split
    · exact ⟨rfl, h⟩
    · rename_i w _
      obtain ⟨hres, hagree⟩ := place_congr (f := f) h hkey hd w overwrite
      exact ⟨by simp only [hres], hagree⟩

lemma delete_congr :
    (delete f t key).2 = (delete f u key).2
      ∧ Agree device (delete f t key).1 (delete f u key).1 := by
  simp only [delete, lstatObject_congr h hkey hd]
  split_ifs
  · exact ⟨rfl, h⟩
  · exact ⟨rfl, h⟩
  · split
    · exact ⟨rfl, h⟩
    · exact ⟨rfl, h⟩
  · split
    · exact ⟨rfl, h⟩
    · exact ⟨rfl, h.removeEntry _ _⟩

end Local

end Store

section Verbs
variable {p : Prims} {g : Config} {f : Faults} {t u : Tree} {r : Request} {key device name : Str}

lemma list_congr (h : Agree device t u) (hd : 47 ∉ device) (query : Url.Values) :
    list g f t r query (device ++ [47]) = list g f u r query (device ++ [47]) := by
  have hpre : ∀ asked : Str, ∃ rest,
      (if hasPrefix asked (device ++ [47]) then asked else device ++ [47])
        = device ++ 47 :: rest := by
    intro asked
    split_ifs with hasked
    · obtain ⟨rest, rfl⟩ := hasPrefix_iff.1 hasked
      exact ⟨rest, by simp⟩
    · exact ⟨[], rfl⟩
  obtain ⟨rest, hrest⟩ := hpre (Url.get query (str "prefix"))
  have hcollect : ∀ after maxKeys, collect f t (device ++ 47 :: rest) after maxKeys
      = collect f u (device ++ 47 :: rest) after maxKeys := by
    intro after maxKeys
    simp only [collect, Local.list_congr h rfl hd]
  simp only [list, hrest, hcollect]

lemma serveBucket_congr (h : Agree device t u) (hd : 47 ∉ device) (query : Url.Values) :
    serveBucket g f t r query (device ++ [47]) = serveBucket g f u r query (device ++ [47]) := by
  simp only [serveBucket, list_congr h hd]

variable (h : Tree.Agree device t u) (hkey : key = device ++ 47 :: name) (hd : 47 ∉ device)
include h hkey hd

lemma parseRange_congr (hdr : Str) : parseRange p f t hdr key = parseRange p f u hdr key := by
  simp only [parseRange, Local.head_congr h hkey hd]

lemma get_congr : get p f t r key = get p f u r key := by
  simp only [get, parseRange_congr h hkey hd, Local.get_congr h hkey hd]

lemma head_congr : head p f t r key = head p f u r key := by
  simp only [head, Local.head_congr h hkey hd]

lemma put_congr (readOnly : Bool) :
    (put p g f t r key readOnly).2 = (put p g f u r key readOnly).2
      ∧ Agree device (put p g f t r key readOnly).1 (put p g f u r key readOnly).1 := by
  unfold put
  split_ifs
  · exact ⟨rfl, h⟩
  · exact ⟨rfl, h⟩
  · exact ⟨rfl, h⟩
  · simp only []
    split
    · exact ⟨rfl, h⟩
    · split_ifs
      · exact ⟨rfl, h⟩
      · rename_i want _ _
        obtain ⟨hres, hagree⟩ := Local.put_congr p.md5 f h hkey hd g.maxSize
          r.contentLength (md5Check p.md5 want [] r.body) deviceOverwrite
        exact ⟨by simp only [hres], hagree⟩

lemma delete_congr (blobName : Str) (readOnly : Bool) :
    (delete f t r key blobName readOnly).2 = (delete f u r key blobName readOnly).2
      ∧ Agree device (delete f t r key blobName readOnly).1
        (delete f u r key blobName readOnly).1 := by
  obtain ⟨hres, hagree⟩ := Local.delete_congr (f := f) h hkey hd
  unfold delete
  split_ifs
  · exact ⟨rfl, h⟩
  · rcases ht : Local.delete f t key with ⟨t', e⟩
    rcases hu : Local.delete f u key with ⟨u', e'⟩
    rw [ht, hu] at hres hagree
    cases hres
    rcases e with _ | e
    · exact ⟨rfl, hagree⟩
    · cases e <;> exact ⟨rfl, hagree⟩

end Verbs

section Serve
variable {p : Prims} {g : Config} {env : Env} {t u : Tree} {r : Request} {cred : Credential}

lemma serveObject_congr {query : Url.Values} {key device name : Str}
    (h : Agree device t u) (hkey : key = device ++ 47 :: name) (hd : 47 ∉ device) :
    (serveObject p g env t r query cred key).2 = (serveObject p g env u r query cred key).2
      ∧ Agree device (serveObject p g env t r query cred key).1
        (serveObject p g env u r query cred key).1 := by
  unfold serveObject
  split_ifs
  · exact ⟨rfl, h⟩
  · exact put_congr h hkey hd _
  · exact ⟨get_congr h hkey hd, h⟩
  · exact ⟨head_congr h hkey hd, h⟩
  · exact delete_congr h hkey hd _ _
  · exact ⟨rfl, h⟩
  · exact ⟨rfl, h⟩

lemma serveAs_congr (hpre : cred.pre = cred.agentID ++ [47])
    (hd : 47 ∉ cred.agentID) (h : Agree cred.agentID t u) :
    (serveAs p g env t r cred).2 = (serveAs p g env u r cred).2
      ∧ Agree cred.agentID (serveAs p g env t r cred).1 (serveAs p g env u r cred).1 := by
  unfold serveAs
  simp only []
  repeat' split
  all_goals try exact ⟨rfl, h⟩
  · exact ⟨by rw [hpre]; exact serveBucket_congr h hd _, h⟩
  · rename_i full hfull
    obtain ⟨rfl, -, name, hname⟩ := normalizeKey_ok hfull
    have hkey : (bucketKey r).2 = cred.agentID ++ 47 :: name := by
      rw [← hname, hpre, append_assoc, singleton_append]
    exact serveObject_congr h hkey hd

lemma serve_other {akid : Str}
    (hauth : authenticate p g env r = .ok (akid, cred)) {device : Str} (hne : device ≠ cred.agentID)
    (name : Str) : (serve p g env t r).1.entry device name = t.entry device name := by
  rcases serve_cases p g env t r with
    hs | ⟨akid', cred', name', hauth', -, heff⟩
  · rw [hs]
  · rw [hauth] at hauth'
    cases hauth'
    have hne' : ¬ (cred.agentID = device ∧ name' = name) := fun h => hne h.1.symm
    rcases heff with heff | ⟨-, ⟨-, heff | ⟨o, -, heff⟩⟩ | ⟨-, -, -, heff⟩⟩ <;> rw [heff]
    · rw [entry_mkdirAll]
    · rw [entry_setEntry, if_neg hne', entry_mkdirAll]
    · rw [entry_removeEntry, if_neg hne']

end Serve

section Mix
variable (p : Prims) (g : Config) (device : Str)

/-- Whether the request authenticates as the device. -/
def sentBy (c : Env × Request) : Bool :=
  match authenticate p g c.1 c.2 with
  | .ok (_, cred) => cred.agentID = device
  | .error _ => false

/-- What a device is answered in a run of requests of any devices. -/
def answers : Tree → List (Env × Request) → List Response
  | _, [] => []
  | t, c :: calls =>
    let (t', resp) := serve p g c.1 t c.2
    if sentBy p g device c then resp :: answers t' calls else answers t' calls

variable {p g device} {t u : Tree} {c : Env × Request}

lemma serve_sent (h : Agree device t u) (hs : sentBy p g device c = true) :
    (serve p g c.1 t c.2).2 = (serve p g c.1 u c.2).2
      ∧ Agree device (serve p g c.1 t c.2).1 (serve p g c.1 u c.2).1 := by
  unfold sentBy at hs
  split at hs
  · next akid cred hauth =>
    obtain rfl : cred.agentID = device := by simpa using hs
    obtain ⟨-, hpre, hd⟩ := authenticate_ok hauth
    simp only [serve, hauth]
    split_ifs
    · exact ⟨rfl, h⟩
    · exact ⟨rfl, h⟩
    · exact ⟨rfl, h⟩
    · exact serveAs_congr hpre hd h
  · cases hs

lemma serve_unsent (hs : sentBy p g device c = false) (name : Str) :
    (serve p g c.1 t c.2).1.entry device name = t.entry device name := by
  rcases serve_cases p g c.1 t c.2 with h | ⟨akid, cred, -, hauth, -⟩
  · rw [h]
  · refine serve_other hauth (fun heq => ?_) name
    simp [sentBy, hauth, heq] at hs

lemma run_purged (calls : List (Env × Request)) (h : Agree device t u) :
    answers p g device t calls = answers p g device u (calls.filter (sentBy p g device))
      ∧ Agree device (run p g t calls) (run p g u (calls.filter (sentBy p g device))) := by
  induction calls generalizing t u with
  | nil => exact ⟨rfl, h⟩
  | cons c calls ih =>
    by_cases hs : sentBy p g device c = true
    · obtain ⟨hresp, hagree⟩ := serve_sent h hs
      obtain ⟨hrest, hrun⟩ := ih hagree
      rw [filter_cons_of_pos hs]
      exact ⟨by simp [answers, hs, hresp, hrest], hrun⟩
    · obtain ⟨hrest, hrun⟩ := ih fun name =>
        (serve_unsent (by simpa using hs) name).trans (h name)
      rw [filter_cons_of_neg hs]
      exact ⟨by simp [answers, hs, hrest], hrun⟩

end Mix

end Warphold.Gateway
