import Warphold.Gateway.Handler
import Warphold.Proofs.Canonical

/-!
# The gateway only appends

A request changes the store in one of three ways (`serve_cases`): it creates its device's directory,
it creates an object under a free key, or it deletes one session marker; the last two only with a
read-write credential of the device the key belongs to.
-/

namespace Warphold.Gateway

open List Local Strings

/-- A session marker's name: `s` and at least sixteen hexadecimal digits, then anything. -/
def SessionMarker (name : Str) : Prop :=
  ∃ digits rest : Str, name = 115 :: (digits ++ rest) ∧ 16 ≤ digits.length
    ∧ ∀ c ∈ digits, lowerHexByte c = true

lemma allowDelete_iff {name : Str} : allowDelete name = true ↔ SessionMarker name := by
  constructor
  · intro h
    unfold allowDelete at h
    split at h
    · rename_i rest
      refine ⟨rest.takeWhile lowerHexByte, rest.dropWhile lowerHexByte, ?_, by simpa using h, ?_⟩
      · rw [takeWhile_append_dropWhile]
      · exact fun c hc => mem_takeWhile_imp hc
    · cases h
  · rintro ⟨digits, rest, rfl, hlen, hdigits⟩
    simp only [allowDelete, decide_eq_true_eq, takeWhile_append_of_pos hdigits,
      length_append]
    omega

section Store
variable {md5 : Str → Str} {f : Faults} {t t' : Tree} {key device name : Str}

variable (hkey : key = device ++ 47 :: name) (hd : 47 ∉ device)
include hkey hd

lemma Local.place_cases {w : Str × Str}
    {res : Except StoreErr ObjectInfo} (h : place f t key w false = (t', res)) :
    t' = t ∨ t' = t.mkdirAll device
      ∨ ∃ o, t.entry device name = none
        ∧ t' = (t.mkdirAll device).setEntry device name (.file o) := by
  have hcut : cut key 47 = (device, name, true) := hkey ▸ cut_append hd name
  simp only [place, hcut, Tree.entry_mkdirAll, Bool.false_eq_true, ↓reduceIte] at h
  split_ifs at h with h1 h2 h3 h4 <;> simp only [Prod.mk.injEq] at h <;> obtain ⟨rfl, -⟩ := h
  · exact .inl rfl
  · exact .inl rfl
  · exact .inr (.inl rfl)
  · exact .inr (.inl rfl)
  · exact .inr (.inl rfl)
  · exact .inr (.inr ⟨_, by simpa using h4, rfl⟩)
  · exact .inr (.inr ⟨_, by simpa using h4, rfl⟩)

lemma Local.put_cases {maxSize size : ℤ}
    {body : List (ReadAns UInt8 StoreErr)} {res : Except StoreErr ObjectInfo × Bool}
    (h : put md5 f maxSize t key body size false = (t', res)) :
    t' = t ∨ t' = t.mkdirAll device
      ∨ ∃ o, t.entry device name = none
        ∧ t' = (t.mkdirAll device).setEntry device name (.file o) := by
  unfold put at h
  split_ifs at h
  · cases h
    exact .inl rfl
  · cases h
    exact .inl rfl
  · cases h
    exact .inl rfl
  · cases h
    exact .inl rfl
  · simp only [] at h
    split at h
    · cases h
      exact .inl rfl
    · cases h
      exact place_cases hkey hd rfl

lemma Local.lstatObject_ok {o : Obj}
    (h : lstatObject f t key = .ok o) : t.entry device name = some (.file o) := by
  have hcut : cut key 47 = (device, name, true) := hkey ▸ cut_append hd name
  simp only [lstatObject, hcut] at h
  split_ifs at h
  rcases he : t.entry device name with _ | (o' | b) <;> rw [he] at h <;> cases h
  rfl

lemma Local.delete_cases {e : Option StoreErr} (h : delete f t key = (t', e)) :
    t' = t ∨ (∃ o, t.entry device name = some (.file o)) ∧ t' = t.removeEntry device name := by
  have hcut : cut key 47 = (device, name, true) := hkey ▸ cut_append hd name
  simp only [delete, hcut] at h
  split_ifs at h
  · cases h
    exact .inl rfl
  · cases h
    exact .inl rfl
  all_goals
    rcases hl : lstatObject f t key with err | o <;> rw [hl] at h <;> cases h
  · exact .inl rfl
  · exact .inl rfl
  · exact .inl rfl
  · exact .inr ⟨⟨o, lstatObject_ok hkey hd hl⟩, rfl⟩

end Store

lemma checkKey_append {a b : Str} (h : checkKey (a ++ 47 :: b) = none) :
    47 ∉ a ∧ 47 ∉ b ∧ a ≠ tmpDir := by
  obtain ⟨device, name, hkey, hd, hn, -, -, htmp⟩ := checkKey_none h
  have ha : 47 ∉ a := by
    intro ha
    obtain ⟨x, y, rfl, hx⟩ := eq_append_cons_of_mem ha
    have hcut := cut_append hx (y ++ 47 :: b)
    rw [← cons_append, ← append_assoc, hkey, cut_append hd name] at hcut
    simp only [Prod.mk.injEq] at hcut
    exact hn (by simp [hcut.2.1])
  have hcut := cut_append ha b
  rw [hkey, cut_append hd name] at hcut
  simp only [Prod.mk.injEq, and_true] at hcut
  obtain ⟨rfl, rfl⟩ := hcut
  exact ⟨hd, hn, htmp⟩

section Serve
variable {p : Prims} {g : Config} {env : Env} {t t' : Tree} {r : Request} {cred : Credential}
  {key device name : Str}

/-- A credential a request is authenticated with is one the key table holds, confined to the
directory of its agent. -/
lemma authenticate_ok {akid : Str}
    (h : authenticate p g env r = .ok (akid, cred)) :
    env.lookup akid = some cred ∧ cred.pre = cred.agentID ++ [47] ∧ 47 ∉ cred.agentID := by
  obtain ⟨q, -, -, hlook, -⟩ := SigV4.verify_ok h
  simp only [look, Option.filter_eq_some_iff, decide_eq_true_eq] at hlook
  obtain ⟨hl, hpre, hcheck⟩ := hlook
  rw [hpre, append_assoc, singleton_append] at hcheck
  exact ⟨hl, hpre, (checkKey_append hcheck).1⟩

/-- What a verb does to the tree: nothing, or it makes the device's directory, or it creates the
object, or it deletes it as a session marker. -/
def Effect (r : Request) (cred : Credential) (device name : Str) (t t' : Tree) : Prop :=
  t' = t ∨ cred.readOnly = false ∧
    (r.method = str "PUT" ∧ (t' = t.mkdirAll device
        ∨ ∃ o, t.entry device name = none ∧ t' = (t.mkdirAll device).setEntry device name (.file o))
      ∨ r.method = str "DELETE" ∧ SessionMarker name ∧ (∃ o, t.entry device name = some (.file o))
        ∧ t' = t.removeEntry device name)

variable {resp : Response}

lemma put_effect (hkey : key = device ++ 47 :: name)
    (hd : 47 ∉ device) (hm : r.method = str "PUT")
    (h : put p g env.faults t r key cred.readOnly = (t', resp)) :
    Effect r cred device name t t' := by
  unfold put at h
  split_ifs at h with hro
  · cases h
    exact .inl rfl
  · cases h
    exact .inl rfl
  · cases h
    exact .inl rfl
  · simp only [] at h
    split at h
    · cases h
      exact .inl rfl
    · split_ifs at h
      · cases h
        exact .inl rfl
      · cases h
        rcases put_cases hkey hd rfl with h | h | h
        · exact .inl h
        · exact .inr ⟨by simpa using hro, .inl ⟨hm, .inl h⟩⟩
        · exact .inr ⟨by simpa using hro, .inl ⟨hm, .inr h⟩⟩

lemma delete_effect (hkey : key = device ++ 47 :: name)
    (hd : 47 ∉ device) (hm : r.method = str "DELETE")
    (h : delete env.faults t r key name cred.readOnly = (t', resp)) :
    Effect r cred device name t t' := by
  unfold delete at h
  split_ifs at h with hro
  · cases h
    exact .inl rfl
  · simp only [Bool.or_eq_true, Bool.not_eq_true', not_or, Bool.not_eq_true,
      Bool.not_eq_false] at hro
    rcases hdel : Local.delete env.faults t key with ⟨t₁, e⟩
    have ht : t' = t₁ := by
      rw [hdel] at h
      split at h <;> simp_all
    rcases delete_cases hkey hd hdel with h | ⟨ho, h⟩
    · exact .inl (ht.trans h)
    · exact .inr ⟨hro.1, .inr ⟨hm, allowDelete_iff.1 hro.2, ho, ht.trans h⟩⟩

lemma serveObject_effect {query : Url.Values}
    (hkey : key = device ++ 47 :: name) (hd : 47 ∉ device) (hpre : cred.pre = device ++ [47])
    (h : serveObject p g env t r query cred key = (t', resp)) :
    Effect r cred device name t t' := by
  have hname : trimPrefix key cred.pre = name := by
    rw [hkey, hpre, append_cons]
    exact trimPrefix_append _ _
  simp only [serveObject, hname] at h
  split_ifs at h with hput
  · cases h
    exact .inl rfl
  · exact put_effect hkey hd hput h
  · cases h
    exact .inl rfl
  · cases h
    exact .inl rfl
  · exact delete_effect hkey hd ‹_› h
  · cases h
    exact .inl rfl
  · cases h
    exact .inl rfl

lemma serveAs_cases (hpre : cred.pre = cred.agentID ++ [47])
    (hd : 47 ∉ cred.agentID) (h : serveAs p g env t r cred = (t', resp)) :
    t' = t ∨ ∃ name, (bucketKey r).2 = cred.agentID ++ 47 :: name
      ∧ Effect r cred cred.agentID name t t' := by
  simp only [serveAs] at h
  repeat' split at h
  all_goals try (cases h; exact .inl rfl)
  rename_i full hfull
  obtain ⟨rfl, -, name, hname⟩ := normalizeKey_ok hfull
  have hkey : (bucketKey r).2 = cred.agentID ++ 47 :: name := by
    rw [← hname, hpre, append_assoc, singleton_append]
  exact .inr ⟨name, hkey, serveObject_effect hkey hd hpre h⟩

lemma serve_cases (p : Prims) (g : Config) (env : Env) (t : Tree) (r : Request) :
    (serve p g env t r).1 = t ∨ ∃ akid cred name,
    authenticate p g env r = .ok (akid, cred) ∧ (bucketKey r).2 = cred.agentID ++ 47 :: name
      ∧ Effect r cred cred.agentID name t (serve p g env t r).1 := by
  rcases hs : serve p g env t r with ⟨t', resp⟩
  simp only [serve] at hs
  split_ifs at hs
  · cases hs
    exact .inl rfl
  · cases hs
    exact .inl rfl
  · cases hs
    exact .inl rfl
  · split at hs
    · cases hs
      exact .inl rfl
    · rename_i akid cred hauth
      obtain ⟨-, hpre, hd⟩ := authenticate_ok hauth
      rcases serveAs_cases hpre hd hs with h | ⟨name, hkey, h⟩
      · exact .inl h
      · exact .inr ⟨akid, cred, name, hauth, hkey, h⟩

lemma Effect.readOnly (h : Effect r cred device name t t') (hro : cred.readOnly = true) : t' = t := by
  rcases h with h | ⟨h, -⟩
  · exact h
  · rw [hro] at h
    cases h

lemma Effect.entry {device' name' : Str} {o : Obj}
    (h : Effect r cred device name t t') (ho : t.entry device' name' = some (.file o)) :
    t'.entry device' name' = some (.file o)
      ∨ (t'.entry device' name' = none ∧ SessionMarker name' ∧ r.method = str "DELETE"
        ∧ cred.readOnly = false ∧ device = device') := by
  rcases h with rfl | ⟨hro, ⟨-, rfl | ⟨o', hnone, rfl⟩⟩ | ⟨hm, hs, -, rfl⟩⟩
  · exact .inl ho
  · exact .inl (by simpa using ho)
  · refine .inl ?_
    rw [Tree.entry_setEntry, if_neg, Tree.entry_mkdirAll, ho]
    rintro ⟨rfl, rfl⟩
    rw [hnone] at ho
    cases ho
  · rw [Tree.entry_removeEntry]
    split_ifs with heq
    · obtain ⟨rfl, rfl⟩ := heq
      exact .inr ⟨rfl, hs, hm, hro, rfl⟩
    · exact .inl ho

end Serve

section Run
variable (p : Prims) (g : Config)

/-- The store after a sequence of requests, each with its own surroundings. -/
def run (t : Tree) (calls : List (Env × Request)) : Tree :=
  calls.foldl (fun t c => (serve p g c.1 t c.2).1) t

lemma run_append (t : Tree) (as bs : List (Env × Request)) :
    run p g t (as ++ bs) = run p g (run p g t as) bs := by
  simp [run]

/-- Whether a request is a DELETE authenticated with a read-write credential of `device`. -/
def DeletesAs (device : Str) (c : Env × Request) : Prop :=
  c.2.method = str "DELETE" ∧ ∃ akid cred, authenticate p g c.1 c.2 = .ok (akid, cred)
    ∧ c.1.lookup akid = some cred ∧ cred.agentID = device ∧ cred.readOnly = false

variable {p g}

lemma serve_entry (env : Env) {t : Tree} (r : Request) {device name : Str} {o : Obj}
    (h : t.entry device name = some (.file o)) :
    (serve p g env t r).1.entry device name = some (.file o)
      ∨ ((serve p g env t r).1.entry device name = none ∧ SessionMarker name
        ∧ DeletesAs p g device (env, r)) := by
  rcases serve_cases p g env t r with
    hs | ⟨akid, cred, name', hauth, -, heff⟩
  · exact .inl (by rw [hs, h])
  · rcases heff.entry h with h | ⟨hnone, hs, hm, hro, hdev⟩
    · exact .inl h
    · exact .inr ⟨hnone, hs, hm, akid, cred, hauth, (authenticate_ok hauth).1, hdev, hro⟩

lemma run_entry {device name : Str} {o : Obj} (hname : ¬ SessionMarker name) :
    ∀ (calls : List (Env × Request)) {t : Tree}, t.entry device name = some (.file o) →
      (run p g t calls).entry device name = some (.file o)
  | [], _, h => h
  | c :: calls, t, h => by
    rcases serve_entry c.1 c.2 h with h | ⟨-, hs, -⟩
    · exact run_entry hname calls h
    · exact absurd hs hname

lemma serve_readOnly {env : Env} {t : Tree} {r : Request}
    (h : ∀ akid cred, authenticate p g env r = .ok (akid, cred) → cred.readOnly = true) :
    (serve p g env t r).1 = t := by
  rcases serve_cases p g env t r with
    hs | ⟨akid, cred, name', hauth, -, heff⟩
  · exact hs
  · exact heff.readOnly (h akid cred hauth)

/-- The append-only law, over every sequence of requests from every store: an object that is not a
session marker stays as it is for good; a session marker stays as it is until a DELETE by its own
device, with a read-write key, removes it; and a request that is not authenticated with a
read-write key changes nothing. -/
theorem run_appendOnly (t : Tree) (before after : List (Env × Request)) (c : Env × Request)
    (device name : Str) (o : Obj) :
    ((run p g t before).entry device name = some (.file o) →
      (¬ SessionMarker name → (run p g t (before ++ after)).entry device name = some (.file o))
      ∧ ((run p g t (before ++ [c])).entry device name = some (.file o)
        ∨ ((run p g t (before ++ [c])).entry device name = none ∧ SessionMarker name
          ∧ DeletesAs p g device c)))
    ∧ ((∀ akid cred, authenticate p g c.1 c.2 = .ok (akid, cred) → cred.readOnly = true) →
      run p g t (before ++ [c]) = run p g t before) := by
  rw [run_append, run_append]
  refine ⟨fun h => ⟨fun hname => run_entry hname after h, serve_entry c.1 c.2 h⟩, fun h => ?_⟩
  exact serve_readOnly h

end Run

def Env.sample (readOnly : Bool) : Env where
  now := sampleNow
  lookup := fun k => if k = str "AK" then some ⟨str "a", str "a/", [], readOnly⟩ else none
  ipAllow := true
  allow := fun _ => true
  storeFor := fun _ => .ok ()
  faults := .healthy 0

def Config.sample : Config := newGateway [] [] 0 0

/-- An uploaded pack survives the DELETE that follows it. -/
theorem run_appendOnly_sample :
    let put := (Env.sample false, Request.sample (str "PUT") (str "/warphold/a/p1") [])
    let delete := (Env.sample false, Request.sample (str "DELETE") (str "/warphold/a/p1") [])
    (run .sample .sample ∅ [put]).entry (str "a") (str "p1")
        = some (.file ⟨str "ab", 0, some (Hex.encodeToString (replicate 16 0))⟩)
      ∧ (run .sample .sample ∅ ([put] ++ [delete])).entry (str "a") (str "p1")
        = some (.file ⟨str "ab", 0, some (Hex.encodeToString (replicate 16 0))⟩) := by
  intro put delete
  have hput : (run .sample .sample ∅ [put]).entry (str "a") (str "p1")
      = some (.file ⟨str "ab", 0, some (Hex.encodeToString (replicate 16 0))⟩) := by
    decide
  have hname : ¬ SessionMarker (str "p1") := fun h => by
    have := allowDelete_iff.2 h
    revert this
    decide
  exact ⟨hput, ((run_appendOnly ∅ [put] [delete] delete (str "a") (str "p1") _).1 hput).1 hname⟩

end Warphold.Gateway
