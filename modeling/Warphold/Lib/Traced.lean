import Mathlib

/-!
# Computations that make requests

`Traced ρ α` is a computation that asks its surroundings for values of type `ρ` on the way to a
result. It keeps every request it made, and has no result when it never comes back: its budget ran
out or the process died.

`m.Keeps S Q` says that `m` only requests what is in `S` and only returns what meets `Q`.
`m.Below m'` says that `m'` returns whatever `m` returns, as it does when it has a larger budget.
-/

structure Traced (ρ α : Type*) where
  requests : List ρ
  result : Option α

namespace Traced

variable {ρ ε α β : Type*}

def ret (a : α) : Traced ρ α := ⟨[], some a⟩

def stop : Traced ρ α := ⟨[], none⟩

def request (c : ρ) (a : α) : Traced ρ α := ⟨[c], some a⟩

def bind (m : Traced ρ α) (f : α → Traced ρ β) : Traced ρ β :=
  match m.result with
  | none => ⟨m.requests, none⟩
  | some a => ⟨m.requests ++ (f a).requests, (f a).result⟩

def thenOk (m : Traced ρ (Except ε α)) (f : α → Traced ρ (Except ε β)) : Traced ρ (Except ε β) :=
  m.bind fun
    | .ok a => f a
    | .error e => ret (.error e)

lemma result_bind_eq_some {m : Traced ρ α} {f : α → Traced ρ β} {b : β} :
    (m.bind f).result = some b ↔ ∃ a, m.result = some a ∧ (f a).result = some b := by
  unfold bind
  split <;> rename_i h <;> simp [h]

lemma result_thenOk_eq_ok {m : Traced ρ (Except ε α)} {f : α → Traced ρ (Except ε β)} {b : β} :
    (m.thenOk f).result = some (.ok b) ↔
      ∃ a, m.result = some (.ok a) ∧ (f a).result = some (.ok b) := by
  unfold thenOk
  rw [result_bind_eq_some]
  constructor
  · rintro ⟨a | a, hm, hf⟩
    · simp [ret] at hf
    · exact ⟨a, hm, hf⟩
  · rintro ⟨a, hm, hf⟩
    exact ⟨.ok a, hm, hf⟩

section Keeps

def Keeps (S : Set ρ) (Q : α → Prop) (m : Traced ρ α) : Prop :=
  (∀ c ∈ m.requests, c ∈ S) ∧ ∀ a, m.result = some a → Q a

variable {S : Set ρ} {P : α → Prop} {Q : β → Prop}

lemma keeps_ret {a : α} (h : P a) : (ret a : Traced ρ α).Keeps S P :=
  ⟨by simp [ret], by simpa [ret] using h⟩

lemma keeps_stop : (stop : Traced ρ α).Keeps S P :=
  ⟨by simp [stop], by simp [stop]⟩

lemma keeps_request {c : ρ} {a : α} (hc : c ∈ S) (h : P a) : (request c a).Keeps S P :=
  ⟨by simpa [request] using hc, by simpa [request] using h⟩

lemma Keeps.imp {m : Traced ρ α} {P' : α → Prop} (h : m.Keeps S P) (hP : ∀ a, P a → P' a) :
    m.Keeps S P' :=
  ⟨h.1, fun a ha => hP a (h.2 a ha)⟩

lemma Keeps.bind {m : Traced ρ α} {f : α → Traced ρ β} (hm : m.Keeps S P)
    (hf : ∀ a, P a → (f a).Keeps S Q) : (m.bind f).Keeps S Q := by
  unfold Traced.bind
  rcases hr : m.result with _ | a
  · exact ⟨hm.1, by simp⟩
  · have ha := hf a (hm.2 a hr)
    refine ⟨fun c hc => ?_, ha.2⟩
    rcases List.mem_append.mp hc with hc | hc
    · exact hm.1 c hc
    · exact ha.1 c hc

def OnOk (P : α → Prop) (r : Except ε α) : Prop := ∀ a, r = .ok a → P a

lemma onOk_error {e : ε} : OnOk P (.error e) := by
  intro a h
  cases h

lemma onOk_ok {a : α} (h : P a) : OnOk P (.ok a : Except ε α) := by
  intro a' ha
  cases ha
  exact h

lemma Keeps.thenOk {m : Traced ρ (Except ε α)} {f : α → Traced ρ (Except ε β)}
    (hm : m.Keeps S (OnOk P)) (hf : ∀ a, P a → (f a).Keeps S (OnOk Q)) :
    (m.thenOk f).Keeps S (OnOk Q) := by
  refine hm.bind fun r hr => ?_
  rcases r with e | a
  · exact keeps_ret onOk_error
  · exact hf a (hr a rfl)

end Keeps

section Below

def Below (m m' : Traced ρ α) : Prop := ∀ a, m.result = some a → m'.result = some a

lemma Below.refl (m : Traced ρ α) : m.Below m := fun _ h => h

lemma stop_below (m : Traced ρ α) : (stop : Traced ρ α).Below m := by
  intro a h
  simp [stop] at h

lemma Below.bind {m m' : Traced ρ α} {f f' : α → Traced ρ β} (hm : m.Below m')
    (hf : ∀ a, (f a).Below (f' a)) : (m.bind f).Below (m'.bind f') := by
  intro b hb
  obtain ⟨a, ha, hb⟩ := result_bind_eq_some.mp hb
  exact result_bind_eq_some.mpr ⟨a, hm a ha, hf a b hb⟩

lemma Below.thenOk {m m' : Traced ρ (Except ε α)} {f f' : α → Traced ρ (Except ε β)}
    (hm : m.Below m') (hf : ∀ a, (f a).Below (f' a)) : (m.thenOk f).Below (m'.thenOk f') := by
  refine hm.bind fun r => ?_
  rcases r with e | a
  · exact .refl _
  · exact hf a

end Below

end Traced
