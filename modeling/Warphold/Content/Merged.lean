import Warphold.Content.Index
import Warphold.Lib.Heap

/-!
# Going over several indexes at once

An opened index lists its entries by content ID, each ID once. `Merged.Iterate` takes the next entry
of every index from a heap by content ID and keeps the entry that stands for the ID at hand back until
another ID comes up. A `OneUseBuilder` collects the entries in a balanced tree.
-/

namespace Warphold.Content

structure Shard where
  entries : Index
  sorted : entries.Pairwise fun i j => i.contentID.less j.contentID = true
  deriving DecidableEq

structure IDRange where
  startID : Str
  endID : Str
  deriving DecidableEq, Repr

def ID.belowPrefix (id : ID) (p : Str) : Bool :=
  if p = [] then false else id.string < p

def IDRange.contains (r : IDRange) (id : ID) : Bool :=
  !id.belowPrefix r.startID && id.belowPrefix r.endID

def IDRange.allIDs : IDRange := ⟨[], [123]⟩

structure NextInfo where
  it : Info
  ch : List Info
  deriving DecidableEq, Repr

def NextInfo.less (a b : NextInfo) : Bool :=
  if a.it.contentID ≠ b.it.contentID then a.it.contentID.less b.it.contentID
  else !contentInfoGreaterThan a.it b.it

namespace Merged

/-- Receives from a channel, and pushes what comes unless the channel is closed. -/
def receive (h : Array NextInfo) : List Info → Array NextInfo
  | [] => h
  | it :: ch => Heap.push NextInfo.less h ⟨it, ch⟩

def remaining (h : Array NextInfo) : ℕ := (h.toList.map fun n => n.ch.length + 1).sum

section Iterate

variable {σ ε : Type} (cb : σ → Info → Except ε σ)

/-- What an entry does to the pending item: one of another ID sends it to the callback first. -/
def advance (s : σ) (pending : Option Info) (it : Info) : Except ε (σ × Info) :=
  match pending with
  | none => .ok (s, it)
  | some p =>
    if p.contentID ≠ it.contentID then (cb s p).map (·, it)
    else if contentInfoGreaterThan it p then .ok (s, it)
    else .ok (s, p)

lemma remaining_receive (h : Array NextInfo) (ch : List Info) :
    remaining (receive h ch) = remaining h + ch.length := by
  cases ch with
  | nil => rfl
  | cons it ch =>
    have hperm : (Heap.push NextInfo.less h ⟨it, ch⟩).toList.Perm (⟨it, ch⟩ :: h.toList) :=
      Heap.push_perm h _
    have := hperm.map fun n => n.ch.length + 1
    simp only [remaining, receive, this.sum_eq, List.map_cons, List.sum_cons, List.length_cons]
    omega

lemma remaining_pop {h h' : Array NextInfo} {n : NextInfo}
    (hp : Heap.pop NextInfo.less h = some (n, h')) :
    remaining h = remaining h' + n.ch.length + 1 := by
  have := (Heap.pop_perm hp).map fun n => n.ch.length + 1
  simp only [remaining, this.sum_eq, List.map_cons, List.sum_cons]
  omega

/-- The loop of `Iterate`, and the callback for the last pending item after it. -/
def loop (h : Array NextInfo) (pending : Option Info) (s : σ) : Except ε σ :=
  match hp : Heap.pop NextInfo.less h with
  | none =>
    match pending with
    | none => .ok s
    | some p => cb s p
  | some (n, h') =>
    match advance cb s pending n.it with
    | .error e => .error e
    | .ok (s', p) => loop (receive h' n.ch) (some p) s'
termination_by remaining h
decreasing_by
  rw [remaining_receive, remaining_pop hp]
  omega

variable {cb} {h h' : Array NextInfo} {n : NextInfo}

lemma loop_none (hp : Heap.pop NextInfo.less h = none) (pending : Option Info) (s : σ) :
    loop cb h pending s = pending.elim (.ok s) (cb s) := by
  rw [loop.eq_def]
  split
  · cases pending <;> rfl
  · next heq => simp [hp] at heq

lemma loop_some (hp : Heap.pop NextInfo.less h = some (n, h')) (pending : Option Info) (s : σ) :
    loop cb h pending s =
      advance cb s pending n.it >>= fun (s', p) => loop cb (receive h' n.ch) (some p) s' := by
  rw [loop.eq_def]
  split
  · next heq => simp [hp] at heq
  · next heq =>
    obtain ⟨rfl, rfl⟩ := Prod.mk.inj (Option.some.inj (heq.symm.trans hp))
    cases advance cb s pending _ <;> rfl

variable (cb)

def startHeap (m : List Shard) (r : IDRange) : Array NextInfo :=
  m.foldl (fun h ndx => receive h (ndx.entries.filter fun i => r.contains i.contentID)) #[]

def iterate (m : List Shard) (r : IDRange) (s : σ) : Except ε σ :=
  loop cb (startHeap m r) none s

end Iterate

end Merged

/-- A balanced tree of entries, as the library has it: an item replaces the one that is neither less
nor greater. -/
structure LLRB where
  Tree : Type
  new : Tree
  get : Tree → Info → Option Info
  replaceOrInsert : Tree → Info → Tree
  get_new : ∀ k, get new k = none
  get_replaceOrInsert : ∀ t i k, get (replaceOrInsert t i) k =
    if !i.contentID.less k.contentID && !k.contentID.less i.contentID then some i else get t k

namespace OneUseBuilder

variable (T : LLRB)

def add (t : T.Tree) (i : Info) : T.Tree :=
  match T.get t i with
  | none => T.replaceOrInsert t i
  | some found => if contentInfoGreaterThan i found then T.replaceOrInsert t i else t

def addAll (t : T.Tree) (is : List Info) : T.Tree := is.foldl (add T) t

end OneUseBuilder

end Warphold.Content
