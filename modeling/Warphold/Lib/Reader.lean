import Mathlib

/-!
# Readers

An `io.Reader` is the list of what its `Read` calls answer: some bytes, and at the end an error or
the end of the stream. The list ranges over every way of cutting the stream into reads, so the size
of the buffer a reader is given plays no part. After its last answer a reader is at its end.
-/

inductive ReadEnd (ε : Type) where
  | eof
  | fail (e : ε)
  deriving DecidableEq, Repr

structure ReadAns (β ε : Type) where
  data : List β
  stop : Option (ReadEnd ε)
  deriving DecidableEq, Repr

namespace Reader

variable {β ε : Type}

/-- What a copy took from a reader: the bytes written, the error it stopped with, and whether it got
to see how the stream ends. -/
structure Copied (β ε : Type) where
  written : List β
  err : Option ε
  sawEnd : Bool
  deriving DecidableEq, Repr

/-- `io.Copy` from `io.LimitReader(r, n)`: at the limit the copy stops without another `Read`. -/
def copyLimited : ℕ → List (ReadAns β ε) → Copied β ε
  | n, [] => ⟨[], none, n ≠ 0⟩
  | n, ⟨d, stop⟩ :: l =>
    if n = 0 then ⟨[], none, false⟩
    else if n < d.length then ⟨d.take n, none, false⟩
    else match stop with
      | none => let c := copyLimited (n - d.length) l; ⟨d ++ c.written, c.err, c.sawEnd⟩
      | some .eof => ⟨d, none, true⟩
      | some (.fail e) => ⟨d, some e, true⟩

def whole : List (ReadAns β ε) → Option (List β)
  | [] => some []
  | ⟨d, none⟩ :: l => (whole l).map (d ++ ·)
  | ⟨d, some .eof⟩ :: _ => some d
  | ⟨_, some (.fail _)⟩ :: _ => none

lemma copyLimited_of_whole : ∀ {n : ℕ} {l : List (ReadAns β ε)} {b : List β},
    whole l = some b → b.length < n → copyLimited n l = ⟨b, none, true⟩
  | n, [], b, h, hn => by
    obtain rfl : [] = b := Option.some.inj h
    have h0 : n ≠ 0 := Nat.ne_of_gt hn
    simp [copyLimited, h0]
  | n, ⟨d, none⟩ :: l, b, h, hn => by
    obtain ⟨b', hb', rfl⟩ := Option.map_eq_some_iff.1 h
    rw [List.length_append] at hn
    have ih := copyLimited_of_whole hb' (show b'.length < n - d.length by omega)
    rw [copyLimited, if_neg (by omega), if_neg (by omega)]
    simp [ih]
  | n, ⟨d, some .eof⟩ :: l, b, h, hn => by
    obtain rfl : d = b := Option.some.inj h
    rw [copyLimited, if_neg (by omega), if_neg (by omega)]

lemma whole_of_copyLimited : ∀ {n : ℕ} {l : List (ReadAns β ε)},
    (copyLimited n l).err = none → (copyLimited n l).written.length < n →
      whole l = some (copyLimited n l).written
  | _, [], _, _ => rfl
  | n, ⟨d, stop⟩ :: l, he, hn => by
    by_cases h0 : n = 0
    · simp [h0] at hn
    · by_cases hd : n < d.length
      · simp only [copyLimited, h0, hd, if_true, if_false, List.length_take] at hn
        omega
      · cases stop with
        | none =>
          simp only [copyLimited, h0, hd, if_false, List.length_append] at he hn ⊢
          simp [whole, whole_of_copyLimited he (by omega)]
        | some e =>
          cases e with
          | eof => simp [copyLimited, h0, hd, whole]
          | fail e => simp [copyLimited, h0, hd] at he

end Reader
