import Warphold.Lib.Binary
import Warphold.Lib.Varint

/-!
# Recovering the local index of a pack

A pack blob ends in an encrypted index of its contents and a postamble that says where that index is:
its initialization vector, offset and length, a checksum, and in the last byte the postamble's own
length. Recovery reads the last bytes of the blob first, and the whole blob if that does not do.
Offset and length are written as numbers of up to 64 bits and kept as 32-bit ones.
-/

namespace Warphold.Content.Recovery

open Varint

structure Postamble where
  localIndexIV : Str
  localIndexOffset : ℕ
  localIndexLength : ℕ
  deriving DecidableEq, Repr

namespace Postamble

def payload (p : Postamble) : Str :=
  putUvarint 1 ++ putUvarint p.localIndexIV.length ++ p.localIndexIV ++
    putUvarint p.localIndexOffset ++ putUvarint p.localIndexLength

def toBytes (p : Postamble) : Option Str :=
  let n := p.payload.length + 4
  if 255 < n then none
  else some (p.payload ++ Binary.put 4 (checksumIEEE p.payload) ++ [UInt8.ofNat n])

end Postamble

/-- What `decodePostamble` reads: the initialization vector, the offset and the length, as they are
written. -/
def decodeNumbers (payload : Str) : Option (Str × ℕ × ℕ) :=
  match uvarint payload with
  | none => none
  | some (flags, payload) =>
    if flags ≠ 1 then none
    else match uvarint payload with
      | none => none
      | some (ivLength, payload) =>
        if payload.length < ivLength then none
        else match uvarint (payload.drop ivLength) with
          | none => none
          | some (off, rest) =>
            match uvarint rest with
            | none => none
            | some (length, _) => some (payload.take ivLength, off, length)

/-- `decodePostamble`: the numbers are cut to 32 bits. -/
def decodePostamble (payload : Str) : Option Postamble :=
  (decodeNumbers payload).map fun r => ⟨r.1, r.2.1 % 2 ^ 32, r.2.2 % 2 ^ 32⟩

/-- What stands before the checksum and the last byte, if the checksum is right. -/
def findPayload (b : Str) : Option Str :=
  match b.getLast? with
  | none => none
  | some last =>
    let postambleLength := last.toNat
    if postambleLength < 5 then none
    else if b.length < 1 + postambleLength then none
    else
      let postambleBytes := (b.drop (b.length - 1 - postambleLength)).take postambleLength
      let payload := postambleBytes.take (postambleLength - 4)
      if Binary.get (postambleBytes.drop (postambleLength - 4)) ≠ checksumIEEE payload then none
      else some payload

def findPostamble (b : Str) : Option Postamble := (findPayload b).bind decodePostamble

def named (b : Str) : Option (Str × ℕ × ℕ) := (findPayload b).bind decodeNumbers

section Section

/-- The loop over the slices after the first one that has bytes of the section. -/
def appendRest : List Str → ℕ → Str
  | [], _ => []
  | s :: slices, size =>
    if size = 0 then [] else s.take (min size s.length) ++ appendRest slices (size - min size s.length)

def appendSectionTo : List Str → ℕ → ℕ → Str
  | [], _, _ => []
  | s :: slices, offset, size =>
    if offset < s.length then
      let firstChunkSize := if offset + size ≤ s.length then size else s.length - offset
      (s.drop offset).take firstChunkSize ++ appendRest slices (size - firstChunkSize)
    else appendSectionTo slices (offset - s.length) size

end Section

structure Slicing where
  slices : Str → List Str
  flatten_slices : ∀ s, (slices s).flatten = s

def indexRecoverPostambleSize : ℕ := 8192

section Read

variable (sl : Slicing) (decrypt : (payload iv : Str) → Option Str)

/-- `attemptReadPackFileLocalIndex` of the blob from an offset on, up to the decryption: the encrypted
index and its initialization vector. -/
def attemptRead (blob : Str) (offset : ℕ) : Option (Str × Str) :=
  let payload := blob.drop offset
  match findPostamble payload with
  | none => none
  | some p =>
    if p.localIndexOffset < offset % 2 ^ 32 then none
    else
      let off := p.localIndexOffset - offset % 2 ^ 32
      if payload.length < (off + p.localIndexLength) % 2 ^ 32 then none
      else some (appendSectionTo (sl.slices payload) off p.localIndexLength, p.localIndexIV)

def attemptReadPackFileLocalIndex (blob : Str) (offset : ℕ) : Option Str :=
  (attemptRead sl blob offset).bind fun r => decrypt r.1 r.2

def readPackFileLocalIndex (blob : Str) : Option Str :=
  if indexRecoverPostambleSize ≤ blob.length then
    match attemptReadPackFileLocalIndex sl decrypt blob (blob.length - indexRecoverPostambleSize) with
    | some localIndex => some localIndex
    | none => attemptReadPackFileLocalIndex sl decrypt blob 0
  else attemptReadPackFileLocalIndex sl decrypt blob 0

end Read

/-- `appendPackFileIndexRecoveryData` after a pack's contents, for an encrypted local index. -/
def appendPackFileIndexRecoveryData (output encryptedLocalIndex localIndexIV : Str) : Option Str :=
  (Postamble.toBytes ⟨localIndexIV, output.length % 2 ^ 32,
    encryptedLocalIndex.length % 2 ^ 32⟩).map fun bytes => output ++ encryptedLocalIndex ++ bytes

end Warphold.Content.Recovery
