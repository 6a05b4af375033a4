import MinixVolume.Mount

namespace MinixVolume

structure Bitmap where
  start : UInt64
  max : UInt64
  data : Buffer

namespace Bitmap

def reach (blocks max : UInt64) : UInt64 :=
  if blocks = 0 then 0
  else if blocks * bitsPerBlock ≤ max then blocks * bitsPerBlock - 1
  else max

def ofData (start blocks max : UInt64) (data : Buffer) : Except Stop Bitmap :=
  if UInt64.ofNat data.size ≠ blocks * blockSize then
    .error (.panic (.bitmapLength data.size blocks))
  else .ok ⟨start, reach blocks max, data⟩

@[inline] def locate (bm : Bitmap) (n : UInt64) : UInt64 × UInt8 :=
  let a := BitAddress.ofIndex bm.start n
  (a.byteOffset - bm.start * blockSize, a.mask)

@[inline] def byteAt (bm : Bitmap) (i : UInt64) : Except Stop UInt8 :=
  if h : i.toNat < bm.data.size then .ok bm.data[i.toNat] else .error (.panic .outOfRange)

@[inline] def isSet (bm : Bitmap) (n : UInt64) : Except Stop Bool :=
  let (i, mask) := bm.locate n
  (bm.byteAt i).map fun b => b &&& mask ≠ 0

def updateByte (f : UInt8 → UInt8 → UInt8) (n : UInt64) (bm : Bitmap) : Except Stop Bitmap :=
  let (i, mask) := bm.locate n
  match bm with
  | ⟨start, max, data⟩ =>
      if h : i.toNat < data.size then
        let b := data[i.toNat]
        .ok ⟨start, max, data.set i.toNat (f b mask) h⟩
      else .error (.panic .outOfRange)

def set (bm : Bitmap) (n : UInt64) : Except Stop Bitmap :=
  bm.updateByte (fun b mask => b ||| mask) n

def clear (bm : Bitmap) (n : UInt64) : Except Stop Bitmap :=
  bm.updateByte (fun b mask => b &&& ~~~mask) n

/-- The least clear bit from `n` up to `max`, with the byte that holds it. A full byte is passed
over at once. -/
def findFrom (bm : Bitmap) (n : Nat) : Except Stop (Option (Nat × UInt8)) :=
  if n ≤ bm.max.toNat then
    let (i, mask) := bm.locate (UInt64.ofNat n)
    match bm.byteAt i with
    | .error e => .error e
    | .ok b =>
        if b = 0xff then findFrom bm (n + (7 - n % 8) + 1)
        else if b &&& mask = 0 then .ok (some (n, b))
        else findFrom bm (n + 1)
  else .ok none
termination_by bm.max.toNat + 1 - n

def findFree (bm : Bitmap) : Except Stop (Option (UInt64 × UInt8)) :=
  (bm.findFrom 1).map fun r => r.map fun p => (UInt64.ofNat p.1, p.2)

def countFrom (bm : Bitmap) (n : Nat) (count : Nat) : (left : Nat) → Except Stop Nat
  | 0 => .ok count
  | left + 1 =>
      match bm.isSet (UInt64.ofNat n) with
      | .error e => .error e
      | .ok used => bm.countFrom (n + 1) (if used then count else count + 1) left

def freeCount (bm : Bitmap) : Except Stop UInt64 :=
  (bm.countFrom 1 0 bm.max.toNat).map UInt64.ofNat

def setFrom (n : Nat) : (left : Nat) → Bitmap → Except Stop Bitmap
  | 0, bm => .ok bm
  | left + 1, bm =>
      match bm.set (UInt64.ofNat n) with
      | .error e => .error e
      | .ok bm => setFrom (n + 1) left bm

variable {δ : Type} [Disk δ]

def load (start blocks max : UInt64) : MountM δ Bitmap := do
  let data ← Mount.wrapping (.during .read (.bitmap start)) (Mount.readBlocks start blocks)
  liftExcept (ofData start blocks max data)

def store (bm : Bitmap) : MountM δ Unit :=
  Mount.wrapping (.during .write (.bitmap bm.start)) (Mount.writeAt (bm.start * blockSize) bm.data)

end Bitmap

end MinixVolume
