import MinixVolume.Directory.Entry
import MinixVolume.Record

namespace MinixVolume

namespace Directory

variable {δ : Type} [Disk δ]

def readZone (sb : Superblock) (z : UInt64) : MountM δ Buffer :=
  Mount.wrapping (.during .read (.zone z)) (Mount.readAt (sb.zoneOffset z) sb.zoneSize)

def slotCount (sb : Superblock) (width : UInt64) : Except Stop Nat :=
  if Entry.slotSize width = 0 then .error (.panic .divisionByZero)
  else .ok (sb.zoneSize / Entry.slotSize width).toNat

def slot (zone : Buffer) (width : UInt64) (i : Nat) : Bytes :=
  let s := (Entry.slotSize width).toNat
  Buffer.toBytes (zone.extract (i * s) ((i + 1) * s))

def zoneEntries (sb : Superblock) (width : UInt64) (zone : Buffer) : Except Stop (List Entry) := do
  let count ← slotCount sb width
  let entries ← (List.range count).mapM fun i => Entry.decode (slot zone width i)
  return entries.filter (·.inode ≠ 0)

def listZones (sb : Superblock) (width : UInt64) : List UInt64 → MountM δ (List Entry)
  | [] => return []
  | z :: rest => do
      let zone ← readZone sb z
      let entries ← liftExcept (zoneEntries sb width zone)
      return entries ++ (← listZones sb width rest)

def list (sb : Superblock) (ip : Inode) (width : UInt64) : MountM δ (List Entry) :=
  listZones sb width ip.zones

def lookup (sb : Superblock) (ip : Inode) (name : Bytes) (width : UInt64) :
    MountM δ (Option UInt64) := do
  let entries ← list sb ip width
  return (entries.find? (·.name == name)).map (·.inode)

def freeSlotFrom (zone : Buffer) (width : UInt64) (i : Nat) :
    (left : Nat) → Except Stop (Option Nat)
  | 0 => .ok none
  | left + 1 =>
      match Entry.decode (slot zone width i) with
      | .error e => .error e
      | .ok e => if e.inode = 0 then .ok (some i) else freeSlotFrom zone width (i + 1) left

def findSlot (sb : Superblock) (width : UInt64) : List UInt64 → MountM δ (Option (UInt64 × Nat))
  | [] => return none
  | z :: rest => do
      let zone ← readZone sb z
      let count ← liftExcept (slotCount sb width)
      match ← liftExcept (freeSlotFrom zone width 0 count) with
      | some i => return some (z, i)
      | none => findSlot sb width rest

def grow (bytes : UInt64) (ip : Inode) : Inode :=
  { ip with size := ip.size + bytes.toUInt32 }

def shrink (bytes : UInt64) (ip : Inode) : Inode :=
  { ip with size := ip.size - bytes.toUInt32 }

/-- Adds an entry to the directory held in memory, whose number is `number`: fills the first free
slot and writes the grown inode back. If that write fails the slot is cleared again; if clearing
fails too, the entry stays and the error says so. -/
def add (sb : Superblock) (number : UInt64) (entry : Entry) (width : UInt64) :
    MountM δ Unit := do
  let record ← liftExcept (entry.encode width)
  let bytes := Entry.slotSize width
  match ← findSlot sb width (← get).directory.zones with
  | none => Mount.fail (.directoryFull number)
  | some (z, i) =>
      let off := sb.zoneOffset z + UInt64.ofNat i * bytes
      Mount.wrapping (.during .write (.entry entry.name)) (Mount.writeAt off record)
      Mount.trace (.addedEntry number entry z i)
      Mount.modifyDirectory (grow bytes)
      match ← Mount.attempt (Inode.store sb.inodeTableStart number (← get).directory) with
      | .ok _ => return
      | .error e =>
          Mount.modifyDirectory (shrink bytes)
          match ← Mount.attempt (Mount.writeAt off (Buffer.zeros bytes.toNat)) with
          | .ok _ => Mount.fail e
          | .error cause => Mount.fail (.joined e (.entryLeft entry.name number cause))

end Directory

end MinixVolume
