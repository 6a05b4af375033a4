import MinixVolume.Volume

namespace MinixVolume

namespace Volume

def fileMode : UInt16 := Inode.regularType ||| 0o700

def directoryMode : UInt16 := Inode.directoryType ||| 0o700

variable {δ : Type} [Disk δ]

def checkNew (v : Volume) (name : Bytes) : MountM δ Unit := do
  if name.isEmpty || name.contains 0x2f || name.contains 0 then Mount.fail (.invalidName name)
  if v.nameWidth.toNat < name.length then Mount.fail (.nameTooLong name v.nameWidth)
  match ← Directory.lookup v.superblock (← get).directory name v.nameWidth with
  | some _ => Mount.fail (.nameTaken name)
  | none => return

def failures (results : List (Except Error Unit)) : List Error :=
  results.filterMap fun
    | .ok _ => none
    | .error e => some e

/-- Gives back an inode and a zone, where 0 stands for none, after a create that failed with
`cause`, and answers with the error to report. Nothing is given back when an entry still names the
inode. Every step is tried even if an earlier one fails. -/
def giveBack (v : Volume) (cause : Error) (inode zone : UInt64) : MountM δ Error := do
  if cause.hasKind .inconsistent then
    Mount.emit (.entryLeft inode zone cause)
    return cause
  let skipped : Except Error Unit := .ok ()
  let cleared ← if inode = 0 then pure skipped else Mount.attempt (v.storeInode inode {})
  let freedInode ←
    if inode = 0 then pure skipped else Mount.attempt (v.superblock.freeInode inode)
  let freedZone ← if zone = 0 then pure skipped else Mount.attempt (v.superblock.freeZone zone)
  match failures [cleared, freedInode, freedZone] with
  | [] =>
      Mount.emit (.released inode zone cause)
      return cause
  | e :: rest =>
      Mount.emit (.notReleased inode zone (e.joinAll rest))
      return cause.joinAll (e :: rest)

def orGiveBack {α : Type} (v : Volume) (inode zone : UInt64) (step : MountM δ α) :
    MountM δ α := do
  match ← Mount.attempt step with
  | .ok a => return a
  | .error e => Mount.fail (← v.giveBack e inode zone)

def touch (v : Volume) (name : Bytes) : MountM δ UInt64 := do
  v.checkNew name
  let inode ← v.superblock.allocateInode
  let ip : Inode := { mode := fileMode, links := 1, modified := v.timestamp }
  v.orGiveBack inode 0 (v.storeInode inode ip)
  v.orGiveBack inode 0
    (Directory.add v.superblock Inode.root ⟨inode, name⟩ v.nameWidth)
  Mount.trace (.touched name inode)
  return inode

def link (ip : Inode) : Inode :=
  { ip with links := ip.links + 1 }

def unlink (ip : Inode) : Inode :=
  { ip with links := ip.links - 1 }

/-- Adds an entry for a new directory: the root gains a link with it, and loses the link again if
the entry cannot be added. -/
def addLinked (v : Volume) (entry : Entry) : MountM δ Unit := do
  Mount.modifyDirectory link
  match ← Mount.attempt (Directory.add v.superblock Inode.root entry v.nameWidth) with
  | .ok _ => return
  | .error e =>
      Mount.modifyDirectory unlink
      Mount.fail e

def mkdir (v : Volume) (name : Bytes) : MountM δ UInt64 := do
  v.checkNew name
  let root := (← get).directory
  if root.links = 0xff then Mount.fail (.linksSaturated root.links)
  let sb := v.superblock
  let inode ← sb.allocateInode
  let zone ← v.orGiveBack inode 0 sb.allocateZone
  let block ← v.orGiveBack inode zone
    (liftExcept (Entry.block (Format.newDirectory inode Inode.root) v.nameWidth sb.zoneSize))
  v.orGiveBack inode zone
    (Mount.wrapping (.during .write (.zone zone)) (Mount.writeAt (sb.zoneOffset zone) block))
  let ip : Inode :=
    { mode := directoryMode
      links := 2
      modified := v.timestamp
      size := (2 * Entry.slotSize v.nameWidth).toUInt32
      zone := Inode.oneZone zone.toUInt16 }
  v.orGiveBack inode zone (v.storeInode inode ip)
  v.orGiveBack inode zone (v.addLinked ⟨inode, name⟩)
  Mount.trace (.madeDirectory name inode zone)
  return inode

end Volume

end MinixVolume
