import MinixVolume.Superblock
import MinixVolume.Inode
import MinixVolume.Directory.Entry

namespace MinixVolume

inductive Trace where
  | opened (sb : Superblock) (width : UInt64)
  | formatted (sb : Superblock)
  | touched (name : Bytes) (inode : UInt64)
  | madeDirectory (name : Bytes) (inode zone : UInt64)
  | allocatedInode (inode : UInt64)
  | allocatedZone (bit zone : UInt64)
  | addedEntry (directory : UInt64) (entry : Entry) (zone : UInt64) (slot : Nat)
  | wroteInode (number : UInt64) (ip : Inode)
  | barrier
  | readInode (number : UInt64) (record : Bytes)
  | foundFree (start bit : UInt64) (byte : UInt8)
  | readBytes (off n : UInt64)
  | wroteBytes (off : UInt64) (n : Nat)
deriving Repr

namespace Trace

def level : Trace → Nat
  | .opened .. | .formatted _ | .touched .. | .madeDirectory .. => 1
  | .allocatedInode _ | .allocatedZone .. | .addedEntry .. => 5
  | .wroteInode .. | .barrier => 10
  | .readInode .. | .foundFree .. => 15
  | .readBytes .. | .wroteBytes .. => 20

def message : Trace → String
  | .opened sb width => s!"Open: {sb.summary} name width {width}"
  | .formatted sb => "mkfs: " ++ sb.summary
  | .touched name inode => "touch " ++ Text.quoted name ++ s!": inode {inode}"
  | .madeDirectory name inode zone =>
      "mkdir " ++ Text.quoted name ++ s!": inode {inode} zone {zone}"
  | .allocatedInode inode => s!"AllocInode: {inode}"
  | .allocatedZone bit zone => s!"AllocZone: bit {bit} zone {zone}"
  | .addedEntry directory entry zone slot =>
      s!"dir {directory}: add {entry.text} in zone {zone} slot {slot}"
  | .wroteInode number ip =>
      s!"write inode {number}: mode " ++ Text.octal ip.mode.toNat
        ++ s!" size {ip.size} nlinks {ip.links} zones "
        ++ Text.bracketed (ip.zone.toList.map UInt16.toNat)
  | .barrier => "barrier"
  | .readInode number record =>
      s!"read inode {number}: " ++ Text.bracketed (record.map UInt8.toNat)
  | .foundFree start bit byte =>
      s!"findFree: bitmap {start} bit {bit} byte 0x" ++ Text.hex byte.toNat
  | .readBytes off n => s!"read: {off}+{n}"
  | .wroteBytes off n => s!"write: {off}+{n}"

end Trace

inductive Severity where
  | debug
  | info
  | warning
  | error
deriving DecidableEq, Repr

inductive Event where
  | trace (t : Trace)
  | dryRun (path : Bytes)
  | released (inode zone : UInt64) (cause : Error)
  | notReleased (inode zone : UInt64) (failures : Error)
  | entryLeft (inode zone : UInt64) (cause : Error)
deriving Repr

namespace Event

def severity : Event → Severity
  | .trace _ => .debug
  | .dryRun _ => .info
  | .released .. => .warning
  | .notReleased .. | .entryLeft .. => .error

def message : Event → String
  | .trace t => t.message
  | .dryRun _ => "dry run: changes are discarded"
  | .released .. => "released allocation after failed create"
  | .notReleased .. => "could not release allocation"
  | .entryLeft .. => "create left a directory entry behind"

def attributes : Event → List (String × String)
  | .trace t => [("trace", toString t.level)]
  | .dryRun path => [("image", Text.ofBytes path)]
  | .released inode zone cause =>
      [("inode", toString inode), ("zone", toString zone), ("cause", cause.message)]
  | .notReleased inode zone failures =>
      [("inode", toString inode), ("zone", toString zone), ("err", failures.message)]
  | .entryLeft inode zone cause =>
      [("inode", toString inode), ("zone", toString zone), ("err", cause.message)]

def within (detail : Nat) : Event → Bool
  | .trace t => t.level ≤ detail
  | _ => true

def line (severityName : Severity → String) (value : String → String) (e : Event) : String :=
  e.attributes.foldl (fun s a => s ++ " " ++ a.1 ++ "=" ++ value a.2)
    (severityName e.severity ++ " " ++ e.message)

def shortName : Severity → String
  | .debug => "DBG"
  | .info => "INF"
  | .warning => "WRN"
  | .error => "ERR"

def needsQuotes (c : Char) : Bool :=
  c = ' ' || c = '"' || c = '=' || !Text.isPrintable c

def terminalLine (e : Event) : String :=
  e.line shortName fun v => if v.isEmpty || v.any needsQuotes then Text.quotedText v else v

end Event

abbrev Log := Array Event

end MinixVolume
