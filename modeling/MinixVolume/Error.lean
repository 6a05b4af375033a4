import MinixVolume.Flag

namespace MinixVolume

inductive HostError where
  | noEntry
  | isDirectory
  | badDescriptor
  | invalidArgument
  | notDirectory
  | nameTooLong
  | fileTooLarge
  | nodeExists
deriving DecidableEq, Repr

def HostError.message : HostError → String
  | .noEntry => "no such file or directory"
  | .isDirectory => "is a directory"
  | .badDescriptor => "bad file descriptor"
  | .invalidArgument => "invalid argument"
  | .notDirectory => "not a directory"
  | .nameTooLong => "file name too long"
  | .fileTooLarge => "file too large"
  | .nodeExists => "file exists"

inductive ErrorKind where
  | format
  | notFound
  | unsupportedPath
  | nameTooLong
  | alreadyExists
  | noFreeInode
  | noFreeZone
  | directoryFull
  | tooManyLinks
  | inconsistent
  | usage
  | unexpectedEnd
  | injected
  | help
  | host (e : HostError)
deriving DecidableEq, Repr

def ErrorKind.message : ErrorKind → String
  | .format => "malformed on-disk structure"
  | .notFound => "no such file or directory"
  | .unsupportedPath => "only files in the root or one subdirectory deep are supported"
  | .nameTooLong => "file name too long"
  | .alreadyExists => "file exists"
  | .noFreeInode => "no free inodes available"
  | .noFreeZone => "no free zones available"
  | .directoryFull => "no space left in directory"
  | .tooManyLinks => "too many links"
  | .inconsistent => "image left inconsistent"
  | .usage => "bad usage"
  | .unexpectedEnd => "unexpected EOF"
  | .injected => "injected failure"
  | .help => FlagError.help.message
  | .host e => e.message

inductive Transfer where
  | read
  | write
deriving DecidableEq, Repr

def Transfer.verb : Transfer → String
  | .read => "read"
  | .write => "write"

inductive Place where
  | superblock
  | bitmap (block : UInt64)
  | inode (number : UInt64)
  | rootInode
  | zone (number : UInt64)
  | entry (name : Bytes)
  | rootDirectory
  | offset (byte : UInt64)
  | file (path : Bytes)
deriving DecidableEq, Repr

def Place.text : Place → String
  | .superblock => "superblock"
  | .bitmap b => "bitmap at block " ++ toString b
  | .inode n => "inode " ++ toString n
  | .rootInode => "root inode"
  | .zone z => "zone " ++ toString z
  | .entry name => "entry " ++ Text.quoted name
  | .rootDirectory => "root directory"
  | .offset b => "at " ++ toString b
  | .file path => Text.ofBytes path

inductive Error where
  | injected
  | host (e : HostError)
  | outOfBounds (op : Transfer) (off n size : UInt64)
  | during (op : Transfer) (place : Place) (cause : Error)
  | clearing (cause : Error)
  | opening (path : Bytes) (cause : Error)
  | loading (path : Bytes) (cause : Error)
  | truncating (path : Bytes) (size : UInt64) (cause : Error)
  | syncing (cause : Error)
  | closing (cause : Error)
  | shortSuperblock (bytes : Nat)
  | unknownMagic (magic : UInt16)
  | inodeLength (bytes : Nat)
  | noFreeInode (inUse : UInt64)
  | noFreeZone (inUse : UInt64)
  | nameTooLong (name : Bytes) (width : UInt64)
  | invalidName (name : Bytes)
  | nameTaken (name : Bytes)
  | noSuchName (name : Bytes)
  | notDirectory (name : Bytes)
  | pathTooDeep (path : Bytes)
  | directoryFull (number : UInt64)
  | entriesTooMany (count : Nat) (size : UInt64)
  | linksSaturated (links : UInt8)
  | entryLeft (name : Bytes) (directory : UInt64) (cause : Error)
  | badNameWidth (width : UInt64)
  | tooManyBlocks (blocks : UInt64)
  | tooManyInodes (inodes : UInt64)
  | tooFewBlocks (blocks inodes : UInt64)
  | imageTooSmall (blocks : UInt64) (needed : UInt16)
  | missingCommand
  | unknownCommand (word : Bytes)
  | commandUsage (synopsis : String)
  | commandFlags (command : String) (e : FlagError)
  | formatOperands
  | help
  | flags (e : FlagError)
  | tooFewWords (needed given : Nat)
  | report (cause : Error)
  | joined (first second : Error)
deriving DecidableEq, Repr

namespace Error

def message : Error → String
  | .injected => ErrorKind.injected.message
  | .host e => e.message
  | .outOfBounds op off n size =>
      s!"out-of-bounds {op.verb} at {off}+{n} (image is {size} bytes): "
        ++ ErrorKind.unexpectedEnd.message
  | .during op place cause => op.verb ++ " " ++ place.text ++ ": " ++ cause.message
  | .clearing cause => "clear metadata: " ++ cause.message
  | .opening path cause => "open " ++ Text.ofBytes path ++ ": " ++ cause.message
  | .loading path cause => "load " ++ Text.ofBytes path ++ ": " ++ cause.message
  | .truncating path size cause =>
      "truncate " ++ Text.ofBytes path ++ s!" to {size} bytes: " ++ cause.message
  | .syncing cause => "file sync failed: " ++ cause.message
  | .closing cause => "close: " ++ cause.message
  | .shortSuperblock bytes =>
      s!"superblock is {bytes} bytes, need 20: " ++ ErrorKind.format.message
  | .unknownMagic magic =>
      "unrecognized magic 0x" ++ Text.hexPadded 4 magic.toNat ++ ": " ++ ErrorKind.format.message
  | .inodeLength bytes =>
      s!"inode record is {bytes} bytes, want 32: " ++ ErrorKind.format.message
  | .noFreeInode inUse => s!"{inUse} inodes in use: " ++ ErrorKind.noFreeInode.message
  | .noFreeZone inUse => s!"{inUse} zones in use: " ++ ErrorKind.noFreeZone.message
  | .nameTooLong name width =>
      Text.quoted name ++ s!" is longer than {width} bytes: " ++ ErrorKind.nameTooLong.message
  | .invalidName name => "invalid name " ++ Text.quoted name ++ ": " ++ ErrorKind.usage.message
  | .nameTaken name => Text.quoted name ++ ": " ++ ErrorKind.alreadyExists.message
  | .noSuchName name => Text.quoted name ++ ": " ++ ErrorKind.notFound.message
  | .notDirectory name =>
      Text.quoted name ++ " is not a directory: " ++ ErrorKind.notFound.message
  | .pathTooDeep path =>
      Text.quoted path ++ ": only files in the root or one directory below it: "
        ++ ErrorKind.unsupportedPath.message
  | .directoryFull number => s!"directory {number}: " ++ ErrorKind.directoryFull.message
  | .entriesTooMany count size =>
      s!"{count} entries do not fit in {size} bytes: " ++ ErrorKind.directoryFull.message
  | .linksSaturated links =>
      s!"root link count saturated at {links}: " ++ ErrorKind.tooManyLinks.message
  | .entryLeft name directory cause =>
      "entry " ++ Text.quoted name ++ s!" left in directory {directory}: " ++ cause.message ++ ": "
        ++ ErrorKind.inconsistent.message
  | .badNameWidth width => s!"name width {width}: want 14 or 30: " ++ ErrorKind.usage.message
  | .tooManyBlocks blocks => s!"{blocks} blocks exceeds 65535: " ++ ErrorKind.usage.message
  | .tooManyInodes inodes => s!"{inodes} inodes exceeds 65535: " ++ ErrorKind.usage.message
  | .tooFewBlocks blocks inodes =>
      s!"{blocks} blocks cannot hold {inodes} inodes and a root directory: "
        ++ ErrorKind.usage.message
  | .imageTooSmall blocks needed =>
      s!"image has {blocks} blocks, need {needed}: " ++ ErrorKind.usage.message
  | .missingCommand => "missing command: " ++ ErrorKind.usage.message
  | .unknownCommand word =>
      "unknown command " ++ Text.quoted word ++ ": " ++ ErrorKind.usage.message
  | .commandUsage synopsis => "usage: " ++ synopsis ++ ": " ++ ErrorKind.usage.message
  | .commandFlags command e =>
      command ++ ": " ++ e.message ++ ": " ++ ErrorKind.usage.message
  | .formatOperands => "mkfs takes no operands: " ++ ErrorKind.usage.message
  | .help => ErrorKind.help.message
  | .flags e => e.message
  | .tooFewWords needed given => s!"requires at least {needed} arg(s), only received {given}"
  | .report cause => "encode info: yaml: write error: " ++ cause.message
  | .joined first second => first.message ++ "\n" ++ second.message

/-- The kinds an error belongs to: its own and those of the errors it wraps. The cause of an entry
left behind and the fault of a report are told in the text only. -/
def kinds : Error → List ErrorKind
  | .injected => [.injected]
  | .host e => [.host e]
  | .outOfBounds .. => [.unexpectedEnd]
  | .during _ _ cause => cause.kinds
  | .clearing cause => cause.kinds
  | .opening _ cause => cause.kinds
  | .loading _ cause => cause.kinds
  | .truncating _ _ cause => cause.kinds
  | .syncing cause => cause.kinds
  | .closing cause => cause.kinds
  | .shortSuperblock _ => [.format]
  | .unknownMagic _ => [.format]
  | .inodeLength _ => [.format]
  | .noFreeInode _ => [.noFreeInode]
  | .noFreeZone _ => [.noFreeZone]
  | .nameTooLong .. => [.nameTooLong]
  | .invalidName _ => [.usage]
  | .nameTaken _ => [.alreadyExists]
  | .noSuchName _ => [.notFound]
  | .notDirectory _ => [.notFound]
  | .pathTooDeep _ => [.unsupportedPath]
  | .directoryFull _ => [.directoryFull]
  | .entriesTooMany .. => [.directoryFull]
  | .linksSaturated _ => [.tooManyLinks]
  | .entryLeft .. => [.inconsistent]
  | .badNameWidth _ => [.usage]
  | .tooManyBlocks _ => [.usage]
  | .tooManyInodes _ => [.usage]
  | .tooFewBlocks .. => [.usage]
  | .imageTooSmall .. => [.usage]
  | .missingCommand => [.usage]
  | .unknownCommand _ => [.usage]
  | .commandUsage _ => [.usage]
  | .commandFlags .. => [.usage]
  | .formatOperands => [.usage]
  | .help => [.help]
  | .flags .help => [.help]
  | .flags _ => []
  | .tooFewWords .. => []
  | .report _ => []
  | .joined first second => first.kinds ++ second.kinds

def hasKind (e : Error) (k : ErrorKind) : Bool :=
  e.kinds.contains k

def joinAll (cause : Error) (later : List Error) : Error :=
  later.foldl .joined cause

end Error

inductive Panic where
  | nullInode
  | freeingNullInode
  | freeingReservedZone
  | bitmapLength (bytes : Nat) (blocks : UInt64)
  | blockLength (bytes : Nat)
  | missingPage (op : Transfer) (page : UInt64)
  | outOfRange
  | divisionByZero
  | allocation
deriving DecidableEq, Repr

def Panic.message? : Panic → Option String
  | .nullInode => some "inode.Offset: inode 0"
  | .freeingNullInode => some "FreeInode"
  | .freeingReservedZone => some "FreeZone"
  | .bitmapLength bytes blocks => some s!"bitmap data is {bytes} bytes, want {blocks} blocks"
  | .blockLength bytes => some s!"v is not block-sized ({bytes} bytes)"
  | .missingPage op page => some s!"out-of-bounds {op.verb} at {page}"
  | .outOfRange => none
  | .divisionByZero => none
  | .allocation => none

inductive Stop where
  | error (e : Error)
  | panic (p : Panic)
deriving DecidableEq, Repr

end MinixVolume
