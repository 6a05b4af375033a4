import MinixVolume.Command
import MinixVolume.Completion
import MinixVolume.Disk.Hosted

namespace MinixVolume

namespace CommandLine

structure Outcome where
  result : Except Stop Unit
  output : Buffer := .empty
  log : Log := #[]
  files : FileTree

structure Settings where
  verbose : Int64 := 0
  dryRun : Bool := false
  color : Bool := false
  clock : Int64 := 0

section Steps

variable {δ : Type} [Disk δ]

def thenClose (x : MountM δ Unit) : MountM δ Unit := do
  let result ← Mount.attempt x
  let closed ← Mount.attempt Mount.close
  match result, closed with
  | .error e, _ => Mount.fail e
  | .ok _, .error e => Mount.fail e
  | .ok _, .ok _ => return

/-- Opens the volume and runs a command; what it changed is made durable. -/
def work (s : Settings) (c : Command) : MountM δ Unit := do
  let v ← Volume.openDisk s.clock s.color
  c.run v
  if c.mutates then Mount.barrier

def perform (s : Settings) (c : Command) : MountM δ Unit :=
  thenClose (work s c)

def formatSummary (sb : Superblock) : String :=
  s!"{sb.inodes} inodes\n{sb.zones} blocks\nFirstdatazone={sb.firstDataZone}\n"
    ++ s!"Zonesize={sb.zoneSize}\nMaxsize={sb.maxSize}\n"

def performFormat (o : FormatOptions) : MountM δ Unit :=
  thenClose do
    let sb ← Format.run o
    Mount.barrier
    Mount.put (Buffer.ofBytes (Bytes.ofString (formatSummary sb)))

end Steps

def dryRun (s : Settings) (files : FileTree) (path : Bytes) (c : Command) :
    Except Stop (Except Stop Unit × Mount PagedDisk) :=
  (PagedDisk.load files path).map fun d =>
    Mount.exec (perform s c) { disk := d, log := #[.dryRun path] }

def realRun (s : Settings) (files : FileTree) (path : Bytes) (c : Command) :
    Except Stop (Except Stop Unit × Mount FileDisk) :=
  (FileDisk.openExisting files path).map fun d => Mount.exec (perform s c) { disk := d }

def runCommand (s : Settings) (files : FileTree) (path : Bytes) (c : Command) : Outcome :=
  if s.dryRun then
    match dryRun s files path c with
    | .error e => { result := .error e, files := files }
    | .ok (r, m) => ⟨r, m.output.written, m.log, files⟩
  else
    match realRun s files path c with
    | .error e => { result := .error e, files := files }
    | .ok (r, m) => ⟨r, m.output.written, m.log, m.disk.files⟩

def formatImage (s : Settings) (files : FileTree) (path : Bytes) (o : FormatOptions) : Outcome :=
  match o.layout with
  | .error e => { result := .error e, files := files }
  | .ok sb =>
      if s.dryRun then
        match MemoryDisk.blank sb.zones.toUInt64 with
        | .error e => { result := .error e, files := files }
        | .ok d =>
            let (r, m) := Mount.exec (performFormat o) { disk := d }
            ⟨r, m.output.written, m.log, files⟩
      else
        match FileDisk.create files path sb.zones.toUInt64 with
        | (.error e, files) => { result := .error e, files := files }
        | (.ok d, _) =>
            let (r, m) := Mount.exec (performFormat o) { disk := d }
            ⟨r, m.output.written, m.log, m.disk.files⟩

def runFormat (s : Settings) (files : FileTree) (path : Bytes) (words : List Bytes) : Outcome :=
  match FormatOptions.ofWords words with
  | .ok o => formatImage s files path { o with modified := s.clock.toUInt64.toUInt32 }
  | .error .help =>
      { result := .ok ()
        output := Buffer.ofBytes (Bytes.ofString FormatOptions.usage)
        files := files }
  | .error e => { result := .error (.error e), files := files }

def detail (verbose : Int64) : Option Nat :=
  if verbose < 0 then none
  else if verbose = 0 then some 0
  else if verbose = 1 then some 1
  else if verbose = 2 then some 5
  else some 15

def shown (verbose : Int64) (level : Nat) (e : Event) : Bool :=
  e.within level && (0 < verbose || e.severity == .warning || e.severity == .error)

def helpFlag : Flag :=
  { name := "help", letter := some 0x68, kind := .switch, about := "help for mfstool" }

def flags : List Flag :=
  [{ name := "dry-run"
     kind := .switch
     about := "work on an in-memory copy and leave the image untouched" },
   helpFlag,
   { name := "no-color", kind := .switch, about := "disable coloured output" },
   { name := "verbose"
     letter := some 0x76
     kind := .counter
     about := "log debug traces (repeat for more detail)" }]

def help : String :=
  "mfstool reads and edits a Minix v1 image directly.\n\n"
    ++ "Commands:\n"
    ++ "  ls [--long]        list the root directory\n"
    ++ "  cat [dir/]name     print a file from the root or one directory below it\n"
    ++ "  touch name         create an empty file in the root directory\n"
    ++ "  mkdir name         create a directory in the root directory\n"
    ++ "  info               print the superblock, layout and free counts\n"
    ++ "  mkfs [options]     create a new image (see mkfs --help)\n\n"
    ++ "Flags must come before the image path.\n\n"
    ++ "Usage:\n"
    ++ "  mfstool [flags] <image> <command> [args]\n\n"
    ++ "Flags:\n"
    ++ "      --dry-run         work on an in-memory copy and leave the image untouched\n"
    ++ "  -h, --help            help for mfstool\n"
    ++ "      --no-color        disable coloured output\n"
    ++ "  -v, --verbose count   log debug traces (repeat for more detail)\n"

structure Answer where
  code : Except Panic UInt32
  stdout : Buffer := .empty
  stderr : String := ""
  files : FileTree

def complaint (e : Error) : String :=
  "mfstool: " ++ e.message ++ "\n"

def refuse (files : FileTree) (e : Error) : Answer :=
  { code := .ok 1, stderr := complaint e, files := files }

def Outcome.answer (verbose : Int64) (level : Nat) (o : Outcome) : Answer :=
  let logged := String.join
    ((o.log.toList.filter (shown verbose level)).map fun e => e.terminalLine ++ "\n")
  match o.result with
  | .ok _ => ⟨.ok 0, o.output, logged, o.files⟩
  | .error (.error e) => ⟨.ok 1, o.output, logged ++ complaint e, o.files⟩
  | .error (.panic p) => ⟨.error p, o.output, logged, o.files⟩

def runWords (s : Settings) (files : FileTree) (path command : Bytes) (words : List Bytes) :
    Outcome :=
  if command = Bytes.ofString "mkfs" then runFormat s files path words
  else
    match Command.parse (command :: words) with
    | .error e => { result := .error (.error e), files := files }
    | .ok c => runCommand s files path c

def complete (files : FileTree) (r : Completion.Request) : Answer :=
  match r.words.getLast? with
  | none => refuse files (.tooFewWords 1 0)
  | some last =>
      let c := Completion.ofLast flags r.words.dropLast last
      { code := .ok 0
        stdout := Buffer.ofBytes (Bytes.ofString (c.text r.described))
        stderr := "Completion ended with directive: " ++ c.fallback.name ++ "\n"
        files := files }

def imagePath? (words : List Bytes) : Option Bytes :=
  match FlagReading.ofWords flags false words with
  | .error _ => none
  | .ok r => r.operands.head?

def runTool (words : List Bytes) (clock : Int64) (terminal : Bool) (files : FileTree) : Answer :=
  match FlagReading.ofWords flags false words with
  | .error e => refuse files (.flags e)
  | .ok r =>
      if r.isOn "help" then
        { code := .ok 0, stdout := Buffer.ofBytes (Bytes.ofString help), files := files }
      else
        match r.operands with
        | path :: command :: rest =>
            let verbose := r.countOf "verbose"
            match detail verbose with
            | none => { code := .error .outOfRange, files := files }
            | some level =>
                let settings : Settings :=
                  { verbose := verbose
                    dryRun := r.isOn "dry-run"
                    color := terminal && !r.isOn "no-color"
                    clock := clock }
                (runWords settings files path command rest).answer verbose level
        | operands => refuse files (.tooFewWords 2 operands.length)

/-- Runs the tool, or answers a shell that completes its words; a request is not recognised behind
the flag for help. `terminal` says whether the output is shown on a terminal. -/
def run (words : List Bytes) (clock : Int64) (terminal : Bool) (files : FileTree) : Answer :=
  match Completion.Request.ofWords (flags.erase helpFlag) words with
  | some request => complete files request
  | none => runTool words clock terminal files

end CommandLine

end MinixVolume
