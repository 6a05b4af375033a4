import MinixVolume.Volume.Create
import MinixVolume.Volume.Report

namespace MinixVolume

inductive Command where
  | ls (long : Bool)
  | cat (path : Bytes)
  | touch (name : Bytes)
  | mkdir (name : Bytes)
  | info
deriving DecidableEq, Repr

namespace Command

def mutates : Command → Bool
  | .touch _ | .mkdir _ => true
  | .ls _ | .cat _ | .info => false

/-- A single operand that is not empty. It is taken as it stands, also with a dash in front. -/
def oneOperand (synopsis : String) : List Bytes → Except Error Bytes
  | [w] => if w = [] then .error (.commandUsage synopsis) else .ok w
  | _ => .error (.commandUsage synopsis)

def listFlags : List Flag :=
  [{ name := "long", letter := some 0x6c, kind := .switch }]

def parseList (words : List Bytes) : Except Error Command :=
  match FlagReading.ofWords listFlags true words with
  | .error e => .error (.commandFlags "ls" e)
  | .ok r =>
      if r.operands = [] then .ok (.ls (r.isOn "long"))
      else .error (.commandUsage "ls [--long]")

def parse : List Bytes → Except Error Command
  | [] => .error .missingCommand
  | word :: operands =>
      if word = Bytes.ofString "ls" then parseList operands
      else if word = Bytes.ofString "cat" then
        (oneOperand "cat [dir/]name" operands).map .cat
      else if word = Bytes.ofString "touch" then
        (oneOperand "touch name" operands).map .touch
      else if word = Bytes.ofString "mkdir" then
        (oneOperand "mkdir name" operands).map .mkdir
      else if word = Bytes.ofString "info" then
        if operands = [] then .ok .info else .error (.commandUsage "info")
      else .error (.unknownCommand word)

def run {δ : Type} [Disk δ] (v : Volume) : Command → MountM δ Unit
  | .ls long => v.ls long
  | .cat path => v.cat path
  | .touch name => discard (v.touch name)
  | .mkdir name => discard (v.mkdir name)
  | .info => v.info

end Command

namespace FormatOptions

def flags : List Flag :=
  [{ name := "blocks", kind := .number }, { name := "inodes", kind := .number },
   { name := "namelen", kind := .number }]

def usage : String :=
  "Usage: mfstool <image> mkfs [options]\n"
    ++ "      --blocks uint    image size in 1 KiB blocks (default 1440)\n"
    ++ "      --inodes uint    number of inodes (default blocks/3)\n"
    ++ "      --namelen uint   maximum file name length, 14 or 30 (default 14)\n"

def ofWords (words : List Bytes) : Except Error FormatOptions :=
  match FlagReading.ofWords flags true words with
  | .error .help => .error .help
  | .error e => .error (.commandFlags "mkfs" e)
  | .ok r =>
      if r.operands ≠ [] then .error .formatOperands
      else .ok {
        blocks := r.wordOf "blocks" defaultBlocks
        inodes := r.wordOf "inodes" 0
        nameWidth := r.wordOf "namelen" 14 }

end FormatOptions

end MinixVolume
