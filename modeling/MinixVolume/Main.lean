import MinixVolume.CommandLine
import Std.Time.DateTime.Timestamp

namespace MinixVolume

def nodeAt (path : String) : IO (Option Node) := do
  try
    return some (.file (.ofBuffer (← IO.FS.readBinFile path)))
  catch
    | .inappropriateType .. => return some .directory
    | .noFileOrDirectory .. => return none
    | e => throw e

def survey (files : FileTree) (here : List Bytes) (shown : String) : List Bytes → IO FileTree
  | [] => return files
  | name :: rest => do
      let shown := shown ++ Text.ofBytes name
      let here :=
        if name = FileTree.dot then here
        else if name = FileTree.dotDot then here.dropLast
        else here ++ [name]
      match files.find? here with
      | some .directory => survey files here (shown ++ "/") rest
      | some _ => return files
      | none =>
          match ← nodeAt shown with
          | none => return files
          | some .directory => survey (files.insert here .directory) here (shown ++ "/") rest
          | some n => return files.insert here n

def filesAround (path : Bytes) : IO FileTree := do
  let files := FileTree.around (FileTree.names (Bytes.ofString (← IO.currentDir).toString))
  if path.contains 0 then return files
  else if path.head? == some 0x2f then survey files [] "/" (FileTree.names path)
  else survey files files.workingDirectory "" (FileTree.names path)

def save (path : Bytes) (before after : FileTree) : IO Unit := do
  match after.openFile path with
  | .error _ => return
  | .ok (_, content) =>
      let unchanged :=
        match before.openFile path with
        | .ok (_, old) => old.toBuffer == content.toBuffer
        | .error _ => false
      unless unchanged do
        IO.FS.writeBinFile (Text.ofBytes path) content.toBuffer

end MinixVolume

open MinixVolume in
def main (args : List String) : IO UInt32 := do
  let words := args.map Bytes.ofString
  let path := (CommandLine.imagePath? words).getD []
  let files ← filesAround path
  let now ← Std.Time.Timestamp.now
  let stdout ← IO.getStdout
  let stderr ← IO.getStderr
  let clock := Int64.ofInt now.toSecondsSinceUnixEpoch.val
  let answer := CommandLine.run words clock (← stdout.isTty) files
  save path files answer.files
  stdout.write answer.stdout
  stderr.putStr answer.stderr
  match answer.code with
  | .ok code => return code
  | .error p =>
      stderr.putStrLn ("panic: " ++ p.message?.getD "runtime error")
      return 2
