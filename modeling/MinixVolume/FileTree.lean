import MinixVolume.Error
import MinixVolume.HostFile

namespace MinixVolume

inductive Node where
  | file (content : HostFile)
  | directory
  | sink

/-- Nodes by their path from the top of the tree. The working directory is always there, with all
the directories above it. -/
structure FileTree where
  workingDirectory : List Bytes := []
  nodes : List (List Bytes × Node) := []

namespace FileTree

def around (workingDirectory : List Bytes) : FileTree :=
  let devices := Bytes.ofString "dev"
  ⟨workingDirectory, [([devices], .directory), ([devices, Bytes.ofString "null"], .sink)]⟩

def find? (t : FileTree) (path : List Bytes) : Option Node :=
  if path.isPrefixOf t.workingDirectory then some .directory else t.nodes.lookup path

def replace (path : List Bytes) (n : Node) : List (List Bytes × Node) → List (List Bytes × Node)
  | [] => [(path, n)]
  | (p, old) :: rest => if p = path then (p, n) :: rest else (p, old) :: replace path n rest

def insert (t : FileTree) (path : List Bytes) (n : Node) : FileTree :=
  { t with nodes := replace path n t.nodes }

theorem lookup_replace (path p : List Bytes) (n : Node) (ns : List (List Bytes × Node)) :
    (replace path n ns).lookup p = if p = path then some n else ns.lookup p := by
  induction ns with
  | nil =>
      by_cases h : p = path
      · simp [replace, h]
      · simp [replace, List.lookup_cons, h, beq_false_of_ne h]
  | cons x ns ih =>
      obtain ⟨q, m⟩ := x
      by_cases hq : q = path
      · by_cases h : p = path
        · simp [replace, hq, h]
        · simp [replace, hq, List.lookup_cons, h, beq_false_of_ne h]
      · by_cases h : p = q
        · subst h
          simp [replace, hq]
        · simp only [replace, hq, if_false, List.lookup_cons, beq_false_of_ne h, ih]

def dot : Bytes := [0x2e]

def dotDot : Bytes := [0x2e, 0x2e]

/-- Follows `names` from the directory `here`. Every node passed on the way is a directory; the
last one need not be there. -/
def walk (t : FileTree) : List Bytes → List Bytes → Except HostError (List Bytes)
  | here, [] => .ok here
  | here, name :: rest =>
      match t.find? here with
      | none => .error .noEntry
      | some .directory =>
          if 255 < name.length then .error .nameTooLong
          else if name = dot then walk t here rest
          else if name = dotDot then walk t here.dropLast rest
          else walk t (here ++ [name]) rest
      | some _ => .error .notDirectory

def names (path : Bytes) : List Bytes :=
  (Bytes.pieces 0x2f path).filter (· ≠ [])

def asksDirectory (path : Bytes) : Bool :=
  path.getLast? == some 0x2f

def follow (t : FileTree) (path : Bytes) (names : List Bytes) : Except HostError (List Bytes) :=
  if path.contains 0 then .error .invalidArgument
  else if path.isEmpty then .error .noEntry
  else if 4096 ≤ path.length then .error .nameTooLong
  else t.walk (if path.head? == some 0x2f then [] else t.workingDirectory) names

def resolve (t : FileTree) (path : Bytes) : Except HostError (List Bytes) :=
  t.follow path (names path)

def resolveDirectory (t : FileTree) (path : Bytes) : Except HostError (List Bytes) :=
  t.follow path ((names path).dropLast ++ [dot])

def openFile (t : FileTree) (path : Bytes) : Except HostError (List Bytes × HostFile) :=
  match t.resolve path with
  | .error e => .error e
  | .ok p =>
      match t.find? p with
      | none => .error .noEntry
      | some .directory => .error .isDirectory
      | some (.file content) =>
          if asksDirectory path then .error .notDirectory else .ok (p, content)
      | some .sink => if asksDirectory path then .error .notDirectory else .ok (p, {})

def createFile (t : FileTree) (path : Bytes) :
    Except HostError (List Bytes × HostFile × FileTree) :=
  if asksDirectory path then
    match t.resolveDirectory path with
    | .error e => .error e
    | .ok _ => .error .isDirectory
  else
    match t.resolve path with
    | .error e => .error e
    | .ok p =>
        match t.find? p with
        | some .directory => .error .isDirectory
        | some (.file content) => .ok (p, content, t)
        | some .sink => .ok (p, {}, t)
        | none => .ok (p, {}, t.insert p (.file {}))

def content? (t : FileTree) (p : List Bytes) : Option HostFile :=
  match t.find? p with
  | some (.file content) => some content
  | some .sink => some {}
  | _ => none

def isSink (t : FileTree) (p : List Bytes) : Bool :=
  match t.find? p with
  | some .sink => true
  | _ => false

def store (t : FileTree) (p : List Bytes) (content : HostFile) : FileTree :=
  if t.isSink p then t else t.insert p (.file content)

def largestFile : Nat := 0xffffffff000

def resize (t : FileTree) (p : List Bytes) (content : HostFile) (size : Int) :
    Except HostError FileTree :=
  if size < 0 || t.isSink p then .error .invalidArgument
  else if largestFile < size then .error .fileTooLarge
  else .ok (t.insert p (.file (content.resize size.toNat)))

end FileTree

end MinixVolume
