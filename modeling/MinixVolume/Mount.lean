import MinixVolume.Disk
import MinixVolume.Log

namespace MinixVolume

structure Output where
  written : Buffer := .empty
  /-- How many more writes are taken; all of them when `none`. -/
  room : Option Nat := none

structure Mount (δ : Type) where
  disk : δ
  directory : Inode := {}
  output : Output := {}
  log : Log := #[]

abbrev MountM (δ : Type) := ExceptT Stop (StateM (Mount δ))

namespace Mount

variable {δ : Type} {α : Type} {β : Type}

def exec (x : MountM δ α) (m : Mount δ) : Except Stop α × Mount δ :=
  x.run.run m

@[simp] theorem exec_pure (a : α) (m : Mount δ) : exec (pure a) m = (.ok a, m) := rfl

@[simp] theorem exec_bind (x : MountM δ α) (f : α → MountM δ β) (m : Mount δ) :
    exec (x >>= f) m =
      match exec x m with
      | (.ok a, m) => exec (f a) m
      | (.error e, m) => (.error e, m) := by
  rcases h : x.run.run m with ⟨r, m'⟩
  cases r with
  | ok a =>
      simp only [exec, ExceptT.run_bind, StateT.run_bind, h]
      rfl
  | error e =>
      simp only [exec, ExceptT.run_bind, StateT.run_bind, h]
      rfl

@[simp] theorem exec_map (f : α → β) (x : MountM δ α) (m : Mount δ) :
    exec (f <$> x) m = ((exec x m).1.map f, (exec x m).2) := by
  rw [map_eq_pure_bind, exec_bind]
  rcases exec x m with ⟨r, m'⟩
  cases r with
  | ok a => rfl
  | error e => rfl

@[simp] theorem exec_throw (e : Stop) (m : Mount δ) :
    exec (throw e : MountM δ α) m = (.error e, m) := rfl

@[simp] theorem exec_get (m : Mount δ) : exec get m = (.ok m, m) := rfl

@[simp] theorem exec_modify (f : Mount δ → Mount δ) (m : Mount δ) :
    exec (modify f) m = (.ok (), f m) := rfl

@[simp] theorem exec_liftExcept (r : Except Stop α) (m : Mount δ) :
    exec (liftExcept r : MountM δ α) m = (r, m) := by
  cases r with
  | ok a => rfl
  | error e => rfl

def fail (e : Error) : MountM δ α :=
  throw (.error e)

@[simp] theorem exec_fail (e : Error) (m : Mount δ) :
    exec (fail e : MountM δ α) m = (.error (.error e), m) := rfl

def caught : Except Stop α → Except Stop (Except Error α)
  | .ok a => .ok (.ok a)
  | .error (.error e) => .ok (.error e)
  | .error (.panic p) => .error (.panic p)

def attempt (x : MountM δ α) : MountM δ (Except Error α) :=
  ExceptT.mk fun m =>
    let (r, m) := x.run.run m
    (caught r, m)

@[simp] theorem exec_attempt (x : MountM δ α) (m : Mount δ) :
    exec (attempt x) m = (caught (exec x m).1, (exec x m).2) := rfl

def wrapped (wrap : Error → Error) : Except Stop α → Except Stop α
  | .ok a => .ok a
  | .error (.error e) => .error (.error (wrap e))
  | .error (.panic p) => .error (.panic p)

def wrapping (wrap : Error → Error) (x : MountM δ α) : MountM δ α :=
  ExceptT.mk fun m =>
    let (r, m) := x.run.run m
    (wrapped wrap r, m)

@[simp] theorem exec_wrapping (wrap : Error → Error) (x : MountM δ α) (m : Mount δ) :
    exec (wrapping wrap x) m = (wrapped wrap (exec x m).1, (exec x m).2) := rfl

def emit (e : Event) : MountM δ Unit :=
  modify fun m => { m with log := m.log.push e }

@[simp] theorem exec_emit (e : Event) (m : Mount δ) :
    exec (emit e) m = (.ok (), { m with log := m.log.push e }) := rfl

def trace (t : Trace) : MountM δ Unit :=
  emit (.trace t)

@[simp] theorem exec_trace (t : Trace) (m : Mount δ) :
    exec (trace t) m = (.ok (), { m with log := m.log.push (.trace t) }) := rfl

def onDisk (x : ExceptT Stop (StateM δ) α) : MountM δ α :=
  ExceptT.mk fun ⟨disk, directory, output, log⟩ =>
    let (r, disk) := x.run.run disk
    (r, ⟨disk, directory, output, log⟩)

@[simp] theorem exec_onDisk (x : ExceptT Stop (StateM δ) α) (m : Mount δ) :
    exec (onDisk x) m = ((x.run.run m.disk).1, { m with disk := (x.run.run m.disk).2 }) := rfl

def modifyDirectory (f : Inode → Inode) : MountM δ Unit :=
  modify fun m => { m with directory := f m.directory }

@[simp] theorem exec_modifyDirectory (f : Inode → Inode) (m : Mount δ) :
    exec (modifyDirectory f) m = (.ok (), { m with directory := f m.directory }) := rfl

def put (data : Buffer) : MountM δ Unit := do
  match (← get).output.room with
  | some 0 => fail .injected
  | room =>
      modify fun m =>
        { m with output := { written := m.output.written ++ data, room := room.map (· - 1) } }

variable [Disk δ]

def readAt (off n : UInt64) : MountM δ Buffer := do
  let b ← onDisk (Disk.read off n)
  if Disk.traced (← get).disk then trace (.readBytes off n)
  return b

def writeAt (off : UInt64) (data : Buffer) : MountM δ Unit := do
  onDisk (Disk.write off data)
  if Disk.traced (← get).disk then trace (.wroteBytes off data.size)

def size : MountM δ UInt64 :=
  onDisk Disk.size

def barrier : MountM δ Unit := do
  onDisk Disk.barrier
  if Disk.traced (← get).disk then trace .barrier

def close : MountM δ Unit :=
  onDisk Disk.close

def readBlocks (block count : UInt64) : MountM δ Buffer :=
  readAt (block * blockSize) (count * blockSize)

def readBlock (block : UInt64) : MountM δ Buffer :=
  readAt (block * blockSize) blockSize

def writeBlock (block : UInt64) (data : Buffer) : MountM δ Unit :=
  if data.size ≠ 1024 then throw (.panic (.blockLength data.size))
  else writeAt (block * blockSize) data

def blockCount : MountM δ UInt64 := do
  return (← size) / blockSize

end Mount

end MinixVolume
