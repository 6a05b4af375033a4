import MinixVolume.Disk

namespace MinixVolume

inductive DiskCall where
  | read (off n : UInt64)
  | write (off : UInt64) (data : Buffer)
  | size
  | barrier

inductive DiskOperation where
  | read
  | write
  | size
  | barrier
deriving DecidableEq, Repr

namespace DiskCall

def operation : DiskCall → DiskOperation
  | .read .. => .read
  | .write .. => .write
  | .size => .size
  | .barrier => .barrier

def offset : DiskCall → UInt64
  | .read off _ => off
  | .write off _ => off
  | .size | .barrier => 0

def length : DiskCall → UInt64
  | .read _ n => n
  | .write _ data => UInt64.ofNat data.size
  | .size | .barrier => 0

def isZero : DiskCall → Bool
  | .write _ data => Buffer.isZero data
  | _ => true

end DiskCall

/-- Calls that meet the conditions fail, after the first `skip` of them and for `count` of them. -/
structure FaultRule where
  on : DiskOperation
  from? : Option UInt64 := none
  below? : Option UInt64 := none
  length? : Option UInt64 := none
  zeroOnly : Bool := false
  skip : Int := 0
  count : Option Int := none
deriving DecidableEq, Repr

namespace FaultRule

def applies (r : FaultRule) (c : DiskCall) : Bool :=
  r.on == c.operation
    && r.from?.all (· ≤ c.offset)
    && r.below?.all (c.offset < ·)
    && r.length?.all (· == c.length)
    && (!r.zeroOnly || c.isZero)

/-- Whether some rule makes the call fail, and the rules afterwards. Rules are tried in order until
one does. -/
def strike (c : DiskCall) : List FaultRule → Bool × List FaultRule
  | [] => (false, [])
  | r :: rest =>
      let pass (r : FaultRule) : Bool × List FaultRule :=
        let (hit, rest) := strike c rest
        (hit, r :: rest)
      if !r.applies c then pass r
      else if 0 < r.skip then pass { r with skip := r.skip - 1 }
      else
        match r.count with
        | none => (true, r :: rest)
        | some k => if k ≤ 0 then pass r else (true, { r with count := some (k - 1) } :: rest)

end FaultRule

structure FaultyDisk (δ : Type) where
  disk : δ
  rules : List FaultRule := []

namespace FaultyDisk

variable {δ : Type} {α : Type}

def guarded (c : DiskCall) (x : ExceptT Stop (StateM δ) α) :
    ExceptT Stop (StateM (FaultyDisk δ)) α :=
  ExceptT.mk fun ⟨disk, rules⟩ =>
    match FaultRule.strike c rules with
    | (true, rules) => (.error (.error .injected), ⟨disk, rules⟩)
    | (false, rules) =>
        let (r, disk) := x.run disk
        (r, ⟨disk, rules⟩)

instance [Disk δ] : Disk (FaultyDisk δ) where
  read off n := guarded (.read off n) (Disk.read off n)
  write off data := guarded (.write off data) (Disk.write off data)
  size := guarded .size Disk.size
  barrier := guarded .barrier Disk.barrier
  close := ExceptT.mk fun ⟨disk, rules⟩ =>
    let (r, disk) := (Disk.close (δ := δ)).run disk
    (r, ⟨disk, rules⟩)
  traced d := Disk.traced d.disk

end FaultyDisk

end MinixVolume
