import MinixVolume.CommandLine
import MinixVolume.Proofs.Pages
import MinixVolume.Proofs.Portions
import MinixVolume.Proofs.Twins

namespace MinixVolume

section Level

variable {δ δ' : Type} [Disk δ] [Disk δ'] {Holds : δ → Buffer → Prop}
  {Holds' : δ' → Buffer → Prop}

def Level (Holds : δ → Buffer → Prop) (Holds' : δ' → Buffer → Prop) (d : δ) (d' : δ') : Prop :=
  ∃ bytes : Buffer, bytes.size < sizeLimit ∧ Holds d bytes ∧ Holds' d' bytes

variable (acts : ActsAsMemory Holds) (acts' : ActsAsMemory Holds')
include acts acts'

theorem Mount.Alike.barrier :
    Alike (Level Holds Holds') AnyRoot (Mount.barrier : MountM δ Unit)
      (Mount.barrier : MountM δ' Unit) := by
  have call : Alike (Level Holds Holds') AnyRoot (onDisk Disk.barrier : MountM δ Unit)
      (onDisk Disk.barrier : MountM δ' Unit) := by
    rintro m m' ⟨⟨bytes, short, h, h'⟩, directory, output, root⟩
    rw [exec_onDisk, exec_onDisk, acts.barrier_eq h, acts'.barrier_eq h']
    exact ⟨rfl, ⟨bytes, short, h, h'⟩, directory, output, root⟩
  exact call.bind fun _ => traced _ ()

end Level

namespace CommandLine

open Mount

section Runs

variable {δ δ' : Type} [Disk δ] [Disk δ'] {Holds : δ → Buffer → Prop}
  {Holds' : δ' → Buffer → Prop} (acts : ActsAsMemory Holds) (acts' : ActsAsMemory Holds')
include acts acts'

end Runs

end CommandLine

end MinixVolume
