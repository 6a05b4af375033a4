import Mathlib.Data.List.Nodup
import Mathlib.Data.List.Pairwise
import Mathlib.Data.List.Perm.Basic
import MinixVolume.Proofs.Frame

namespace MinixVolume

theorem Inode.isDirectory_congr {ip ip' : Inode} (same : ip'.mode = ip.mode) :
    ip'.isDirectory = ip.isDirectory := by
  rw [isDirectory, isDirectory, same]

namespace Image

section

variable (sb : Superblock) (img : Buffer)

def usedInodes : List Nat :=
  (List.range' 1 sb.inodes.toNat).filter (inodeUsed sb img)

def ownedZones : List UInt64 :=
  (usedInodes sb img).flatMap fun n => (inode sb img n).zones

def directories : List Nat :=
  (usedInodes sb img).filter fun n => (inode sb img n).isDirectory

def allEntries : List Entry :=
  (directories sb img).flatMap fun n => entries sb img (inode sb img n)

end

/-- The parts of the image lie apart, used inodes own zones that are in use and no zone twice, and
entries name used inodes. -/
structure Orderly (img : Buffer) : Prop where
  fits : (header img).Fits img.size
  root_used : inodeUsed (header img) img 1 = true
  root_directory : (inode (header img) img 1).isDirectory = true
  zones_used : ∀ z ∈ ownedZones (header img) img,
    (header img).IsDataZone z ∧ zoneUsed (header img) img z = true
  zones_once : (ownedZones (header img) img).Nodup
  entries_used : ∀ e ∈ allEntries (header img) img, e.inode.toNat ∈ usedInodes (header img) img
  names_once : ((entries (header img) img (inode (header img) img 1)).map (·.name)).Nodup

/-- An orderly image in which every inode has as many links as there are entries for it. -/
structure Consistent (img : Buffer) : Prop extends Orderly img where
  links : ∀ n ∈ usedInodes (header img) img,
    (inode (header img) img n).links.toNat
      = (allEntries (header img) img).countP (·.inode.toNat = n)

variable {sb : Superblock} {img img' : Buffer}

theorem mem_usedInodes {n : Nat} :
    n ∈ usedInodes sb img ↔ sb.IsInode n ∧ inodeUsed sb img n = true := by
  rw [usedInodes, List.mem_filter, List.mem_range'_1, Superblock.IsInode]
  constructor
  · rintro ⟨⟨h₁, h₂⟩, used⟩
    exact ⟨⟨h₁, by omega⟩, used⟩
  · rintro ⟨⟨h₁, h₂⟩, used⟩
    exact ⟨⟨h₁, by omega⟩, used⟩

theorem nodup_usedInodes : (usedInodes sb img).Nodup :=
  List.Nodup.filter _ List.nodup_range'

theorem entries_of_zones {ip ip' : Inode} (same : ip'.zones = ip.zones) :
    entries sb img ip' = entries sb img ip := by
  rw [entries, entries, same]

theorem inode_congr {n : Nat} (same : record sb img' n = record sb img n) :
    inode sb img' n = inode sb img n := by
  rw [inode, inode, same]

theorem inode_of_record {n : Nat} {ip : Inode}
    (stored : record sb img n = Buffer.ofBytes ip.encode) : inode sb img n = ip := by
  rw [inode, stored, Buffer.toBytes_ofBytes, Inode.ofRecord_encode]

namespace Orderly

variable (h : Orderly img)
include h

theorem one_mem : 1 ∈ usedInodes (header img) img :=
  mem_usedInodes.mpr ⟨⟨Nat.le_refl 1, h.fits.inodes_pos⟩, h.root_used⟩

theorem zone_used {n : Nat} (hn : n ∈ usedInodes (header img) img) {z : UInt64}
    (hz : z ∈ (inode (header img) img n).zones) :
    (header img).IsDataZone z ∧ zoneUsed (header img) img z = true :=
  h.zones_used z (List.mem_flatMap.mpr ⟨n, hn, hz⟩)

theorem zones_nodup {n : Nat} (hn : n ∈ usedInodes (header img) img) :
    (inode (header img) img n).zones.Nodup :=
  (List.nodup_flatMap.mp h.zones_once).1 n hn

theorem owner_eq {n m : Nat} (hn : n ∈ usedInodes (header img) img)
    (hm : m ∈ usedInodes (header img) img) {z : UInt64}
    (hz : z ∈ (inode (header img) img n).zones) (hz' : z ∈ (inode (header img) img m).zones) :
    n = m := by
  have apart := (List.nodup_flatMap.mp h.zones_once).2
  have symmetric : Std.Symm (Function.onFun List.Disjoint
      fun n => (inode (header img) img n).zones) :=
    ⟨fun _ _ disjoint _ h₁ h₂ => disjoint h₂ h₁⟩
  by_contra ne
  exact apart.forall hn hm ne hz hz'

theorem root_directories : 1 ∈ directories (header img) img :=
  List.mem_filter.mpr ⟨h.one_mem, h.root_directory⟩

theorem entry_used {n : Nat} (hn : n ∈ directories (header img) img) {e : Entry}
    (he : e ∈ entries (header img) img (inode (header img) img n)) :
    e.inode.toNat ∈ usedInodes (header img) img :=
  h.entries_used e (List.mem_flatMap.mpr ⟨n, hn, he⟩)

end Orderly

end Image

end MinixVolume
