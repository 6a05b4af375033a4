import MinixVolume.Disk.Paged
import MinixVolume.Proofs.ImageDisk

namespace MinixVolume.PagedDisk

def WholePages (pages : Array Buffer) : Prop :=
  ∀ (i : Nat) (b : Buffer), pages[i]? = some b → b.size = pageSize

def byteAt (pages : Array Buffer) (k : Nat) : UInt8 :=
  (pages[k / pageSize]?.bind fun b => b.data[k % pageSize]?).getD 0

def contents (pages : Array Buffer) : Buffer :=
  ⟨Array.ofFn fun k : Fin (pageSize * pages.size) => byteAt pages k⟩

@[simp] theorem size_contents (pages : Array Buffer) :
    (contents pages).size = pageSize * pages.size := by
  rw [← ByteArray.size_data, contents, Array.size_ofFn]

theorem getElem?_contents (pages : Array Buffer) (k : Nat) :
    (contents pages).data[k]? =
      if k < pageSize * pages.size then some (byteAt pages k) else none := by
  simp [contents, Array.getElem?_ofFn]

theorem div_mod_page (i : Nat) {j : Nat} (h : j < pageSize) :
    (pageSize * i + j) / pageSize = i ∧ (pageSize * i + j) % pageSize = j := by
  simp only [pageSize] at h ⊢
  omega

theorem pageEnd_le {pages : Array Buffer} {i : Nat} (h : i < pages.size) :
    pageSize * i + pageSize ≤ pageSize * pages.size := by
  simp only [pageSize]
  omega

theorem page_eq {pages : Array Buffer} (whole : WholePages pages) {i : Nat} {b : Buffer}
    (h : pages[i]? = some b) : b = (contents pages).window (pageSize * i) pageSize := by
  have size : b.data.size = pageSize := ByteArray.size_data.trans (whole i b h)
  have room := pageEnd_le (Array.getElem?_eq_some_iff.mp h).1
  apply Buffer.ext_getElem?
  intro k
  rw [Buffer.getElem?_window, getElem?_contents]
  by_cases hk : k < pageSize
  · obtain ⟨page, place⟩ := div_mod_page i hk
    rw [if_pos hk, if_pos (by omega), byteAt, page, place, h, Option.bind_some,
      Array.getElem?_eq_getElem (by omega), Option.getD_some]
  · rw [if_neg hk, Array.getElem?_eq_none (by omega)]

theorem whole_set {pages : Array Buffer} (whole : WholePages pages) {i : Nat} {b : Buffer}
    (size : b.size = pageSize) : WholePages (pages.set! i b) := by
  intro j c h
  rw [Array.set!_eq_setIfInBounds, Array.getElem?_setIfInBounds] at h
  split at h
  · split at h
    · cases h
      exact size
    · cases h
  · exact whole j c h

theorem contents_set {pages : Array Buffer} {i : Nat} {b : Buffer} (inside : i < pages.size)
    (size : b.size = pageSize) :
    contents (pages.set! i b) = (contents pages).splice (pageSize * i) b := by
  have room := pageEnd_le inside
  have fits : pageSize * i + b.size ≤ (contents pages).size := by
    rw [size, size_contents]
    exact room
  apply Buffer.ext_getElem?
  intro k
  rw [Buffer.getElem?_splice fits, getElem?_contents, getElem?_contents,
    Array.set!_eq_setIfInBounds, Array.size_setIfInBounds, size]
  by_cases hk : pageSize * i ≤ k ∧ k < pageSize * i + pageSize
  · obtain ⟨j, rfl⟩ := Nat.exists_eq_add_of_le hk.1
    obtain ⟨page, place⟩ := div_mod_page i (show j < pageSize by omega)
    have present : j < b.data.size := by
      rw [ByteArray.size_data]
      omega
    rw [if_pos hk, if_pos (by omega), byteAt, page, place,
      Array.getElem?_setIfInBounds_self_of_lt inside, Option.bind_some, Nat.add_sub_cancel_left,
      Array.getElem?_eq_getElem present, Option.getD_some]
  · have other : i ≠ k / pageSize := by
      rintro rfl
      have := Nat.div_add_mod k pageSize
      have := Nat.mod_lt k (show 0 < pageSize by decide)
      omega
    rw [if_neg hk, byteAt, byteAt, Array.getElem?_setIfInBounds_ne other]

theorem start_add_share_le (pos n : Nat) : pos % pageSize + share pos n ≤ pageSize := by
  have := Nat.mod_lt pos (show 0 < pageSize by decide)
  simp only [share]
  omega

section Transfers

variable {pages : Array Buffer} (whole : WholePages pages)
include whole

theorem loadPage_eq {i : Nat} (inside : i < pages.size) :
    loadPage pages i = .ok ((contents pages).window (pageSize * i) pageSize) := by
  have present := Array.getElem?_eq_getElem inside
  rw [loadPage, present]
  exact congrArg Except.ok (page_eq whole present)

theorem readFrom_eq (pos n : Nat) (got : Buffer) (inside : pos + n ≤ pageSize * pages.size) :
    readFrom pages pos n got = .ok (got ++ (contents pages).window pos n) := by
  fun_induction readFrom pages pos n got with
  | case1 pos got =>
      have none : (contents pages).window pos 0 = .empty := by
        rw [Buffer.window, ByteArray.extract_eq_empty_iff]
        omega
      rw [none, ByteArray.append_empty]
  | case2 pos n got hn e stop =>
      rw [loadPage_eq whole (by simp only [pageSize] at inside ⊢; omega)] at stop
      cases stop
  | case3 pos n got hn b load start m ih =>
      have page : pos / pageSize < pages.size := by
        simp only [pageSize] at inside ⊢
        omega
      have place : pageSize * (pos / pageSize) + start = pos := Nat.div_add_mod pos pageSize
      have within : start + m ≤ pageSize := start_add_share_le pos n
      have le : m ≤ n := Nat.min_le_right _ _
      rw [loadPage_eq whole page] at load
      cases load
      have taken : ((contents pages).window (pageSize * (pos / pageSize)) pageSize).extract start
          (start + m) = (contents pages).window pos m := by
        rw [← Buffer.window, Buffer.window_window within, place]
      rw [ih (by omega), taken, ByteArray.append_assoc,
        Buffer.window_append_window (by rw [size_contents]; omega), Nat.add_sub_cancel' le]

end Transfers

structure Patched (pages : Array Buffer) (off : Nat) (data : Buffer) (after : Array Buffer) :
    Prop where
  whole : WholePages after
  size : after.size = pages.size
  contents : contents after = (contents pages).splice off data

theorem patched_page {pages : Array Buffer} (whole : WholePages pages) (pos : Nat)
    (data : Buffer) {b : Buffer} (some : data.size ≠ 0)
    (within : pos % pageSize + data.size ≤ pageSize)
    (inside : pos + data.size ≤ pageSize * pages.size)
    (old : (if data.size = pageSize then .ok (Buffer.zeros pageSize)
      else loadPage pages (pos / pageSize)) = .ok b) :
    Patched pages pos data (pages.set! (pos / pageSize) (b.splice (pos % pageSize) data)) := by
  have page : pos / pageSize < pages.size := by
    simp only [pageSize] at inside ⊢
    omega
  have place := Nat.div_add_mod pos pageSize
  have room := pageEnd_le page
  have size : b.size = pageSize := by
    split at old
    · cases old
      exact Buffer.size_zeros _
    · rw [loadPage_eq whole page] at old
      cases old
      exact Buffer.size_window (by rw [size_contents]; exact room)
  have patched : (b.splice (pos % pageSize) data).size = pageSize := by
    rw [Buffer.size_splice (by omega), size]
  refine ⟨whole_set whole patched, by simp, ?_⟩
  rw [contents_set page patched]
  split at old
  · next all =>
      have start : pos % pageSize = 0 := by omega
      rw [start, Buffer.splice_zero (all.trans size.symm)]
      congr 1
      omega
  · rw [loadPage_eq whole page] at old
    cases old
    have offset : pos % pageSize = pos - pageSize * (pos / pageSize) := by omega
    rw [offset, Buffer.splice_patched_window (by rw [size_contents]; exact room) (by omega)
      (by omega)]

theorem writeFrom_eq (data : Buffer) (done : Nat) {pages : Array Buffer}
    (whole : WholePages pages) (pos : Nat)
    (inside : pos + (data.size - done) ≤ pageSize * pages.size) :
    ∃ after, writeFrom pages pos data done = (.ok (), after) ∧
      Patched pages pos (data.window done (data.size - done)) after := by
  induction left : data.size - done using Nat.strongRecOn generalizing pages pos done with
  | ind n ih =>
      rw [writeFrom]
      by_cases finished : data.size ≤ done
      · refine ⟨pages, if_pos finished, whole, rfl, ?_⟩
        rw [← left, Nat.sub_eq_zero_of_le finished, Buffer.window_zero, Buffer.splice_empty]
      have le : share pos n ≤ n := Nat.min_le_right _ _
      have pos_share := share_pos pos (show n ≠ 0 by omega)
      have within := start_add_share_le pos n
      have page : pos / pageSize < pages.size := by
        simp only [pageSize] at inside ⊢
        omega
      have size : (data.window done (share pos n)).size = share pos n :=
        Buffer.size_window (by omega)
      obtain ⟨b, old⟩ : ∃ b, (if share pos n = pageSize then .ok (Buffer.zeros pageSize)
          else loadPage pages (pos / pageSize)) = Except.ok b := by
        split
        · exact ⟨_, rfl⟩
        · exact ⟨_, loadPage_eq whole page⟩
      have step := patched_page whole pos (data.window done (share pos n)) (by omega) (by omega)
        (by omega) (by rw [size]; exact old)
      obtain ⟨after, run, rest⟩ := ih (n - share pos n) (by omega) (done + share pos n)
        step.whole (pos + share pos n) (by rw [step.size]; omega) (by omega)
      refine ⟨after, ?_, rest.whole, rest.size.trans step.size, ?_⟩
      · rw [if_neg finished, left]
        dsimp only
        rw [old]
        dsimp only
        rw [storePage, if_pos page]
        exact run
      · have join := Buffer.window_append_window (b := data) (n := n - share pos n)
          (show done + share pos n ≤ data.size by omega)
        rw [Nat.add_sub_cancel' le] at join
        rw [rest.contents, step.contents, ← join, Buffer.splice_append, size]
        rw [size, Buffer.size_window (by omega), size_contents]
        omega

/-- The disk is `bytes.size` bytes long and begins with these bytes; the pages may reach further. -/
structure Holds (d : PagedDisk) (bytes : Buffer) : Prop where
  whole : WholePages d.pages
  size : d.size.toNat = bytes.size
  room : bytes.size ≤ pageSize * d.pages.size
  bytes : (contents d.pages).window 0 bytes.size = bytes

section Calls

variable {d : PagedDisk} {bytes : Buffer} (h : d.Holds bytes)
include h

theorem Holds.size_eq : d.size = UInt64.ofNat bytes.size := by
  rw [← h.size, UInt64.ofNat_toNat]

theorem Holds.read_eq (short : bytes.size < sizeLimit) (off n : UInt64) :
    d.read off n = MemoryDisk.read off n ⟨bytes⟩ := by
  rw [MemoryDisk.read_eq short, read, checkBounds_eq, h.size]
  by_cases inside : off.toNat + n.toNat ≤ bytes.size
  · rw [if_pos inside, if_pos inside, Word.checkAllocation]
    by_cases long : Word.largestBuffer < n
    · rw [if_pos long, if_pos (UInt64.lt_iff_toNat_lt.mp long)]
      rfl
    · have run := readFrom_eq h.whole off.toNat n.toNat .empty (Nat.le_trans inside h.room)
      have same := congrArg (fun b => Buffer.window b off.toNat n.toNat) h.bytes
      rw [Buffer.window_window inside, Nat.zero_add] at same
      rw [ByteArray.empty_append, same] at run
      rw [if_neg long, if_neg (mt UInt64.lt_iff_toNat_lt.mpr long)]
      exact run
  · rw [if_neg inside, if_neg inside, h.size_eq]
    rfl

theorem Holds.write_cases (off : UInt64) (data : Buffer) :
    (off.toNat + data.size ≤ bytes.size ∧ ∃ after,
      d.write off data = (.ok (), ⟨after, d.size⟩) ∧ Patched d.pages off.toNat data after) ∨
    (¬ off.toNat + data.size ≤ bytes.size ∧ d.write off data =
      (.error (.error (.outOfBounds .write off (UInt64.ofNat data.size) d.size)), d)) := by
  obtain ⟨pages, size⟩ := d
  rw [write, checkData_eq, h.size]
  by_cases inside : off.toNat + data.size ≤ bytes.size
  · obtain ⟨after, run, patched⟩ := writeFrom_eq data 0 h.whole off.toNat
      (Nat.le_trans inside h.room)
    rw [Nat.sub_zero, Buffer.window_self] at patched
    refine .inl ⟨inside, after, ?_, patched⟩
    rw [if_pos inside]
    dsimp only
    rw [run]
  · exact .inr ⟨inside, by rw [if_neg inside]⟩

theorem Holds.patched {off : Nat} {data : Buffer} {after : Array Buffer}
    (inside : off + data.size ≤ bytes.size) (patched : Patched d.pages off data after) :
    Holds ⟨after, d.size⟩ (bytes.splice off data) := by
  have size := Buffer.size_splice inside
  have room : bytes.size ≤ (contents d.pages).size := by
    rw [size_contents]
    exact h.room
  refine ⟨patched.whole, h.size.trans size.symm, ?_, ?_⟩
  · rw [size, patched.size]
    exact h.room
  · rw [size, patched.contents, Buffer.window_splice_within (by omega) (Nat.zero_le _) (by omega),
      h.bytes, Nat.sub_zero]

end Calls

structure Spared (d after : PagedDisk) : Prop where
  size : after.size = d.size
  pages : after.pages.size = d.pages.size
  beyond : ∀ k, d.size.toNat ≤ k →
    (contents after.pages).data[k]? = (contents d.pages).data[k]?

theorem Spared.refl (d : PagedDisk) : Spared d d :=
  ⟨rfl, rfl, fun _ _ => rfl⟩

theorem Spared.patched {d₀ d : PagedDisk} (spared : Spared d₀ d) {bytes : Buffer}
    (h : d.Holds bytes) {off : Nat} {data : Buffer} {after : Array Buffer}
    (inside : off + data.size ≤ bytes.size) (patched : Patched d.pages off data after) :
    Spared d₀ ⟨after, d.size⟩ := by
  have size : d₀.size.toNat = bytes.size := by
    rw [← spared.size, h.size]
  have room := h.room
  refine ⟨spared.size, patched.size.trans spared.pages, fun k hk => ?_⟩
  rw [patched.contents, Buffer.getElem?_splice (by rw [size_contents]; omega), if_neg (by omega),
    spared.beyond k hk]

theorem actsSparing (d₀ : PagedDisk) :
    ActsAsMemory fun d bytes => Spared d₀ d ∧ Holds d bytes where
  read_eq := by
    rintro d bytes off n short ⟨spared, h⟩
    exact ⟨h.read_eq short off n, spared, h⟩
  write_eq := by
    rintro d bytes off data short ⟨spared, h⟩
    change (d.write off data).1 = _ ∧ Spared d₀ (d.write off data).2 ∧ Holds (d.write off data).2 _
    rw [MemoryDisk.write_eq short]
    rcases h.write_cases off data with ⟨inside, after, run, patched⟩ | ⟨outside, run⟩
    · rw [run, if_pos inside]
      exact ⟨rfl, spared.patched h inside patched, h.patched inside patched⟩
    · rw [run, if_neg outside, h.size_eq]
      exact ⟨rfl, spared, h⟩
  size_eq := by
    rintro d bytes _ ⟨-, h⟩
    change (Except.ok d.size, d) = _
    rw [h.size_eq]
  barrier_eq := by
    intro d bytes _
    rfl

theorem actsAsMemory : ActsAsMemory Holds :=
  .of_since Spared.refl actsSparing

def held (d : PagedDisk) : Buffer :=
  (contents d.pages).window 0 d.size.toNat

theorem Holds.held_eq {d : PagedDisk} {bytes : Buffer} (h : d.Holds bytes) : d.held = bytes := by
  rw [held, h.size, h.bytes]

instance : ImageDisk PagedDisk :=
  actsAsMemory.imageDisk held Holds.held_eq

instance : ExactDisk PagedDisk :=
  actsAsMemory.exactDisk held Holds.held_eq

theorem whole_blankPages (count : Nat) : WholePages (blankPages count) := by
  intro i b h
  rw [blankPages, Array.getElem?_replicate] at h
  split at h
  · cases h
    exact Buffer.size_zeros _
  · cases h

theorem holds_ofImage {image : Buffer} (short : image.size < sizeLimit) :
    (ofImage image).Holds image := by
  have limit : sizeLimit = 0x8000000000000000 := rfl
  have unit : (UInt64.ofNat pageSize).toNat = 4096 := by decide
  have size : (UInt64.ofNat image.size).toNat = image.size :=
    UInt64.toNat_ofNat_of_lt' (by rw [UInt64.size]; omega)
  have count : (Word.quotientUp (UInt64.ofNat image.size) (UInt64.ofNat pageSize)).toNat
      = (image.size + 4095) / 4096 := by
    rw [Word.toNat_quotientUp (by rw [unit]; decide) (by rw [size, unit, UInt64.size]; omega),
      size, unit, Nat.add_sub_assoc (by decide)]
  let blank : PagedDisk := ⟨blankPages ((image.size + 4095) / 4096), UInt64.ofNat image.size⟩
  have room : image.size ≤ pageSize * blank.pages.size := by
    simp only [blank, blankPages, Array.size_replicate, pageSize]
    omega
  have taken : ((contents blank.pages).window 0 image.size).size = image.size :=
    Buffer.size_window (by rw [size_contents]; omega)
  have before : blank.Holds ((contents blank.pages).window 0 image.size) := by
    refine ⟨whole_blankPages _, size.trans taken.symm, ?_, ?_⟩
    · rw [taken]
      exact room
    · rw [taken]
  have ofImage_eq : ofImage image = (blank.write 0 image).2 := by
    rw [ofImage, count]
  rw [ofImage_eq]
  rcases before.write_cases 0 image with ⟨inside, after, run, patched⟩ | ⟨outside, -⟩
  · rw [run]
    have held := before.patched inside patched
    rwa [UInt64.toNat_zero, Buffer.splice_zero taken.symm] at held
  · rw [taken, UInt64.toNat_zero] at outside
    omega

end MinixVolume.PagedDisk
