import MinixVolume.Bytes

namespace MinixVolume.Buffer

def window (b : Buffer) (off n : Nat) : Buffer :=
  b.extract off (off + n)

theorem ext_getElem? {a b : Buffer} (h : ∀ k : Nat, a.data[k]? = b.data[k]?) : a = b :=
  ByteArray.ext (Array.ext_getElem? h)

theorem getElem?_window (b : Buffer) (off n k : Nat) :
    (b.window off n).data[k]? = if k < n then b.data[off + k]? else none := by
  have size : b.data.size = b.size := ByteArray.size_data
  simp only [window, ByteArray.data_extract, Array.getElem?_extract]
  by_cases hk : k < n
  · by_cases hb : off + k < b.size
    · rw [if_pos (by omega), if_pos hk]
    · rw [if_neg (by omega), if_pos hk, Array.getElem?_eq_none (by omega)]
  · rw [if_neg (by omega), if_neg hk]

theorem size_window {b : Buffer} {off n : Nat} (h : off + n ≤ b.size) :
    (b.window off n).size = n := by
  rw [window, ByteArray.size_extract]
  omega

theorem window_congr {a b : Buffer} {off n : Nat}
    (h : ∀ k, off ≤ k → k < off + n → a.data[k]? = b.data[k]?) :
    a.window off n = b.window off n := by
  apply ext_getElem?
  intro k
  rw [getElem?_window, getElem?_window]
  by_cases hk : k < n
  · rw [if_pos hk, if_pos hk, h (off + k) (by omega) (by omega)]
  · rw [if_neg hk, if_neg hk]

theorem getElem?_of_window_eq {a b : Buffer} {off n : Nat} (h : a.window off n = b.window off n)
    {k : Nat} (h₁ : off ≤ k) (h₂ : k < off + n) : a.data[k]? = b.data[k]? := by
  have hk := congrArg (fun c : Buffer => c.data[k - off]?) h
  simp only [getElem?_window, if_pos (show k - off < n by omega)] at hk
  rwa [Nat.add_sub_cancel' h₁] at hk

theorem window_window {b : Buffer} {off n i k : Nat} (h : i + k ≤ n) :
    (b.window off n).window i k = b.window (off + i) k := by
  apply ext_getElem?
  intro j
  rw [getElem?_window, getElem?_window, getElem?_window]
  by_cases hj : j < k
  · rw [if_pos hj, if_pos (by omega), if_pos hj, Nat.add_assoc]
  · rw [if_neg hj, if_neg hj]

theorem getElem?_splice {b d : Buffer} {off : Nat} (h : off + d.size ≤ b.size) (k : Nat) :
    (b.splice off d).data[k]? =
      if off ≤ k ∧ k < off + d.size then d.data[k - off]? else b.data[k]? := by
  have hb : b.data.size = b.size := ByteArray.size_data
  have hd : d.data.size = d.size := ByteArray.size_data
  rw [data_splice, Array.getElem?_append, Array.getElem?_append, Array.size_append,
    Array.size_extract, Array.getElem?_extract, Array.getElem?_extract]
  grind

theorem size_splice {b d : Buffer} {off : Nat} (h : off + d.size ≤ b.size) :
    (b.splice off d).size = b.size := by
  have hb : b.data.size = b.size := ByteArray.size_data
  have hd : d.data.size = d.size := ByteArray.size_data
  rw [← ByteArray.size_data, data_splice, Array.size_append, Array.size_append,
    Array.size_extract, Array.size_extract]
  omega

theorem window_splice_self {b d : Buffer} {off : Nat} (h : off + d.size ≤ b.size) :
    (b.splice off d).window off d.size = d := by
  have hd : d.data.size = d.size := ByteArray.size_data
  apply ext_getElem?
  intro k
  rw [getElem?_window, getElem?_splice h]
  by_cases hk : k < d.size
  · rw [if_pos hk, if_pos (by omega), Nat.add_sub_cancel_left]
  · rw [if_neg hk, Array.getElem?_eq_none (by omega)]

theorem window_splice_of_disjoint {b d : Buffer} {off i n : Nat} (h : off + d.size ≤ b.size)
    (disjoint : i + n ≤ off ∨ off + d.size ≤ i) : (b.splice off d).window i n = b.window i n := by
  apply window_congr
  intro k h₁ h₂
  rw [getElem?_splice h, if_neg (by omega)]

theorem window_splice_within {b d : Buffer} {off i n : Nat} (h : i + n ≤ b.size) (hi : i ≤ off)
    (hd : off + d.size ≤ i + n) :
    (b.splice off d).window i n = (b.window i n).splice (off - i) d := by
  have size := size_window h
  apply ext_getElem?
  intro k
  rw [getElem?_window, getElem?_splice (by omega), getElem?_splice (by omega), getElem?_window]
  by_cases hk : k < n
  · rw [if_pos hk, if_pos hk]
    by_cases hin : off ≤ i + k ∧ i + k < off + d.size
    · rw [if_pos hin, if_pos (by omega)]
      congr 1
      omega
    · rw [if_neg hin, if_neg (by omega)]
  · rw [if_neg hk, if_neg hk, if_neg (by omega)]

theorem splice_splice {b c d : Buffer} {off : Nat} (h : off + c.size ≤ b.size)
    (size : c.size = d.size) : (b.splice off c).splice off d = b.splice off d := by
  have first := size_splice h
  apply ext_getElem?
  intro k
  rw [getElem?_splice (by omega), getElem?_splice h, getElem?_splice (by omega)]
  by_cases hk : off ≤ k ∧ k < off + d.size
  · rw [if_pos hk, if_pos hk]
  · rw [if_neg hk, if_neg hk, if_neg (by omega)]

theorem splice_front {b a d : Buffer} {off : Nat} (h : a.size ≤ b.size)
    (hd : off + d.size ≤ a.size) : (b.splice 0 a).splice off d = b.splice 0 (a.splice off d) := by
  have front : 0 + a.size ≤ b.size := by omega
  have size := size_splice front
  have patched := size_splice hd
  apply ext_getElem?
  intro k
  rw [getElem?_splice (by omega), getElem?_splice front, getElem?_splice (by omega),
    getElem?_splice hd, patched, Nat.sub_zero]
  by_cases inside : off ≤ k ∧ k < off + d.size
  · rw [if_pos inside, if_pos (by omega), if_pos inside]
  · rw [if_neg inside, if_neg inside]

theorem splice_append {b c d : Buffer} {off : Nat} (h : off + (c.size + d.size) ≤ b.size) :
    b.splice off (c ++ d) = (b.splice off c).splice (off + c.size) d := by
  have hc : c.data.size = c.size := ByteArray.size_data
  have size : (c ++ d).size = c.size + d.size := ByteArray.size_append
  have first := size_splice (show off + c.size ≤ b.size by omega)
  apply ext_getElem?
  intro k
  rw [getElem?_splice (by omega), getElem?_splice (by omega), getElem?_splice (by omega), size,
    ByteArray.data_append, Array.getElem?_append, hc]
  grind

theorem window_self (b : Buffer) : b.window 0 b.size = b := by
  have hb : b.data.size = b.size := ByteArray.size_data
  apply ext_getElem?
  intro k
  rw [getElem?_window, Nat.zero_add]
  split
  · rfl
  · rw [Array.getElem?_eq_none (by omega)]

theorem window_zero (b : Buffer) (off : Nat) : b.window off 0 = .empty := by
  rw [window, ByteArray.extract_eq_empty_iff]
  omega

theorem window_append_window {b : Buffer} {off m n : Nat} (h : off + m ≤ b.size) :
    b.window off m ++ b.window (off + m) n = b.window off (m + n) := by
  have size : (b.window off m).data.size = m := by rw [ByteArray.size_data, size_window h]
  apply ext_getElem?
  intro k
  rw [ByteArray.data_append, Array.getElem?_append, size, getElem?_window, getElem?_window,
    getElem?_window]
  by_cases hk : k < m
  · rw [if_pos hk, if_pos hk, if_pos (by omega)]
  · rw [if_neg hk, show off + m + (k - m) = off + k by omega]
    by_cases hn : k < m + n
    · rw [if_pos (by omega), if_pos hn]
    · rw [if_neg (by omega), if_neg hn]

theorem splice_zero {b d : Buffer} (h : d.size = b.size) : b.splice 0 d = d := by
  have hb : b.data.size = b.size := ByteArray.size_data
  have hd : d.data.size = d.size := ByteArray.size_data
  apply ext_getElem?
  intro k
  rw [getElem?_splice (by omega)]
  by_cases hk : k < d.size
  · rw [if_pos (by omega), Nat.sub_zero]
  · rw [if_neg (by omega), Array.getElem?_eq_none (by omega), Array.getElem?_eq_none (by omega)]

theorem splice_empty (b : Buffer) (off : Nat) : b.splice off .empty = b := by
  apply ByteArray.ext
  rw [data_splice, ByteArray.data_empty, Array.append_empty, ByteArray.size_empty, Nat.add_zero,
    Array.extract_append_extract, Nat.zero_min]
  exact Array.extract_eq_self_of_le (Nat.le_max_right _ _)

theorem splice_patched_window {b d : Buffer} {i n off : Nat} (h : i + n ≤ b.size) (hi : i ≤ off)
    (hd : off + d.size ≤ i + n) :
    b.splice i ((b.window i n).splice (off - i) d) = b.splice off d := by
  have taken := size_window h
  have patched : ((b.window i n).splice (off - i) d).size = n := by
    rw [size_splice (by omega), taken]
  apply ext_getElem?
  intro k
  rw [getElem?_splice (by omega), getElem?_splice (by omega), getElem?_splice (by omega),
    getElem?_window, patched]
  by_cases run : i ≤ k ∧ k < i + n
  · rw [if_pos run]
    by_cases inside : off ≤ k ∧ k < off + d.size
    · rw [if_pos (by omega), if_pos inside, show k - i - (off - i) = k - off by omega]
    · rw [if_neg (by omega), if_neg inside, if_pos (by omega), show i + (k - i) = k by omega]
  · rw [if_neg run, if_neg (by omega)]

@[simp] theorem size_zeros (n : Nat) : (zeros n).size = n := by
  rw [← ByteArray.size_data, ← Array.length_toList]
  exact (congrArg List.length (toBytes_zeros n)).trans List.length_replicate

theorem getElem?_zeros (n k : Nat) : (zeros n).data[k]? = if k < n then some 0 else none := by
  have list := congrArg (fun l : Bytes => l[k]?) (toBytes_zeros n)
  simpa [toBytes, List.getElem?_replicate] using list

theorem window_zeros {n off k : Nat} (h : off + k ≤ n) : (zeros n).window off k = zeros k := by
  apply ext_getElem?
  intro i
  rw [getElem?_window, getElem?_zeros, getElem?_zeros]
  by_cases hi : i < k
  · rw [if_pos hi, if_pos hi, if_pos (by omega)]
  · rw [if_neg hi, if_neg hi]

@[simp] theorem size_ofBytes (b : Bytes) : (ofBytes b).size = b.length := by
  rw [← ByteArray.size_data, ofBytes, List.size_toArray]

@[simp] theorem length_toBytes (b : Buffer) : (toBytes b).length = b.size := by
  rw [toBytes, Array.length_toList, ByteArray.size_data]

theorem getElem?_toBytes (b : Buffer) (k : Nat) : (toBytes b)[k]? = b.data[k]? := by
  rw [toBytes, Array.getElem?_toList]

theorem ofBytes_append (a b : Bytes) : ofBytes (a ++ b) = ofBytes a ++ ofBytes b := by
  apply ByteArray.ext
  simp [ofBytes]

theorem toBytes_append (a b : Buffer) : toBytes (a ++ b) = toBytes a ++ toBytes b := by
  rw [toBytes, ByteArray.data_append, Array.toList_append]
  rfl

def bit (b : Buffer) (k : Nat) : Bool :=
  (b.data[k / 8]?.getD 0).toBitVec.getLsbD (k % 8)

def bitMask (j : Nat) : UInt8 :=
  1 <<< UInt8.ofNat (j % 8)

def switched (on : Bool) (mask x : UInt8) : UInt8 :=
  if on then x ||| mask else x &&& ~~~mask

def setBit (b : Buffer) (k : Nat) (on : Bool) : Buffer :=
  ⟨b.data.modify (k / 8) (switched on (bitMask k))⟩

theorem getLsbD_bitMask {i : Nat} (hi : i < 8) (j : Nat) :
    (bitMask j).toBitVec.getLsbD i = decide (i = j % 8) := by
  have hj : j % 8 < 8 := Nat.mod_lt _ (by decide)
  simp only [bitMask]
  generalize j % 8 = r at hj
  revert i r
  decide

theorem getLsbD_switched (on : Bool) (x : UInt8) {i : Nat} (hi : i < 8) (j : Nat) :
    (switched on (bitMask j) x).toBitVec.getLsbD i =
      if i = j % 8 then on else x.toBitVec.getLsbD i := by
  cases on with
  | true =>
      simp only [switched, if_true, UInt8.toBitVec_or, BitVec.getLsbD_or, getLsbD_bitMask hi]
      by_cases h : i = j % 8
      · simp [h]
      · simp [h]
  | false =>
      simp only [switched, Bool.false_eq_true, if_false, UInt8.toBitVec_and, UInt8.toBitVec_not,
        BitVec.getLsbD_and, BitVec.getLsbD_not, getLsbD_bitMask hi]
      by_cases h : i = j % 8
      · simp [h]
      · simp [h, hi]

theorem size_setBit (b : Buffer) (k : Nat) (on : Bool) : (b.setBit k on).size = b.size := by
  rw [← ByteArray.size_data, setBit, Array.size_modify, ByteArray.size_data]

theorem getElem?_setBit_of_ne (b : Buffer) {k i : Nat} (on : Bool) (h : i ≠ k / 8) :
    (b.setBit k on).data[i]? = b.data[i]? := by
  rw [setBit, Array.getElem?_modify, if_neg (Ne.symm h)]

theorem bit_setBit {b : Buffer} {k : Nat} (hk : k / 8 < b.size) (on : Bool) (j : Nat) :
    (b.setBit k on).bit j = if j = k then on else b.bit j := by
  have size : b.data.size = b.size := ByteArray.size_data
  simp only [bit, setBit, Array.getElem?_modify]
  by_cases hj : k / 8 = j / 8
  · rw [if_pos hj, Array.getElem?_eq_getElem (by omega), Option.map_some, Option.getD_some,
      Option.getD_some, getLsbD_switched on _ (Nat.mod_lt _ (by decide))]
    by_cases h : j = k
    · rw [if_pos (by rw [h]), if_pos h]
    · rw [if_neg (by omega), if_neg h]
  · rw [if_neg hj, if_neg (by rintro rfl; exact hj rfl)]

theorem bit_setBit_of_ne (b : Buffer) {k j : Nat} (on : Bool) (h : j ≠ k) :
    (b.setBit k on).bit j = b.bit j := by
  have size : b.data.size = b.size := ByteArray.size_data
  by_cases hk : k / 8 < b.size
  · rw [bit_setBit hk, if_neg h]
  · simp only [bit, setBit, Array.getElem?_modify]
    split
    · next same => rw [← same, Array.getElem?_eq_none (by omega), Option.map_none]
    · rfl

theorem getElem?_eq_of_bits {a b : Buffer} (size : a.size = b.size) {i : Nat}
    (h : ∀ k, k / 8 = i → a.bit k = b.bit k) : a.data[i]? = b.data[i]? := by
  have ha : a.data.size = a.size := ByteArray.size_data
  have hb : b.data.size = b.size := ByteArray.size_data
  by_cases hi : i < a.size
  · have byte : a.data[i]?.getD 0 = b.data[i]?.getD 0 := by
      apply UInt8.toBitVec_inj.mp
      apply BitVec.eq_of_getLsbD_eq
      intro j hj
      have hk := h (8 * i + j) (by omega)
      simp only [bit] at hk
      rwa [show (8 * i + j) / 8 = i by omega, show (8 * i + j) % 8 = j by omega] at hk
    rw [Array.getElem?_eq_getElem (by omega), Array.getElem?_eq_getElem (by omega)] at byte ⊢
    exact congrArg some byte
  · rw [Array.getElem?_eq_none (by omega), Array.getElem?_eq_none (by omega)]

theorem setBit_setBit {b : Buffer} {k : Nat} (hk : k / 8 < b.size) (on off : Bool)
    (h : b.bit k = off) : (b.setBit k on).setBit k off = b := by
  apply ext_getElem?
  intro i
  apply getElem?_eq_of_bits (by rw [size_setBit, size_setBit])
  intro j _
  by_cases same : j = k
  · rw [same, bit_setBit (by rw [size_setBit]; exact hk), if_pos rfl, h]
  · rw [bit_setBit_of_ne _ off same, bit_setBit_of_ne _ on same]

theorem bit_eq_of_getElem? {a b : Buffer} {k : Nat} (h : a.data[k / 8]? = b.data[k / 8]?) :
    a.bit k = b.bit k := by
  rw [bit, bit, h]

theorem bit_window {b : Buffer} {off n k : Nat} (hk : k < 8 * n) :
    (b.window off n).bit k = b.bit (8 * off + k) := by
  rw [bit, bit, getElem?_window, if_pos (by omega), show (8 * off + k) / 8 = off + k / 8 by omega,
    show (8 * off + k) % 8 = k % 8 by omega]

theorem bit_splice_self {b d : Buffer} {off k : Nat} (h : off + d.size ≤ b.size)
    (hk : k < 8 * d.size) : (b.splice off d).bit (8 * off + k) = d.bit k := by
  rw [← bit_window hk, window_splice_self h]

theorem bit_splice_of_outside {b d : Buffer} {off k : Nat} (h : off + d.size ≤ b.size)
    (outside : k / 8 < off ∨ off + d.size ≤ k / 8) : (b.splice off d).bit k = b.bit k := by
  apply bit_eq_of_getElem?
  rw [getElem?_splice h, if_neg (by omega)]

theorem splice_setBit_window {b : Buffer} {off n k : Nat} (h : off + n ≤ b.size) (hk : k < 8 * n)
    (on : Bool) : b.splice off ((b.window off n).setBit k on) = b.setBit (8 * off + k) on := by
  have hb : b.data.size = b.size := ByteArray.size_data
  have size : ((b.window off n).setBit k on).size = n := by rw [size_setBit, size_window h]
  have fits : off + ((b.window off n).setBit k on).size ≤ b.size := by omega
  apply ext_getElem?
  intro i
  apply getElem?_eq_of_bits (by rw [size_splice fits, size_setBit])
  intro j hj
  rw [bit_setBit (by omega)]
  by_cases inside : off ≤ j / 8 ∧ j / 8 < off + n
  · have same : (b.splice off ((b.window off n).setBit k on)).bit j =
        ((b.window off n).setBit k on).bit (j - 8 * off) := by
      simp only [bit]
      rw [getElem?_splice fits, if_pos (by omega), show (j - 8 * off) / 8 = j / 8 - off by omega,
        show (j - 8 * off) % 8 = j % 8 by omega]
    rw [same, bit_setBit (by rw [size_window h]; omega), bit_window (by omega),
      show 8 * off + (j - 8 * off) = j by omega]
    by_cases e : j = 8 * off + k
    · rw [if_pos (by omega), if_pos e]
    · rw [if_neg (by omega), if_neg e]
  · rw [if_neg (by omega)]
    apply bit_eq_of_getElem?
    rw [getElem?_splice fits, if_neg (by omega)]

end MinixVolume.Buffer
