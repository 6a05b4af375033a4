import MinixVolume.Bytes

namespace MinixVolume.Text

inductive Scalar where
  | char (c : Char)
  | stray (b : UInt8)
deriving DecidableEq, Repr

def isTrail (b : UInt8) : Bool :=
  0x80 ≤ b && b ≤ 0xbf

/-- The second byte a leading byte of three or four admits: this keeps out overlong forms,
surrogates and codes above the last plane. -/
def isSecond (lead second : UInt8) : Bool :=
  if lead = 0xe0 then 0xa0 ≤ second && second ≤ 0xbf
  else if lead = 0xed then 0x80 ≤ second && second ≤ 0x9f
  else if lead = 0xf0 then 0x90 ≤ second && second ≤ 0xbf
  else if lead = 0xf4 then 0x80 ≤ second && second ≤ 0x8f
  else isTrail second

def charOf (lead : Nat) (trail : List UInt8) : Char :=
  Char.ofNat (trail.foldl (fun n b => n * 64 + (b.toNat - 0x80)) lead)

def firstScalar (lead : UInt8) (rest : Bytes) : Scalar × Bytes :=
  if lead < 0x80 then (.char (Char.ofNat lead.toNat), rest)
  else if 0xc2 ≤ lead && lead ≤ 0xdf then
    match rest with
    | b₁ :: tail =>
        if isTrail b₁ then (.char (charOf (lead.toNat - 0xc0) [b₁]), tail) else (.stray lead, rest)
    | _ => (.stray lead, rest)
  else if 0xe0 ≤ lead && lead ≤ 0xef then
    match rest with
    | b₁ :: b₂ :: tail =>
        if isSecond lead b₁ && isTrail b₂ then
          (.char (charOf (lead.toNat - 0xe0) [b₁, b₂]), tail)
        else (.stray lead, rest)
    | _ => (.stray lead, rest)
  else if 0xf0 ≤ lead && lead ≤ 0xf4 then
    match rest with
    | b₁ :: b₂ :: b₃ :: tail =>
        if isSecond lead b₁ && isTrail b₂ && isTrail b₃ then
          (.char (charOf (lead.toNat - 0xf0) [b₁, b₂, b₃]), tail)
        else (.stray lead, rest)
    | _ => (.stray lead, rest)
  else (.stray lead, rest)

theorem firstScalar_length (lead : UInt8) (rest : Bytes) :
    (firstScalar lead rest).2.length ≤ rest.length := by
  unfold firstScalar
  repeat' split
  all_goals simp
  all_goals omega

def scalars : Bytes → List Scalar
  | [] => []
  | lead :: rest => (firstScalar lead rest).1 :: scalars (firstScalar lead rest).2
termination_by b => b.length
decreasing_by
  have := firstScalar_length lead rest
  simp only [List.length_cons]
  omega

def Scalar.shown : Scalar → Char
  | .char c => c
  | .stray _ => Char.ofNat 0xfffd

/-- The text of a byte string, with U+FFFD for each stray byte. -/
def ofBytes (b : Bytes) : String :=
  String.ofList ((scalars b).map Scalar.shown)

end MinixVolume.Text
