import MinixVolume.Word

namespace MinixVolume

structure Entry where
  inode : UInt64
  name : Bytes
deriving DecidableEq, Repr

namespace Entry

def slotSize (width : UInt64) : UInt64 :=
  2 + width

def encode (e : Entry) (width : UInt64) : Except Stop Buffer :=
  if width.toNat < e.name.length then .error (.error (.nameTooLong e.name width))
  else if slotSize width < 2 then .error (.panic .outOfRange)
  else do
    Word.checkAllocation (slotSize width)
    return Buffer.ofBytes (Bytes.ofWord16 e.inode.toUInt16 ++ e.name)
      ++ Buffer.zeros (width.toNat - e.name.length)

def decode : Bytes → Except Stop Entry
  | b₀ :: b₁ :: rest => .ok ⟨(Bytes.word16 b₀ b₁).toUInt64, Bytes.trimmed rest⟩
  | _ => .error (.panic .outOfRange)

def text (e : Entry) : String :=
  toString e.inode ++ ":" ++ Text.quoted e.name

def block (entries : List Entry) (width size : UInt64) : Except Stop Buffer :=
  if size < UInt64.ofNat entries.length * slotSize width then
    .error (.error (.entriesTooMany entries.length size))
  else do
    Word.checkAllocation size
    let slots ← entries.mapM (·.encode width)
    return (Buffer.zeros size.toNat).splice 0 (slots.foldl (· ++ ·) .empty)

end Entry

end MinixVolume
