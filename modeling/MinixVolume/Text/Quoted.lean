import MinixVolume.Text.Utf8
import MinixVolume.Text.Printable
import MinixVolume.Text.Numeral

namespace MinixVolume.Text

def escapeLetter (c : Char) : Option Char :=
  match c.toNat with
  | 7 => some 'a'
  | 8 => some 'b'
  | 9 => some 't'
  | 10 => some 'n'
  | 11 => some 'v'
  | 12 => some 'f'
  | 13 => some 'r'
  | _ => none

def escapeChar (mark c : Char) : String :=
  if c = mark || c = '\\' then String.ofList ['\\', c]
  else if isPrintable c then String.singleton c
  else
    match escapeLetter c with
    | some l => String.ofList ['\\', l]
    | none =>
        if c.toNat < 0x80 then "\\x" ++ hexPadded 2 c.toNat
        else if c.toNat < 0x10000 then "\\u" ++ hexPadded 4 c.toNat
        else "\\U" ++ hexPadded 8 c.toNat

def Scalar.escape (mark : Char) : Scalar → String
  | .char c => escapeChar mark c
  | .stray b => "\\x" ++ hexPadded 2 b.toNat

def quoted (b : Bytes) : String :=
  "\"" ++ String.join ((scalars b).map (Scalar.escape '"')) ++ "\""

def quotedText (s : String) : String :=
  quoted (Bytes.ofString s)

def quotedByte (b : UInt8) : String :=
  "'" ++ escapeChar '\'' (Char.ofNat b.toNat) ++ "'"

end MinixVolume.Text
