import MinixVolume.Bytes

namespace MinixVolume.Text

def padLeft (width : Nat) (fill : Char) (digits : List Char) : String :=
  String.ofList (List.replicate (width - digits.length) fill ++ digits)

def decimal (n : Nat) : String :=
  String.ofList (Nat.toDigits 10 n)

def decimalPadded (width n : Nat) : String :=
  padLeft width ' ' (Nat.toDigits 10 n)

def octal (n : Nat) : String :=
  String.ofList (Nat.toDigits 8 n)

def hex (n : Nat) : String :=
  String.ofList (Nat.toDigits 16 n)

def hexPadded (width n : Nat) : String :=
  padLeft width '0' (Nat.toDigits 16 n)

def bracketed (ns : List Nat) : String :=
  "[" ++ String.intercalate " " (ns.map decimal) ++ "]"

inductive NumeralFault where
  | malformed
  | outOfRange
deriving DecidableEq, Repr

def digitValue (c : UInt8) : Option Nat :=
  if 0x30 ≤ c && c ≤ 0x39 then some (c.toNat - 0x30)
  else if 0x61 ≤ c ||| 0x20 && c ||| 0x20 ≤ 0x7a then some ((c ||| 0x20).toNat - 0x61 + 10)
  else none

/-- Reads digits from the left and stops at the first fault, be it a foreign character or a value
above `limit`. Underscores are passed over. -/
def digitsValue (base limit : Nat) : Nat → Bytes → Except NumeralFault Nat
  | n, [] => .ok n
  | n, c :: rest =>
      if c = 0x5f then digitsValue base limit n rest
      else
        match digitValue c with
        | none => .error .malformed
        | some d =>
            if base ≤ d then .error .malformed
            else if limit < n * base + d then .error .outOfRange
            else digitsValue base limit (n * base + d) rest

/-- Every underscore stands between two digits; `afterDigit` says whether one stands in front. -/
def separated : (afterDigit : Bool) → Bytes → Bool
  | afterDigit, [] => afterDigit
  | afterDigit, c :: rest =>
      if c = 0x5f then afterDigit && separated false rest else separated true rest

structure Radix where
  base : Nat
  marked : Bool
  digits : Bytes

/-- A leading `0b`, `0o` or `0x` with something behind it chooses the base, and any other leading
zero chooses base eight. -/
def radix : Bytes → Radix
  | 0x30 :: m :: d :: rest =>
      if m ||| 0x20 = 0x62 then ⟨2, true, d :: rest⟩
      else if m ||| 0x20 = 0x6f then ⟨8, true, d :: rest⟩
      else if m ||| 0x20 = 0x78 then ⟨16, true, d :: rest⟩
      else ⟨8, true, m :: d :: rest⟩
  | 0x30 :: rest => ⟨8, true, rest⟩
  | s => ⟨10, false, s⟩

def natOfNumeral (limit : Nat) (s : Bytes) : Except NumeralFault Nat :=
  if s.isEmpty then .error .malformed
  else
    let r := radix s
    match digitsValue r.base limit 0 r.digits with
    | .error e => .error e
    | .ok n => if separated r.marked r.digits then .ok n else .error .malformed

def maxWord : Nat := 0xffffffffffffffff

def signedLimit : Nat := 0x8000000000000000

def wordOfNumeral (s : Bytes) : Except NumeralFault UInt64 :=
  (natOfNumeral maxWord s).map UInt64.ofNat

def intOfNumeral (s : Bytes) : Except NumeralFault Int64 :=
  match s with
  | 0x2d :: rest =>
      match natOfNumeral maxWord rest with
      | .error e => .error e
      | .ok n => if signedLimit < n then .error .outOfRange else .ok (Int64.ofInt (-n))
  | _ =>
      let digits := match s with
        | 0x2b :: rest => rest
        | _ => s
      match natOfNumeral maxWord digits with
      | .error e => .error e
      | .ok n => if signedLimit ≤ n then .error .outOfRange else .ok (Int64.ofNat n)

def boolOfText (s : Bytes) : Option Bool :=
  if ["1", "t", "T", "true", "TRUE", "True"].any (fun w => Bytes.ofString w == s) then some true
  else if ["0", "f", "F", "false", "FALSE", "False"].any (fun w => Bytes.ofString w == s) then
    some false
  else none

end MinixVolume.Text
