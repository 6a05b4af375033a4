import MinixVolume.Text.Quoted

namespace MinixVolume

inductive FlagKind where
  | switch
  | counter
  | number
deriving DecidableEq, Repr

structure Flag where
  name : String
  letter : Option UInt8 := none
  kind : FlagKind
  about : String := ""
deriving DecidableEq, Repr

inductive FlagValue where
  | truth (on : Bool)
  | increment
  | count (n : Int64)
  | word (n : UInt64)
deriving DecidableEq

structure FlagSetting where
  flag : String
  value : FlagValue
deriving DecidableEq

inductive FlagError where
  | badForm (word : Bytes)
  | unknownName (name : Bytes)
  | unknownLetter (letter : UInt8) (letters : Bytes)
  | noValue (word : Bytes)
  | noLetterValue (letter : UInt8) (letters : Bytes)
  | badValue (flag : Flag) (value : Bytes) (fault : Text.NumeralFault)
  | help
deriving DecidableEq, Repr

namespace Flag

def label (f : Flag) : String :=
  match f.letter with
  | some c => String.ofList ['-', Char.ofNat c.toNat] ++ ", --" ++ f.name
  | none => "--" ++ f.name

def implied (f : Flag) : Option FlagValue :=
  match f.kind with
  | .switch => some (.truth true)
  | .counter => some .increment
  | .number => none

def readValue (f : Flag) (text : Bytes) : Except FlagError FlagValue :=
  match f.kind with
  | .switch =>
      match Text.boolOfText text with
      | some b => .ok (.truth b)
      | none => .error (.badValue f text .malformed)
  | .counter =>
      if text = Bytes.ofString "+1" then .ok .increment
      else
        match Text.intOfNumeral text with
        | .ok n => .ok (.count n)
        | .error e => .error (.badValue f text e)
  | .number =>
      match Text.wordOfNumeral text with
      | .ok n => .ok (.word n)
      | .error e => .error (.badValue f text e)

def setTo (f : Flag) (text : Bytes) : Except FlagError FlagSetting :=
  (f.readValue text).map fun v => ⟨f.name, v⟩

end Flag

namespace FlagError

def reader : FlagKind → String
  | .switch => "strconv.ParseBool"
  | .counter => "strconv.ParseInt"
  | .number => "strconv.ParseUint"

def faultText : Text.NumeralFault → String
  | .malformed => "invalid syntax"
  | .outOfRange => "value out of range"

def message : FlagError → String
  | .badForm word => "bad flag syntax: " ++ Text.ofBytes word
  | .unknownName name => "unknown flag: --" ++ Text.ofBytes name
  | .unknownLetter c letters =>
      "unknown shorthand flag: " ++ Text.quotedByte c ++ " in -" ++ Text.ofBytes letters
  | .noValue word => "flag needs an argument: " ++ Text.ofBytes word
  | .noLetterValue c letters =>
      "flag needs an argument: " ++ Text.quotedByte c ++ " in -" ++ Text.ofBytes letters
  | .badValue f value fault =>
      "invalid argument " ++ Text.quoted value ++ " for " ++ Text.quotedText f.label ++ " flag: "
        ++ reader f.kind ++ ": parsing " ++ Text.quoted value ++ ": " ++ faultText fault
  | .help => "pflag: help requested"

end FlagError

structure FlagReading where
  settings : List FlagSetting := []
  operands : List Bytes := []
deriving DecidableEq

namespace FlagReading

def splitValue (b : Bytes) : Bytes × Option Bytes :=
  match b.dropWhile (· ≠ 0x3d) with
  | [] => (b, none)
  | _ :: value => (b.takeWhile (· ≠ 0x3d), some value)

def readName (flags : List Flag) (next : Option Bytes) (body : Bytes) :
    Except FlagError (List FlagSetting × Bool) :=
  let word : Bytes := 0x2d :: 0x2d :: body
  if body.isEmpty || body.head? == some 0x2d || body.head? == some 0x3d then
    .error (.badForm word)
  else
    let (name, value) := splitValue body
    match flags.find? fun f => Bytes.ofString f.name == name with
    | none =>
        if name = Bytes.ofString "help" then .error .help else .error (.unknownName name)
    | some f =>
        match value, f.implied, next with
        | some v, _, _ => (f.setTo v).map fun s => ([s], false)
        | none, some v, _ => .ok ([⟨f.name, v⟩], false)
        | none, none, some v => (f.setTo v).map fun s => ([s], true)
        | none, none, none => .error (.noValue word)

/-- Reads the letters behind a single dash. The answer says whether the next word was taken as the
value. Letters that spell `test.` are passed over together with all that follows them. -/
def readLetters (flags : List Flag) (next : Option Bytes) :
    Bytes → Except FlagError (List FlagSetting × Bool)
  | [] => .ok ([], false)
  | c :: rest =>
      if (Bytes.ofString "test.").isPrefixOf (c :: rest) then .ok ([], false)
      else
        match flags.find? fun f => f.letter == some c with
        | none => if c = 0x68 then .error .help else .error (.unknownLetter c (c :: rest))
        | some f =>
            if rest.head? == some 0x3d && rest.length ≥ 2 then
              (f.setTo rest.tail).map fun s => ([s], false)
            else
              match f.implied with
              | some v =>
                  (readLetters flags next rest).map fun r => (⟨f.name, v⟩ :: r.1, r.2)
              | none =>
                  if rest ≠ [] then (f.setTo rest).map fun s => ([s], false)
                  else
                    match next with
                    | some v => (f.setTo v).map fun s => ([s], true)
                    | none => .error (.noLetterValue c [c])

def readFlag (flags : List Flag) (next : Option Bytes) :
    Bytes → Except FlagError (List FlagSetting × Bool)
  | 0x2d :: 0x2d :: body => readName flags next body
  | 0x2d :: letters => readLetters flags next letters
  | word => .error (.badForm word)

def isOperand : Bytes → Bool
  | 0x2d :: _ :: _ => false
  | _ => true

def withOperand (w : Bytes) (r : FlagReading) : FlagReading :=
  { r with operands := w :: r.operands }

def withSettings (ss : List FlagSetting) (r : FlagReading) : FlagReading :=
  { r with settings := ss ++ r.settings }

/-- Reads words from the left. `--` ends the flags, and unless flags and operands may be `mixed`
so does the first operand. -/
def ofWords (flags : List Flag) (mixed : Bool) : List Bytes → Except FlagError FlagReading
  | [] => .ok {}
  | w :: rest =>
      if isOperand w then
        if mixed then (ofWords flags mixed rest).map (withOperand w)
        else .ok { operands := w :: rest }
      else if w = Bytes.ofString "--" then .ok { operands := rest }
      else
        match readFlag flags rest.head? w with
        | .error e => .error e
        | .ok (ss, false) => (ofWords flags mixed rest).map (withSettings ss)
        | .ok (ss, true) =>
            match rest with
            | [] => .ok { settings := ss }
            | _ :: tail => (ofWords flags mixed tail).map (withSettings ss)

def isOn (r : FlagReading) (flag : String) : Bool :=
  r.settings.foldl (fun on s =>
    match s.value with
    | .truth b => if s.flag = flag then b else on
    | _ => on) false

def countOf (r : FlagReading) (flag : String) : Int64 :=
  r.settings.foldl (fun n s =>
    if s.flag = flag then
      match s.value with
      | .increment => n + 1
      | .count m => m
      | _ => n
    else n) 0

def wordOf (r : FlagReading) (flag : String) (given : UInt64) : UInt64 :=
  r.settings.foldl (fun n s =>
    match s.value with
    | .word m => if s.flag = flag then m else n
    | _ => n) given

end FlagReading

end MinixVolume
