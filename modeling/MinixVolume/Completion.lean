import MinixVolume.Flag

namespace MinixVolume

inductive Fallback where
  | fileNames
  | nothing
deriving DecidableEq, Repr

namespace Fallback

def code : Fallback → Nat
  | .fileNames => 0
  | .nothing => 4

def name : Fallback → String
  | .fileNames => "ShellCompDirectiveDefault"
  | .nothing => "ShellCompDirectiveNoFileComp"

end Fallback

structure Choice where
  text : String
  about : String
deriving DecidableEq, Repr

structure Completion where
  choices : List Choice := []
  fallback : Fallback
deriving DecidableEq, Repr

namespace Completion

structure Request where
  words : List Bytes
  described : Bool
deriving DecidableEq, Repr

namespace Request

def describedWord : Bytes := Bytes.ofString "__complete"

def plainWord : Bytes := Bytes.ofString "__completeNoDesc"

/-- Whether a flag leaves the next word to be its value: it carries none and is not known to do
without. -/
def takesNext (flags : List Flag) (w : Bytes) : Bool :=
  !w.contains 0x3d &&
    match w with
    | 0x2d :: 0x2d :: name =>
        !flags.any fun f => Bytes.ofString f.name == name && f.implied.isSome
    | [0x2d, c] => !flags.any fun f => f.letter == some c && f.implied.isSome
    | _ => false

def behind (front : List Bytes) (r : Request) : Request :=
  { r with words := front ++ r.words }

/-- Words are a request if the first operand says so; the words in front of it belong to the
command line as well. -/
def ofWords (flags : List Flag) : List Bytes → Option Request
  | [] => none
  | w :: rest =>
      if w = Bytes.ofString "--" then none
      else if takesNext flags w then
        match rest with
        | [] => none
        | value :: tail =>
            if tail.isEmpty then none else (ofWords flags tail).map (behind [w, value])
      else if w.isEmpty || w.head? == some 0x2d then (ofWords flags rest).map (behind [w])
      else if w = describedWord then some ⟨rest, true⟩
      else if w = plainWord then some ⟨rest, false⟩
      else none

end Request

inductive Subject where
  | word (text : Bytes)
  | value
  | strayValue
deriving DecidableEq, Repr

def findFlag (flags : List Flag) : Bytes → Option Flag
  | [c] => flags.find? fun f => f.letter == some c
  | name => flags.find? fun f => Bytes.ofString f.name == name

def flagBefore (w : Bytes) : Option Bytes :=
  if w.contains 0x3d then none
  else
    match w with
    | 0x2d :: 0x2d :: name => if name.isEmpty then none else some name
    | 0x2d :: letters => letters.getLast?.map fun c => [c]
    | _ => none

def nameInFront (front : Bytes) : Bytes :=
  match front with
  | 0x2d :: 0x2d :: name => name
  | _ => front.getLast?.toList

def subjectOf (flags : List Flag) (before : List Bytes) (last : Bytes) : Subject × List Bytes :=
  let valueOf (name : Bytes) (front : List Bytes) : Subject × List Bytes :=
    if (findFlag flags name).isSome then (.value, front) else (.strayValue, before)
  let previous := before.getLast?.bind flagBefore
  if last.head? == some 0x2d then
    match FlagReading.splitValue last with
    | (_, none) => (.word last, before)
    | (front, some value) =>
        match nameInFront front, previous with
        | [], none => (.word value, before)
        | [], some name => valueOf name before.dropLast
        | name, _ => valueOf name before
  else
    match previous with
    | none => (.word last, before)
    | some name =>
        match (findFlag flags name).bind Flag.implied with
        | some _ => (.word last, before)
        | none => valueOf name before.dropLast

def choicesFor (text : Bytes) (f : Flag) : List Choice :=
  let letters := f.letter.toList.map fun c => String.ofList ['-', Char.ofNat c.toNat]
  (("--" ++ f.name) :: letters).filterMap fun s =>
    if text.isPrefixOf (Bytes.ofString s) then some ⟨s, f.about⟩ else none

/-- Whether no flag can follow: one more `--` would be an operand. -/
def flagsOver (flags : List Flag) (before : List Bytes) (r : FlagReading) : Bool :=
  match FlagReading.ofWords flags false (before ++ [Bytes.ofString "--"]) with
  | .error _ => false
  | .ok longer => r.operands.length < longer.operands.length

def ofLast (flags : List Flag) (before : List Bytes) (last : Bytes) : Completion :=
  let (subject, before) := subjectOf flags before last
  match FlagReading.ofWords flags false before with
  | .error _ => { fallback := .fileNames }
  | .ok r =>
      let closed := flagsOver flags before r
      let isSet (name : String) : Bool := r.settings.any fun s => s.flag == name
      if subject == .strayValue && !closed then { fallback := .fileNames }
      else if isSet "help" then { fallback := .nothing }
      else
        match subject with
        | .word text =>
            if closed || text.head? != some 0x2d || text.contains 0x3d then
              { fallback := .fileNames }
            else
              { choices := (flags.filter fun f => !isSet f.name).flatMap (choicesFor text)
                fallback := .nothing }
        | _ => { fallback := .fileNames }

def text (described : Bool) (c : Completion) : String :=
  let line (x : Choice) : String := if described then x.text ++ "\t" ++ x.about else x.text
  String.join (c.choices.map fun x => line x ++ "\n") ++ s!":{c.fallback.code}\n"

end Completion

end MinixVolume
