import MinixVolume.Command

namespace MinixVolume

namespace Command

def spellings : Bool → List String
  | true => ["1", "t", "T", "true", "TRUE", "True"]
  | false => ["0", "f", "F", "false", "FALSE", "False"]

def Spells (v : Bytes) (on : Bool) : Prop :=
  ∃ s ∈ spellings on, Bytes.ofString s = v

inductive FlagWord : Bytes → Bool → Prop
  | name : FlagWord (Bytes.ofString "--long") true
  | nameValue {v on} : Spells v on → FlagWord (Bytes.ofString "--long=" ++ v) on
  | letters (k : Nat) : FlagWord (0x2d :: List.replicate (k + 1) 0x6c) true
  | lettersValue (k : Nat) {v on} : Spells v on →
      FlagWord (0x2d :: (List.replicate (k + 1) 0x6c ++ 0x3d :: v)) on

inductive FlagWords : List Bytes → List Bool → Prop
  | nil : FlagWords [] []
  | terminated : FlagWords [Bytes.ofString "--"] []
  | cons {w on words values} : FlagWord w on → FlagWords words values →
      FlagWords (w :: words) (on :: values)

inductive Says : List Bytes → Command → Prop
  | ls {words values} : FlagWords words values →
      Says (Bytes.ofString "ls" :: words) (.ls (values.getLast?.getD false))
  | cat {path} : path ≠ [] → Says [Bytes.ofString "cat", path] (.cat path)
  | touch {name} : name ≠ [] → Says [Bytes.ofString "touch", name] (.touch name)
  | mkdir {name} : name ≠ [] → Says [Bytes.ofString "mkdir", name] (.mkdir name)
  | info : Says [Bytes.ofString "info"] .info

/-- A word with a single dash in front that has `test.` in it. -/
def Testing (w : Bytes) : Prop :=
  w.head? = some 0x2d ∧ w.tail.head? ≠ some 0x2d ∧ Bytes.ofString "test." <:+: w

instance (w : Bytes) : Decidable (Testing w) :=
  inferInstanceAs (Decidable (_ ∧ _ ∧ _))

/-- The lists of words that the grammar leaves open. -/
def Exempt (args : List Bytes) : Prop :=
  ∃ words, args = Bytes.ofString "ls" :: words ∧ ∃ w ∈ words, Testing w

section Values

theorem map_eq_ok {ε α β : Type} {f : α → β} {x : Except ε α} {b : β} :
    x.map f = .ok b ↔ ∃ a, x = .ok a ∧ f a = b := by
  cases x with
  | error e => simp [Except.map]
  | ok a => simp [Except.map]

theorem boolOfText_spelling (on : Bool) :
    ∀ s ∈ spellings on, Text.boolOfText (Bytes.ofString s) = some on := by
  cases on with
  | true => decide
  | false => decide

theorem boolOfText_eq_some {v : Bytes} {on : Bool} :
    Text.boolOfText v = some on ↔ Spells v on := by
  constructor
  · intro h
    simp only [Text.boolOfText, List.any_eq_true, beq_iff_eq] at h
    split at h
    · next spelled =>
        cases h
        exact spelled
    · split at h
      · next spelled =>
          cases h
          exact spelled
      · cases h
  · rintro ⟨s, mem, rfl⟩
    exact boolOfText_spelling on s mem

theorem Spells.two_le {v : Bytes} {on : Bool} (h : Spells v on) : 2 ≤ (0x3d :: v).length := by
  cases v with
  | nil => cases boolOfText_eq_some.mpr h
  | cons c v => simp

def longFlag : Flag :=
  { name := "long", letter := some 0x6c, kind := .switch }

def setting (on : Bool) : FlagSetting :=
  ⟨"long", .truth on⟩

theorem map_setTo_eq_ok {α : Type} {f : FlagSetting → α} {v : Bytes} {a : α} :
    (longFlag.setTo v).map f = .ok a ↔ ∃ on, Spells v on ∧ f (setting on) = a := by
  simp only [Flag.setTo, Flag.readValue, longFlag, ← boolOfText_eq_some]
  cases Text.boolOfText v with
  | none => simp [Except.map]
  | some on => simp [Except.map, setting]

theorem find_name (name : Bytes) :
    listFlags.find? (fun f => Bytes.ofString f.name == name)
      = if name = Bytes.ofString "long" then some longFlag else none := by
  by_cases same : name = Bytes.ofString "long"
  · simp [listFlags, longFlag, same]
  · simp [listFlags, same, Ne.symm same]

theorem find_letter (c : UInt8) :
    listFlags.find? (fun f => f.letter == some c) = if c = 0x6c then some longFlag else none := by
  by_cases same : c = 0x6c
  · simp [listFlags, longFlag, same]
  · simp [listFlags, same, Ne.symm same]

theorem splitValue_cases (b : Bytes) :
    FlagReading.splitValue b = (b, none) ∨
      ∃ name v, b = name ++ 0x3d :: v ∧ FlagReading.splitValue b = (name, some v) := by
  have whole := List.takeWhile_append_dropWhile (p := (· ≠ (0x3d : UInt8))) (l := b)
  have first := List.head?_dropWhile_not (· ≠ (0x3d : UInt8)) b
  unfold FlagReading.splitValue
  split
  · exact .inl rfl
  · next c v rest =>
      rw [rest] at whole first
      have mark : c = 0x3d := by simpa using first
      subst mark
      exact .inr ⟨_, v, whole.symm, rfl⟩

end Values

section Flags

variable {next : Option Bytes} {ss : List FlagSetting} {taken : Bool}

theorem readName_eq_ok {body : Bytes}
    (h : FlagReading.readName listFlags next body = .ok (ss, taken)) :
    taken = false ∧ ∃ on, FlagWord (0x2d :: 0x2d :: body) on := by
  unfold FlagReading.readName at h
  split at h
  · cases h
  rcases splitValue_cases body with split | ⟨name, v, rfl, split⟩
  · simp only [split, find_name] at h
    by_cases same : body = Bytes.ofString "long"
    · subst same
      simp only [if_true, Flag.implied, longFlag] at h
      cases h
      exact ⟨rfl, true, .name⟩
    · rw [if_neg same] at h
      dsimp only at h
      split at h <;> cases h
  · simp only [split, find_name] at h
    by_cases same : name = Bytes.ofString "long"
    · subst same
      obtain ⟨on, spelled, ⟨⟩⟩ := map_setTo_eq_ok.mp h
      exact ⟨rfl, on, .nameValue spelled⟩
    · rw [if_neg same] at h
      dsimp only at h
      split at h <;> cases h

theorem readLetters_long (next : Option Bytes) (rest : Bytes) :
    FlagReading.readLetters listFlags next (0x6c :: rest)
      = if rest.head? == some 0x3d && rest.length ≥ 2 then
          (longFlag.setTo rest.tail).map fun s => ([s], false)
        else
          (FlagReading.readLetters listFlags next rest).map fun r => (setting true :: r.1, r.2) :=
  rfl

theorem readLetters_foreign (next : Option Bytes) {c : UInt8} {rest : Bytes}
    (foreign : c ≠ 0x6c) (plain : ¬ Bytes.ofString "test." <:+: c :: rest) :
    ∃ e, FlagReading.readLetters listFlags next (c :: rest) = .error e := by
  have front : ¬ (Bytes.ofString "test.").isPrefixOf (c :: rest) := by
    rw [List.isPrefixOf_iff_prefix]
    exact fun front => plain front.isInfix
  rw [FlagReading.readLetters, if_neg front, find_letter, if_neg foreign]
  dsimp only
  split
  · exact ⟨_, rfl⟩
  · exact ⟨_, rfl⟩

theorem readLetters_eq_ok {letters : Bytes} (plain : ¬ Bytes.ofString "test." <:+: letters)
    (h : FlagReading.readLetters listFlags next letters = .ok (ss, taken)) :
    taken = false ∧ ((∃ k, letters = List.replicate k 0x6c) ∨
      ∃ k v on, Spells v on ∧ letters = List.replicate (k + 1) 0x6c ++ 0x3d :: v) := by
  induction letters generalizing ss taken with
  | nil =>
      cases h
      exact ⟨rfl, .inl ⟨0, rfl⟩⟩
  | cons c rest ih =>
      by_cases long : c = 0x6c
      · subst long
        rw [readLetters_long] at h
        split at h
        · next value =>
            obtain ⟨on, spelled, ⟨⟩⟩ := map_setTo_eq_ok.mp h
            simp only [Bool.and_eq_true, beq_iff_eq] at value
            obtain ⟨v, rfl⟩ := List.head?_eq_some_iff.mp value.1
            exact ⟨rfl, .inr ⟨0, v, on, spelled, rfl⟩⟩
        · obtain ⟨_, read, ⟨⟩⟩ := map_eq_ok.mp h
          have later := fun inner => plain (List.IsInfix.trans inner
            (List.suffix_cons 0x6c rest).isInfix)
          obtain ⟨kept, ⟨k, rfl⟩ | ⟨k, v, on, spelled, rfl⟩⟩ := ih later read
          · exact ⟨kept, .inl ⟨k + 1, rfl⟩⟩
          · exact ⟨kept, .inr ⟨k + 1, v, on, spelled, rfl⟩⟩
      · obtain ⟨e, error⟩ := readLetters_foreign next long plain
        rw [error] at h
        cases h

theorem readFlag_eq_ok {w : Bytes} (plain : ¬ Testing w) (flag : FlagReading.isOperand w = false)
    (h : FlagReading.readFlag listFlags next w = .ok (ss, taken)) :
    taken = false ∧ ∃ on, FlagWord w on := by
  unfold FlagReading.readFlag at h
  split at h
  · exact readName_eq_ok h
  · next letters single =>
      have inner : ¬ Bytes.ofString "test." <:+: letters := by
        intro inner
        refine plain ⟨rfl, ?_, inner.trans (List.suffix_cons 0x2d letters).isInfix⟩
        intro dash
        obtain ⟨body, rfl⟩ := List.head?_eq_some_iff.mp dash
        exact single body rfl
      obtain ⟨kept, ⟨k, rfl⟩ | ⟨k, v, on, spelled, rfl⟩⟩ := readLetters_eq_ok inner h
      · cases k with
        | zero => cases flag
        | succ k => exact ⟨kept, true, .letters k⟩
      · exact ⟨kept, on, .lettersValue k spelled⟩
  · cases h

theorem readLetters_letters {tail : Bytes} (bare : tail.head? ≠ some 0x3d)
    (h : FlagReading.readLetters listFlags next tail = .ok (ss, false)) (k : Nat) :
    FlagReading.readLetters listFlags next (List.replicate k 0x6c ++ tail)
      = .ok (List.replicate k (setting true) ++ ss, false) := by
  induction k with
  | zero => exact h
  | succ k ih =>
      have bare : (List.replicate k 0x6c ++ tail).head? ≠ some 0x3d := by
        cases k with
        | zero => exact bare
        | succ k => simp [List.replicate_succ]
      rw [List.replicate_succ, List.cons_append, readLetters_long, beq_false_of_ne bare, ih]
      rfl

theorem FlagWord.readFlag {w : Bytes} {on : Bool} (h : FlagWord w on) (next : Option Bytes) :
    FlagReading.isOperand w = false ∧ w ≠ Bytes.ofString "--" ∧
      ∃ before : List Bool,
        FlagReading.readFlag listFlags next w = .ok ((before ++ [on]).map setting, false) := by
  cases h with
  | name => exact ⟨rfl, by decide, [], rfl⟩
  | @nameValue v on spelled =>
      refine ⟨rfl, ?_, [], map_setTo_eq_ok.mpr ⟨on, spelled, rfl⟩⟩
      intro same
      cases same
  | letters k =>
      have none : FlagReading.readLetters listFlags next [] = .ok ([], false) := rfl
      have read := readLetters_letters (by simp) none (k + 1)
      refine ⟨rfl, ?_, List.replicate k true, ?_⟩
      · intro same
        cases same
      · change FlagReading.readLetters listFlags next (List.replicate (k + 1) 0x6c) = _
        rw [List.append_nil] at read
        simpa [List.replicate_succ'] using read
  | @lettersValue k v on spelled =>
      have value := spelled.two_le
      have last : FlagReading.readLetters listFlags next (0x6c :: 0x3d :: v)
          = .ok ([setting on], false) := by
        rw [readLetters_long, if_pos (by simpa using value)]
        exact map_setTo_eq_ok.mpr ⟨on, spelled, rfl⟩
      have read := readLetters_letters (by simp) last k
      refine ⟨rfl, ?_, List.replicate k true, ?_⟩
      · intro same
        cases same
      · change FlagReading.readLetters listFlags next (List.replicate (k + 1) 0x6c ++ _) = _
        simpa [List.replicate_succ'] using read

end Flags

theorem isOn_settings (values : List Bool) :
    FlagReading.isOn ⟨values.map setting, []⟩ "long" = values.getLast?.getD false := by
  -- the last setting decides, whatever came before it
  obtain rfl | ⟨before, b, rfl⟩ := values.eq_nil_or_concat
  · rfl
  · simp [FlagReading.isOn, setting]

theorem FlagWords.ofWords {words : List Bytes} {values : List Bool} (h : FlagWords words values) :
    ∃ all : List Bool, all.getLast? = values.getLast? ∧
      FlagReading.ofWords listFlags true words = .ok ⟨all.map setting, []⟩ := by
  induction h with
  | nil => exact ⟨[], rfl, rfl⟩
  | terminated => exact ⟨[], rfl, rfl⟩
  | @cons w on words values flag _ ih =>
      obtain ⟨all, last, read⟩ := ih
      obtain ⟨dash, more, before, first⟩ := flag.readFlag words.head?
      refine ⟨before ++ on :: all, ?_, ?_⟩
      · simp [List.getLast?_append, List.getLast?_cons, last]
      · rw [FlagReading.ofWords, if_neg (by simp [dash]), if_neg more, first]
        simp [read, Except.map, FlagReading.withSettings]

theorem flagWords_of_ofWords {words : List Bytes} {r : FlagReading}
    (plain : ∀ w ∈ words, ¬ Testing w)
    (h : FlagReading.ofWords listFlags true words = .ok r) (bare : r.operands = []) :
    ∃ values, FlagWords words values := by
  induction words generalizing r with
  | nil => exact ⟨[], .nil⟩
  | cons w words ih =>
      rw [List.forall_mem_cons] at plain
      rw [FlagReading.ofWords] at h
      split at h
      · -- an operand stays one, whatever follows it
        obtain ⟨_, -, rfl⟩ := map_eq_ok.mp h
        cases bare
      next dash =>
      split at h
      · next last =>
          cases h
          cases bare
          exact ⟨[], last ▸ .terminated⟩
      split at h
      · cases h
      · next read =>
          obtain ⟨-, on, flag⟩ := readFlag_eq_ok plain.1 (by simpa using dash) read
          obtain ⟨_, rest, rfl⟩ := map_eq_ok.mp h
          obtain ⟨values, flags⟩ := ih plain.2 rest bare
          exact ⟨on :: values, .cons flag flags⟩
      · next read =>
          obtain ⟨⟨⟩, -⟩ := readFlag_eq_ok plain.1 (by simpa using dash) read

theorem parseList_cases (words : List Bytes) :
    (∃ long, parseList words = .ok (.ls long)) ∨
      ∃ e, parseList words = .error e ∧ e.kinds = [.usage] := by
  unfold parseList
  split
  · exact .inr ⟨_, rfl, rfl⟩
  · split
    · exact .inl ⟨_, rfl⟩
    · exact .inr ⟨_, rfl, rfl⟩

theorem parseList_eq_ok {words : List Bytes} (plain : ∀ w ∈ words, ¬ Testing w) {c : Command} :
    parseList words = .ok c ↔
      ∃ values, FlagWords words values ∧ c = .ls (values.getLast?.getD false) := by
  constructor
  · intro h
    unfold parseList at h
    split at h
    · cases h
    · next r read =>
        split at h
        · next bare =>
            cases h
            obtain ⟨values, flags⟩ := flagWords_of_ofWords plain read bare
            obtain ⟨all, last, again⟩ := flags.ofWords
            rw [read] at again
            cases again
            exact ⟨values, flags, by rw [isOn_settings, last]⟩
        · cases h
  · rintro ⟨values, flags, rfl⟩
    obtain ⟨all, last, read⟩ := flags.ofWords
    simp [parseList, read, isOn_settings, last]

section Operand

variable {synopsis : String} {words : List Bytes} {f : Bytes → Command}

theorem oneOperand_cases (synopsis : String) (words : List Bytes) :
    (∃ w, words = [w] ∧ w ≠ [] ∧ oneOperand synopsis words = .ok w) ∨
      ∃ e, oneOperand synopsis words = .error e ∧ e.kinds = [.usage] := by
  unfold oneOperand
  split
  · next w =>
      by_cases empty : w = []
      · exact .inr ⟨_, if_pos empty, rfl⟩
      · exact .inl ⟨w, rfl, empty, if_neg empty⟩
  · exact .inr ⟨_, rfl, rfl⟩

theorem map_oneOperand_eq_ok {c : Command} :
    (oneOperand synopsis words).map f = .ok c ↔ ∃ w, w ≠ [] ∧ words = [w] ∧ c = f w := by
  constructor
  · intro h
    rcases oneOperand_cases synopsis words with ⟨w, rfl, given, read⟩ | ⟨e, read, -⟩
    · rw [read] at h
      cases h
      exact ⟨w, given, rfl, rfl⟩
    · rw [read] at h
      cases h
  · rintro ⟨w, given, rfl, rfl⟩
    simp [oneOperand, given, Except.map]

theorem kinds_of_oneOperand {e : Error} (h : (oneOperand synopsis words).map f = .error e) :
    e.kinds = [.usage] := by
  rcases oneOperand_cases synopsis words with ⟨w, -, -, read⟩ | ⟨e, read, kinds⟩
  · rw [read] at h
    cases h
  · rw [read] at h
    cases h
    exact kinds

end Operand

variable {args : List Bytes} {c : Command}

theorem says_of_parse (h : parse args = .ok c) (settled : Exempt args → ∀ long, c ≠ .ls long) :
    Says args c := by
  cases args with
  | nil => cases h
  | cons word operands =>
      rw [parse] at h
      split at h
      · next ls =>
          subst ls
          have plain : ∀ w ∈ operands, ¬ Testing w := by
            intro w mem testing
            rcases parseList_cases operands with ⟨long, read⟩ | ⟨e, read, -⟩
            · rw [read] at h
              cases h
              exact settled ⟨operands, rfl, w, mem, testing⟩ long rfl
            · rw [read] at h
              cases h
          obtain ⟨values, flags, rfl⟩ := (parseList_eq_ok plain).mp h
          exact .ls flags
      split at h
      · next cat =>
          obtain ⟨path, given, rfl, rfl⟩ := map_oneOperand_eq_ok.mp h
          exact cat ▸ .cat given
      split at h
      · next touch =>
          obtain ⟨name, given, rfl, rfl⟩ := map_oneOperand_eq_ok.mp h
          exact touch ▸ .touch given
      split at h
      · next mkdir =>
          obtain ⟨name, given, rfl, rfl⟩ := map_oneOperand_eq_ok.mp h
          exact mkdir ▸ .mkdir given
      split at h
      · next info =>
          split at h
          · next bare =>
              cases h
              exact info ▸ bare ▸ .info
          · cases h
      · cases h

theorem Says.parse (h : Says args c) (settled : Exempt args → ∀ long, c ≠ .ls long) :
    parse args = .ok c := by
  cases h with
  | @ls words values flags =>
      have plain : ∀ w ∈ words, ¬ Testing w := fun w mem testing =>
        settled ⟨words, rfl, w, mem, testing⟩ _ rfl
      exact (parseList_eq_ok plain).mpr ⟨values, flags, rfl⟩
  | cat given => exact map_oneOperand_eq_ok.mpr ⟨_, given, rfl, rfl⟩
  | touch given => exact map_oneOperand_eq_ok.mpr ⟨_, given, rfl, rfl⟩
  | mkdir given => exact map_oneOperand_eq_ok.mpr ⟨_, given, rfl, rfl⟩
  | info => rfl

theorem kinds_of_parse {e : Error} (h : Command.parse args = .error e) : e.kinds = [.usage] := by
  cases args with
  | nil =>
      cases h
      rfl
  | cons word operands =>
      rw [parse] at h
      split at h
      · rcases parseList_cases operands with ⟨long, read⟩ | ⟨e, read, kinds⟩
        · rw [read] at h
          cases h
        · rw [read] at h
          cases h
          exact kinds
      split at h
      · exact kinds_of_oneOperand h
      split at h
      · exact kinds_of_oneOperand h
      split at h
      · exact kinds_of_oneOperand h
      split at h
      · split at h
        · cases h
        · cases h
          rfl
      · cases h
        rfl

/-- Words are taken for a command exactly if the grammar builds them so. All others are refused as
bad usage, also where help is asked for. -/
theorem parse_exact (args : List Bytes) :
    (∀ c, (∀ long, c ≠ .ls long) → (parse args = .ok c ↔ Says args c)) ∧
      (¬ Exempt args → ∀ long, parse args = .ok (.ls long) ↔ Says args (.ls long)) ∧
      (¬ Exempt args → (∀ c, ¬ Says args c) → ∃ e, parse args = .error e ∧
        e.hasKind .usage = true ∧ e.hasKind .help = false) := by
  refine ⟨fun c other => ?_, fun covered long => ?_, fun covered foreign => ?_⟩
  · exact ⟨fun h => says_of_parse h fun _ => other, fun h => h.parse fun _ => other⟩
  · exact ⟨fun h => says_of_parse h fun exempt => absurd exempt covered,
      fun h => h.parse fun exempt => absurd exempt covered⟩
  · cases h : parse args with
    | ok c => exact absurd (says_of_parse h fun exempt => absurd exempt covered) (foreign c)
    | error e =>
        refine ⟨e, rfl, ?_, ?_⟩
        · rw [Error.hasKind, kinds_of_parse h]
          rfl
        · rw [Error.hasKind, kinds_of_parse h]
          rfl

theorem parse_exact_clustered :
    ∃ args, args = ["ls", "-ll=F", "--long=T", "-lll=0", "--"].map Bytes.ofString ∧
      ¬ Exempt args ∧ Says args (.ls false) ∧ parse args = .ok (.ls false) := by
  have plain : ∀ w ∈ ["-ll=F", "--long=T", "-lll=0", "--"].map Bytes.ofString, ¬ Testing w := by
    decide
  have covered : ¬ Exempt (["ls", "-ll=F", "--long=T", "-lll=0", "--"].map Bytes.ofString) := by
    rintro ⟨_, ⟨⟩, w, mem, testing⟩
    exact plain w mem testing
  have spelled (s : String) (on : Bool) (mem : s ∈ spellings on) : Spells (Bytes.ofString s) on :=
    ⟨s, mem, rfl⟩
  have said : Says (["ls", "-ll=F", "--long=T", "-lll=0", "--"].map Bytes.ofString) (.ls false) :=
    .ls (.cons (.lettersValue 1 (spelled "F" false (by decide)))
      (.cons (.nameValue (spelled "T" true (by decide)))
        (.cons (.lettersValue 2 (spelled "0" false (by decide))) .terminated)))
  exact ⟨_, rfl, covered, said, ((parse_exact _).2.1 covered false).mpr said⟩

end Command

end MinixVolume
