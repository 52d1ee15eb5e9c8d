import Mathlib

/-!
# Reading a shell script

The quoting rules of the POSIX shell, for scripts that are lists of simple commands: words of
ordinary bytes, single-quoted strings and bytes after a backslash, with `;` and line breaks between
the commands.  The reader goes through the bytes one by one (`step`).  A byte that would mean
something else to the shell (an expansion, a pattern, a redirection, a comment, …) and is not
quoted has no reading, nor have an open quote, an empty command before a `;` and a NUL byte.

`readScript` gives what a script does, command by command.  A writer of scripts uses `run_ordinary`
for its words, `run_quotedString` for its strings, `run_endOfLine` and `readScript_flatMap`.
-/

namespace Configd
namespace Lib
namespace Shell

abbrev Bytes := List UInt8

def utf8 (s : String) : Bytes :=
  s.toList.flatMap String.utf8EncodeChar

theorem utf8_injective : Function.Injective utf8 := by
  intro s t h
  have harray : s.toList.utf8Encode = t.toList.utf8Encode := congrArg List.toByteArray h
  rw [← String.toByteArray_inj, ← String.ofList_toList (s := s), ← String.ofList_toList (s := t),
    String.toByteArray_ofList, String.toByteArray_ofList, harray]

/-! ## Words -/

/-- A byte of a word, and whether it was quoted. -/
structure Cell where
  byte : UInt8
  quoted : Bool
  deriving DecidableEq

abbrev Word := List Cell

/-- Quote removal. -/
def Word.bytes (word : Word) : Bytes :=
  word.map Cell.byte

def plainWord (bytes : Bytes) : Word :=
  bytes.map (⟨·, false⟩)

def quotedWord (bytes : Bytes) : Word :=
  bytes.map (⟨·, true⟩)

@[simp] theorem bytes_plainWord (l : Bytes) : (plainWord l).bytes = l := by
  simp [plainWord, Word.bytes, Function.comp_def]

@[simp] theorem bytes_quotedWord (l : Bytes) : (quotedWord l).bytes = l := by
  simp [quotedWord, Word.bytes, Function.comp_def]

/-! ## The reader -/

def quote : UInt8 := 39
def backslash : UInt8 := 92
def semicolon : UInt8 := 59
def newline : UInt8 := 10
def equalsSign : UInt8 := 61

/-- White space between words. -/
def blanks : Bytes := utf8 " \t"

/-- The other bytes that mean something to the shell when they are not quoted. -/
def special : Bytes := 0 :: utf8 "|&<>()$`\"*?[]#~!\x7b\x7d"

/-- The bytes that stand for themselves. -/
def Ordinary (b : UInt8) : Prop :=
  b ∉ quote :: backslash :: semicolon :: newline :: (blanks ++ special)

instance (b : UInt8) : Decidable (Ordinary b) :=
  inferInstanceAs (Decidable (b ∉ _))

inductive Mode where
  | plain
  /-- Between single quotes. -/
  | quoted
  /-- After a backslash. -/
  | escaped
  deriving DecidableEq

/-- What has been read: the commands, the words of the command that is being read, and the word
that is being read if there is one. -/
structure Reader where
  mode : Mode
  commands : List (List Word)
  words : List Word
  word : Option Word
  deriving DecidableEq

namespace Reader

def start : Reader := ⟨.plain, [], [], none⟩

/-- A byte is added to the word; it begins one if there is none. -/
def push (r : Reader) (cell : Cell) : Reader :=
  { r with word := some (r.word.getD [] ++ [cell]) }

def endWord (r : Reader) : Reader :=
  { r with words := r.words ++ r.word.toList, word := none }

def endCommand (r : Reader) : Reader :=
  if r.endWord.words = [] then r.endWord
  else { r.endWord with commands := r.commands ++ [r.endWord.words], words := [] }

def stepPlain (r : Reader) (b : UInt8) : Option Reader :=
  if b = quote then some { r with mode := .quoted, word := some (r.word.getD []) }
  else if b = backslash then some { r with mode := .escaped }
  else if b ∈ blanks then some r.endWord
  else if b = newline then some r.endCommand
  else if b = semicolon then
    -- an empty command before a semicolon is an error
    if r.endWord.words = [] then none else some r.endCommand
  else if Ordinary b then some (r.push ⟨b, false⟩)
  else none

def step (r : Reader) (b : UInt8) : Option Reader :=
  match r.mode with
  | .plain => r.stepPlain b
  | .quoted =>
    if b = quote then some { r with mode := .plain }
    else if b = 0 then none
    else some (r.push ⟨b, true⟩)
  | .escaped =>
    -- a backslash at the end of a line continues the line
    if b = newline then some { r with mode := .plain }
    else if b = 0 then none
    else some { r.push ⟨b, true⟩ with mode := .plain }

def run (r : Reader) (script : Bytes) : Option Reader :=
  script.foldlM step r

theorem run_append (r : Reader) (l l' : Bytes) : r.run (l ++ l') = (r.run l).bind (·.run l') :=
  List.foldlM_append

end Reader

/-! ## What a command does -/

/-- `[A-Za-z_]`. -/
def isNameStart (b : UInt8) : Bool :=
  b ∈ utf8 "ABCDEFGHIJKLMNOPQRSTUVWXYZabcdefghijklmnopqrstuvwxyz_"

/-- `[A-Za-z0-9_]`. -/
def isNameByte (b : UInt8) : Bool :=
  isNameStart b || b ∈ utf8 "0123456789"

/-- `[A-Za-z_][A-Za-z0-9_]*`. -/
def isName : Bytes → Bool
  | [] => false
  | b :: rest => isNameStart b && rest.all isNameByte

/-- The name and the value of a word that is an assignment: what stands before the first equals
sign that is not quoted is a name, and not quoted. -/
def Word.assignment (word : Word) : Option (Bytes × Bytes) :=
  let name := word.takeWhile (· ≠ ⟨equalsSign, false⟩)
  match word.dropWhile (· ≠ ⟨equalsSign, false⟩) with
  | [] => none
  | _ :: value =>
    if name.all (!·.quoted) && isName (Word.bytes name) then
      some (Word.bytes name, Word.bytes value)
    else none

inductive Statement where
  | assign (name value : Bytes)
  /-- `export name=value`. -/
  | exported (name value : Bytes)
  /-- Any other command, with its words. -/
  | command (words : List Bytes)
  deriving DecidableEq

/-- The assignments a command consists of, an `export` of assignments, or the command. -/
def statements (words : List Word) : List Statement :=
  match words.mapM Word.assignment with
  | some assignments => assignments.map fun (name, value) => .assign name value
  | none =>
    let other := [Statement.command (words.map Word.bytes)]
    match words with
    | [] => []
    | utility :: arguments =>
      if utility.bytes = utf8 "export" then
        (arguments.mapM Word.assignment).elim other
          (·.map fun (name, value) => .exported name value)
      else other

/-- What a script does, in order. -/
def readScript (script : Bytes) : Option (List Statement) := do
  let r ← Reader.start.run script
  if r.mode = .plain then some (r.endCommand.commands.flatMap statements) else none

/-! ## Rules for writers -/

namespace Reader

/-- The reader that has read a piece of a word. -/
def add (r : Reader) (piece : Word) : Reader :=
  { r with word := some (r.word.getD [] ++ piece) }

@[simp] theorem add_add (r : Reader) (piece piece' : Word) :
    (r.add piece).add piece' = r.add (piece ++ piece') := by
  simp [add]

variable {r : Reader}

theorem add_nil (h : r.word.isSome) : r.add [] = r := by
  obtain ⟨word, hword⟩ := Option.isSome_iff_exists.mp h
  obtain ⟨mode, commands, words, _⟩ := r
  simp only at hword
  simp [add, hword]

theorem run_cons (r : Reader) (b : UInt8) (l : Bytes) :
    r.run (b :: l) = (r.step b).bind (·.run l) :=
  List.foldlM_cons

theorem run_singleton (r : Reader) (b : UInt8) : r.run [b] = r.step b := by
  rw [run_cons]
  exact Option.bind_fun_some _

theorem step_ordinary (hmode : r.mode = .plain) {b : UInt8} (hb : Ordinary b) :
    r.step b = some (r.add [⟨b, false⟩]) := by
  have hother := hb
  simp only [Ordinary, List.mem_cons, List.mem_append, not_or] at hother
  obtain ⟨hquote, hbackslash, hsemicolon, hnewline, hblank, -⟩ := hother
  simp only [step, hmode, stepPlain]
  rw [if_neg hquote, if_neg hbackslash, if_neg hblank, if_neg hnewline, if_neg hsemicolon,
    if_pos hb]
  rfl

theorem run_ordinary (hmode : r.mode = .plain) {l : Bytes} (hne : l ≠ [])
    (hl : ∀ b ∈ l, Ordinary b) : r.run l = some (r.add (plainWord l)) := by
  induction l generalizing r with
  | nil => exact absurd rfl hne
  | cons b l ih =>
    rw [run_cons, step_ordinary hmode (hl b List.mem_cons_self), Option.bind_some]
    rcases eq_or_ne l [] with rfl | hrest
    · rfl
    · rw [ih (r := r.add [⟨b, false⟩]) hmode hrest fun c hc => hl c (List.mem_cons_of_mem _ hc),
        add_add]
      rfl

theorem run_quotedByte (hmode : r.mode = .quoted) {b : UInt8} (hquote : b ≠ quote)
    (hzero : b ≠ 0) : r.run [b] = some (r.add [⟨b, true⟩]) := by
  rw [run_singleton]
  simp only [step, hmode]
  rw [if_neg hquote, if_neg hzero]
  rfl

theorem run_quotedQuote (hmode : r.mode = .quoted) :
    r.run [quote, backslash, quote, quote] = some (r.add [⟨quote, true⟩]) := by
  obtain ⟨mode, commands, words, word⟩ := r
  obtain rfl : mode = .quoted := hmode
  rfl

section QuotedString

variable {encode : UInt8 → Bytes}
  (hencode : ∀ (r : Reader) (b : UInt8), r.mode = .quoted → b ≠ 0 →
    r.run (encode b) = some (r.add [⟨b, true⟩]))

include hencode

theorem run_quotedBytes (hmode : r.mode = .quoted) (hword : r.word.isSome) {l : Bytes}
    (hl : 0 ∉ l) : r.run (l.flatMap encode) = some (r.add (quotedWord l)) := by
  induction l generalizing r with
  | nil => exact congrArg some (add_nil hword).symm
  | cons b l ih =>
    obtain ⟨hb, hrest⟩ : b ≠ 0 ∧ 0 ∉ l := by
      simpa [eq_comm] using hl
    rw [List.flatMap_cons, run_append, hencode r b hmode hb, Option.bind_some,
      ih (r := r.add [⟨b, true⟩]) hmode rfl hrest, add_add]
    rfl

/-- **A quoted string is read as the bytes it was written for**, when each of them is written
so that it is. -/
theorem run_quotedString (hmode : r.mode = .plain) {l : Bytes} (hl : 0 ∉ l) :
    r.run (quote :: (l.flatMap encode ++ [quote])) = some (r.add (quotedWord l)) := by
  have hopen : r.step quote = some { r.add [] with mode := .quoted } := by
    simp [step, hmode, stepPlain, add]
  rw [run_cons, hopen, Option.bind_some, run_append, run_quotedBytes hencode rfl rfl hl,
    Option.bind_some, run_singleton]
  simp [step, add, hmode]

end QuotedString

/-- The reader before a command. -/
def before (commands : List (List Word)) : Reader := ⟨.plain, commands, [], none⟩

theorem run_endOfLine (commands : List (List Word)) (words : List Word) (word : Word) :
    Reader.run ⟨.plain, commands, words, some word⟩ [semicolon, newline] =
      some (before (commands ++ [words ++ [word]])) := by
  have hsemicolon : Reader.step ⟨.plain, commands, words, some word⟩ semicolon =
      some (before (commands ++ [words ++ [word]])) := by
    simp [step, stepPlain, endCommand, endWord, before, semicolon, quote, backslash, newline,
      blanks, utf8, String.utf8EncodeChar]
  rw [run_cons, hsemicolon, Option.bind_some, run_singleton]
  simp [step, stepPlain, endCommand, endWord, before, quote, backslash, newline, blanks, utf8,
    String.utf8EncodeChar]

end Reader

/-- **A script that is written line by line is read line by line.** -/
theorem readScript_flatMap {α : Type} {line : α → Bytes} {words : α → List Word} {items : List α}
    (h : ∀ item ∈ items, ∀ commands,
      (Reader.before commands).run (line item) = some (Reader.before (commands ++ [words item]))) :
    readScript (items.flatMap line) = some (items.flatMap fun item => statements (words item)) := by
  have hrun : ∀ commands, (Reader.before commands).run (items.flatMap line) =
      some (Reader.before (commands ++ items.map words)) := by
    induction items with
    | nil => exact fun commands => by simp [Reader.run]
    | cons item items ih =>
      intro commands
      rw [List.flatMap_cons, Reader.run_append, h item List.mem_cons_self, Option.bind_some,
        ih fun other hother => h other (List.mem_cons_of_mem _ hother)]
      simp
  have hstart := hrun []
  rw [List.nil_append] at hstart
  rw [readScript, show Reader.start = Reader.before [] from rfl, hstart]
  simp [Reader.before, Reader.endCommand, Reader.endWord, List.flatMap_map]

/-! ## Names -/

theorem isNameByte_of_isName {name : Bytes} (h : isName name = true) :
    ∀ b ∈ name, isNameByte b = true := by
  cases name with
  | nil => simp
  | cons b rest =>
    obtain ⟨hstart, hrest⟩ : isNameStart b = true ∧ ∀ c ∈ rest, isNameByte c = true := by
      simpa [isName] using h
    intro c hc
    rcases List.mem_cons.mp hc with rfl | hmem
    · simp [isNameByte, hstart]
    · exact hrest c hmem

theorem ordinary_of_isNameByte {b : UInt8} (h : isNameByte b = true) :
    Ordinary b ∧ b ≠ equalsSign := by
  have hmem : b ∈ utf8 "ABCDEFGHIJKLMNOPQRSTUVWXYZabcdefghijklmnopqrstuvwxyz_" ++
      utf8 "0123456789" := by
    simpa [isNameByte, isNameStart] using h
  have hall : ∀ c ∈ utf8 "ABCDEFGHIJKLMNOPQRSTUVWXYZabcdefghijklmnopqrstuvwxyz_" ++
      utf8 "0123456789",
      Ordinary c ∧ c ≠ equalsSign := by decide +kernel
  exact hall b hmem

theorem assignment_append {name : Bytes} (hname : isName name = true) (value : Word) :
    Word.assignment (plainWord name ++ ⟨equalsSign, false⟩ :: value) =
      some (name, Word.bytes value) := by
  have hbefore : ∀ cell ∈ plainWord name, decide (cell ≠ ⟨equalsSign, false⟩) = true := by
    intro cell hcell
    obtain ⟨b, hb, rfl⟩ := List.mem_map.mp hcell
    have hne := (ordinary_of_isNameByte (isNameByte_of_isName hname b hb)).2
    simpa using hne
  have htake : (plainWord name ++ ⟨equalsSign, false⟩ :: value).takeWhile
      (· ≠ ⟨equalsSign, false⟩) =
      plainWord name := by
    rw [List.takeWhile_append_of_pos hbefore]
    simp
  have hdrop : (plainWord name ++ ⟨equalsSign, false⟩ :: value).dropWhile
      (· ≠ ⟨equalsSign, false⟩) =
      ⟨equalsSign, false⟩ :: value := by
    rw [List.dropWhile_append_of_pos hbefore]
    simp
  have hunquoted : (plainWord name).all (!·.quoted) = true := by
    simp [plainWord]
  simp only [Word.assignment, htake, hdrop, hunquoted, bytes_plainWord, hname, Bool.and_self,
    if_true]

end Shell
end Lib
end Configd
