import Configd.Lib.Strings

/-!
# The lexer of `zmconfigd.cf`

`internal/parser/lexer.go`: the text is cut into tokens by the class of the current
character, and a token knows where it starts.  The parser takes the tokens one by one and
never asks for another one after an error; so its input is the list `tokenize` of all
tokens up to the end of the file or to the first character no token starts with.

Which token comes next depends on the remaining characters only (`nextToken_scan`), the
positions are for the error messages.
-/

namespace Configd.Parser

open Lib

/-! ## Character classes -/

/-- The tables of the package `unicode` that the lexer reads, beyond ASCII, and the way a
character is quoted in a message. -/
structure Unicode where
  letter : Char → Bool
  digit : Char → Bool
  upper : Char → Char
  quote : Char → String
  letter_not_space : ∀ c, Strings.isSpace c = true → letter c = false
  digit_not_space : ∀ c, Strings.isSpace c = true → digit c = false

/-- The tables of a system that knows ASCII only. -/
def Unicode.ascii : Unicode where
  letter := fun _ => false
  digit := fun _ => false
  upper := id
  quote := fun c => "'" ++ String.singleton c ++ "'"
  letter_not_space := fun _ _ => rfl
  digit_not_space := fun _ _ => rfl

section Classes

variable (u : Unicode)

def isLetter (c : Char) : Bool :=
  if c.toNat < 128 then c.isAlpha else u.letter c

def isDigit (c : Char) : Bool :=
  if c.toNat < 128 then c.isDigit else u.digit c

def toUpper (s : String) : String :=
  String.ofList (s.toList.map fun c => if c.toNat < 128 then c.toUpper else u.upper c)

def isIdentifierStart (c : Char) : Bool :=
  isLetter u c || c = '_'

def isIdentifierChar (c : Char) : Bool :=
  isLetter u c || isDigit u c || c = '_' || c = '-' || c = ','

end Classes

/-- What `skipWhitespace` skips. -/
def isBlank (c : Char) : Bool :=
  c = ' ' || c = '\t'

theorem forall_ascii {P : Char → Prop} (h : ∀ n < 128, P (Char.ofNat n)) {c : Char}
    (hc : c.toNat < 128) : P c := by
  have hcode := h c.toNat hc
  rwa [Char.ofNat_toNat] at hcode

theorem not_isLetter_of_isSpace (u : Unicode) {c : Char} (hc : Strings.isSpace c = true) :
    isLetter u c = false := by
  unfold isLetter
  split
  · rename_i hascii
    exact forall_ascii (P := fun c => Strings.isSpace c = true → c.isAlpha = false)
      (by decide +kernel) hascii hc
  · exact u.letter_not_space c hc

theorem not_isDigit_of_isSpace (u : Unicode) {c : Char} (hc : Strings.isSpace c = true) :
    isDigit u c = false := by
  unfold isDigit
  split
  · rename_i hascii
    exact forall_ascii (P := fun c => Strings.isSpace c = true → c.isDigit = false)
      (by decide +kernel) hascii hc
  · exact u.digit_not_space c hc

theorem not_isIdentifierChar_of_isSpace (u : Unicode) {c : Char}
    (hc : Strings.isSpace c = true) : isIdentifierChar u c = false := by
  have hother : c ≠ '_' ∧ c ≠ '-' ∧ c ≠ ',' := by
    refine ⟨?_, ?_, ?_⟩ <;> rintro rfl <;> exact absurd hc (by decide)
  simp [isIdentifierChar, not_isLetter_of_isSpace u hc, not_isDigit_of_isSpace u hc, hother]

/-! ## Tokens -/

inductive TokenType
  | tokenEOF
  | tokenError
  | tokenSection
  | tokenRewrite
  | tokenVar
  | tokenLocal
  | tokenService
  | tokenPostconf
  | tokenPostconfd
  | tokenRestart
  | tokenDepends
  | tokenMapfile
  | tokenMaplocal
  | tokenMode
  | tokenFile
  | tokenIf
  | tokenFi
  | tokenProxygen
  | tokenIdentifier
  | tokenString
  | tokenNewline
  deriving DecidableEq, Repr

/-- `TokenType.String`. -/
def TokenType.text : TokenType → String
  | tokenEOF => "EOF"
  | tokenError => "ERROR"
  | tokenSection => "SECTION"
  | tokenRewrite => "REWRITE"
  | tokenVar => "VAR"
  | tokenLocal => "LOCAL"
  | tokenService => "SERVICE"
  | tokenPostconf => "POSTCONF"
  | tokenPostconfd => "POSTCONFD"
  | tokenRestart => "RESTART"
  | tokenDepends => "DEPENDS"
  | tokenMapfile => "MAPFILE"
  | tokenMaplocal => "MAPLOCAL"
  | tokenMode => "MODE"
  | tokenFile => "FILE"
  | tokenIf => "IF"
  | tokenFi => "FI"
  | tokenProxygen => "PROXYGEN"
  | tokenIdentifier => "IDENTIFIER"
  | tokenString => "STRING"
  | tokenNewline => "NEWLINE"

structure Token where
  type : TokenType
  literal : String := ""
  line : Nat := 0
  column : Nat := 0
  deriving DecidableEq, Repr

/-- The token without its place. -/
def Token.kind (t : Token) : TokenType × String :=
  (t.type, t.literal)

/-- The types of the keywords, under their spelling. -/
def keywords : List (String × TokenType) :=
  [TokenType.tokenSection, .tokenRewrite, .tokenVar, .tokenLocal, .tokenService, .tokenPostconf,
    .tokenPostconfd, .tokenRestart, .tokenDepends, .tokenMapfile, .tokenMaplocal, .tokenMode,
    .tokenFile, .tokenIf, .tokenFi, .tokenProxygen].map fun type => (type.text, type)

def lookupKeyword (u : Unicode) (ident : String) : TokenType :=
  (keywords.lookup (toUpper u ident)).getD .tokenIdentifier

/-! ## The lexer -/

/-- The lexer: the input from the current character on, and the position of that
character.  The input is empty at the end of the file. -/
structure Lexer where
  input : List Char
  line : Nat := 1
  column : Nat := 0

namespace Lexer

/-- The next character becomes the current one. -/
def moveTo (l : Lexer) : List Char → Lexer
  | [] => { l with input := [] }
  | c :: rest =>
    if c = '\n' then { input := c :: rest, line := l.line + 1, column := 0 }
    else { input := c :: rest, line := l.line, column := l.column + 1 }

@[simp] theorem moveTo_input (l : Lexer) (rest : List Char) : (l.moveTo rest).input = rest := by
  cases rest with
  | nil => rfl
  | cons c rest =>
    simp only [moveTo]
    split <;> rfl

def readChar (l : Lexer) : Lexer :=
  match l.input with
  | [] => l
  | _ :: rest => l.moveTo rest

@[simp] theorem readChar_input (l : Lexer) : l.readChar.input = l.input.tail := by
  unfold readChar
  cases hinput : l.input <;> simp [hinput]

/-- A loop that reads characters as long as they are of a class. -/
def readWhile (p : Char → Bool) (l : Lexer) : List Char → List Char × Lexer
  | [] => ([], l)
  | c :: rest =>
    if p c then
      let (chars, l) := readWhile p l.readChar rest
      (c :: chars, l)
    else ([], l)

theorem readWhile_fst (p : Char → Bool) (l : Lexer) (input : List Char) :
    (l.readWhile p input).1 = input.takeWhile p := by
  induction input generalizing l with
  | nil => rfl
  | cons c rest ih => by_cases hc : p c = true <;> simp [readWhile, hc, ih]

theorem readWhile_input (p : Char → Bool) (l : Lexer) (input : List Char)
    (hinput : l.input = input) : (l.readWhile p input).2.input = input.dropWhile p := by
  induction input generalizing l with
  | nil => simpa [readWhile] using hinput
  | cons c rest ih =>
    by_cases hc : p c = true
    · simp only [readWhile, hc, if_true, List.dropWhile_cons]
      exact ih l.readChar (by simp [hinput])
    · simp [readWhile, hc, hinput]

def skipWhitespace (l : Lexer) : Lexer :=
  (l.readWhile isBlank l.input).2

def skipComment (l : Lexer) : Lexer :=
  (l.readWhile (· ≠ '\n') l.input).2

def readIdentifier (u : Unicode) (l : Lexer) : String × Lexer :=
  let (chars, l) := l.readWhile (isIdentifierChar u) l.input
  (String.ofList chars, l)

def readString (l : Lexer) : String × Lexer :=
  if l.input.head? = some '"' then
    let l := l.readChar
    let (chars, l) := l.readWhile (fun c => c ≠ '"' && c ≠ '\n') l.input
    (String.ofList chars, if l.input.head? = some '"' then l.readChar else l)
  else
    let (chars, l) := l.readWhile (fun c => !Strings.isSpace c) l.input
    (String.ofList chars, l)

/-- `lexer.NextToken` after white space and comments. -/
def tokenHere (u : Unicode) (l : Lexer) : Except String Token × Lexer :=
  let token (type : TokenType) (literal : String) : Except String Token :=
    .ok { type := type, literal := literal, line := l.line, column := l.column }
  match l.input with
  | [] => (token .tokenEOF "", l)
  | c :: _ =>
    if c = '\n' then (token .tokenNewline "\n", l.readChar)
    else if isIdentifierStart u c || c = '!' then
      if c = '!' then
        let (ident, l) := l.readChar.readIdentifier u
        (token (lookupKeyword u ("!" ++ ident)) ("!" ++ ident), l)
      else
        let (ident, l) := l.readIdentifier u
        (token (lookupKeyword u ident) ident, l)
    else if c = '/' || c = '"' || isDigit u c || c = '.' then
      let (literal, l) := l.readString
      (token .tokenString literal, l)
    else
      (.error ("unexpected character: " ++ u.quote c ++ " at line " ++ toString l.line ++
        ", column " ++ toString l.column), l.readChar)

/-- `lexer.NextToken`.  The character after a comment is a line break or the end. -/
def nextToken (u : Unicode) (l : Lexer) : Except String Token × Lexer :=
  let l := l.skipWhitespace
  if l.input.head? = some '#' then tokenHere u l.skipComment.skipWhitespace else tokenHere u l

/-- The tokens up to the end of the file, or up to an error. -/
def tokens (u : Unicode) : Nat → Lexer → List Token
  | 0, _ => []
  | fuel + 1, l =>
    match l.nextToken u with
    -- The error token `parser.advance` makes.
    | (.error err, _) => [{ type := .tokenError, literal := err }]
    | (.ok tok, l) => if tok.type = .tokenEOF then [tok] else tok :: tokens u fuel l

end Lexer

/-- The tokens of a text (`NewLexer` and the calls of `NextToken`). -/
def tokenize (u : Unicode) (content : String) : List Token :=
  let start : Lexer := { input := [] }
  (start.moveTo content.toList).tokens u (content.toList.length + 1)

/-! ## What the next token is -/

/-- The next token without its place, and the input after it: `tokenHere` on the
characters alone.  No token starts with the first character if there is none. -/
def scanHere (u : Unicode) : List Char → Option (TokenType × String) × List Char
  | [] => (some (.tokenEOF, ""), [])
  | c :: rest =>
    if c = '\n' then (some (.tokenNewline, "\n"), rest)
    else if isIdentifierStart u c || c = '!' then
      if c = '!' then
        let ident := "!" ++ String.ofList (rest.takeWhile (isIdentifierChar u))
        (some (lookupKeyword u ident, ident), rest.dropWhile (isIdentifierChar u))
      else
        let ident := String.ofList ((c :: rest).takeWhile (isIdentifierChar u))
        (some (lookupKeyword u ident, ident), (c :: rest).dropWhile (isIdentifierChar u))
    else if c = '/' || c = '"' || isDigit u c || c = '.' then
      if c = '"' then
        let after := rest.dropWhile fun c => c ≠ '"' && c ≠ '\n'
        (some (.tokenString, String.ofList (rest.takeWhile fun c => c ≠ '"' && c ≠ '\n')),
          if after.head? = some '"' then after.tail else after)
      else
        (some (.tokenString, String.ofList ((c :: rest).takeWhile fun c => !Strings.isSpace c)),
          (c :: rest).dropWhile fun c => !Strings.isSpace c)
    else (none, rest)

/-- The same for `nextToken`. -/
def scan (u : Unicode) (input : List Char) : Option (TokenType × String) × List Char :=
  let input := input.dropWhile isBlank
  if input.head? = some '#' then
    scanHere u ((input.dropWhile (· ≠ '\n')).dropWhile isBlank)
  else scanHere u input

namespace Lexer

theorem skipWhitespace_input (l : Lexer) :
    l.skipWhitespace.input = l.input.dropWhile isBlank :=
  readWhile_input isBlank l l.input rfl

theorem skipComment_input (l : Lexer) :
    l.skipComment.input = l.input.dropWhile (· ≠ '\n') :=
  readWhile_input _ l l.input rfl

theorem tokenHere_scan (u : Unicode) (l : Lexer) :
    ((l.tokenHere u).1.toOption.map Token.kind, (l.tokenHere u).2.input) = scanHere u l.input := by
  cases hinput : l.input with
  | nil => simp [tokenHere, scanHere, hinput, Token.kind, Except.toOption]
  | cons c rest =>
    simp only [tokenHere, scanHere, hinput, readIdentifier, readString, readChar_input,
      List.tail_cons, readWhile_fst, List.head?_cons, Option.some.injEq]
    split
    · simp [Token.kind, Except.toOption, hinput]
    · split
      · split
        · simp [Token.kind, Except.toOption, readWhile_input, hinput]
        · simp [Token.kind, Except.toOption, readWhile_input, hinput]
      · split
        · split
          · simp only [Token.kind, Except.toOption, Option.map_some, Prod.mk.injEq, true_and,
              readWhile_input _ l.readChar rest (by simp [hinput])]
            split
            · simp [readWhile_input, hinput]
            · simp [readWhile_input, hinput]
          · simp [Token.kind, Except.toOption, readWhile_input, hinput]
        · simp [Except.toOption, hinput]

/-- **The next token** is a matter of the remaining characters. -/
theorem nextToken_scan (u : Unicode) (l : Lexer) :
    ((l.nextToken u).1.toOption.map Token.kind, (l.nextToken u).2.input) = scan u l.input := by
  simp only [nextToken, scan, skipWhitespace_input]
  split
  · rw [tokenHere_scan, skipWhitespace_input, skipComment_input, skipWhitespace_input]
  · rw [tokenHere_scan, skipWhitespace_input]

end Lexer

end Configd.Parser
