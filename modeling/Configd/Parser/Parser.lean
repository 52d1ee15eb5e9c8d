import Configd.ConfigMgr.Observe
import Configd.Parser.Lexer

/-!
# The parser of `zmconfigd.cf`

`internal/parser/parser.go` and `conditionals.go`.  The parser is a recursive descent over
the tokens; here its position is the list of tokens from the current one on, and a parsing
function gives its result or its error together with the position it stopped at.  The list
ends with the token for the end of the file or with an error token, and `advance` stays
there.

`ParseString` goes on after an error at the next `SECTION` and reports all errors in the
end; a text is accepted if there is none.
-/

namespace Configd.Parser

open Lib

/-! ## The position -/

abbrev Parsed (α : Type) : Type :=
  Except String α × List Token

def current (toks : List Token) : Token :=
  toks.head?.getD { type := .tokenEOF }

/-- The end of the file, or an error. -/
def TokenType.isEnd (type : TokenType) : Bool :=
  type = .tokenEOF || type = .tokenError

def advance : List Token → List Token
  | [] => []
  | t :: rest => if t.type.isEnd then t :: rest else rest

def isAtEnd (toks : List Token) : Bool :=
  (current toks).type.isEnd

def isAtNewline (toks : List Token) : Bool :=
  (current toks).type = .tokenNewline

def isNextSection (toks : List Token) : Bool :=
  (current toks).type = .tokenSection

/-- The tokens a line ends at. -/
def TokenType.isStop (type : TokenType) : Bool :=
  type = .tokenNewline || type.isEnd

def skipToNewline (toks : List Token) : List Token :=
  toks.dropWhile fun t => !t.type.isStop

def skipToNextSection (toks : List Token) : List Token :=
  toks.dropWhile fun t => !(t.type = .tokenSection || t.type.isEnd)

/-- The error a position gives rise to. -/
def failAt {α : Type} (toks : List Token) (message : String) : Parsed α :=
  (.error (message ++ toString (current toks).line), toks)

/-- What is done with the result of a parsing function; an error is handed on. -/
def andThen {α β : Type} (p : Parsed α) (f : α → List Token → Parsed β) : Parsed β :=
  match p with
  | (.error err, toks) => (.error err, toks)
  | (.ok a, toks) => f a toks

/-- The check that the current token is an identifier, and what is done with its text
after it. -/
def withIdentifier {α : Type} (errMsg : String) (toks : List Token)
    (f : String → List Token → Parsed α) : Parsed α :=
  if (current toks).type = .tokenIdentifier then f (current toks).literal (advance toks)
  else failAt toks errMsg

/-! ## Paths and values -/

/-- The token is a string that begins with a slash. -/
def startsWithSlash (t : Token) : Bool :=
  t.type = .tokenString && t.literal.toList.head? = some '/'

def readPath (toks : List Token) : String × List Token :=
  if isAtNewline toks || isAtEnd toks then ("", toks)
  else if startsWithSlash (current toks) then ((current toks).literal, advance toks)
  else if (current toks).type = .tokenIdentifier then
    let part1 := (current toks).literal
    let toks := advance toks
    if !isAtNewline toks && !isAtEnd toks && startsWithSlash (current toks) then
      (part1 ++ (current toks).literal, advance toks)
    else (part1, toks)
  else if (current toks).type = .tokenString then ((current toks).literal, advance toks)
  else ("", toks)

/-- The part a lookup in the middle of a value adds: the keyword and the identifier
after it, or nothing. -/
def lookupPart (type : LookupType) (toks : List Token) : List String × List Token :=
  if (current toks).type = .tokenIdentifier then
    ([type.text ++ ":" ++ (current toks).literal], advance toks)
  else ([], toks)

/-- One turn of the loop of `parseValue`: the parts added and the position after them,
unless the value ends here. -/
def valuePart (toks : List Token) : Option (List String × List Token) :=
  match (current toks).type with
  | .tokenVar => some (lookupPart .var (advance toks))
  | .tokenLocal => some (lookupPart .localconfig (advance toks))
  | .tokenFile =>
    let (path, toks) := readPath (advance toks)
    some (["FILE " ++ path], toks)
  | .tokenMaplocal => some (lookupPart .maplocal (advance toks))
  | .tokenIdentifier | .tokenString => some ([(current toks).literal], advance toks)
  | _ => none

/-- The loop of `parseValue`. -/
def valueParts : Nat → List Token → List String × List Token
  | 0, toks => ([], toks)
  | fuel + 1, toks =>
    match valuePart toks with
    | none => ([], toks)
    | some (parts, toks) =>
      let (more, toks) := valueParts fuel toks
      (parts ++ more, toks)

def parseValue (toks : List Token) : String × List Token :=
  let (parts, toks) := valueParts toks.length toks
  (Strings.join " " parts, toks)

/-! ## Directives -/

def parseRewrite (sec : MtaConfigSection) (toks : List Token) : Parsed MtaConfigSection :=
  let (source, toks) := readPath (advance toks)
  if source = "" then failAt toks "expected source file at line "
  else
    let (dest, toks) := readPath toks
    if dest = "" then failAt toks "expected destination file at line "
    else
      let store (mode : String) : MtaConfigSection :=
        { sec with rewrites := sec.rewrites.insert source ⟨dest, mode⟩ }
      if (current toks).type = .tokenMode then
        let toks := advance toks
        if (current toks).type = .tokenString || (current toks).type = .tokenIdentifier then
          (.ok (store (current toks).literal), skipToNewline (advance toks))
        else failAt toks "expected mode value at line "
      else (.ok (store ""), skipToNewline toks)

def parseRequiredVarDirective (type : LookupType) (errMsg : String) (sec : MtaConfigSection)
    (toks : List Token) : Parsed MtaConfigSection :=
  withIdentifier errMsg (advance toks) fun varName toks =>
    (.ok { sec with requiredVars := sec.requiredVars.insert varName type }, skipToNewline toks)

def errExpectedVarName : String := "expected variable name at line "

def parseVar := parseRequiredVarDirective .var errExpectedVarName

def parseLocal := parseRequiredVarDirective .localconfig "expected local variable name at line "

def parseMapfile := parseRequiredVarDirective .mapfile errExpectedVarName

def parseMaplocal := parseRequiredVarDirective .maplocal errExpectedVarName

structure Lookup where
  name : String := ""
  typ : String := ""
  deriving DecidableEq, Repr

def Lookup.register (lk : Lookup) (vars : StrMap LookupType) : StrMap LookupType :=
  if lk.name = "" then vars else vars.insert lk.name (.ofText lk.typ)

/-- The type names a word of a value may begin with. -/
def lookupTypes (allowMapLocal : Bool) : List String :=
  ["VAR", "LOCAL", "FILE"] ++ if allowMapLocal then ["MAPLOCAL"] else []

def lookupType (allowMapLocal : Bool) (t : Token) : Option String :=
  match t.type with
  | .tokenVar => some "VAR"
  | .tokenLocal => some "LOCAL"
  | .tokenFile => some "FILE"
  | .tokenMaplocal => if allowMapLocal then some "MAPLOCAL" else none
  | .tokenIdentifier | .tokenString =>
    if (lookupTypes allowMapLocal).any (Strings.hasPrefix t.literal ·) then some t.literal
    else none
  | _ => none

def readLookupKey (cfgType : String) (exact : Bool) (toks : List Token) : String × List Token :=
  if exact && cfgType = "FILE" then readPath toks
  else if (current toks).type = .tokenIdentifier || (current toks).type = .tokenString then
    ((current toks).literal, advance toks)
  else ("", toks)

def formatLookup (cfgType name : String) (exact : Bool) : String :=
  if exact && cfgType = "FILE" then "FILE " ++ name else cfgType ++ ":" ++ name

def parseLiteralValue (allowMapLocal : Bool) (toks : List Token) : String × List Token :=
  if (current toks).type = .tokenMaplocal && !allowMapLocal then
    let first := (current toks).literal
    let (rest, toks) := parseValue (advance toks)
    (if rest = "" then first else first ++ " " ++ rest, toks)
  else parseValue toks

/-- What a `POSTCONF` or `POSTCONFD` line says. -/
structure PostconfLine where
  key : String
  value : String
  lk : Lookup
  deriving DecidableEq, Repr

/-- The value of a `POSTCONF` or `POSTCONFD` line, and the lookup it is. -/
def parsePostconfValue (directive : String) (allowMapLocal : Bool) (toks : List Token) :
    Parsed (String × Lookup) :=
  if isAtNewline toks || isAtEnd toks then (.ok ("", {}), toks)
  else
    match lookupType allowMapLocal (current toks) with
    | none =>
      let (value, toks) := parseLiteralValue allowMapLocal toks
      (.ok (value, {}), toks)
    | some cfgType =>
      let line := (current toks).line
      let exact := (current toks).type ≠ .tokenIdentifier && (current toks).type ≠ .tokenString
      let (name, toks) := readLookupKey cfgType exact (advance toks)
      if name = "" then
        (.error ("expected key after " ++ cfgType ++ " in " ++ directive ++ " at line " ++
          toString line), toks)
      else (.ok (formatLookup cfgType name exact, ⟨name, cfgType⟩), toks)

def parsePostconfLine (directive : String) (allowMapLocal : Bool) (toks : List Token) :
    Parsed PostconfLine :=
  withIdentifier ("expected postfix parameter name for " ++ directive ++ " at line ")
    (advance toks) fun key toks =>
      andThen (parsePostconfValue directive allowMapLocal toks) fun (value, lk) toks =>
        (.ok ⟨key, value, lk⟩, toks)

def parsePostconf (sec : MtaConfigSection) (toks : List Token) : Parsed MtaConfigSection :=
  andThen (parsePostconfLine "POSTCONF" true toks) fun line toks =>
    (.ok { sec with
      postconf := sec.postconf.insert line.key line.value
      requiredVars := line.lk.register sec.requiredVars }, skipToNewline toks)

def parsePostconfd (sec : MtaConfigSection) (toks : List Token) : Parsed MtaConfigSection :=
  andThen (parsePostconfLine "POSTCONFD" false toks) fun line toks =>
    (.ok { sec with
      postconfd := sec.postconfd.insert line.key ""
      requiredVars := line.lk.register sec.requiredVars }, skipToNewline toks)

/-- The loop over the names of a `RESTART` line or a `DEPENDS` clause. -/
def readNames (names : StrMap Bool) : List Token → StrMap Bool × List Token
  | [] => (names, [])
  | t :: rest =>
    if t.type = .tokenIdentifier then readNames (names.insert t.literal true) rest
    else (names, t :: rest)

def parseRestart (sec : MtaConfigSection) (toks : List Token) : Parsed MtaConfigSection :=
  let (restarts, toks) := readNames sec.restarts (advance toks)
  (.ok { sec with restarts := restarts }, skipToNewline toks)

def isLdapLocalValue (value : String) : Bool :=
  Strings.hasPrefix value "LOCAL:" || Strings.hasPrefix value "MAPLOCAL:"

/-- `parser.parseLdap` with `parseLdapDirective`. -/
def parseLdap (sec : MtaConfigSection) (toks : List Token) : Parsed MtaConfigSection :=
  withIdentifier "expected LDAP key at line " (advance toks) fun key toks =>
    let (value, toks) := parseValue toks
    (.ok (if isLdapLocalValue value then { sec with ldap := sec.ldap.insert key value } else sec),
      skipToNewline toks)

def parseProxygen (sec : MtaConfigSection) (toks : List Token) : Parsed MtaConfigSection :=
  (.ok { sec with proxygen := true }, skipToNewline (advance toks))

/-! ## Blocks -/

/-- The condition of a block: its type, its key and whether it is negated. -/
structure CondHeader where
  type : LookupType
  key : String
  negated : Bool
  deriving DecidableEq

def parseConditionalHeader (toks : List Token) : Parsed CondHeader :=
  let toks := advance toks
  if (current toks).type = .tokenService || (current toks).type = .tokenVar then
    let condType := if (current toks).type = .tokenService then LookupType.service else .var
    withIdentifier "expected condition key at line " (advance toks) fun condKey toks =>
      (.ok ⟨condType, Strings.trimPrefix condKey "!", Strings.hasPrefix condKey "!"⟩, toks)
  else
    (.error ("expected SERVICE or VAR after IF at line " ++ toString (current toks).line ++
      ", got " ++ (current toks).type.text), toks)

/-- The block before its body is read. -/
def CondHeader.start (h : CondHeader) : Conditional :=
  ⟨h.type, h.key, h.negated, ∅, ∅, ∅⟩

/-- `parser.parseConditionalRequiredVar`.  The position stays at the name. -/
def parseConditionalRequiredVar (cond : Conditional) (toks : List Token) : Parsed Conditional :=
  let cfgType := if (current toks).type = .tokenLocal then LookupType.localconfig else .var
  let line := (current toks).line
  let toks := advance toks
  if (current toks).type = .tokenIdentifier then
    (.ok { cond with
      requiredVars := cond.requiredVars.insert (current toks).literal cfgType }, toks)
  else
    (.error ("expected variable name after " ++ cfgType.text ++ " at line " ++ toString line), toks)

def parseConditionalLine (cond : Conditional) (toks : List Token) : Parsed Conditional :=
  match (current toks).type with
  | .tokenPostconf =>
    andThen (parsePostconfLine "POSTCONF" false toks) fun line toks =>
      (.ok { cond with
        postconf := cond.postconf.insert line.key line.value
        requiredVars := line.lk.register cond.requiredVars }, skipToNewline toks)
  | .tokenPostconfd =>
    andThen (parsePostconfLine "POSTCONFD" false toks) fun line toks =>
      (.ok { cond with
        postconfd := cond.postconfd.insert line.key ""
        requiredVars := line.lk.register cond.requiredVars }, skipToNewline toks)
  | .tokenVar | .tokenLocal => parseConditionalRequiredVar cond toks
  -- Any other line is ignored.
  | _ => (.ok cond, skipToNewline toks)

def parseConditionalBody : Nat → Conditional → List Token → Parsed Conditional
  | 0, cond, toks => (.ok cond, toks)
  | fuel + 1, cond, toks =>
    match (current toks).type with
    | .tokenNewline => parseConditionalBody fuel cond (advance toks)
    | .tokenFi => (.ok cond, skipToNewline toks)
    | .tokenEOF | .tokenError | .tokenSection =>
      (.error ("unterminated if block " ++ cond.type.text ++ " " ++ cond.key ++
        ": missing fi before line " ++ toString (current toks).line), toks)
    | _ => andThen (parseConditionalLine cond toks) (parseConditionalBody fuel)

def parseConditional (sec : MtaConfigSection) (toks : List Token) : Parsed MtaConfigSection :=
  andThen (parseConditionalHeader toks) fun header toks =>
    let toks := skipToNewline toks
    andThen (parseConditionalBody (toks.length + 1) header.start toks) fun cond toks =>
      (.ok { sec with conditionals := sec.conditionals ++ [cond] }, toks)

/-! ## Sections -/

def parseDirective (sec : MtaConfigSection) (toks : List Token) : Parsed MtaConfigSection :=
  match (current toks).type with
  | .tokenRewrite => parseRewrite sec toks
  | .tokenVar => parseVar sec toks
  | .tokenLocal => parseLocal sec toks
  | .tokenMapfile => parseMapfile sec toks
  | .tokenMaplocal => parseMaplocal sec toks
  | .tokenPostconf => parsePostconf sec toks
  | .tokenPostconfd => parsePostconfd sec toks
  | .tokenRestart => parseRestart sec toks
  | .tokenProxygen => parseProxygen sec toks
  | .tokenIf => parseConditional sec toks
  -- A `fi` outside a block is skipped.
  | .tokenFi => (.ok sec, skipToNewline toks)
  | .tokenIdentifier =>
    if Strings.equalFold (current toks).literal "LDAP" then parseLdap sec toks
    else failAt toks ("unknown directive " ++ (current toks).literal ++ " at line ")
  | type => failAt toks ("unexpected token " ++ type.text ++ " at line ")

/-- The loop over the body of a section. -/
def parseBody : Nat → MtaConfigSection → List Token → Parsed MtaConfigSection
  | 0, sec, toks => (.ok sec, toks)
  | fuel + 1, sec, toks =>
    if isAtEnd toks || isNextSection toks then (.ok sec, toks)
    else if isAtNewline toks then parseBody fuel sec (advance toks)
    else andThen (parseDirective sec toks) (parseBody fuel)

/-- The header of a section after the keyword: its name and the services it depends on. -/
def parseSectionHeader (toks : List Token) : Parsed (String × MtaConfigSection) :=
  withIdentifier "expected section name at line " toks fun sectionName toks =>
    let (depends, toks) :=
      if (current toks).type = .tokenDepends then readNames ∅ (advance toks) else (∅, toks)
    (.ok (sectionName, { depends := depends }), toks)

def parseSection (cfg : MtaConfig) (toks : List Token) : Parsed MtaConfig :=
  let toks := toks.dropWhile (·.type = .tokenNewline)
  if isAtEnd toks then (.ok cfg, toks)
  else if (current toks).type = .tokenSection then
    andThen (parseSectionHeader (advance toks)) fun (sectionName, sec) toks =>
      if isAtNewline toks then
        andThen (parseBody toks.length sec (advance toks)) fun sec toks =>
          (.ok { sections := cfg.sections.insert sectionName sec }, toks)
      else failAt toks "expected newline after section header at line "
  else
    (.error ("expected SECTION at line " ++ toString (current toks).line ++ ", got " ++
      (current toks).type.text), toks)

/-- The error of the lexer, which `advance` records as it comes to the error token. -/
def lexError (toks : List Token) : List String :=
  if (current toks).type = .tokenError then [(current toks).literal] else []

/-- The loop of `ParseString`. -/
def parseSections : Nat → MtaConfig → List String → List Token → MtaConfig × List String
  | 0, cfg, errors, _ => (cfg, errors)
  | fuel + 1, cfg, errors, toks =>
    if isAtEnd toks then (cfg, errors)
    else
      match parseSection cfg toks with
      | (.ok cfg, toks) => parseSections fuel cfg (errors ++ lexError toks) toks
      | (.error err, toks) =>
        let next := skipToNextSection toks
        parseSections fuel cfg (errors ++ lexError toks ++ [err] ++
          if isAtEnd toks then [] else lexError next) next

/-- `parser.ParseString`, with the errors the parser has met before. -/
def parseString (u : Unicode) (errors : List String) (content : String) :
    Option MtaConfig × Option String :=
  if content = "" then (none, some "empty config file")
  else
    let toks := tokenize u content
    let (cfg, errors) := parseSections (toks.length + 1) {} (errors ++ lexError toks) toks
    if errors = [] then (some cfg, none)
    else (some cfg, some ("parse errors: [" ++ Strings.join " " errors ++ "]"))

end Configd.Parser
