import Configd.Config
import Configd.Lib.Fenced
import Configd.Lib.Fields
import Configd.Lib.Numbers

/-!
# The transformation of a template line

`Transformer.Transform` and the directive handlers of `internal/transformer`.  A line is rendered by
a fixed sequence of passes, each over the text that the pass before it left:

1. `@@key@@` by its `LOCAL` value (`xformLocalConfig`);
2. a `%%comment ..%%` or `%%uncomment ..%%` at the beginning (`processPrefixDirective`);
3. a line that is one directive is rendered by its handler, and the line is done
   (`processWrappingDirective`);
4. the directives inside the line (`processInlineDirectives`);
5. `%%TYPE:key%%` by its value (`configVarPass`);
6. `%%key%%` by its value (`plainVarPass`).

Texts are lists of code points, the lookup is a function, and an error is its message.  The numbers
of `range` and the quoted texts of its messages are formatted by a parameter (`Formats`).
-/

namespace Configd
namespace Transformer

open Lib Lib.Strings Lib.Regex

/-- `ConfigLookup.LookUpConfig`: the value of a type and a key, or an error. -/
abbrev ConfigLookup := String → String → Except String String

/-- What is taken from `fmt` and `strconv`: the quoted text of `%q`, and the text that
`FormatFloat` gives for `val / 100 * span + lo`. -/
structure Formats where
  quote : String → String
  formatFloat : (val span lo : Int) → String
  formatFloat_chars : ∀ val span lo, ∀ c ∈ (formatFloat val span lo).toList,
    c ∈ "+-.0123456789eINanf".toList

/-- Formats for lines without numbers. -/
def noFormats : Formats where
  quote := id
  formatFloat _ _ _ := ""
  formatFloat_chars := by simp

/-! ## Texts -/

/-- `pyWhitespace`: what Python's `strip` removes. -/
def pyWhitespace (c : Char) : Bool :=
  c ∈ [' ', '\t', '\n', '\r', '\x0b', '\x0c']

/-- `strings.TrimRight`, the cut set as a predicate. -/
def trimRight (cutset : Char → Bool) (s : String) : String :=
  String.ofList (s.toList.rdropWhile cutset)

def trimLeft (cutset : Char → Bool) (s : String) : String :=
  String.ofList (s.toList.dropWhile cutset)

def trim (cutset : Char → Bool) (s : String) : String :=
  trimRight cutset (trimLeft cutset s)

def trimSuffix (s suf : String) : String :=
  if hasSuffix s suf then String.ofList (s.toList.take (s.toList.length - suf.toList.length)) else s

/-- `strings.SplitN` at a one-character separator. -/
def splitN (sep : Char) : Nat → String → List String
  | 0, _ => []
  | 1, s => [s]
  | n + 2, s =>
    match cut s sep with
    | none => [s]
    | some (before, after) => before :: splitN sep (n + 1) after

/-- The value of an `int` after an overflow. -/
def wrap (n : Int) : Int :=
  n.bmod (2 ^ 64)

/-! ## Patterns -/

/-- A compiled pattern with its source text, which messages name. -/
structure Re where
  source : String
  pattern : Pattern

/-- The class `\S`. -/
def notSpace (c : Char) : Bool :=
  c ∉ ['\t', '\n', '\x0c', '\r', ' ']

/-- The class `\s`. -/
def reSpace (c : Char) : Bool :=
  !notSpace c

/-- The class `\w`. -/
def wordChar (c : Char) : Bool :=
  c.isAlphanum || c = '_'

/-- The pattern of a directive with one operand `TYPE:key`. -/
def operandRe (keyword : String) : List Item :=
  [.lit (keyword ++ " ").toList, .rep (· ≠ ':') 1 none true, .lit [':'], .rep notSpace 1 none true]

/-- A further operand. -/
def furtherOperand : List Item :=
  [.rep reSpace 1 none false, .rep notSpace 1 none true]

def localConfigRe : Pattern := fenced '@' [[]] (· ≠ '@')

def configVarRe : Pattern :=
  fenced '%' (["VAR:", "LOCAL:", "SERVICE:"].map String.toList) (· ≠ '%')

def plainVarRe : Pattern := fenced '%' [[]] fun c => c ≠ '%' && c ≠ ':'

def inlineDirectRe : Pattern := fenced '%' [[]] (· ≠ '%')

def commentRe : Re := ⟨"comment ([^:]+):(\\S+)", [operandRe "comment"]⟩

def uncommentRe : Re := ⟨"uncomment ([^:]+):(\\S+)", [operandRe "uncomment"]⟩

def binaryRe : Re := ⟨"binary ([^:]+):(\\S+)", [operandRe "binary"]⟩

def truefalseRe : Re := ⟨"truefalse ([^:]+):(\\S+)", [operandRe "truefalse"]⟩

def rangeRe : Re :=
  ⟨"range ([^:]+):(\\S+)\\s+(\\S+)\\s+(\\S+)",
    [operandRe "range" ++ furtherOperand ++ furtherOperand]⟩

def freqRe : Re := ⟨"freq ([^:]+):(\\S+)\\s+(\\S+)", [operandRe "freq" ++ furtherOperand]⟩

def explodeRe : Re :=
  ⟨"explode (.*) ([^:]+):(\\w+)",
    [[.lit "explode ".toList, .rep (· ≠ '\n') 0 none true, .lit [' '], .rep (· ≠ ':') 1 none true,
      .lit [':'], .rep wordChar 1 none true]]⟩

def ldapURLRe : Pattern :=
  [[.lit "ldap".toList, .rep (· ≠ '\n') 0 (some 1) false, .lit "://".toList,
    .rep notSpace 0 none true, .lit [':'], .rep Char.isDigit 1 none false]]

/-! ## Directives -/

def transformErr (directive message : String) : String :=
  "transform failed: %%" ++ directive ++ "%%: " ++ message

/-- `findOne`: what the only match of a pattern captures. -/
def findOne (re : Re) (sr : String) : Except String (List String) :=
  match findAll re.pattern sr with
  | [m] => .ok (m.groups.map String.ofList)
  | _ => .error (transformErr sr ("does not match " ++ re.source ++ " exactly once"))

section Lookup

variable (fmt : Formats) (lookUpConfig : ConfigLookup)

/-- `resolveCommentState`: the shared logic of `comment` and `uncomment`. -/
def resolveCommentState (re : Re) (sr : String) (isComment : Bool) : Except String String := do
  let matches_ ← findOne re sr
  let cmd := matches_.getD 0 ""
  let parts := splitN ',' 3 (matches_.getD 1 "")
  let key := parts.getD 0 ""
  let commentStr := if 1 < parts.length then parts.getD 1 "" else "#"
  let negate := hasPrefix key "!"
  let lookup := lookUpConfig cmd (trimPrefix key "!")
  let lookupVal := lookup.toOption.getD ""
  let hit :=
    if 2 < parts.length then
      let missing := !lookup.isOk && !negate
      let listed := !negate && lookup.isOk && (split (parts.getD 2 "") ',').contains lookupVal
      missing || listed
    else if negate then isFalseValue lookupVal
    else isTrueValue lookupVal
  return if hit == isComment then commentStr else ""

def handleCommentDirective (sr : String) : Except String String :=
  resolveCommentState lookUpConfig commentRe sr true

def handleUncommentDirective (sr : String) : Except String String :=
  resolveCommentState lookUpConfig uncommentRe sr false

def lookupTruth (cmd key : String) : Bool :=
  let lookupVal := (lookUpConfig cmd (trimPrefix key "!")).toOption.getD ""
  if hasPrefix key "!" then isFalseValue lookupVal else isTrueValue lookupVal

def lookupRequired (sr cmd key : String) : Except String String :=
  match lookUpConfig cmd key with
  | .ok val => .ok val
  | .error err => .error (transformErr sr (cmd ++ ":" ++ key ++ " is not set: " ++ err))

/-- The handlers of `binary` and `truefalse`. -/
def handleTruth (re : Re) (yes no : String) (sr : String) : Except String String := do
  let matches_ ← findOne re sr
  return if lookupTruth lookUpConfig (matches_.getD 0 "") (matches_.getD 1 "") then yes else no

def handleBinaryDirective (sr : String) : Except String String :=
  handleTruth lookUpConfig binaryRe "1" "0" sr

def handleTrueFalseDirective (sr : String) : Except String String :=
  handleTruth lookUpConfig truefalseRe "true" "false" sr

def atoiPy (s : String) : Option Int :=
  atoi (trim pyWhitespace s)

/-- `pyStrFloat`, of the text that `FormatFloat` gives. -/
def pyStrFloat (s : String) : String :=
  if s.toList.any fun c => c ∈ ".eIN".toList then s else s ++ ".0"

def handleRangeDirective (sr : String) : Except String String := do
  let matches_ ← findOne rangeRe sr
  let lookupValStr ← lookupRequired lookUpConfig sr (matches_.getD 0 "") (matches_.getD 1 "")
  match atoiPy lookupValStr, atoiPy (matches_.getD 2 ""), atoiPy (matches_.getD 3 "") with
  | some lookupVal, some lo, some hi =>
    return pyStrFloat (fmt.formatFloat lookupVal (wrap (hi - lo)) lo)
  | _, _, _ =>
    .error (transformErr sr ("value " ++ fmt.quote lookupValStr ++ ", lo " ++
      fmt.quote (matches_.getD 2 "") ++ ", hi " ++ fmt.quote (matches_.getD 3 "") ++
      " must be integers"))

def splitTypeKey (sr field : String) : Except String (String × String) :=
  match split field ':' with
  | [cfgType, key] => .ok (cfgType, key)
  | _ => .error (transformErr sr (fmt.quote field ++ " is not TYPE:key"))

def handleListDirective (sr : String) : Except String String := do
  let fs := splitN ' ' 3 sr
  if fs.length < 2 then .error (transformErr sr "missing TYPE:key")
  else
    let (cfgType, key) ← splitTypeKey fmt sr (fs.getD 1 "")
    let lookupVal := (lookUpConfig cfgType key).toOption.getD ""
    if lookupVal = "" then return ""
    else if fs.length < 3 then .error (transformErr sr "missing separator")
    else return join (fs.getD 2 "") (fields lookupVal)

/-- The operand that `resolveSearchReplaceDirective` chooses for a value; the search string is
the third of the fields `fs`. -/
def chooseOperand (sr : String) (fs : List String) (replacement altReplacement : String)
    (matches_ : (lookupVal searchString : String) → Bool) (lookupVal : String) :
    Except String String :=
  if fs.length < 3 then .error (transformErr sr "missing search string")
  else
    let searchString := fs.getD 2 ""
    if matches_ lookupVal searchString then
      .ok (if replacement = "" then searchString else replacement)
    else .ok altReplacement

/-- `resolveSearchReplaceDirective`: the shared logic of `contains` and `exact`. -/
def resolveSearchReplaceDirective (sr : String) (searchInNone : Bool)
    (matches_ : (lookupVal searchString : String) → Bool) : Except String String := do
  let f := splitN '^' 3 sr
  let replacement := if 1 < f.length then trim pyWhitespace (f.getD 1 "") else ""
  let altReplacement := if 2 < f.length then trim pyWhitespace (f.getD 2 "") else ""
  let fs := splitN ' ' 3 (f.getD 0 "")
  if fs.length < 2 then .error (transformErr sr "missing TYPE:key")
  else
    let (cfgType, key) ← splitTypeKey fmt sr (fs.getD 1 "")
    match lookUpConfig cfgType key with
    | .ok lookupVal => chooseOperand sr fs replacement altReplacement matches_ lookupVal
    | .error _ =>
      if searchInNone then chooseOperand sr fs replacement altReplacement matches_ "None"
      else return ""

def handleContainsDirective (sr : String) : Except String String :=
  resolveSearchReplaceDirective fmt lookUpConfig sr true contains

def handleExactDirective (sr : String) : Except String String :=
  resolveSearchReplaceDirective fmt lookUpConfig sr false fun lookupVal searchString =>
    (fields lookupVal).contains searchString

/-- `floorDiv`: Python's integer division. -/
def floorDiv (a b : Int) : Int :=
  let q := wrap (a.tdiv b)
  if a.tmod b ≠ 0 ∧ ((a < 0) ≠ (b < 0)) then q - 1 else q

def handleFreqDirective (sr : String) : Except String String := do
  let matches_ ← findOne freqRe sr
  let lookupValStr ← lookupRequired lookUpConfig sr (matches_.getD 0 "") (matches_.getD 1 "")
  let per := String.ofList (lookupValStr.toList.filter (! ·.isDigit))
  match atoi (String.ofList (lookupValStr.toList.filter Char.isDigit)),
      atoiPy (matches_.getD 2 "") with
  | some valNum, some total =>
    let valNum :=
      if per = "m" then floorDiv valNum 60
      else if per = "s" then floorDiv valNum 3600
      else if per = "d" then wrap (valNum * 24)
      else valNum
    let val := if valNum ≠ 0 then floorDiv total valNum else total
    let val := if val < 1 ∧ 1 < total then 1 else val
    return toString val
  | _, _ =>
    .error (transformErr sr ("value " ++ fmt.quote lookupValStr ++ " and total " ++
      fmt.quote (matches_.getD 2 "") ++ " must hold integers"))

def handleExplodeDirective (sr : String) : Except String String := do
  let matches_ ← findOne explodeRe sr
  let lookupValsStr :=
    (lookUpConfig (matches_.getD 1 "") (matches_.getD 2 "")).toOption.getD ""
  return join "\n" ((fields lookupValsStr).map fun v => matches_.getD 0 "" ++ " " ++ v)

/-- `handleDefaultLookup`: the `VAR` value of a key, or else its `LOCAL` value. -/
def handleDefaultLookup (sr : String) : String :=
  match lookUpConfig "VAR" sr with
  | .ok lookupVal => lookupVal
  | .error _ => (lookUpConfig "LOCAL" sr).toOption.getD ""

/-! ## Substitutions -/

/-- The character that `strings.Trim(match, "%")` removes. -/
def isPercent (c : Char) : Bool :=
  c = '%'

/-- The cases of `xformConfig`, in order: the word with which a directive begins, and its
handler. -/
def handlers : List (String × (String → Except String String)) :=
  [("comment", handleCommentDirective lookUpConfig),
    ("uncomment", handleUncommentDirective lookUpConfig),
    ("binary", handleBinaryDirective lookUpConfig),
    ("truefalse", handleTrueFalseDirective lookUpConfig),
    ("range", handleRangeDirective fmt lookUpConfig),
    ("freq", handleFreqDirective fmt lookUpConfig),
    ("list", handleListDirective fmt lookUpConfig),
    ("contains", handleContainsDirective fmt lookUpConfig),
    ("exact", handleExactDirective fmt lookUpConfig),
    ("explode", handleExplodeDirective lookUpConfig)]

/-- `xformConfig`: the first case whose word the text begins with, or a lookup. -/
def xformConfig (match_ : String) : Except String String :=
  let sr := trim isPercent match_
  match (handlers fmt lookUpConfig).find? fun handler => hasPrefix sr handler.1 with
  | some handler => handler.2 sr
  | none => .ok (handleDefaultLookup lookUpConfig sr)

def xformConfigVariable (match_ : String) : String :=
  match splitN ':' 2 (trim isPercent match_) with
  | [cfgType, key] =>
    if cfgType ≠ "VAR" ∧ cfgType ≠ "LOCAL" ∧ cfgType ≠ "SERVICE" then ""
    else (lookUpConfig cfgType key).toOption.getD ""
  | _ => ""

def xformLocalConfig (match_ : String) : Except String String :=
  let content := trim (· = '@') match_
  let (funcName, lookupKey) := (cut content ' ').getD ("", content)
  match lookUpConfig "LOCAL" lookupKey with
  | .error _ =>
    if funcName = "SPLIT" ∨ funcName = "PERDITION_LDAP_SPLIT" then
      .error ("transform failed: @@" ++ funcName ++ " " ++ lookupKey ++
        "@@: key is not set in localconfig")
    else .ok ""
  | .ok val =>
    if funcName = "SPLIT" then .ok (((cut val ' ').map Prod.fst).getD val)
    else if funcName = "PERDITION_LDAP_SPLIT" then
      match fields val with
      | [] => .error ("transform failed: @@PERDITION_LDAP_SPLIT " ++ lookupKey ++ "@@: empty value")
      | first :: _ =>
        let hostnames := (findAll ldapURLRe val).map fun m => String.ofList (m.groups.getD 0 [])
        .ok (first ++ " " ++ join " " hostnames)
    else .ok val

/-- `keepOnOneLine`: the newlines of a value become spaces, unless the marker is the line. -/
def keepOnOneLine (line match_ value : String) : String :=
  if trimSpace line = match_ then value else replaceChar value '\n' ' '

def isPrefixDirective (directiveContent : String) : Bool :=
  hasPrefix directiveContent "comment " || hasPrefix directiveContent "uncomment "

def isWrappingDirective (directiveContent : String) : Bool :=
  hasPrefix directiveContent "contains " || hasPrefix directiveContent "exact " ||
  hasPrefix directiveContent "list " || hasPrefix directiveContent "binary " ||
  hasPrefix directiveContent "truefalse " || hasPrefix directiveContent "range " ||
  hasPrefix directiveContent "freq " || hasPrefix directiveContent "explode "

def knownDirectives : List String :=
  ["binary", "truefalse", "range", "freq", "list", "contains", "exact", "explode"]

def isKnownDirective (directiveName : String) : Bool :=
  knownDirectives.contains directiveName

/-! ## Passes -/

def processPrefixDirective (line : String) : Except String String :=
  let trimmed := trimLeft (fun c => c = ' ' || c = '\t') line
  let indent := String.ofList (line.toList.take (line.toList.length - trimmed.toList.length))
  match cutPrefix trimmed "%%" with
  | none => .ok line
  | some rest =>
    match cutText "%%".toList rest.toList with
    | none => .ok line
    | some (content, restOfLine) =>
      let directiveContent := String.ofList content
      if isPrefixDirective directiveContent then do
        let directiveResult ← xformConfig fmt lookUpConfig ("%%" ++ directiveContent ++ "%%")
        return indent ++ trimSuffix directiveResult "\n" ++ String.ofList restOfLine
      else .ok line

/-- The text between the `%%` of a line that is one directive. -/
def wrappedContent (line : String) : Option String :=
  if hasPrefix line "%%" && hasSuffix line "%%" && 4 ≤ line.toList.count '%' then
    let innerContent := trimPrefix (trimSuffix line "%%") "%%"
    if isWrappingDirective innerContent then some innerContent else none
  else none

/-- Whether the operands of a directive are substituted before it is evaluated. -/
def isSearchDirective (innerContent : String) : Bool :=
  hasPrefix innerContent "contains " || hasPrefix innerContent "exact "

/-- The typed markers of `contains` and `exact` operands by their values, on one line. -/
def substituteTyped (innerContent : String) : Except String String :=
  replaceAll configVarRe
    (fun match_ => .ok (replaceChar (xformConfigVariable lookUpConfig match_) '\n' ' '))
      innerContent

/-- The directive that is evaluated for a line that is one: the operands of `contains` and
`exact` are substituted first. -/
def substitutedLine (line innerContent : String) : Except String String :=
  if isSearchDirective innerContent then do
    let typed ← substituteTyped lookUpConfig innerContent
    let substituted ← replaceAll plainVarRe (xformConfig fmt lookUpConfig) typed
    return "%%" ++ substituted ++ "%%"
  else .ok line

/-- `processWrappingDirective`: the rendered line, when it is one directive. -/
def processWrappingDirective (line : String) : Except String (Option String) :=
  match wrappedContent line with
  | none => .ok none
  | some innerContent => do
      let line ← substitutedLine fmt lookUpConfig line innerContent
      let value ← xformConfig fmt lookUpConfig line
      return some (value ++ "\n")

/-- What `processInlineDirectives` replaces a marker by. -/
def inlineDirective (match_ : String) : Except String String :=
  match splitN ' ' 2 (trim isPercent match_) with
  | directiveName :: _ :: _ =>
    if isKnownDirective directiveName then xformConfig fmt lookUpConfig match_ else .ok match_
  | _ => .ok match_

def processInlineDirectives (line : String) : Except String String :=
  if !contains line "%%" || line.toList.count '%' < 4 then .ok line
  else replaceAll inlineDirectRe (inlineDirective fmt lookUpConfig) line

def configVarPass (line : String) : Except String String :=
  replaceAll configVarRe
    (fun match_ => .ok (keepOnOneLine line match_ (xformConfigVariable lookUpConfig match_))) line

def plainVarPass (line : String) : Except String String :=
  replaceAll plainVarRe
    (fun match_ => (xformConfig fmt lookUpConfig match_).map (keepOnOneLine line match_)) line

/-- A line that cannot hold a marker. -/
def hasNoMarker (line : String) : Bool :=
  line.toList.count '@' < 2 && line.toList.count '%' < 2

/-- The line after the substitution of `@@key@@` and the `comment` prefix. -/
def prefixedLine (line : String) : Except String String := do
  let line ← replaceAll localConfigRe (xformLocalConfig lookUpConfig) line
  processPrefixDirective fmt lookUpConfig (trimRight pyWhitespace line)

def transform (line : String) : Except String String :=
  if hasNoMarker line then .ok line
  else do
    let line ← prefixedLine fmt lookUpConfig line
    match ← processWrappingDirective fmt lookUpConfig line with
    | some result => return result
    | none =>
      let line ← processInlineDirectives fmt lookUpConfig line
      let line ← configVarPass lookUpConfig line
      let line ← plainVarPass fmt lookUpConfig line
      return line ++ "\n"

end Lookup

/-! ## Texts of directives -/

theorem trimSuffix_append (s suf : String) : trimSuffix (s ++ suf) suf = s := by
  have hsuf : hasSuffix (s ++ suf) suf = true := by
    rw [hasSuffix, List.isSuffixOf_iff_suffix, String.toList_append]
    exact List.suffix_append _ _
  rw [trimSuffix, if_pos hsuf, String.toList_append, List.length_append, Nat.add_sub_cancel,
    List.take_left, String.ofList_toList]

theorem wrappedContent_eq_some {line innerContent : String}
    (h : wrappedContent line = some innerContent) :
    line = "%%" ++ innerContent ++ "%%" ∧ isWrappingDirective innerContent = true := by
  unfold wrappedContent at h
  split at h
  next hline =>
    simp only [Bool.and_eq_true, decide_eq_true_eq] at hline
    obtain ⟨⟨hpre, hsuf⟩, hcount⟩ := hline
    simp only [] at h
    split at h
    next hwrap =>
      obtain rfl := Option.some.inj h
      refine ⟨?_, hwrap⟩
      -- Four percent signs, so the two ends do not overlap.
      have hsplit : ∃ inner : String, line = "%%" ++ inner ++ "%%" := by
        obtain ⟨front, hfront⟩ := List.isSuffixOf_iff_suffix.mp hsuf
        obtain ⟨back, hback⟩ := List.isPrefixOf_iff_prefix.mp hpre
        rw [← hfront, List.count_append] at hcount
        have htwo : 2 ≤ front.length := by
          have hle := List.count_le_length (a := '%') (l := front)
          have hend : "%%".toList.count '%' = 2 := by decide
          omega
        have hcut : "%%".toList <+: front :=
          List.prefix_of_prefix_length_le ⟨back, hback⟩ ⟨_, hfront⟩ htwo
        obtain ⟨inner, rfl⟩ := hcut
        refine ⟨String.ofList inner, ?_⟩
        rw [← String.toList_inj, ← hfront]
        simp
      obtain ⟨inner, rfl⟩ := hsplit
      rw [trimSuffix_append, trimPrefix, cutPrefix_append, Option.getD_some]
    next => cases h
  next => cases h

theorem trim_mark {content : List Char} (hfree : '%' ∉ content) (hne : content ≠ []) :
    trim isPercent (String.ofList (mark '%' content)) = String.ofList content := by
  have hchars : ∀ c ∈ content, isPercent c = false := by
    intro c hc
    rw [isPercent, decide_eq_false_iff_not]
    rintro rfl
    exact hfree hc
  have hleft : (mark '%' content).dropWhile isPercent = content ++ ['%', '%'] := by
    obtain ⟨c, content, rfl⟩ := List.exists_cons_of_ne_nil hne
    have hc := hchars c List.mem_cons_self
    have hfence : isPercent '%' = true := rfl
    simp [mark, hc, hfence]
  have hright : (content ++ ['%', '%']).rdropWhile isPercent = content := by
    rw [show content ++ ['%', '%'] = content ++ ['%'] ++ ['%'] by simp,
      List.rdropWhile_concat_pos _ _ _ rfl, List.rdropWhile_concat_pos _ _ _ rfl,
      List.rdropWhile_eq_self_iff]
    intro hlast
    rw [hchars _ (List.getLast_mem hlast)]
    exact Bool.false_ne_true
  simp only [trim, trimLeft, trimRight, String.toList_ofList, hleft, hright]

end Transformer
end Configd
