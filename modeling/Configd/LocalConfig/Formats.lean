import Configd.Lib.Fields
import Configd.Lib.OrdMap
import Configd.Lib.Shell

/-!
# Output formats of the local configuration

The formats in which `configd localconfig` prints keys and values
(`internal/localconfig/formats.go`).  Values are byte strings, but for the XML document, which
is encoded character by character.

Scripts evaluate the output of `FormatShell` and `FormatExport`.  `scripts_assign` says that
they do what they are meant to: to the shell, each line is the assignment of one value,
whatever bytes it has.
-/

namespace Configd
namespace LocalConfig

open Lib Lib.Strings Lib.Shell

/-! ## The formats -/

/-- `orderedKeys`: the keys of the list that have a value, with their repeats, or all of them. -/
def orderedKeys {V : Type} (config : StrMap V) (order : List String) : List String :=
  if order = [] then config.keys else order.filter (· ∈ config)

/-- The loop of a format: one line for each key. -/
def formatLines (line : String → Bytes → Bytes) (config : StrMap Bytes) (order : List String) :
    Bytes :=
  (orderedKeys config order).flatMap fun key => line key (config[key]?.getD [])

def formatPlain : StrMap Bytes → List String → Bytes :=
  formatLines fun key value => utf8 key ++ utf8 " = " ++ value ++ utf8 "\n"

def shellEscape (s : Bytes) : Bytes :=
  s.flatMap fun b => if b = quote then [quote, backslash, quote, quote] else [b]

def formatShell : StrMap Bytes → List String → Bytes :=
  formatLines fun key value => utf8 key ++ utf8 "='" ++ shellEscape value ++ utf8 "';\n"

def formatExport : StrMap Bytes → List String → Bytes :=
  formatLines fun key value => utf8 "export " ++ utf8 key ++ utf8 "='" ++ shellEscape value ++
    utf8 "';\n"

def formatNokey : StrMap Bytes → List String → Bytes :=
  formatLines fun _ value => value ++ utf8 "\n"

def normalizeSpace (s : String) : String :=
  join " " (fields s)

/-- `isInCharacterRange` of `encoding/xml`; a `Char` is no surrogate. -/
def isInCharacterRange (c : Char) : Bool :=
  c = '\t' || c = '\n' || c = '\r' || (' ' ≤ c && c.val ≤ 0xFFFD) || 0x10000 ≤ c.val

/-- One character of `EscapeString` of `encoding/xml`. -/
def escapeChar (c : Char) : String :=
  match c with
  | '"' => "&#34;"
  | '\'' => "&#39;"
  | '&' => "&amp;"
  | '<' => "&lt;"
  | '>' => "&gt;"
  | '\t' => "&#x9;"
  | '\n' => "&#xA;"
  | '\r' => "&#xD;"
  | c => if isInCharacterRange c then c.toString else "�"

def escapeString (s : String) : String :=
  join "" (s.toList.map escapeChar)

/-- The element of one key, as the encoder indents it. -/
def xmlKey (key value : String) : String :=
  "\n  <key name=\"" ++ escapeString key ++ "\">\n    <value>" ++
    escapeString (normalizeSpace value) ++ "</value>\n  </key>"

/-- `FormatXML`.  A document without keys is an element without line breaks. -/
def formatXML (config : StrMap String) (order : List String) : String :=
  let keys := (orderedKeys config order).map fun key => xmlKey key (config[key]?.getD "")
  "<?xml version=\"1.0\" encoding=\"UTF-8\"?>\n" ++ "\n" ++ "<localconfig>" ++ join "" keys ++
    (if keys = [] then "" else "\n") ++ "</localconfig>" ++ "\n"

def maskedValue : String := "*"

def maskPasswords (config : StrMap String) : StrMap String :=
  config.map fun key value => if contains key "password" then maskedValue else value

/-! ## Scripts -/

theorem mem_of_mem_orderedKeys {V : Type} {config : StrMap V} {order : List String} {key : String}
    (h : key ∈ orderedKeys config order) : key ∈ config := by
  rw [orderedKeys] at h
  split at h
  · exact Std.ExtTreeMap.mem_keys.mp h
  · exact of_decide_eq_true (List.mem_filter.mp h).2

theorem run_shellEscape_byte (r : Reader) (b : UInt8) (hmode : r.mode = .quoted) (hzero : b ≠ 0) :
    r.run (if b = quote then [quote, backslash, quote, quote] else [b]) =
      some (r.add [⟨b, true⟩]) := by
  split
  next hquote => exact hquote ▸ Reader.run_quotedQuote hmode
  next hquote => exact Reader.run_quotedByte hmode hquote hzero

/-- What `key='value'` is read as. -/
def assignmentWord (key : String) (value : Bytes) : Word :=
  plainWord (utf8 key) ++ ⟨equalsSign, false⟩ :: quotedWord value

theorem assignment_assignmentWord {key : String} (hname : isName (utf8 key) = true)
    (value : Bytes) :
    Word.assignment (assignmentWord key value) = some (utf8 key, value) := by
  rw [assignmentWord, assignment_append hname, bytes_quotedWord]

theorem run_assignment {key : String} {value : Bytes} (hname : isName (utf8 key) = true)
    (hvalue : 0 ∉ value) (commands : List (List Word)) (words : List Word) :
    Reader.run ⟨.plain, commands, words, none⟩
        (utf8 key ++ utf8 "='" ++ shellEscape value ++ utf8 "';\n") =
      some (Reader.before (commands ++ [words ++ [assignmentWord key value]])) := by
  have htext : utf8 key ++ utf8 "='" ++ shellEscape value ++ utf8 "';\n" =
      (utf8 key ++ [equalsSign]) ++
        ((quote :: (shellEscape value ++ [quote])) ++ [semicolon, newline]) := by
    have hopen : utf8 "='" = [equalsSign, quote] := by decide
    have hclose : utf8 "';\n" = [quote, semicolon, newline] := by decide
    simp [hopen, hclose]
  have hordinary : ∀ b ∈ utf8 key ++ [equalsSign], Ordinary b := by
    intro b hb
    rcases List.mem_append.mp hb with hkey | hequals
    · exact (ordinary_of_isNameByte (isNameByte_of_isName hname b hkey)).1
    · rw [List.mem_singleton.mp hequals]
      decide
  rw [htext, Reader.run_append, Reader.run_ordinary rfl (by simp) hordinary, Option.bind_some,
    Reader.run_append, shellEscape, Reader.run_quotedString run_shellEscape_byte rfl hvalue,
    Option.bind_some, Reader.add_add]
  have hword : plainWord (utf8 key ++ [equalsSign]) ++ quotedWord value =
      assignmentWord key value := by
    simp [assignmentWord, plainWord]
  rw [hword]
  exact Reader.run_endOfLine commands words _

theorem run_export (commands : List (List Word)) :
    (Reader.before commands).run (utf8 "export ") =
      some ⟨.plain, commands, [plainWord (utf8 "export")], none⟩ := by
  have htext : utf8 "export " = utf8 "export" ++ [32] := by decide
  have hordinary : ∀ b ∈ utf8 "export", Ordinary b := by decide +kernel
  rw [htext, Reader.run_append, Reader.run_ordinary rfl (by decide) hordinary, Option.bind_some]
  rfl

theorem run_exportLine {key : String} {value : Bytes} (hname : isName (utf8 key) = true)
    (hvalue : 0 ∉ value) (commands : List (List Word)) :
    (Reader.before commands).run
        (utf8 "export " ++ utf8 key ++ utf8 "='" ++ shellEscape value ++ utf8 "';\n") =
      some (Reader.before
        (commands ++ [[plainWord (utf8 "export"), assignmentWord key value]])) := by
  have htext : utf8 "export " ++ utf8 key ++ utf8 "='" ++ shellEscape value ++ utf8 "';\n" =
      utf8 "export " ++ (utf8 key ++ utf8 "='" ++ shellEscape value ++ utf8 "';\n") := by
    simp only [List.append_assoc]
  rw [htext, Reader.run_append, run_export, Option.bind_some, run_assignment hname hvalue]
  rfl

/-- **To the shell, the output is one assignment for each printed key**, of its value and in the
order in which they are printed, and nothing else. -/
theorem scripts_assign (config : StrMap Bytes) (order : List String)
    (hnames : ∀ key ∈ config, isName (utf8 key) = true)
    (hvalues : ∀ (key : String) value, config[key]? = some value → 0 ∉ value) :
    readScript (formatShell config order) =
        some ((orderedKeys config order).map fun key => .assign (utf8 key) (config[key]?.getD [])) ∧
      readScript (formatExport config order) =
        some ((orderedKeys config order).map fun key =>
          .exported (utf8 key) (config[key]?.getD [])) := by
  have hkey : ∀ key ∈ orderedKeys config order,
      isName (utf8 key) = true ∧ 0 ∉ config[key]?.getD [] := by
    intro key hmem
    have hmem := mem_of_mem_orderedKeys hmem
    obtain ⟨value, hvalue⟩ := (OrdMap.mem_iff_getElem?_isSome config key).mp hmem
    refine ⟨hnames key hmem, ?_⟩
    rw [hvalue]
    exact hvalues key value hvalue
  constructor
  · have hread : readScript (formatShell config order) = some ((orderedKeys config order).flatMap
        fun key => statements [assignmentWord key (config[key]?.getD [])]) :=
      readScript_flatMap fun key hmem commands =>
        run_assignment (hkey key hmem).1 (hkey key hmem).2 commands []
    rw [hread, List.map_eq_flatMap]
    refine congrArg some (List.flatMap_congr fun key hmem => ?_)
    simp [statements, assignment_assignmentWord (hkey key hmem).1]
  · have hread : readScript (formatExport config order) = some ((orderedKeys config order).flatMap
        fun key => statements [plainWord (utf8 "export"),
          assignmentWord key (config[key]?.getD [])]) :=
      readScript_flatMap fun key hmem => run_exportLine (hkey key hmem).1 (hkey key hmem).2
    rw [hread, List.map_eq_flatMap]
    refine congrArg some (List.flatMap_congr fun key hmem => ?_)
    have hutility : (plainWord (utf8 "export")).assignment = none := by decide
    simp [statements, hutility, assignment_assignmentWord (hkey key hmem).1]

def quotedConfig : StrMap Bytes :=
  ((∅ : StrMap Bytes).insert "motd" (utf8 "it's\n';rm $x")).insert "zimbra_home"
    (utf8 "/opt/zextras")

theorem scripts_assign_motd :
    readScript (formatShell quotedConfig ["zimbra_home", "motd", "unset"]) =
        some [.assign (utf8 "zimbra_home") (utf8 "/opt/zextras"),
          .assign (utf8 "motd") (utf8 "it's\n';rm $x")] ∧
      readScript (formatExport quotedConfig ["zimbra_home", "motd", "unset"]) =
        some [.exported (utf8 "zimbra_home") (utf8 "/opt/zextras"),
          .exported (utf8 "motd") (utf8 "it's\n';rm $x")] := by
  have hmem : ∀ (key : String) value, quotedConfig[key]? = some value →
      (key = "motd" ∧ value = utf8 "it's\n';rm $x") ∨
        (key = "zimbra_home" ∧ value = utf8 "/opt/zextras") := by
    intro key value h
    rw [quotedConfig, OrdMap.getElem?_insert_iff, OrdMap.getElem?_insert_iff] at h
    by_cases hhome : "zimbra_home" = key
    · rw [if_pos hhome] at h
      exact .inr ⟨hhome.symm, (Option.some.inj h).symm⟩
    · rw [if_neg hhome] at h
      by_cases hmotd : "motd" = key
      · rw [if_pos hmotd] at h
        exact .inl ⟨hmotd.symm, (Option.some.inj h).symm⟩
      · rw [if_neg hmotd] at h
        simp at h
  have h := scripts_assign quotedConfig ["zimbra_home", "motd", "unset"]
    (by
      intro key hkey
      obtain ⟨value, hvalue⟩ := (OrdMap.mem_iff_getElem?_isSome quotedConfig key).mp hkey
      rcases hmem key value hvalue with ⟨rfl, -⟩ | ⟨rfl, -⟩ <;> decide)
    (by
      intro key value hvalue
      rcases hmem key value hvalue with ⟨-, rfl⟩ | ⟨-, rfl⟩ <;> decide)
  have hkeys : orderedKeys quotedConfig ["zimbra_home", "motd", "unset"] =
      ["zimbra_home", "motd"] := by
    decide +kernel
  rw [hkeys] at h
  exact h

end LocalConfig
end Configd
