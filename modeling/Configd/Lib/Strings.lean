import Mathlib

/-!
# The string functions of the Go standard library

Strings are sequences of Unicode code points; a function that the source takes from the packages
`strings` and `unicode` is defined here on that sequence, under its Go name.

* `trimSpace` removes leading and trailing white space as `unicode.IsSpace` understands it.
* `cutPrefix`, `trimPrefix` and `cut` split at a prefix and at a separator, `split` and `fields` at
  every separator.
* `toLower` and `toUpper` change the case of the ASCII letters only, where Go's know all of Unicode:
  the names of services, types and keywords are ASCII.
* `utf8Truncate` is the longest prefix that fits in a number of UTF-8 bytes.
-/

namespace Configd
namespace Lib
namespace Strings

/-- `unicode.IsSpace`: the code points with the White_Space property. -/
def isSpace (c : Char) : Bool :=
  c.toNat ∈ [0x09, 0x0A, 0x0B, 0x0C, 0x0D, 0x20, 0x85, 0xA0, 0x1680, 0x2028, 0x2029,
    0x202F, 0x205F, 0x3000] || (0x2000 ≤ c.toNat && c.toNat ≤ 0x200A)

def trimSpace (s : String) : String :=
  String.ofList ((s.toList.dropWhile isSpace).rdropWhile isSpace)

@[simp] theorem trimSpace_empty : trimSpace "" = "" := by decide

def hasPrefix (s pre : String) : Bool :=
  pre.toList.isPrefixOf s.toList

theorem hasPrefix_iff_toList {s pre : String} :
    hasPrefix s pre = true ↔ pre.toList <+: s.toList :=
  List.isPrefixOf_iff_prefix

theorem hasPrefix_iff {s pre : String} : hasPrefix s pre = true ↔ ∃ rest, s = pre ++ rest := by
  rw [hasPrefix_iff_toList]
  constructor
  · rintro ⟨rest, hrest⟩
    exact ⟨String.ofList rest, by rw [← String.toList_inj, ← hrest]; simp⟩
  · rintro ⟨rest, rfl⟩
    exact ⟨rest.toList, by simp⟩

@[simp] theorem hasPrefix_append (pre rest : String) : hasPrefix (pre ++ rest) pre = true :=
  hasPrefix_iff.mpr ⟨rest, rfl⟩

theorem hasPrefix_of_append {s a b : String} (h : hasPrefix s (a ++ b) = true) :
    hasPrefix s a = true := by
  obtain ⟨rest, rfl⟩ := hasPrefix_iff.mp h
  rw [String.append_assoc]
  exact hasPrefix_append a _

theorem prefix_rdropWhile_append (p : Char → Bool) (l m : List Char) :
    l.rdropWhile p <+: (l ++ m).rdropWhile p := by
  induction m using List.reverseRecOn with
  | nil => rw [List.append_nil]
  | append_singleton m c ih =>
    rw [← List.append_assoc, List.rdropWhile_concat]
    split
    · exact ih
    · have hpre := List.rdropWhile_prefix p l
      exact hpre.trans (List.prefix_append_of_prefix (List.prefix_append l m))

def hasSuffix (s suf : String) : Bool :=
  suf.toList.isSuffixOf s.toList

def contains (s sub : String) : Bool :=
  s.toList.tails.any fun rest => sub.toList.isPrefixOf rest

theorem contains_iff {s sub : String} : contains s sub = true ↔ sub.toList <:+: s.toList := by
  simp only [contains, List.any_eq_true, List.mem_tails, List.infix_iff_prefix_suffix,
    List.isPrefixOf_iff_prefix, and_comm]

/-- `strings.CutPrefix`: the rest of `s` after `pre`, when `s` starts with it. -/
def cutPrefix (s pre : String) : Option String :=
  if hasPrefix s pre then some (String.ofList (s.toList.drop pre.toList.length)) else none

def trimPrefix (s pre : String) : String :=
  (cutPrefix s pre).getD s

/-- `strings.Cut` at a one-character separator: the text before the first
separator and the text after it, when there is one. -/
def cut (s : String) (sep : Char) : Option (String × String) :=
  if sep ∈ s.toList then
    some (String.ofList (s.toList.takeWhile (· ≠ sep)),
      String.ofList ((s.toList.dropWhile (· ≠ sep)).drop 1))
  else
    none

theorem cut_append (before after : String) (sep : Char) (hfree : sep ∉ before.toList) :
    cut (before ++ String.ofList [sep] ++ after) sep = some (before, after) := by
  have hkeep : ∀ c ∈ before.toList, (!decide (c = sep)) = true := by
    intro c hc
    simp only [Bool.not_eq_true', decide_eq_false_iff_not]
    rintro rfl
    exact hfree hc
  simp [cut, List.takeWhile_append_of_pos hkeep, List.dropWhile_append_of_pos hkeep]

def toLower (s : String) : String :=
  String.ofList (s.toList.map Char.toLower)

@[simp] theorem toLower_toLower (s : String) : toLower (toLower s) = toLower s := by
  simp [toLower, Function.comp_def]

def toUpper (s : String) : String :=
  String.ofList (s.toList.map Char.toUpper)

def equalFold (s t : String) : Bool :=
  toLower s = toLower t

/-- `strings.ReplaceAll` of one character by another. -/
def replaceChar (s : String) (old new : Char) : String :=
  String.ofList (s.toList.map fun c => if c = old then new else c)

/-- `strings.Split` at a one-character separator. -/
def split (s : String) (sep : Char) : List String :=
  (s.toList.splitOn sep).map String.ofList

/-- `strings.Fields`: the runs of characters between white space. -/
def fields (s : String) : List String :=
  ((s.toList.splitOnP isSpace).filter (· ≠ [])).map String.ofList

example : fields "  antivirus\tmta " = ["antivirus", "mta"] := by decide +kernel

def join (sep : String) (parts : List String) : String :=
  String.intercalate sep parts

/-- The longest prefix of a list of code points whose UTF-8 encoding has at
most `budget` bytes. -/
def takeUtf8 : Nat → List Char → List Char
  | _, [] => []
  | budget, c :: rest =>
    if c.utf8Size ≤ budget then c :: takeUtf8 (budget - c.utf8Size) rest else []

/-- The longest prefix of `s` that fits in `budget` bytes: the first `budget`
bytes of the string, without the code point they may cut in two. -/
def utf8Truncate (budget : Nat) (s : String) : String :=
  String.ofList (takeUtf8 budget s.toList)

end Strings
end Lib
end Configd
