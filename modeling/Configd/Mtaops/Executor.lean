import Configd.Config
import Configd.Lib.Base64
import Configd.Lib.Fields

/-!
# The operations on Postfix and on the mapped files

`mtaops.Executor` (`internal/mtaops/executor.go`) sets, deletes and reads the parameters of
`main.cf` through the `postconf` command, and keeps the files of the `MAPFILE` keys in sync with
their values.

`Postfix` is the configuration that the command works on: what `main.cf` sets and the built-in
defaults.  What `postconf` prints is given with it; the executor parses that text.
`readPostconf_effective` and `readPostconf_explicit` say what it finds out.  A mapped file can be
there and not readable; the operations on it are `HostFile`s before and after.
-/

namespace Configd

open Lib

/-! ## Postfix -/

/-- The parameters of Postfix: those that `main.cf` sets, and the built-in values of
the parameters that exist. -/
structure Postfix where
  explicit : StrMap String := ∅
  builtin : String → Option String := fun _ => none

namespace Postfix

/-- The value Postfix works with. -/
def effective (pf : Postfix) (key : String) : Option String :=
  match pf.explicit[key]? with
  | some value => some value
  | none => pf.builtin key

/-- The output of `postconf -h key`, when the parameter exists. -/
def postconfValue (pf : Postfix) (key : String) : Option String :=
  (pf.effective key).map (· ++ "\n")

/-- The output of `postconf -n key`: the line of a parameter that `main.cf` sets. -/
def postconfEntry (pf : Postfix) (key : String) : Option String :=
  match pf.explicit[key]? with
  | some value => some (key ++ " = " ++ value ++ "\n")
  | none => if (pf.builtin key).isSome then some "" else none

end Postfix

/-- `postconfKeyRe`. -/
def isPostconfKey (key : String) : Bool :=
  key ≠ "" && key.toList.all fun c => c.isAlphanum || c = '_'

/-- `unwrapPostconfValue`: the lines of a value, trimmed and put together. -/
def unwrapPostconfValue (lines : List String) : String :=
  Strings.join " " ((lines.map Strings.trimSpace).filter (· ≠ ""))

/-- `continuationLines`: the leading indented lines. -/
def continuationLines (lines : List String) : List String :=
  lines.takeWhile fun line => line.toList.head? = some ' ' || line.toList.head? = some '\t'

/-- `strings.TrimLeft(s, " \t")`. -/
def trimBlanks (s : String) : String :=
  String.ofList (s.toList.dropWhile fun c => c = ' ' || c = '\t')

/-- What follows `key =` on a line that sets the parameter. -/
def entryValue (key line : String) : Option String :=
  match Strings.cutPrefix line key with
  | some rest => (Strings.cutPrefix (trimBlanks rest) "=").map trimBlanks
  | none => none

/-- The loop of `parsePostconfEntry`. -/
def parseEntryLines (key : String) : List String → Option String
  | [] => none
  | line :: rest =>
    match entryValue key line with
    | some first => some (unwrapPostconfValue (first :: continuationLines rest))
    | none => parseEntryLines key rest

/-- `parsePostconfEntry`: the value and whether a line sets the key. -/
def parsePostconfEntry (out key : String) : String × Bool :=
  match parseEntryLines key (Strings.split out '\n') with
  | some value => (value, true)
  | none => ("", false)

/-- `executor.ReadPostconf`, or none when the key is not one or the command fails. -/
def readPostconf (pf : Postfix) (key : String) (explicitOnly : Bool) : Option (String × Bool) :=
  if !isPostconfKey key then none
  else if explicitOnly then (pf.postconfEntry key).map (parsePostconfEntry · key)
  else (pf.postconfValue key).map fun out => (unwrapPostconfValue (Strings.split out '\n'), true)

/-- `NormalizePostconfValue`: the lines of a value with several, put together with
commas. -/
def normalizePostconfValue (value : String) : String :=
  if Strings.contains value "\n" then
    Strings.join ", " (((Strings.split value '\n').map Strings.trimSpace).filter (· ≠ ""))
  else value

/-- `executor.ExecutePostconf`: an invalid key is skipped. -/
def executePostconf (pf : Postfix) (key value : String) : Postfix :=
  if isPostconfKey key then
    { pf with explicit := pf.explicit.insert key (normalizePostconfValue value) }
  else pf

def executePostconfd (pf : Postfix) (key : String) : Postfix :=
  { pf with explicit := pf.explicit.erase key }

theorem fields_unwrapPostconfValue (out : String) :
    Strings.fields (unwrapPostconfValue (Strings.split out '\n')) = Strings.fields out := by
  have hlines : ∀ lines : List String,
      ((lines.map Strings.trimSpace).filter (· ≠ "")).flatMap Strings.fields =
        lines.flatMap Strings.fields := by
    intro lines
    induction lines with
    | nil => rfl
    | cons line rest ih =>
      rw [List.map_cons, List.filter_cons, List.flatMap_cons, ← Strings.fields_trimSpace line]
      by_cases hblank : Strings.trimSpace line = ""
      · simpa [hblank] using ih
      · simpa [hblank] using ih
  rw [unwrapPostconfValue, Strings.fields_join, hlines, Strings.flatMap_fields_split (by decide)]

/-- **Reading the value of a parameter** gives its effective value up to white
space. -/
theorem readPostconf_effective {pf : Postfix} {key have_ : String} {set : Bool}
    (hread : readPostconf pf key false = some (have_, set)) :
    isPostconfKey key = true ∧
      ∃ value, pf.effective key = some value ∧ Strings.fields have_ = Strings.fields value := by
  unfold readPostconf at hread
  split at hread
  · simp at hread
  · rename_i hkey
    simp only [Bool.false_eq_true, if_false, Postfix.postconfValue, Option.map_map,
      Option.map_eq_some_iff, Function.comp_apply, Prod.mk.injEq] at hread
    obtain ⟨value, hvalue, rfl, -⟩ := hread
    refine ⟨by simpa using hkey, value, hvalue, ?_⟩
    have hline : value ++ "\n" = String.ofList (value.toList ++ '\n' :: []) := by
      rw [← String.toList_inj]
      simp
    rw [fields_unwrapPostconfValue, hline, Strings.fields_ofList_append (by decide)]
    simp

theorem entryValue_isSome (key value : String) :
    (entryValue key (key ++ " = " ++ value)).isSome = true := by
  have hblank : trimBlanks (" = " ++ value) = "=" ++ (" " ++ value) := by
    rw [← String.toList_inj]
    simp [trimBlanks]
  rw [entryValue, String.append_assoc, Strings.cutPrefix_append]
  simp only [hblank, Strings.cutPrefix_append, Option.map_some, Option.isSome_some]

/-- **Asking whether `main.cf` sets a parameter** gives the right answer. -/
theorem readPostconf_explicit {pf : Postfix} {key value : String} {set : Bool}
    (hread : readPostconf pf key true = some (value, set)) :
    set = true ↔ key ∈ pf.explicit := by
  unfold readPostconf at hread
  split at hread
  · simp at hread
  rename_i hkey
  simp only [Bool.not_eq_true', Bool.not_eq_false, isPostconfKey, Bool.and_eq_true,
    decide_eq_true_eq, List.all_eq_true, Bool.or_eq_true] at hkey
  simp only [if_true, Option.map_eq_some_iff] at hread
  obtain ⟨out, hout, hparsed⟩ := hread
  unfold Postfix.postconfEntry at hout
  rw [OrdMap.mem_iff_getElem?_isSome]
  cases hset : pf.explicit[key]? with
  | none =>
    simp only [hset] at hout
    split at hout
    · have hnone : entryValue key "" = none := by
        have hpre : Strings.hasPrefix "" key = false := by
          rw [Bool.eq_false_iff]
          intro hprefix
          obtain ⟨rest, hrest⟩ := Strings.hasPrefix_iff.mp hprefix
          exact hkey.1 (String.append_eq_empty_iff.mp hrest.symm).1
        simp [entryValue, Strings.cutPrefix, hpre]
      have hlines : Strings.split "" '\n' = [""] := by decide
      rw [← Option.some.inj hout, parsePostconfEntry, hlines] at hparsed
      simp only [parseEntryLines, hnone, Prod.mk.injEq] at hparsed
      simp [← hparsed.2]
    · simp at hout
  | some stored =>
    simp only [hset, Option.some.injEq] at hout
    -- The first line of the output has the key and the first line of the value.
    obtain ⟨before, after, hvalue, hbefore⟩ :=
      List.eq_append_cons_of_mem (show '\n' ∈ (stored ++ "\n").toList by simp)
    have hfirst : '\n' ∉ (key ++ " = " ++ String.ofList before).toList := by
      have hnot : '\n' ∉ key.toList := fun hmem => absurd (hkey.2 _ hmem) (by decide)
      simp [hnot, hbefore]
    have hsplit : Strings.split out '\n' = (key ++ " = " ++ String.ofList before) ::
        Strings.split (String.ofList after) '\n' := by
      have hout' : out = String.ofList
          ((key ++ " = " ++ String.ofList before).toList ++ '\n' :: after) := by
        rw [← hout, ← String.toList_inj, String.append_assoc, String.toList_append, hvalue]
        simp
      rw [hout', Strings.split_ofList_append, Strings.split_ofList_of_not_mem hfirst,
        String.ofList_toList, List.singleton_append]
    obtain ⟨first, hentry⟩ :=
      Option.isSome_iff_exists.mp (entryValue_isSome key (String.ofList before))
    rw [parsePostconfEntry, hsplit] at hparsed
    simp only [parseEntryLines, hentry, Prod.mk.injEq] at hparsed
    simp [← hparsed.2]

/-! ## Mapped files -/

/-- A file of the host: its content, its permission bits, and whether the program may
read it and may ask for it. -/
structure HostFile where
  content : List UInt8
  perm : Nat := 0o640
  readable : Bool := true
  statable : Bool := true
  deriving DecidableEq

/-- `FS.ReadFile`. -/
def HostFile.read : Option HostFile → Option (List UInt8)
  | some f => if f.readable then some f.content else none
  | none => none

/-- `executor.executeMapFile`: the file after it was synced with the base 64 data,
where `perm` is the mode a new file gets.  An operation that fails leaves the file. -/
def executeMapFile (base64Data : String) (perm : Nat) (file : Option HostFile) :
    Option HostFile :=
  if base64Data = "" then
    -- `handleEmptyMapfileData`: a file that is found is removed.
    match file with
    | some f => if f.statable then none else file
    | none => none
  else
    match Base64.decode base64Data with
    | none => file
    | some data =>
      if HostFile.read file = some data then file
      else some { content := data, perm := (file.map HostFile.perm).getD perm }

end Configd
