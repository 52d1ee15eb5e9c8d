import Configd.Lib.OrdMap
import Configd.Lib.Strings

/-!
# Writing `localconfig.xml`

`SetKeys` and `RemoveKeys` (`internal/localconfig/writer.go`) read the file, change the keys in
memory and write it back as a whole; `LoadLocalConfigFile` (`internal/localconfig/localconfig.go`)
is how everybody else reads it.  For the loader a key may have no value element (a *null* key) and
of a repeated key the last one counts; for the writer a missing value is the empty string, and of a
repeated key the first one is set.

XML itself is not modelled: a document is the list of its `key` elements, and what is written is
read back.

* `write_meets_iff` — when a write changes the keys it names and no others;
* `meets_of_run` — it always does from a file that repeats no key and has no null key, and stays
  such a file.
-/

namespace Configd
namespace LocalConfig

open Lib Lib.Strings

/-! ## The file -/

/-- A `key` element: its name and its value element, when it has one. -/
structure KeyElement where
  name : String
  value : Option String
  deriving DecidableEq

/-- A key as the writer holds it (`localconfig.Key`). -/
structure Key where
  name : String
  value : String
  deriving DecidableEq

/-- What is at the path of `localconfig.xml`. -/
inductive File
  | missing
  | unreadable (cause : String)
  | malformed (cause : String)
  | document (keys : List KeyElement)
  deriving DecidableEq

inductive FileError
  | read (cause : String)
  | parse (cause : String)
  | lock (cause : String)
  | save (cause : String)
  | keyNotSet (key : String)
  deriving DecidableEq

/-- How an element is unmarshalled into the writer's structure. -/
def KeyElement.toKey (element : KeyElement) : Key :=
  ⟨element.name, element.value.getD ""⟩

/-- How the writer's structure is marshalled: an empty value is an empty element. -/
def Key.toElement (key : Key) : KeyElement :=
  ⟨key.name, some key.value⟩

/-! ## The loader -/

/-- What `LoadLocalConfigFile` returns. -/
structure Loaded where
  values : StrMap String
  nullKeys : List String

/-- One round of the loop of `LoadLocalConfigFile`. -/
def loadKey (loaded : Loaded) (element : KeyElement) : Loaded :=
  match element.value with
  | none => { loaded with nullKeys := loaded.nullKeys ++ [element.name] }
  | some value =>
    { loaded with values := loaded.values.insert element.name (trimSpace value) }

def loadKeys (document : List KeyElement) : Loaded :=
  document.foldl loadKey ⟨∅, []⟩

def loadLocalConfigFile : File → Except FileError Loaded
  | .missing => .error (.read "no such file or directory")
  | .unreadable cause => .error (.read cause)
  | .malformed cause => .error (.parse cause)
  | .document keys => .ok (loadKeys keys)

/-! ## The writer -/

/-- `readOrEmptyLocalConfig`: a missing file is an empty configuration. -/
def readOrEmptyLocalConfig : File → Except FileError (List Key)
  | .missing => .ok []
  | .unreadable cause => .error (.read cause)
  | .malformed cause => .error (.parse cause)
  | .document keys => .ok (keys.map KeyElement.toKey)

/-- How writing the temporary file and renaming it ends: the directory is synced after
the rename, so that an error does not always mean that nothing was written. -/
inductive WriteOutcome
  | written
  | failed (cause : String)
  | unsynced (cause : String)
  deriving DecidableEq

/-- What the host decides about one call: the error of `withFileLock` before it calls
its function, and the outcome of the write. -/
structure Host where
  lockError : Option String
  write : WriteOutcome
  deriving DecidableEq

def saveLocalConfig (write : WriteOutcome) (file : File) (keys : List Key) :
    Except FileError Unit × File :=
  match write with
  | .written => (.ok (), .document (keys.map Key.toElement))
  | .failed cause => (.error (.save cause), file)
  | .unsynced cause => (.error (.save cause), .document (keys.map Key.toElement))

/-- `withFileLock` around a change of the keys and the save. -/
def rewriteKeys (host : Host) (file : File)
    (change : List Key → Except FileError (List Key)) : Except FileError Unit × File :=
  match host.lockError with
  | some cause => (.error (.lock cause), file)
  | none =>
    match readOrEmptyLocalConfig file with
    | .error err => (.error err, file)
    | .ok keys =>
      match change keys with
      | .error err => (.error err, file)
      | .ok changed => saveLocalConfig host.write file changed

/-- `setKey`: the first key of the name gets the value; a new name is appended. -/
def setKey : List Key → Key → List Key
  | [], pair => [pair]
  | key :: rest, pair =>
    if key.name = pair.name then { key with value := pair.value } :: rest
    else key :: setKey rest pair

def setKeys (host : Host) (file : File) (pairs : List Key) : Except FileError Unit × File :=
  rewriteKeys host file fun keys => .ok (pairs.foldl setKey keys)

/-- `removeKey`: the keys that are kept, and whether one was dropped. -/
def removeKey (keys : List Key) (key : String) : List Key × Bool :=
  let kept := keys.filter (·.name ≠ key)
  (kept, kept.length ≠ keys.length)

section Remove

-- `IsKnownKey`: whether a key has a compiled-in default.
variable (isKnownKey : String → Bool)

/-- The loop of `RemoveKeys`. -/
def removeAll : List Key → List String → Except FileError (List Key)
  | keys, [] => .ok keys
  | keys, key :: rest =>
    let (kept, present) := removeKey keys key
    if !present && !isKnownKey key then .error (.keyNotSet key)
    else removeAll kept rest

def removeKeys (host : Host) (file : File) (keys : List String) :
    Except FileError Unit × File :=
  rewriteKeys host file fun present => removeAll isKnownKey present keys

end Remove

/-! ## Occurrences of a name -/

/-- The values of the keys of a name, in the order of the file. -/
def occurrences (keys : List Key) (name : String) : List String :=
  (keys.filter (·.name = name)).map Key.value

theorem occurrences_cons (key : Key) (rest : List Key) (name : String) :
    occurrences (key :: rest) name =
      if key.name = name then key.value :: occurrences rest name else occurrences rest name := by
  by_cases hname : key.name = name <;> simp [occurrences, hname]

theorem occurrences_setKey (keys : List Key) (pair : Key) (name : String) :
    occurrences (setKey keys pair) name =
      if pair.name = name then pair.value :: (occurrences keys name).tail
      else occurrences keys name := by
  induction keys with
  | nil =>
    rw [setKey, occurrences_cons]
    rfl
  | cons key rest ih =>
    rw [setKey]
    by_cases hpair : key.name = pair.name
    · rw [if_pos hpair, occurrences_cons, occurrences_cons, ← hpair]
      by_cases hname : key.name = name <;> simp [hname]
    · rw [if_neg hpair, occurrences_cons, occurrences_cons, ih]
      by_cases hname : key.name = name
      · have hother : pair.name ≠ name := fun h => hpair (hname.trans h.symm)
        simp [hname, hother]
      · simp [hname]

/-- The value of the last pair of a name. -/
def lastValue (pairs : List Key) (name : String) : Option String :=
  (occurrences pairs name).getLast?

/-- **Setting a list of keys**: the last pair of a name replaces its first occurrence. -/
theorem occurrences_foldl_setKey (pairs keys : List Key) (name : String) :
    occurrences (pairs.foldl setKey keys) name =
      (lastValue pairs name).elim (occurrences keys name) (· :: (occurrences keys name).tail) := by
  induction pairs generalizing keys with
  | nil => rfl
  | cons pair rest ih =>
    rw [List.foldl_cons, ih, lastValue, lastValue, occurrences_cons, occurrences_setKey]
    by_cases hname : pair.name = name
    · rw [if_pos hname, if_pos hname, List.getLast?_cons]
      cases (occurrences rest name).getLast? <;> rfl
    · rw [if_neg hname, if_neg hname]

theorem occurrences_filter (keys : List Key) (names : List String) (name : String) :
    occurrences (keys.filter (·.name ∉ names)) name =
      if name ∈ names then [] else occurrences keys name := by
  induction keys with
  | nil => simp [occurrences]
  | cons key rest ih =>
    rw [List.filter_cons]
    by_cases hkey : key.name ∈ names
    · rw [if_neg (by simpa using hkey), ih, occurrences_cons]
      by_cases hname : key.name = name
      · simp [← hname, hkey]
      · rw [if_neg hname]
    · rw [if_pos (by simpa using hkey), occurrences_cons, occurrences_cons, ih]
      by_cases hname : key.name = name
      · simp [← hname, hkey]
      · rw [if_neg hname, if_neg hname]

/-! ## What the loader sees -/

/-- A name occurs without a value. -/
def HasNull (document : List KeyElement) (name : String) : Prop :=
  ∃ element ∈ document, element.value = none ∧ element.name = name

theorem loadKeys_concat (document : List KeyElement) (element : KeyElement) :
    loadKeys (document ++ [element]) = loadKey (loadKeys document) element := by
  rw [loadKeys, List.foldl_append]
  rfl

theorem mem_nullKeys_iff (document : List KeyElement) (name : String) :
    name ∈ (loadKeys document).nullKeys ↔ HasNull document name := by
  induction document using List.reverseRecOn with
  | nil => simp [loadKeys, HasNull]
  | append_singleton document element ih =>
    rw [loadKeys_concat, loadKey]
    cases hvalue : element.value with
    | none =>
      simp only [List.mem_append, List.mem_singleton, ih, HasNull]
      constructor
      · rintro (⟨found, hmem, hfound⟩ | rfl)
        · exact ⟨found, Or.inl hmem, hfound⟩
        · exact ⟨element, Or.inr rfl, hvalue, rfl⟩
      · rintro ⟨found, hmem | rfl, hfound⟩
        · exact Or.inl ⟨found, hmem, hfound⟩
        · exact Or.inr hfound.2.symm
    | some value =>
      simp only [List.mem_append, List.mem_singleton, ih, HasNull]
      constructor
      · rintro ⟨found, hmem, hfound⟩
        exact ⟨found, Or.inl hmem, hfound⟩
      · rintro ⟨found, hmem | rfl, hfound⟩
        · exact ⟨found, hmem, hfound⟩
        · exact absurd hfound.1 (by simp [hvalue])

variable {document : List KeyElement}

theorem getElem?_loadKeys {name : String}
    (hnull : ¬ HasNull document name) :
    (loadKeys document).values[name]? =
      (occurrences (document.map KeyElement.toKey) name).getLast?.map trimSpace := by
  induction document using List.reverseRecOn with
  | nil => rfl
  | append_singleton document element ih =>
    have hbefore : ¬ HasNull document name := by
      rintro ⟨found, hmem, hfound⟩
      exact hnull ⟨found, List.mem_append_left _ hmem, hfound⟩
    have hvalues : (loadKey (loadKeys document) element).values[name]? =
        if element.name = name then some (trimSpace element.toKey.value)
        else (loadKeys document).values[name]? := by
      rw [loadKey, KeyElement.toKey]
      cases hvalue : element.value with
      | none =>
        have hother : element.name ≠ name := by
          intro hname
          exact hnull ⟨element, by simp, hvalue, hname⟩
        simp [hother]
      | some value => exact OrdMap.getElem?_insert_iff _ _ _ _
    rw [loadKeys_concat, hvalues, ih hbefore, List.map_append, occurrences, occurrences,
      List.filter_append, List.map_append]
    by_cases hname : element.name = name
    · simp [hname, KeyElement.toKey]
    · simp [hname, KeyElement.toKey]

theorem not_hasNull_toElement (keys : List Key) (name : String) :
    ¬ HasNull (keys.map Key.toElement) name := by
  rintro ⟨element, hmem, hvalue, -⟩
  obtain ⟨key, -, rfl⟩ := List.mem_map.mp hmem
  simp [Key.toElement] at hvalue

theorem getElem?_loadKeys_toElement (keys : List Key) (name : String) :
    (loadKeys (keys.map Key.toElement)).values[name]? =
      (occurrences keys name).getLast?.map trimSpace := by
  have hback : KeyElement.toKey ∘ Key.toElement = id := by
    funext key
    rfl
  rw [getElem?_loadKeys (not_hasNull_toElement keys name), List.map_map, hback, List.map_id]

/-! ## Which removals are refused -/

/-- Every name to be removed is known, or in the file and listed once. -/
def Removable (isKnownKey : String → Bool) (present names : List String) : Prop :=
  ∀ name ∈ names, isKnownKey name = true ∨ name ∈ present ∧ names.count name = 1

instance (isKnownKey : String → Bool) (present names : List String) :
    Decidable (Removable isKnownKey present names) :=
  inferInstanceAs (Decidable (∀ name ∈ names, _))

theorem removeKey_present_iff (keys : List Key) (key : String) :
    (removeKey keys key).2 = true ↔ key ∈ keys.map Key.name := by
  simp only [removeKey, ne_eq, List.length_filter_eq_length_iff,
    decide_not, Bool.not_eq_eq_eq_not, Bool.not_true, decide_eq_false_iff_not, List.mem_map]
  push Not
  rfl

theorem removable_cons_iff (isKnownKey : String → Bool) (present : List String) (name : String)
    (rest : List String) :
    Removable isKnownKey present (name :: rest) ↔
      (isKnownKey name = true ∨ name ∈ present) ∧
        Removable isKnownKey (present.filter (· ≠ name)) rest := by
  constructor
  · intro h
    refine ⟨(h name List.mem_cons_self).imp id And.left, ?_⟩
    intro other hother
    refine (h other (List.mem_cons_of_mem name hother)).imp id ?_
    rintro ⟨hpresent, hcount⟩
    have hne : other ≠ name := by
      rintro rfl
      have hpos : 0 < rest.count other := List.count_pos_iff.mpr hother
      rw [List.count_cons_self] at hcount
      omega
    rw [List.count_cons_of_ne (Ne.symm hne)] at hcount
    exact ⟨List.mem_filter.mpr ⟨hpresent, by simpa using hne⟩, hcount⟩
  · rintro ⟨hname, hrest⟩ other hother
    by_cases hne : other = name
    · subst hne
      by_cases hknown : isKnownKey other = true
      · exact Or.inl hknown
      · refine Or.inr ⟨hname.resolve_left hknown, ?_⟩
        -- A second time it would no longer be in the file.
        have hnot : other ∉ rest := by
          intro hmem
          have hkept := (hrest other hmem).resolve_left hknown
          simp at hkept
        rw [List.count_cons_self, List.count_eq_zero_of_not_mem hnot]
    · refine (hrest other ((List.mem_cons.mp hother).resolve_left hne)).imp id ?_
      rintro ⟨hkept, hcount⟩
      rw [List.count_cons_of_ne (Ne.symm hne)]
      exact ⟨(List.mem_filter.mp hkept).1, hcount⟩

theorem map_name_removeKey (keys : List Key) (key : String) :
    (removeKey keys key).1.map Key.name = (keys.map Key.name).filter (· ≠ key) := by
  simp [removeKey, List.filter_map, Function.comp_def]

/-- **The loop of `RemoveKeys`** drops the listed names, or refuses. -/
theorem removeAll_spec (isKnownKey : String → Bool) (keys : List Key) (names : List String) :
    if Removable isKnownKey (keys.map Key.name) names then
      removeAll isKnownKey keys names = .ok (keys.filter (·.name ∉ names))
    else ∃ key ∈ names, removeAll isKnownKey keys names = .error (.keyNotSet key) := by
  induction names generalizing keys with
  | nil => simp [removeAll, Removable]
  | cons name rest ih =>
    have hkept := ih (removeKey keys name).1
    rw [map_name_removeKey] at hkept
    simp only [removeAll, removable_cons_iff, ← removeKey_present_iff]
    by_cases hfirst : isKnownKey name = true ∨ (removeKey keys name).2 = true
    · have hgo : (!(removeKey keys name).2 && !isKnownKey name) = false := by
        rcases hfirst with h | h <;> simp [h]
      have hsame : (removeKey keys name).1.filter (·.name ∉ rest) =
          keys.filter (·.name ∉ name :: rest) := by
        simp only [removeKey, List.filter_filter, List.mem_cons, not_or]
        congr 1
        funext key
        simp [Bool.and_comm]
      simp only [hgo, Bool.false_eq_true, if_false, hfirst, true_and]
      split at hkept
      · rename_i hrest
        rw [if_pos hrest, hkept, hsame]
      · rename_i hrest
        obtain ⟨key, hmem, herror⟩ := hkept
        rw [if_neg hrest]
        exact ⟨key, List.mem_cons_of_mem name hmem, herror⟩
    · have hstop : (!(removeKey keys name).2 && !isKnownKey name) = true := by
        push Not at hfirst
        simpa using hfirst.symm
      simp only [hstop, if_true, hfirst, false_and, if_false]
      exact ⟨name, List.mem_cons_self, rfl⟩

/-! ## The contract of a write -/

inductive Write
  | setKeys (pairs : List Key)
  | removeKeys (names : List String)
  deriving DecidableEq

/-- A name is loaded as it was before. -/
def SameFor (before after : Loaded) (name : String) : Prop :=
  after.values[name]? = before.values[name]? ∧ (name ∈ after.nullKeys ↔ name ∈ before.nullKeys)

/-- A null key of a name that is not listed: the write makes it an empty value. -/
def NullsListed (document : List KeyElement) (names : List String) : Prop :=
  ∀ element ∈ document, element.value = none → element.name ∈ names

namespace Host

/-- The call returns no error, unless the keys are refused. -/
def Succeeds (host : Host) : Prop :=
  host.lockError = none ∧ host.write = .written

/-- The file is replaced, unless the keys are refused. -/
def Replaces (host : Host) : Prop :=
  host.lockError = none ∧ ∀ cause, host.write ≠ .failed cause

end Host

section Contract

variable (isKnownKey : String → Bool) (host : Host)

namespace Write

def run (file : File) : Write → Except FileError Unit × File
  | setKeys pairs => LocalConfig.setKeys host file pairs
  | removeKeys names => LocalConfig.removeKeys isKnownKey host file names

/-- **The contract.**  A successful `SetKeys` gives each of its names the trimmed value
of its last pair; `RemoveKeys` fails without a change or makes its names absent; and
neither changes any other name. -/
def Meets (document : List KeyElement) : Write → Prop
  | setKeys pairs =>
    (LocalConfig.setKeys host (.document document) pairs).1 = .ok () →
      ∃ after, loadLocalConfigFile (LocalConfig.setKeys host (.document document) pairs).2 =
          .ok after ∧
        (∀ name value, lastValue pairs name = some value →
          after.values[name]? = some (trimSpace value)) ∧
        ∀ name, name ∉ pairs.map Key.name → SameFor (loadKeys document) after name
  | removeKeys names =>
    (∃ err, LocalConfig.removeKeys isKnownKey host (.document document) names =
        (.error err, .document document)) ∨
      ∃ after, loadLocalConfigFile
          (LocalConfig.removeKeys isKnownKey host (.document document) names).2 = .ok after ∧
        (∀ name ∈ names, after.values[name]? = none ∧ name ∉ after.nullKeys) ∧
        ∀ name, name ∉ names → SameFor (loadKeys document) after name

/-- **When the contract holds**: a write that replaces the file finds no null key that it
does not list, and a key that is set and occurs several times has the new value in its
last occurrence already. -/
def Safe (document : List KeyElement) : Write → Prop
  | setKeys pairs =>
    host.Succeeds → NullsListed document (pairs.map Key.name) ∧
      ∀ name value, lastValue pairs name = some value →
        ∀ stale, (occurrences (document.map KeyElement.toKey) name).tail.getLast? = some stale →
          trimSpace stale = trimSpace value
  | removeKeys names =>
    host.Replaces → Removable isKnownKey (document.map KeyElement.name) names →
      NullsListed document names

end Write

/-! ### The two calls on a document -/

theorem setKeys_ok_iff (document : List KeyElement) (pairs : List Key) :
    (setKeys host (.document document) pairs).1 = .ok () ↔ host.Succeeds := by
  rcases host with ⟨lockError, write⟩
  cases lockError <;> cases write <;>
    simp [setKeys, rewriteKeys, readOrEmptyLocalConfig, saveLocalConfig, Host.Succeeds]

theorem setKeys_file {pairs : List Key} (hhost : host.Succeeds) :
    (setKeys host (.document document) pairs).2 = .document
      ((pairs.foldl setKey (document.map KeyElement.toKey)).map Key.toElement) := by
  simp only [setKeys, rewriteKeys, hhost.1, readOrEmptyLocalConfig, saveLocalConfig, hhost.2]

theorem removeKeys_of_not_replaces {names : List String}
    (hhost : ¬ host.Replaces) :
    ∃ err, removeKeys isKnownKey host (.document document) names =
      (.error err, .document document) := by
  rcases host with ⟨lockError, write⟩
  simp only [removeKeys, rewriteKeys, readOrEmptyLocalConfig]
  cases lockError with
  | some cause => exact ⟨_, rfl⟩
  | none =>
    cases write with
    | failed cause =>
      cases removeAll isKnownKey (document.map KeyElement.toKey) names <;>
        exact ⟨_, rfl⟩
    | written => simp [Host.Replaces] at hhost
    | unsynced cause => simp [Host.Replaces] at hhost

theorem removeKeys_of_not_removable {names : List String}
    (hnames : ¬ Removable isKnownKey (document.map KeyElement.name) names) :
    ∃ err, removeKeys isKnownKey host (.document document) names =
      (.error err, .document document) := by
  have hmap : (document.map KeyElement.toKey).map Key.name = document.map KeyElement.name := by
    simp [KeyElement.toKey]
  have hspec := removeAll_spec isKnownKey (document.map KeyElement.toKey) names
  rw [hmap, if_neg hnames] at hspec
  obtain ⟨key, -, herror⟩ := hspec
  simp only [removeKeys, rewriteKeys, readOrEmptyLocalConfig, herror]
  cases host.lockError <;> exact ⟨_, rfl⟩

theorem removeKeys_file {names : List String}
    (hhost : host.Replaces) (hnames : Removable isKnownKey (document.map KeyElement.name) names) :
    (removeKeys isKnownKey host (.document document) names).2 = .document
      (((document.map KeyElement.toKey).filter (·.name ∉ names)).map Key.toElement) := by
  have hmap : (document.map KeyElement.toKey).map Key.name = document.map KeyElement.name := by
    simp [KeyElement.toKey]
  have hspec := removeAll_spec isKnownKey (document.map KeyElement.toKey) names
  rw [hmap, if_pos hnames] at hspec
  simp only [removeKeys, rewriteKeys, readOrEmptyLocalConfig, hhost.1, hspec, saveLocalConfig]
  cases hwrite : host.write with
  | failed cause => exact absurd hwrite (hhost.2 cause)
  | written => rfl
  | unsynced cause => rfl

/-! ### The contract -/

theorem sameFor_iff {keys : List Key} {name : String}
    (hkeys : occurrences keys name = occurrences (document.map KeyElement.toKey) name) :
    SameFor (loadKeys document) (loadKeys (keys.map Key.toElement)) name ↔
      ¬ HasNull document name := by
  rw [SameFor, mem_nullKeys_iff, mem_nullKeys_iff, getElem?_loadKeys_toElement, hkeys]
  constructor
  · rintro ⟨-, hnull⟩ h
    exact not_hasNull_toElement keys name (hnull.mpr h)
  · intro hnull
    exact ⟨(getElem?_loadKeys hnull).symm,
      fun h => absurd h (not_hasNull_toElement keys name), fun h => absurd h hnull⟩

theorem nullsListed_iff (document : List KeyElement) (names : List String) :
    NullsListed document names ↔ ∀ name, name ∉ names → ¬ HasNull document name := by
  constructor
  · rintro h name hname ⟨element, hmem, hvalue, rfl⟩
    exact hname (h element hmem hvalue)
  · intro h element hmem hvalue
    by_contra hname
    exact h element.name hname ⟨element, hmem, hvalue, rfl⟩

theorem getElem?_setKeys_iff {pairs keys : List Key} {name value : String}
    (hlast : lastValue pairs name = some value) :
    (loadKeys ((pairs.foldl setKey keys).map Key.toElement)).values[name]? =
        some (trimSpace value) ↔
      ∀ stale, (occurrences keys name).tail.getLast? = some stale →
        trimSpace stale = trimSpace value := by
  rw [getElem?_loadKeys_toElement, occurrences_foldl_setKey, hlast, Option.elim_some,
    List.getLast?_cons]
  cases (occurrences keys name).tail.getLast? <;> simp

theorem setKeys_meets_iff (document : List KeyElement) (pairs : List Key) :
    (Write.setKeys pairs).Meets isKnownKey host document ↔
      (Write.setKeys pairs).Safe isKnownKey host document := by
  simp only [Write.Meets, Write.Safe, setKeys_ok_iff]
  refine imp_congr_right fun hhost => ?_
  rw [setKeys_file host hhost, nullsListed_iff]
  simp only [loadLocalConfigFile, Except.ok.injEq, exists_eq_left']
  have hsame : ∀ name, name ∉ pairs.map Key.name →
      (SameFor (loadKeys document)
        (loadKeys ((pairs.foldl setKey (document.map KeyElement.toKey)).map Key.toElement)) name ↔
          ¬ HasNull document name) := by
    intro name hname
    apply sameFor_iff
    have hnone : lastValue pairs name = none := by simpa [lastValue, occurrences] using hname
    rw [occurrences_foldl_setKey, hnone, Option.elim_none]
  constructor
  · rintro ⟨hset, hother⟩
    exact ⟨fun name hname => (hsame name hname).mp (hother name hname),
      fun name value hlast => (getElem?_setKeys_iff hlast).mp (hset name value hlast)⟩
  · rintro ⟨hnull, hstale⟩
    exact ⟨fun name value hlast => (getElem?_setKeys_iff hlast).mpr (hstale name value hlast),
      fun name hname => (hsame name hname).mpr (hnull name hname)⟩

theorem removeKeys_meets_iff (document : List KeyElement) (names : List String) :
    (Write.removeKeys names).Meets isKnownKey host document ↔
      (Write.removeKeys names).Safe isKnownKey host document := by
  simp only [Write.Meets, Write.Safe]
  by_cases hhost : host.Replaces
  · by_cases hnames : Removable isKnownKey (document.map KeyElement.name) names
    · have hfile := removeKeys_file isKnownKey host hhost hnames
      set keys := (document.map KeyElement.toKey).filter (·.name ∉ names)
      have hoccurrences : ∀ name, occurrences keys name =
          if name ∈ names then [] else occurrences (document.map KeyElement.toKey) name :=
        fun name => occurrences_filter _ names name
      have hsame : ∀ name, name ∉ names →
          (SameFor (loadKeys document) (loadKeys (keys.map Key.toElement)) name ↔
            ¬ HasNull document name) := by
        intro name hname
        apply sameFor_iff
        rw [hoccurrences, if_neg hname]
      simp only [hhost, hnames, true_implies, nullsListed_iff, hfile, loadLocalConfigFile,
        Except.ok.injEq, exists_eq_left']
      constructor
      · rintro (⟨err, herror⟩ | ⟨-, hother⟩) name hname
        · -- The file as it was has no null key, since what is written has none.
          have hunchanged : document = keys.map Key.toElement := by
            rw [herror] at hfile
            exact File.document.inj hfile
          rw [hunchanged]
          exact not_hasNull_toElement keys name
        · exact (hsame name hname).mp (hother name hname)
      · intro hnull
        refine Or.inr ⟨?_, fun name hname => (hsame name hname).mpr (hnull name hname)⟩
        intro name hname
        rw [getElem?_loadKeys_toElement, hoccurrences, if_pos hname, mem_nullKeys_iff]
        exact ⟨rfl, not_hasNull_toElement keys name⟩
    · simp only [hnames, false_implies, implies_true, iff_true]
      exact Or.inl (removeKeys_of_not_removable isKnownKey host hnames)
  · simp only [hhost, false_implies, iff_true]
    exact Or.inl (removeKeys_of_not_replaces isKnownKey host hhost)

/-- **A write changes the keys it names and no others exactly when it is safe**: for
every document, every call and every outcome of locking and writing. -/
theorem write_meets_iff (document : List KeyElement) (write : Write) :
    write.Meets isKnownKey host document ↔ write.Safe isKnownKey host document := by
  cases write with
  | setKeys pairs => exact setKeys_meets_iff isKnownKey host document pairs
  | removeKeys names => exact removeKeys_meets_iff isKnownKey host document names

end Contract

/-- `ldap_port` is configured without a value, and `av_notify_user` twice. -/
def legacyDocument : List KeyElement :=
  [⟨"ldap_port", none⟩, ⟨"av_notify_user", some "a"⟩, ⟨"av_notify_user", some "b"⟩]

/-- Setting `av_notify_user` succeeds and the loader still sees the old value, while
`ldap_port`, which the call does not name, is no longer null but empty. -/
theorem set_key_not_seen :
    let written := setKeys ⟨none, .written⟩ (.document legacyDocument) [⟨"av_notify_user", "c"⟩]
    written.1 = .ok () ∧
      (loadLocalConfigFile (.document legacyDocument)).toOption.map
        (fun loaded => (loaded.values["ldap_port"]?, loaded.nullKeys)) =
          some (none, ["ldap_port"]) ∧
      (loadLocalConfigFile written.2).toOption.map
        (fun loaded => (loaded.values["ldap_port"]?, loaded.nullKeys)) = some (some "", []) ∧
      (loadLocalConfigFile written.2).toOption.map
        (fun loaded => loaded.values["av_notify_user"]?) = some (some "b") := by
  decide +kernel

/-! ## Files that only the writer wrote -/

/-- A document without null keys and repeated keys. -/
structure Tidy (document : List KeyElement) : Prop where
  no_null : ∀ element ∈ document, element.value ≠ none
  once : ∀ name, (occurrences (document.map KeyElement.toKey) name).length ≤ 1

section Runs

variable (isKnownKey : String → Bool)

theorem tidy_toElement {keys : List Key} (honce : ∀ name, (occurrences keys name).length ≤ 1) :
    Tidy (keys.map Key.toElement) where
  no_null := by
    intro element hmem hvalue
    exact not_hasNull_toElement keys element.name ⟨element, hmem, hvalue, rfl⟩
  once := by
    have hback : KeyElement.toKey ∘ Key.toElement = id := by
      funext key
      rfl
    rw [List.map_map, hback, List.map_id]
    exact honce

theorem Tidy.safe {document : List KeyElement} (h : Tidy document) (host : Host)
    (write : Write) : write.Safe isKnownKey host document := by
  have hnulls : ∀ names, NullsListed document names :=
    fun names element hmem hvalue => absurd hvalue (h.no_null element hmem)
  cases write with
  | removeKeys names => exact fun _ _ => hnulls names
  | setKeys pairs =>
    intro _
    refine ⟨hnulls _, ?_⟩
    intro name value _ stale hstale
    have htail : (occurrences (document.map KeyElement.toKey) name).tail = [] := by
      apply List.eq_nil_of_length_eq_zero
      have honce := h.once name
      rw [List.length_tail]
      omega
    simp [htail] at hstale

/-- **One write keeps a document tidy.** -/
theorem Tidy.run {document : List KeyElement} (h : Tidy document) (host : Host)
    (write : Write) :
    ∃ after, (write.run isKnownKey host (.document document)).2 = .document after ∧
      Tidy after := by
  have hsave : ∀ (change : List Key → Except FileError (List Key)),
      (∀ changed, change (document.map KeyElement.toKey) = .ok changed →
        ∀ name, (occurrences changed name).length ≤ 1) →
      ∃ after, (rewriteKeys host (.document document) change).2 = .document after ∧
        Tidy after := by
    intro change hchange
    simp only [rewriteKeys, readOrEmptyLocalConfig]
    cases host.lockError with
    | some cause => exact ⟨document, rfl, h⟩
    | none =>
      cases hchanged : change (document.map KeyElement.toKey) with
      | error err => exact ⟨document, rfl, h⟩
      | ok changed =>
        have htidy := tidy_toElement (hchange changed hchanged)
        cases host.write with
        | written => exact ⟨_, rfl, htidy⟩
        | failed cause => exact ⟨document, rfl, h⟩
        | unsynced cause => exact ⟨_, rfl, htidy⟩
  cases write with
  | setKeys pairs =>
    refine hsave _ ?_
    intro changed hchanged name
    obtain rfl := Except.ok.inj hchanged
    have honce := h.once name
    rw [occurrences_foldl_setKey]
    cases lastValue pairs name with
    | none => exact honce
    | some value =>
      rw [Option.elim_some, List.length_cons, List.length_tail]
      omega
  | removeKeys names =>
    refine hsave _ ?_
    intro changed hchanged name
    have hspec := removeAll_spec isKnownKey (document.map KeyElement.toKey) names
    split at hspec
    · rw [hspec] at hchanged
      obtain rfl := Except.ok.inj hchanged
      rw [occurrences_filter]
      split
      · simp
      · exact h.once name
    · obtain ⟨key, -, herror⟩ := hspec
      rw [herror] at hchanged
      cases hchanged

/-- The file after a list of writes, each with what the host decides about it. -/
def runWrites (file : File) (calls : List (Host × Write)) : File :=
  calls.foldl (fun file call => (call.2.run isKnownKey call.1 file).2) file

theorem Tidy.runWrites {document : List KeyElement} (h : Tidy document)
    (calls : List (Host × Write)) :
    ∃ after, runWrites isKnownKey (.document document) calls = .document after ∧ Tidy after := by
  induction calls generalizing document with
  | nil => exact ⟨document, rfl, h⟩
  | cons call rest ih =>
    obtain ⟨next, hnext, htidy⟩ := h.run isKnownKey call.1 call.2
    rw [LocalConfig.runWrites, List.foldl_cons, hnext]
    exact ih htidy

/-- **Along every run of writes from a tidy document each write meets its contract**,
whichever of them fail. -/
theorem meets_of_run {document : List KeyElement} (h : Tidy document)
    (calls : List (Host × Write)) (host : Host) (write : Write) :
    ∃ reached, runWrites isKnownKey (.document document) calls = .document reached ∧
      write.Meets isKnownKey host reached := by
  obtain ⟨reached, hreached, htidy⟩ := h.runWrites isKnownKey calls
  have hsafe := htidy.safe isKnownKey host write
  refine ⟨reached, hreached, ?_⟩
  cases write with
  | setKeys pairs => exact (setKeys_meets_iff isKnownKey host reached pairs).mpr hsafe
  | removeKeys names => exact (removeKeys_meets_iff isKnownKey host reached names).mpr hsafe

end Runs

theorem meets_of_run_two : ∃ reached,
    runWrites (fun _ => true) (.document [⟨"ldap_port", some "389"⟩])
      [(⟨none, .written⟩, .setKeys [⟨"ldap_host", "mail"⟩])] = .document reached ∧
    (Write.removeKeys ["ldap_port"]).Meets (fun _ => true) ⟨none, .unsynced "EIO"⟩ reached := by
  refine meets_of_run _ ⟨by simp, fun name => ?_⟩ _ _ _
  rw [occurrences, List.length_map]
  exact List.length_filter_le _ _

end LocalConfig
end Configd
