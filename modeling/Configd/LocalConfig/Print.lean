import Configd.LocalConfig.Formats
import Configd.LocalConfig.Resolve

/-!
# What `configd localconfig` prints

The print branch of the command (`internal/cli/localconfig/run.go`): the current values, the
defaults (`-d`) or the changed values (`-n`), as they are written or expanded (`-x`), in one of the
output formats.  Unless `-s` is given, the values of the keys with `password` in their names are
hidden in the formats other than `shell` and `export`.

A value is hidden by the name of its key, after it has been expanded and after the changed values
have been chosen.  `prints_alike_iff` says what a hidden password then has an influence on: the
values that refer to it, and whether a key is listed as changed.
-/

namespace Configd
namespace LocalConfig

open Lib Lib.Strings Lib.Shell

/-! ## The options -/

/-- The options of a run that prints; `sequence` is the order in which the options were typed. -/
structure PrintOptions where
  mode : String := ""
  configPath : String := ""
  quiet : Bool := false
  showPasswords : Bool := false
  showDefaults : Bool := false
  showChanged : Bool := false
  expand : Bool := false
  keys : List String := []
  sequence : List String := []

/-- `lcFailure`: a fatal error. -/
structure Failure where
  msg : String
  detail : String := ""
  deriving DecidableEq

def optionOrder : List String :=
  ["c", "p", "e", "r", "d", "n", "i", "all", "x", "s", "f", "m", "q", "u", "l"]

namespace PrintOptions

/-- `givenOptions`.  The options that select another branch are not given. -/
def givenOptions (o : PrintOptions) : List String :=
  let present : String → Bool
    | "c" => o.configPath ≠ ""
    | "d" => o.showDefaults
    | "n" => o.showChanged
    | "x" => o.expand
    | "s" => o.showPasswords
    | "m" => o.mode ≠ ""
    | "q" => o.quiet
    | _ => false
  optionOrder.filter present

def orderGivenOptions (given sequence : List String) : List String :=
  given.insertionSort fun a b => sequence.idxOf a ≤ sequence.idxOf b

def given (o : PrintOptions) : List String :=
  orderGivenOptions o.givenOptions o.sequence

/-- `checkCompatible`: the first option that does not go with the main one. -/
def checkCompatible (o : PrintOptions) (mainOption allowed : String) : Except Failure Unit :=
  match o.given.find? fun id => id ≠ mainOption && !contains allowed id with
  | none => .ok ()
  | some id =>
    .error
      { msg := if mainOption = "" then "invalid option '" ++ id ++ "'"
          else "option '" ++ id ++ "' can not be used with option '" ++ mainOption ++ "'" }

def outputModes : List String := ["plain", "shell", "export", "nokey", "xml"]

def checkMode (mode : String) : Except Failure Unit :=
  if mode = "" ∨ mode ∈ outputModes then .ok ()
  else .error { msg := "failed to create writer " ++ mode }

def printOption (o : PrintOptions) : String :=
  if o.showChanged then "n" else if o.showDefaults then "d" else ""

def expandValues (o : PrintOptions) : Bool :=
  o.expand || o.mode = "shell" || o.mode = "export"

def hidePasswords (o : PrintOptions) : Bool :=
  !o.showPasswords && o.mode ≠ "shell" && o.mode ≠ "export"

end PrintOptions

/-! ## The values -/

namespace Legacy

def keys (lc : Legacy) : List String :=
  (lc.defaults ∪ lc.configured).keys

/-- The value `Legacy.Expand` returns, for a caller that does not look at its error. -/
def expanded (lc : Legacy) (fuel : Nat) (key : String) : Option String :=
  match lc.expand fuel key with
  | some (.ok value) => value
  | _ => none

/-- The loop of `Legacy.Validate`. -/
def validateKeys (lc : Legacy) (fuel : Nat) : List String → Option (Except String Unit)
  | [] => some (.ok ())
  | key :: rest =>
    match lc.expand fuel key with
    | none => none
    | some (.error err) => some (.error err)
    | some (.ok _) => validateKeys lc fuel rest

def validate (lc : Legacy) (fuel : Nat) : Option (Except String Unit) :=
  lc.validateKeys fuel lc.keys

end Legacy

/-- What becomes of a key that may be printed. -/
inductive Pick where
  | value (v : String)
  | warning (text : String)
  | skip
  deriving DecidableEq

def Pick.value? : Pick → Option String
  | .value v => some v
  | _ => none

/-- The loop over the keys: the values to print, and the warnings. -/
def collect (pick : String → Pick) (keys : List String) : StrMap String × List String :=
  keys.foldl
    (fun acc key =>
      match pick key with
      | .value v => (acc.1.insert key v, acc.2)
      | .warning text => (acc.1, acc.2 ++ [text])
      | .skip => acc)
    (∅, [])

/-- What the choice of the values depends on: the configuration, the keys of the file without a
value, and the known keys without a default. -/
structure PrintEnv where
  lc : Legacy
  fuel : Nat
  nullKeys : List String
  isNullKey : String → Bool

namespace PrintEnv

def value (env : PrintEnv) (o : PrintOptions) (key : String) : Option String :=
  if o.expandValues then env.lc.expanded env.fuel key else env.lc.raw key

def nullValuedKey (key : String) : String :=
  "null valued key '" ++ key ++ "'"

/-- `currentValues`: only a listed key without a value is worth a warning. -/
def currentPick (env : PrintEnv) (o : PrintOptions) (key : String) : Pick :=
  match env.value o key with
  | some v => .value v
  | none => if o.keys = [] then .skip else .warning (nullValuedKey key)

def currentValues (env : PrintEnv) (o : PrintOptions) : StrMap String × List String :=
  collect (env.currentPick o) (if o.keys = [] then env.lc.keys else o.keys)

/-- The round of `defaultValues` for a key. -/
def defaultPick (env : PrintEnv) (o : PrintOptions) (key : String) : Pick :=
  match env.lc.defaults[key]? with
  | none => if env.isNullKey key then .skip else .warning ("not a known key '" ++ key ++ "'")
  | some value => .value (if o.expandValues then (env.lc.expanded env.fuel key).getD "" else value)

def defaultValues (env : PrintEnv) (o : PrintOptions) : StrMap String × List String :=
  collect (env.defaultPick o) (if o.keys = [] then env.lc.defaults.keys else o.keys)

/-- The round of `changedValues` for a key: the expanded value is compared with the default as
it is written. -/
def changedPick (env : PrintEnv) (o : PrintOptions) (key : String) : Pick :=
  if env.lc.defaults[key]?.isSome ∧ env.lc.expanded env.fuel key = env.lc.defaults[key]? then .skip
  else
    match env.value o key with
    | some v => .value v
    | none => .warning (nullValuedKey key)

def changedValues (env : PrintEnv) (o : PrintOptions) : StrMap String × List String :=
  collect (env.changedPick o)
    (if o.keys = [] then (env.lc.configured.keys ++ env.nullKeys).insertionSort (· ≤ ·) else o.keys)

def selectValues (env : PrintEnv) (o : PrintOptions) : StrMap String × List String :=
  if o.showChanged then env.changedValues o
  else if o.showDefaults then env.defaultValues o
  else env.currentValues o

end PrintEnv

/-- `writeOutput`, in a mode that has been checked. -/
def writeOutput (config : StrMap String) (o : PrintOptions) : Bytes :=
  let bytes := config.map fun _ value => utf8 value
  match o.mode with
  | "shell" => formatShell bytes o.keys
  | "export" => formatExport bytes o.keys
  | "nokey" => formatNokey bytes o.keys
  | "xml" => utf8 (formatXML config o.keys)
  | _ => formatPlain bytes o.keys

/-- The two streams of a run. -/
structure Printed where
  stdout : Bytes
  warnings : List String

def runPrint (env : PrintEnv) (o : PrintOptions) : Except Failure Printed := do
  PrintOptions.checkMode o.mode
  o.checkCompatible o.printOption "qscmx"
  let (config, warnings) := env.selectValues o
  let config := if o.hidePasswords then maskPasswords config else config
  return ⟨writeOutput config o, if o.quiet then [] else warnings⟩

/-- A run that prints, from the validation of the loaded file on. -/
def runLoaded (env : PrintEnv) (o : PrintOptions) : Option (Except Failure Printed) :=
  match env.lc.validate env.fuel with
  | none => none
  | some (.error err) => some (.error ⟨"failed with error in config file", err⟩)
  | some (.ok _) => some (runPrint env o)

/-- What a run writes to the standard output: nothing when it fails. -/
def stdout : Except Failure Printed → Bytes
  | .ok printed => printed.stdout
  | .error _ => []

/-! ## What is printed for a key -/

theorem getElem?_collect (pick : String → Pick) (keys : List String) (key : String) :
    (collect pick keys).1[key]? = if key ∈ keys then (pick key).value? else none := by
  rw [collect, foldl_of_idempotent (fun acc : StrMap String × List String => acc.1[key]?) _
    (fun item => decide (item = key) && (pick key).value?.isSome) (fun _ => (pick key).value?)
    (fun _ => rfl)]
  · cases hvalue : (pick key).value? with
    | none => simp
    | some value => simp [List.any_eq_true]
  · intro acc item
    by_cases hitem : item = key
    · subst hitem
      cases hpick : pick item <;> simp [Pick.value?]
    · cases hpick : pick item <;> simp [hitem, OrdMap.getElem?_insert_iff]

theorem getElem?_maskPasswords (config : StrMap String) (key : String) :
    (maskPasswords config)[key]? =
      config[key]?.map fun value => if contains key "password" then maskedValue else value := by
  rw [maskPasswords, Std.ExtTreeMap.getElem?_map]

theorem maskPasswords_collect_congr {pick pick' : String → Pick} {keys keys' : List String}
    (hkeys : ∀ key, key ∈ keys ↔ key ∈ keys')
    (hplain : ∀ key, contains key "password" = false → (pick key).value? = (pick' key).value?)
    (hsecret : ∀ key, contains key "password" = true →
      (pick key).value?.isSome = (pick' key).value?.isSome) :
    maskPasswords (collect pick keys).1 = maskPasswords (collect pick' keys').1 := by
  refine Std.ExtTreeMap.ext_getElem? fun key => ?_
  rw [getElem?_maskPasswords, getElem?_maskPasswords, getElem?_collect, getElem?_collect]
  by_cases hmem : key ∈ keys
  · rw [if_pos hmem, if_pos ((hkeys key).mp hmem)]
    cases hname : contains key "password" with
    | false => rw [hplain key hname]
    | true =>
      have hsome := hsecret key hname
      cases hpick : (pick key).value? <;> cases hpick' : (pick' key).value? <;>
        simp_all
  · rw [if_neg hmem, if_neg fun h => hmem ((hkeys key).mpr h)]

namespace Legacy

theorem mem_keys {lc : Legacy} {key : String} : key ∈ lc.keys ↔ (lc.raw key).isSome := by
  rw [keys, Std.ExtTreeMap.mem_keys, Std.ExtTreeMap.mem_union_iff, raw, Option.isSome_or,
    Std.ExtTreeMap.isSome_getElem?_eq_contains, Std.ExtTreeMap.isSome_getElem?_eq_contains,
    Bool.or_eq_true, Std.ExtTreeMap.contains_iff_mem, Std.ExtTreeMap.contains_iff_mem, or_comm]

theorem expand_of_validateKeys {lc : Legacy} {fuel : Nat} {keys : List String}
    (h : lc.validateKeys fuel keys = some (.ok ())) :
    ∀ key ∈ keys, ∃ value, lc.expand fuel key = some (.ok value) := by
  induction keys with
  | nil => simp
  | cons head rest ih =>
    simp only [validateKeys] at h
    intro key hkey
    cases hhead : lc.expand fuel head with
    | none => simp [hhead] at h
    | some result =>
      cases result with
      | error err => simp [hhead] at h
      | ok value =>
        rw [hhead] at h
        rcases List.mem_cons.mp hkey with rfl | hrest
        · exact ⟨value, hhead⟩
        · exact ih h key hrest

theorem isSome_expanded {lc : Legacy} {fuel : Nat} (h : lc.validate fuel = some (.ok ()))
    (key : String) :
    (lc.expanded fuel key).isSome = (lc.raw key).isSome := by
  cases hraw : lc.raw key with
  | none => simp [expanded, expand, hraw]
  | some value =>
    obtain ⟨result, hresult⟩ := expand_of_validateKeys h key (mem_keys.mpr (by simp [hraw]))
    have hsome := hresult
    simp only [expand, hraw, Option.map_eq_some_iff] at hsome
    obtain ⟨deep, -, hdeep⟩ := hsome
    cases deep with
    | error err => simp [Except.map] at hdeep
    | ok text =>
      obtain rfl : some text = result := by simpa [Except.map] using hdeep
      simp [expanded, hresult]

end Legacy

namespace PrintEnv

variable {env : PrintEnv} {o : PrintOptions} {key : String}

@[simp] theorem value?_currentPick : (env.currentPick o key).value? = env.value o key := by
  rw [currentPick]
  split
  next v hv => exact hv.symm
  next hv =>
    rw [hv]
    split <;> rfl

theorem value?_defaultPick : (env.defaultPick o key).value? = env.lc.defaults[key]?.map fun value =>
    if o.expandValues then (env.lc.expanded env.fuel key).getD "" else value := by
  rw [defaultPick]
  split
  next hdefault =>
    rw [hdefault]
    split <;> rfl
  next value hdefault =>
    rw [hdefault]
    rfl

theorem value?_changedPick : (env.changedPick o key).value? =
    if env.lc.defaults[key]?.isSome ∧ env.lc.expanded env.fuel key = env.lc.defaults[key]? then none
    else env.value o key := by
  rw [changedPick]
  split
  · rfl
  · split
    next v hv => exact hv.symm
    next hv => exact hv.symm

end PrintEnv

/-! ## Two runs -/

/-- Two configurations with the same keys that differ in values of `password` keys only. -/
structure DifferInPasswords (env env' : PrintEnv) : Prop where
  keys : ∀ key, key ∈ env.lc.configured ↔ key ∈ env'.lc.configured
  plain : ∀ key, contains key "password" = false →
    env.lc.configured[key]? = env'.lc.configured[key]?
  defaults : env.lc.defaults = env'.lc.defaults
  nullKeys : env.nullKeys = env'.nullKeys
  isNullKey : env.isNullKey = env'.isNullKey

/-- The passwords have no influence on other values, nor on whether they are the defaults. -/
structure SameExpansions (env env' : PrintEnv) : Prop where
  plain : ∀ key, contains key "password" = false →
    env.lc.expanded env.fuel key = env'.lc.expanded env'.fuel key
  changed : ∀ key default, contains key "password" = true → env.lc.defaults[key]? = some default →
    (env.lc.expanded env.fuel key = some default ↔ env'.lc.expanded env'.fuel key = some default)

section TwoRuns

variable {env env' : PrintEnv} (hdiffer : DifferInPasswords env env')

include hdiffer

theorem DifferInPasswords.isSome_raw (key : String) :
    (env.lc.raw key).isSome = (env'.lc.raw key).isSome := by
  rw [Bool.eq_iff_iff, ← Legacy.mem_keys, ← Legacy.mem_keys, Legacy.keys, Legacy.keys,
    Std.ExtTreeMap.mem_keys, Std.ExtTreeMap.mem_keys, Std.ExtTreeMap.mem_union_iff,
    Std.ExtTreeMap.mem_union_iff, hdiffer.keys key, hdiffer.defaults]

variable (hvalid : env.lc.validate env.fuel = some (.ok ()))
  (hvalid' : env'.lc.validate env'.fuel = some (.ok ()))

include hvalid hvalid'

theorem isSome_value_eq (o : PrintOptions) (key : String) :
    (env.value o key).isSome = (env'.value o key).isSome := by
  rw [PrintEnv.value, PrintEnv.value]
  split
  · rw [Legacy.isSome_expanded hvalid, Legacy.isSome_expanded hvalid', hdiffer.isSome_raw]
  · exact hdiffer.isSome_raw key

omit hvalid hvalid' in
theorem value_eq (hsame : SameExpansions env env') (o : PrintOptions) {key : String}
    (hkey : contains key "password" = false) : env.value o key = env'.value o key := by
  rw [PrintEnv.value, PrintEnv.value]
  split
  · exact hsame.plain key hkey
  · rw [Legacy.raw, Legacy.raw, hdiffer.plain key hkey, hdiffer.defaults]

variable (hsame : SameExpansions env env') (o : PrintOptions)

include hsame

theorem maskPasswords_currentValues :
    maskPasswords (env.currentValues o).1 = maskPasswords (env'.currentValues o).1 := by
  refine maskPasswords_collect_congr (fun key => ?_) (fun key hkey => ?_) (fun key _ => ?_)
  · split
    · rw [Legacy.mem_keys, Legacy.mem_keys, hdiffer.isSome_raw]
    · rfl
  · rw [PrintEnv.value?_currentPick, PrintEnv.value?_currentPick, value_eq hdiffer hsame o hkey]
  · rw [PrintEnv.value?_currentPick, PrintEnv.value?_currentPick]
    exact isSome_value_eq hdiffer hvalid hvalid' o key

omit hvalid hvalid' in
theorem maskPasswords_defaultValues :
    maskPasswords (env.defaultValues o).1 = maskPasswords (env'.defaultValues o).1 := by
  refine maskPasswords_collect_congr (fun key => ?_) (fun key hkey => ?_) (fun key _ => ?_)
  · rw [hdiffer.defaults]
  · rw [PrintEnv.value?_defaultPick, PrintEnv.value?_defaultPick, hdiffer.defaults,
      hsame.plain key hkey]
  · rw [PrintEnv.value?_defaultPick, PrintEnv.value?_defaultPick, hdiffer.defaults,
      Option.isSome_map, Option.isSome_map]

omit hvalid hvalid' in
theorem isDefault_iff (key : String) :
    (env.lc.defaults[key]?.isSome ∧ env.lc.expanded env.fuel key = env.lc.defaults[key]?) ↔
      (env'.lc.defaults[key]?.isSome ∧
        env'.lc.expanded env'.fuel key = env'.lc.defaults[key]?) := by
  rw [← hdiffer.defaults]
  cases hdefault : env.lc.defaults[key]? with
  | none => simp
  | some default =>
    cases hkey : contains key "password" with
    | false => rw [hsame.plain key hkey]
    | true => rw [hsame.changed key default hkey hdefault]

theorem maskPasswords_changedValues :
    maskPasswords (env.changedValues o).1 = maskPasswords (env'.changedValues o).1 := by
  refine maskPasswords_collect_congr (fun key => ?_) (fun key hkey => ?_) (fun key _ => ?_)
  · split
    · rw [List.mem_insertionSort, List.mem_insertionSort, List.mem_append, List.mem_append,
        Std.ExtTreeMap.mem_keys, Std.ExtTreeMap.mem_keys, hdiffer.keys key, hdiffer.nullKeys]
    · rfl
  · rw [PrintEnv.value?_changedPick, PrintEnv.value?_changedPick, value_eq hdiffer hsame o hkey]
    simp only [isDefault_iff hdiffer hsame key]
  · rw [PrintEnv.value?_changedPick, PrintEnv.value?_changedPick]
    simp only [isDefault_iff hdiffer hsame key]
    split
    · rfl
    · exact isSome_value_eq hdiffer hvalid hvalid' o key

theorem maskPasswords_selectValues :
    maskPasswords (env.selectValues o).1 = maskPasswords (env'.selectValues o).1 := by
  rw [PrintEnv.selectValues, PrintEnv.selectValues]
  split
  · exact maskPasswords_changedValues hdiffer hvalid hvalid' hsame o
  · split
    · exact maskPasswords_defaultValues hdiffer hsame o
    · exact maskPasswords_currentValues hdiffer hvalid hvalid' hsame o

end TwoRuns

theorem stdout_runPrint (env : PrintEnv) {o : PrintOptions} (hhide : o.hidePasswords = true) :
    stdout (runPrint env o) =
      if (PrintOptions.checkMode o.mode).isOk && (o.checkCompatible o.printOption "qscmx").isOk then
        writeOutput (maskPasswords (env.selectValues o).1) o
      else [] := by
  rw [runPrint]
  cases hmode : PrintOptions.checkMode o.mode with
  | error err => rfl
  | ok _ =>
    cases hcompatible : o.checkCompatible o.printOption "qscmx" with
    | error err => rfl
    | ok _ =>
      simp only [hhide, if_true]
      rfl

theorem stdout_runLoaded {env : PrintEnv} (hvalid : env.lc.validate env.fuel = some (.ok ()))
    (o : PrintOptions) : (runLoaded env o).map stdout = some (stdout (runPrint env o)) := by
  rw [runLoaded, hvalid]
  rfl

/-- The modes that hide passwords. -/
def hidingModes : List String := ["", "plain", "nokey", "xml"]

theorem hidePasswords_of_mem {o : PrintOptions} (hshow : o.showPasswords = false)
    (hmode : o.mode ∈ hidingModes) : o.hidePasswords = true := by
  simp only [hidingModes, List.mem_cons, List.not_mem_nil, or_false] at hmode
  rw [PrintOptions.hidePasswords, hshow]
  rcases hmode with h | h | h | h <;> rw [h] <;> decide

/-- The plain output for one key. -/
def plainLine (key : String) (value : String) : Bytes :=
  utf8 key ++ utf8 " = " ++ utf8 value ++ utf8 "\n"

theorem plainLine_injective (key : String) : Function.Injective (plainLine key) := by
  intro value value' h
  rw [plainLine, plainLine, List.append_left_inj, List.append_right_inj] at h
  exact utf8_injective h

theorem plainLine_ne_nil (key value : String) : plainLine key value ≠ [] := by
  have hspace : utf8 " = " ≠ [] := by decide
  simp [plainLine, hspace]

theorem elim_plainLine_injective (key : String) :
    Function.Injective fun value : Option String => value.elim [] (plainLine key) := by
  intro value value' h
  cases value with
  | none =>
    cases value' with
    | none => rfl
    | some text => exact absurd h.symm (plainLine_ne_nil key text)
  | some text =>
    cases value' with
    | none => exact absurd h (plainLine_ne_nil key text)
    | some text' => exact congrArg some (plainLine_injective key h)

theorem formatPlain_single (config : StrMap Bytes) (key : String) :
    formatPlain config [key] =
      config[key]?.elim [] fun value => utf8 key ++ utf8 " = " ++ value ++ utf8 "\n" := by
  rw [formatPlain, formatLines, orderedKeys, if_neg (List.cons_ne_nil _ _)]
  cases hvalue : config[key]? with
  | none =>
    have hmem : key ∉ config := (OrdMap.getElem?_eq_none_iff config key).mp hvalue
    rw [List.filter_cons_of_neg (by simpa using hmem)]
    rfl
  | some value =>
    have hmem : key ∈ config := (OrdMap.mem_iff_getElem?_isSome config key).mpr ⟨value, hvalue⟩
    rw [List.filter_cons_of_pos (by simpa using hmem), List.filter_nil, List.flatMap_singleton,
      hvalue]
    rfl

theorem writeOutput_single {config : StrMap String} {o : PrintOptions} {key : String}
    (hmode : o.mode = "") (hkeys : o.keys = [key]) :
    writeOutput config o = config[key]?.elim [] (plainLine key) := by
  have hplain : writeOutput config o =
      formatPlain (config.map fun _ value => utf8 value) [key] := by
    simp only [writeOutput, hmode, hkeys]
    rfl
  rw [hplain, formatPlain_single, Std.ExtTreeMap.getElem?_map]
  cases config[key]? <;> rfl

/-- The run `configd localconfig -x key`. -/
def expandKey (key : String) : PrintOptions := { expand := true, keys := [key] }

/-- The run `configd localconfig -n key`. -/
def changedKey (key : String) : PrintOptions := { showChanged := true, keys := [key] }

theorem stdout_expandKey (env : PrintEnv) (key : String) :
    stdout (runPrint env (expandKey key)) =
      (env.lc.expanded env.fuel key).elim [] fun value =>
        plainLine key (if contains key "password" then maskedValue else value) := by
  have hselect : ((env.selectValues (expandKey key)).1)[key]? = env.lc.expanded env.fuel key := by
    have hvalues : env.selectValues (expandKey key) =
        collect (env.currentPick (expandKey key)) [key] := rfl
    rw [hvalues, getElem?_collect, if_pos (List.mem_singleton.mpr rfl), PrintEnv.value?_currentPick]
    rfl
  have hchecks : ((PrintOptions.checkMode (expandKey key).mode).isOk &&
      ((expandKey key).checkCompatible (expandKey key).printOption "qscmx").isOk) = true := rfl
  have hprint := stdout_runPrint env (o := expandKey key) rfl
  rw [if_pos hchecks, writeOutput_single rfl rfl, getElem?_maskPasswords, hselect] at hprint
  rw [hprint]
  cases env.lc.expanded env.fuel key <;> rfl

theorem stdout_changedKey {env : PrintEnv} {key default : String}
    (hkey : contains key "password" = true) (hdefault : env.lc.defaults[key]? = some default)
    (hvalue : (env.lc.raw key).isSome) :
    stdout (runPrint env (changedKey key)) =
      if env.lc.expanded env.fuel key = some default then [] else plainLine key maskedValue := by
  have hselect : ((env.selectValues (changedKey key)).1)[key]? =
      if env.lc.expanded env.fuel key = some default then none else env.lc.raw key := by
    have hvalues : env.selectValues (changedKey key) =
        collect (env.changedPick (changedKey key)) [key] := rfl
    rw [hvalues, getElem?_collect, if_pos (List.mem_singleton.mpr rfl), PrintEnv.value?_changedPick,
      hdefault]
    simp only [Option.isSome_some, true_and]
    rfl
  have hchecks : ((PrintOptions.checkMode (changedKey key).mode).isOk &&
      ((changedKey key).checkCompatible (changedKey key).printOption "qscmx").isOk) = true := rfl
  have hprint := stdout_runPrint env (o := changedKey key) rfl
  rw [if_pos hchecks, writeOutput_single rfl rfl, getElem?_maskPasswords, hselect] at hprint
  rw [hprint]
  obtain ⟨value, hraw⟩ := Option.isSome_iff_exists.mp hvalue
  rw [hraw, hkey]
  by_cases heq : env.lc.expanded env.fuel key = some default
  · rw [if_pos heq, if_pos heq]
    rfl
  · rw [if_neg heq, if_neg heq]
    rfl

/-- **Two configurations that differ in passwords print alike**, whatever is printed with the
passwords hidden, **if and only if** the passwords have no influence on other values nor on
whether they are the defaults. -/
theorem prints_alike_iff {env env' : PrintEnv} (hdiffer : DifferInPasswords env env')
    (hvalid : env.lc.validate env.fuel = some (.ok ()))
    (hvalid' : env'.lc.validate env'.fuel = some (.ok ())) :
    (∀ o : PrintOptions, o.showPasswords = false → o.mode ∈ hidingModes →
        (runLoaded env o).map stdout = (runLoaded env' o).map stdout) ↔
      SameExpansions env env' := by
  constructor
  · intro halike
    refine ⟨fun key hkey => ?_, fun key default hkey hdefault => ?_⟩
    · have h := halike (expandKey key) rfl (by simp [expandKey, hidingModes])
      rw [stdout_runLoaded hvalid, stdout_runLoaded hvalid', Option.some_inj, stdout_expandKey,
        stdout_expandKey, hkey] at h
      exact elim_plainLine_injective key h
    · have h := halike (changedKey key) rfl (by simp [changedKey, hidingModes])
      have hraw : (env.lc.raw key).isSome := by
        rw [Legacy.raw, hdefault]
        simp
      have hraw' := hdiffer.isSome_raw key ▸ hraw
      rw [stdout_runLoaded hvalid, stdout_runLoaded hvalid', Option.some_inj,
        stdout_changedKey hkey hdefault hraw,
        stdout_changedKey hkey (hdiffer.defaults ▸ hdefault) hraw'] at h
      have hne := plainLine_ne_nil key maskedValue
      constructor
      · intro heq
        by_contra heq'
        rw [if_pos heq, if_neg heq'] at h
        exact hne h.symm
      · intro heq'
        by_contra heq
        rw [if_neg heq, if_pos heq'] at h
        exact hne h
  · intro hsame o hshow hmode
    have hhide := hidePasswords_of_mem hshow hmode
    rw [stdout_runLoaded hvalid, stdout_runLoaded hvalid', stdout_runPrint env hhide,
      stdout_runPrint env' hhide, maskPasswords_selectValues hdiffer hvalid hvalid' hsame o]

/-- A configuration with a password, whose default is the compiled-in one, and a URL. -/
def siteEnv (password url : String) : PrintEnv where
  lc :=
    { configured := ((∅ : StrMap String).insert "ldap_root_password" password).insert
        "relay_url" url
      defaults := (∅ : StrMap String).insert "ldap_root_password" "zimbra" }
  fuel := 4
  nullKeys := []
  isNullKey := fun _ => false

theorem differInPasswords_siteEnv (password password' url : String) :
    DifferInPasswords (siteEnv password url) (siteEnv password' url) where
  keys key := by simp [siteEnv, Std.ExtTreeMap.mem_insert]
  plain key hkey := by
    have hne : "ldap_root_password" ≠ key := by
      rintro rfl
      exact absurd hkey (by decide)
    simp only [siteEnv, OrdMap.getElem?_insert_iff, if_neg hne]
  defaults := rfl
  nullKeys := rfl
  isNullKey := rfl

theorem sameExpansions_siteEnv :
    SameExpansions (siteEnv "one" "ldap://mta") (siteEnv "two" "ldap://mta") where
  plain key hkey := by
    have hne : "ldap_root_password" ≠ key := by
      rintro rfl
      exact absurd hkey (by decide)
    by_cases hurl : key = "relay_url"
    · subst hurl
      decide +kernel
    · have hraw : ∀ password, (siteEnv password "ldap://mta").lc.raw key = none := by
        intro password
        simp [siteEnv, Legacy.raw, hne, Ne.symm hurl]
      simp [Legacy.expanded, Legacy.expand, hraw]
  changed key default _ hdefault := by
    have hkey : "ldap_root_password" = key := by
      by_contra hne
      simp [siteEnv, hne] at hdefault
    subst hkey
    obtain rfl : "zimbra" = default := by
      simpa [siteEnv, OrdMap.getElem?_insert_iff] using hdefault
    decide +kernel

theorem prints_alike_site :
    DifferInPasswords (siteEnv "one" "ldap://mta") (siteEnv "two" "ldap://mta") ∧
      ∀ o : PrintOptions, o.showPasswords = false → o.mode ∈ hidingModes →
        (runLoaded (siteEnv "one" "ldap://mta") o).map stdout =
          (runLoaded (siteEnv "two" "ldap://mta") o).map stdout :=
  have hdiffer := differInPasswords_siteEnv "one" "two" "ldap://mta"
  ⟨hdiffer, (prints_alike_iff hdiffer (by decide +kernel) (by decide +kernel)).mpr
    sameExpansions_siteEnv⟩

/-- A value that refers to a password is printed with it, and a password that is the default
is not listed as changed. -/
theorem password_shows :
    DifferInPasswords (siteEnv "zimbra" "ldap://$\x7bldap_root_password\x7d@mta")
        (siteEnv "secret" "ldap://$\x7bldap_root_password\x7d@mta") ∧
      (siteEnv "zimbra" "ldap://$\x7bldap_root_password\x7d@mta").lc.validate 4 = some (.ok ()) ∧
      (siteEnv "secret" "ldap://$\x7bldap_root_password\x7d@mta").lc.validate 4 = some (.ok ()) ∧
      (runLoaded (siteEnv "zimbra" "ldap://$\x7bldap_root_password\x7d@mta")
          { expand := true, keys := ["relay_url"] }).map stdout =
        some (utf8 "relay_url = ldap://zimbra@mta\n") ∧
      (runLoaded (siteEnv "secret" "ldap://$\x7bldap_root_password\x7d@mta")
          { expand := true, keys := ["relay_url"] }).map stdout =
        some (utf8 "relay_url = ldap://secret@mta\n") ∧
      (runLoaded (siteEnv "zimbra" "ldap://$\x7bldap_root_password\x7d@mta")
          { showChanged := true, keys := ["ldap_root_password"] }).map stdout = some [] ∧
      (runLoaded (siteEnv "secret" "ldap://$\x7bldap_root_password\x7d@mta")
          { showChanged := true, keys := ["ldap_root_password"] }).map stdout =
        some (utf8 "ldap_root_password = *\n") :=
  ⟨differInPasswords_siteEnv _ _ _, by decide +kernel, by decide +kernel, by decide +kernel,
    by decide +kernel, by decide +kernel, by decide +kernel⟩

end LocalConfig
end Configd
