import Configd.Snapshot

/-!
# Looking up configuration values

`lookUpConfig` (`ConfigManager.LookUpConfig`) serves the change detection, the conditions of
`zmconfigd.cf` and the templates; `resolveValueSpec` resolves the stored value of a Postfix
directive when it is applied (`internal/mtaops`).  Both read the snapshot and the file system,
whose answers are arbitrary (`Files`).

For a `VAR`, `lookUpConfig` takes the server value, then the misc value, then the global one
(`Snapshot.var`); `resolveVAR` takes the global value, then the server one, with an empty value
as absent.  `resolveValueSpec_var_eq_iff` says exactly when they agree.
-/

namespace Configd

open Lib

/-- Why a lookup has no value (`lookupIsMissing`): the value is not defined, or
the lookup could not be performed. -/
inductive LookupError
  | missing
  | failed
  deriving DecidableEq

/-- What `Stat` says about a path. -/
inductive StatResult
  | present
  | absent
  | failed
  deriving DecidableEq

/-- The file system as the lookups see it. -/
structure Files where
  baseDir : String
  /-- `ConfigManager.lookupFileKey`: the transformed content of a file. -/
  file : String → Except LookupError String
  stat : String → StatResult

def noFiles : Files where
  baseDir := "/opt/zextras"
  file := fun _ => .error .missing
  stat := fun _ => .absent

/-- `state.MAPPEDFILES`: the file a mapped key is stored in. -/
def mappedFiles : String → Option String
  | "zimbraSSLDHParam" => some "conf/dhparam.pem"
  | _ => none

/-- `ConfigManager.lookupMappedFileKey`: the path of a mapped file, empty while
the file does not exist. -/
def lookupMappedFileKey (fs : Files) (key : String) : Except LookupError String :=
  match mappedFiles key with
  | none => .error .missing
  | some relPath =>
    let fullPath := fs.baseDir ++ "/" ++ relPath
    match fs.stat fullPath with
    | .present => .ok fullPath
    | .absent => .ok ""
    | .failed => .error .failed

/-- The result of a lookup in a map. -/
def foundOr (value : Option String) : Except LookupError String :=
  match value with
  | some v => .ok v
  | none => .error .missing

def lookUpConfig (fs : Files) (snap : Snapshot) : LookupType → String → Except LookupError String
  | .var, key => foundOr (snap.var key)
  | .localconfig, key => foundOr (snap.local key)
  | .file, key => fs.file key
  | .mapfile, key => lookupMappedFileKey fs key
  | .maplocal, key => lookupMappedFileKey fs key
  | .service, key => foundOr (snap.value .service key)
  | .unknown _, _ => .error .failed

/-! ## The resolver of Postfix values -/

/-- The type of the stored value of a directive. -/
inductive ValueType
  | var
  | localconfig
  | maplocal
  | file
  | literal
  deriving DecidableEq

/-- `parseValueSpec`: the type and the key of a stored value. -/
def parseValueSpec (valueSpec : String) : ValueType × String :=
  match Strings.cut valueSpec ':' with
  | some (before, after) =>
    if before = "VAR" then (.var, after)
    else if before = "LOCAL" then (.localconfig, after)
    else if before = "MAPLOCAL" then (.maplocal, after)
    else (.literal, valueSpec)
  | none =>
    match Strings.cutPrefix valueSpec "FILE " with
    | some path => (.file, path)
    | none => (.literal, valueSpec)

def resolveVAR (snap : Snapshot) (key : String) : String :=
  let global := (snap.global key).getD ""
  let value := if global = "" then (snap.server key).getD "" else global
  if value = "" then "" else Strings.trimSpace value

def resolveLOCAL (snap : Snapshot) (key : String) : String :=
  let value := (snap.local key).getD ""
  if value = "" then "" else Strings.trimSpace value

/-- `resolver.resolveMAPLOCAL`: unlike a lookup, an unknown key is an error. -/
def resolveMAPLOCAL (fs : Files) (key : String) : Except LookupError String :=
  match mappedFiles key with
  | none => .error .failed
  | some relPath =>
    let filePath := fs.baseDir ++ "/" ++ relPath
    match fs.stat filePath with
    | .present => .ok filePath
    | .absent => .ok ""
    | .failed => .error .failed

/-- `ConfigManager.resolveValueSpec`: the value of a directive, before Postfix
booleans are normalized. -/
def resolveValueSpec (fs : Files) (snap : Snapshot) (valueSpec : String) :
    Except LookupError String :=
  match parseValueSpec valueSpec with
  | (.literal, value) => .ok value
  | (.file, key) => fs.file key
  | (.var, key) => .ok (resolveVAR snap key)
  | (.localconfig, key) => .ok (resolveLOCAL snap key)
  | (.maplocal, key) => resolveMAPLOCAL fs key

/-- `normalizePostconfBool`: a looked-up truth value becomes a Postfix one. -/
def normalizePostconfBool (valueSpec resolved : String) : String :=
  if (parseValueSpec valueSpec).1 = .literal then resolved
  else if Strings.toUpper resolved = "TRUE" then "yes"
  else if Strings.toUpper resolved = "FALSE" then "no"
  else resolved

/-! ## Agreement on variables -/

theorem parseValueSpec_var (key : String) : parseValueSpec ("VAR:" ++ key) = (.var, key) := by
  have hcut : Strings.cut ("VAR:" ++ key) ':' = some ("VAR", key) := by
    have happend := Strings.cut_append "VAR" key ':' (by decide)
    rwa [show "VAR" ++ String.ofList [':'] = "VAR:" from by decide] at happend
  simp [parseValueSpec, hcut]

theorem resolveVAR_eq_trimSpace (snap : Snapshot) (key : String) :
    resolveVAR snap key = Strings.trimSpace
      (if (snap.global key).getD "" = "" then (snap.server key).getD ""
        else (snap.global key).getD "") := by
  unfold resolveVAR
  simp only
  generalize (if (snap.global key).getD "" = "" then (snap.server key).getD ""
    else (snap.global key).getD "") = value
  by_cases hempty : value = ""
  · simp [hempty]
  · simp [hempty]

/-- The value a lookup of a variable gives to the change detection and to the
templates, empty when it is not defined. -/
def lookedUpVar (fs : Files) (snap : Snapshot) (key : String) : String :=
  (lookUpConfig fs snap .var key).toOption.getD ""

theorem lookedUpVar_eq (fs : Files) (snap : Snapshot) (key : String) :
    lookedUpVar fs snap key = (snap.var key).getD "" := by
  cases hvar : snap.var key <;> simp [lookedUpVar, lookUpConfig, foundOr, hvar, Except.toOption]

/-- The value both readers of a variable agree on: the global value, as far as
there is one, does not differ from the server value or, without a server value,
from the misc value. -/
def VarAgrees (snap : Snapshot) (key : String) : Prop :=
  match snap.server key with
  | some server => (snap.global key).getD "" = "" ∨
      Strings.trimSpace ((snap.global key).getD "") = Strings.trimSpace server
  | none =>
    match snap.misc key with
    | some misc => Strings.trimSpace ((snap.global key).getD "") = Strings.trimSpace misc
    | none => True

/-- **When an applied directive gets the value that was looked up.**  A directive
stored as `VAR:key` resolves to the trimmed value of the variable exactly when
the precedence does not matter. -/
theorem resolveValueSpec_var_eq_iff (fs : Files) (snap : Snapshot) (key : String) :
    resolveValueSpec fs snap ("VAR:" ++ key) = .ok (Strings.trimSpace (lookedUpVar fs snap key)) ↔
      VarAgrees snap key := by
  have hresolve : resolveValueSpec fs snap ("VAR:" ++ key) = .ok (resolveVAR snap key) := by
    simp [resolveValueSpec, parseValueSpec_var]
  rw [hresolve, lookedUpVar_eq, resolveVAR_eq_trimSpace, Except.ok.injEq]
  unfold VarAgrees Snapshot.var
  cases hserver : snap.server key with
  | some server =>
    by_cases hglobal : (snap.global key).getD "" = ""
    · simp [hglobal]
    · simp [hglobal]
  | none =>
    have hglobal : (if (snap.global key).getD "" = "" then (none : Option String).getD ""
        else (snap.global key).getD "") = (snap.global key).getD "" := by
      split
      · rename_i hempty
        simp [hempty]
      · rfl
    rw [hglobal]
    cases hmisc : snap.misc key with
    | some misc => simp
    | none => simp

/-- A variable with a global value and another server value is looked up as the
server value and applied as the global one. -/
theorem resolveValueSpec_var_ne_of_overridden :
    ∃ (fs : Files) (snap : Snapshot) (key : String),
      lookedUpVar fs snap key = "10.0.0.0/8" ∧
        resolveValueSpec fs snap ("VAR:" ++ key) = .ok "127.0.0.0/8" ∧
        resolveValueSpec fs snap ("VAR:" ++ key) ≠
          .ok (Strings.trimSpace (lookedUpVar fs snap key)) :=
  ⟨noFiles,
    { globalMap := Std.ExtTreeMap.ofList [("zimbraMtaMyNetworks", "127.0.0.0/8")] compare,
      serverMap := Std.ExtTreeMap.ofList [("zimbraMtaMyNetworks", "10.0.0.0/8")] compare },
    "zimbraMtaMyNetworks", by decide, by decide, by decide⟩

end Configd
