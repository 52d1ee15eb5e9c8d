import Configd.ConfigMgr.Lookup
import Configd.Plan.ComputeSpec

/-!
# Parsing `zmconfigd.cf` and observing what it depends on

Between a load and a plan (`internal/configmgr/mtaconfig_parser.go` and `manager_plan.go`):

* `parseMtaConfig` drops the sections whose service is not enabled, looks up the LDAP values
  and adds the required variables of the `if` blocks that hold;
* `observe` completes the snapshot with the value of every lookup the configuration depends on.

Both read the file system, each at its own time.  A lookup that could not be performed is
observed as its previous value *in the snapshot of this cycle*, and a load leaves none there.
-/

namespace Configd

open Lib

/-! ## Parsing -/

/-- The lookup type that is spelled `name`. -/
def LookupType.ofText (name : String) : LookupType :=
  if name = "VAR" then .var
  else if name = "LOCAL" then .localconfig
  else if name = "FILE" then .file
  else if name = "MAPFILE" then .mapfile
  else if name = "MAPLOCAL" then .maplocal
  else if name = "SERVICE" then .service
  else .unknown name

/-- `ConfigManager.CheckConditional`: a leading `!` of the key negates, and a
failed lookup is false before that. -/
def checkConditional (fs : Files) (snap : Snapshot) (type : LookupType) (key : String) : Bool :=
  let negate := (Strings.cutPrefix key "!").isSome
  match lookUpConfig fs snap type (lookupKey key) with
  | .ok value => isTrueValue value != negate
  | .error _ => negate

def registerConditionalRequiredVars (fs : Files) (snap : Snapshot) (sec : MtaConfigSection) :
    MtaConfigSection :=
  { sec with
    requiredVars := sec.conditionals.foldl (fun vars cond =>
      if checkConditional fs snap cond.type cond.key = cond.negated then vars
      else cond.requiredVars.toList.foldl (fun vars entry => vars.insert entry.1 entry.2) vars)
      sec.requiredVars }

/-- `ConfigManager.resolveSectionLDAP`: `TYPE:key` is replaced by the value, any
other text is left alone. -/
def resolveSectionLDAP (fs : Files) (snap : Snapshot) (sec : MtaConfigSection) :
    MtaConfigSection :=
  { sec with
    ldap := sec.ldap.map fun _ spec =>
      match Strings.cut spec ':' with
      | some (type, key) =>
        match lookUpConfig fs snap (.ofText type) key with
        | .ok value => value
        | .error _ => ""
      | none => spec }

/-- `ConfigManager.ParseMtaConfig`, after the text has been parsed to `raw`. -/
def parseMtaConfig (fs : Files) (snap : Snapshot) (raw : MtaConfig) : MtaConfig where
  sections := raw.sections.filterMap fun name sec =>
    if sectionEnabled name snap.serviceEnabled then
      some (registerConditionalRequiredVars fs snap (resolveSectionLDAP fs snap sec))
    else none

/-- **The sections that survive parsing** are the enabled ones. -/
theorem parse_sections_isSome_iff (fs : Files) (snap : Snapshot) (raw : MtaConfig) (sn : String) :
    (parseMtaConfig fs snap raw).sections[sn]?.isSome = true ↔
      raw.sections[sn]?.isSome = true ∧ sectionEnabled sn snap.serviceEnabled = true := by
  simp only [parseMtaConfig, Std.ExtTreeMap.getElem?_filterMap']
  cases raw.sections[sn]? with
  | none => simp
  | some sec => by_cases henabled : sectionEnabled sn snap.serviceEnabled = true <;> simp [henabled]

/-! ## Observing -/

/-- `ConfigManager.mapfilePath`: the path a mapped file must have, empty when no
value is configured for it. -/
def mapfilePath (fs : Files) (snap : Snapshot) (key : String) : String :=
  match mappedFiles key with
  | some relPath => if (snap.var key).getD "" = "" then "" else fs.baseDir ++ "/" ++ relPath
  | none => ""

def observeOne (fs : Files) (base : Snapshot) (type : LookupType) (key : String) : String :=
  if type = .mapfile then mapfilePath fs base key
  else
    match lookUpConfig fs base type key with
    | .ok value => value
    | .error .missing => ""
    -- A lookup that could not be performed is not a value change.
    | .error .failed => base.observedValue type key

/-- A section depends on the lookup: it requires it, or has a condition on it. -/
def MtaConfigSection.dependsOn (sec : MtaConfigSection) (type : LookupType) (key : String) : Bool :=
  sec.requiredVars.toList.any (fun entry => entry.2 = type && lookupKey entry.1 = key) ||
    sec.conditionals.any fun cond => cond.type = type && lookupKey cond.key = key

/-- `ConfigManager.Observe`: `base` with the value of every lookup the
configuration depends on. -/
def observe (fs : Files) (base : Snapshot) (conf : MtaConfig) : Snapshot :=
  base.withObserved fun type key =>
    if conf.sections.toList.any (fun entry => entry.2.dependsOn type key) then
      some (observeOne fs base type key)
    else none

@[simp] theorem observe_serviceEnabled (fs : Files) (base : Snapshot) (conf : MtaConfig) :
    (observe fs base conf).serviceEnabled = base.serviceEnabled := rfl

@[simp] theorem observe_services (fs : Files) (base : Snapshot) (conf : MtaConfig) :
    (observe fs base conf).services = base.services := rfl

theorem observe_of_requires {conf : MtaConfig} {sn : String} {sec : MtaConfigSection}
    (hsec : conf.sections[sn]? = some sec) {type : LookupType} {key : String}
    (hreq : sec.Requires type key) (fs : Files) (base : Snapshot) :
    (observe fs base conf).observedValue type key = observeOne fs base type key := by
  obtain ⟨name, hname, hkey⟩ := hreq
  have hvar : (name, type) ∈ sec.requiredVars.toList :=
    Std.ExtTreeMap.mem_toList_iff_getElem?_eq_some.mpr hname
  have hdepends : sec.dependsOn type key = true := by
    rw [MtaConfigSection.dependsOn, Bool.or_eq_true, List.any_eq_true]
    exact Or.inl ⟨(name, type), hvar, by simp [hkey]⟩
  have hany : conf.sections.toList.any (fun entry => entry.2.dependsOn type key) = true :=
    List.any_eq_true.mpr
      ⟨(sn, sec), Std.ExtTreeMap.mem_toList_iff_getElem?_eq_some.mpr hsec, hdepends⟩
  simp [Snapshot.observedValue, observe, hany]

theorem observe_of_no_sections {conf : MtaConfig} (hconf : conf = {}) (fs : Files)
    (base : Snapshot) (type : LookupType) (key : String) :
    (observe fs base conf).observedValue type key = "" := by
  simp [hconf, Snapshot.observedValue, observe]

end Configd
