import Configd.Config

/-!
# Snapshots of the configuration

`internal/snapshot` is the immutable view of the configuration one cycle works on: four maps of
values, the enabled services, and the lookup values that were observed for the variables
`zmconfigd.cf` requires, which are only ever looked up and so are a function of the lookup.

`StagedLoad` is the staging area of one load attempt (`internal/configmgr/manager_stage.go`): each
loader delivered its part or did not, and `StagedLoad.apply` publishes what was delivered over the
parts of the previous snapshot.
-/

namespace Configd

open Lib

/-- The immutable per-cycle view of the configuration (`snapshot.Snapshot`).  A
nil snapshot of the source answers every lookup like the empty one. -/
structure Snapshot where
  localMap : StrMap String := ∅
  globalMap : StrMap String := ∅
  serverMap : StrMap String := ∅
  miscMap : StrMap String := ∅
  /-- The enabled services, with the source of their enablement. -/
  services : StrMap String := ∅
  observedMap : LookupType → String → Option String := fun _ _ => none

namespace Snapshot

def «local» (s : Snapshot) (key : String) : Option String :=
  s.localMap[key]?

def global (s : Snapshot) (key : String) : Option String :=
  s.globalMap[key]?

def server (s : Snapshot) (key : String) : Option String :=
  s.serverMap[key]?

def misc (s : Snapshot) (key : String) : Option String :=
  s.miscMap[key]?

/-- `Snapshot.Var`: server config first, then misc, then global. -/
def var (s : Snapshot) (key : String) : Option String :=
  match s.server key with
  | some value => some value
  | none =>
    match s.misc key with
    | some value => some value
    | none => s.global key

def serviceEnabled (s : Snapshot) (name : String) : Bool :=
  s.services.contains name

/-- `Snapshot.ServiceNames`: the enabled services, sorted. -/
def serviceNames (s : Snapshot) : List String :=
  s.services.keys

/-- `Snapshot.ServiceValue`: the enablement source of a service. -/
def serviceValue (s : Snapshot) (name : String) : String :=
  s.services[name]?.getD ""

/-- `Snapshot.Observed`: the value recorded when the snapshot was completed. -/
def observed (s : Snapshot) (type : LookupType) (key : String) : Option String :=
  s.observedMap type key

/-- The observed value as the change detection reads it: a lookup that was not
observed reads as the empty string. -/
def observedValue (s : Snapshot) (type : LookupType) (key : String) : String :=
  (s.observed type key).getD ""

/-- `Snapshot.Value`: a lookup that can be answered from the snapshot alone. -/
def value (s : Snapshot) : LookupType → String → Option String
  | .var, key => s.var key
  | .localconfig, key => s.local key
  | .service, key => if s.serviceEnabled key then some "TRUE" else some "FALSE"
  | type, key => s.observed type key

def withObserved (s : Snapshot) (obs : LookupType → String → Option String) : Snapshot :=
  { s with observedMap := obs }

def withLocal (s : Snapshot) (data : StrMap String) : Snapshot :=
  { s with localMap := data }

def withGlobal (s : Snapshot) (data : StrMap String) : Snapshot :=
  { s with globalMap := data }

def withMisc (s : Snapshot) (data : StrMap String) : Snapshot :=
  { s with miscMap := data }

def withServer (s : Snapshot) (data services : StrMap String) : Snapshot :=
  { s with serverMap := data, services := services }

theorem mem_serviceNames (s : Snapshot) (name : String) :
    name ∈ s.serviceNames ↔ s.serviceEnabled name = true := by
  rw [serviceNames, serviceEnabled, Std.ExtTreeMap.mem_keys,
    Std.ExtTreeMap.mem_iff_contains]

theorem serviceEnabled_congr {s s' : Snapshot} (h : s.services = s'.services) :
    s.serviceEnabled = s'.serviceEnabled := by
  funext name
  rw [serviceEnabled, h]
  rfl

@[simp] theorem withObserved_serviceEnabled (s : Snapshot)
    (obs : LookupType → String → Option String) (name : String) :
    (s.withObserved obs).serviceEnabled name = s.serviceEnabled name := rfl

@[simp] theorem withObserved_services (s : Snapshot)
    (obs : LookupType → String → Option String) :
    (s.withObserved obs).services = s.services := rfl

@[simp] theorem withObserved_observed (s : Snapshot)
    (obs : LookupType → String → Option String) (type : LookupType) (key : String) :
    (s.withObserved obs).observed type key = obs type key := rfl

end Snapshot

/-- What the loaders of one load attempt delivered (`stagedLoad`).  A part that
is `none` was not delivered. -/
structure StagedLoad where
  localPart : Option (StrMap String) := none
  globalPart : Option (StrMap String) := none
  miscPart : Option (StrMap String) := none
  /-- The server config and the enabled services are one part. -/
  serverPart : Option (StrMap String × StrMap String) := none

namespace StagedLoad

/-- At least one loader delivered its part. -/
def Delivers (load : StagedLoad) : Prop :=
  load.localPart.isSome ∨ load.globalPart.isSome ∨ load.miscPart.isSome ∨
    load.serverPart.isSome

instance (load : StagedLoad) : Decidable load.Delivers := by
  unfold Delivers
  infer_instance

/-- `stagedLoad.apply`: the delivered parts replace those of `old`, and the
observed lookups of `old` are dropped.  With nothing delivered it is `old`. -/
def apply (load : StagedLoad) (old : Snapshot) : Snapshot :=
  if load.Delivers then
    let out := (load.localPart.map old.withLocal).getD old
    let out := (load.globalPart.map out.withGlobal).getD out
    let out := (load.miscPart.map out.withMisc).getD out
    let out := (load.serverPart.map fun part => out.withServer part.1 part.2).getD out
    out.withObserved fun _ _ => none
  else
    old

theorem apply_misc {load : StagedLoad} {data : StrMap String} (hmisc : load.miscPart = some data)
    (old : Snapshot) (key : String) : (load.apply old).misc key = data[key]? := by
  have hload : load.Delivers := Or.inr (Or.inr (Or.inl (by rw [hmisc]; rfl)))
  unfold apply
  rw [if_pos hload, hmisc]
  cases load.serverPart <;> rfl

/-- A load that delivers the server part: some variables and the enabled
services. -/
def ofServer (vars : List (String × String)) (services : List String) : StagedLoad where
  serverPart := some (Std.ExtTreeMap.ofList vars compare,
    Std.ExtTreeMap.ofList (services.map fun name => (name, "TRUE")) compare)

theorem ofServer_delivers (vars : List (String × String)) (services : List String) :
    (ofServer vars services).Delivers :=
  Or.inr (Or.inr (Or.inr rfl))

end StagedLoad
end Configd
