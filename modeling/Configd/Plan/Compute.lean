import Configd.Snapshot
import Configd.Plan.Deferred

/-!
# Computing the plan of a cycle

`plan.Compute` (`internal/plan/compute.go`) derives the plan of a cycle from the previous and the
current snapshot, the parsed `zmconfigd.cf`, the forced and requested sections, the tracked services
and the carry.  It is a pipeline over a builder:

* `guardAllDisabled` rejects the cycle when every tracked service is disabled;
* `processSections` decides for each section whether it is processed, and gathers its actions;
* `trackServices` adds the stops and starts of services whose enablement differs from the tracking
  map;
* `mergeCarry` re-includes what the previous execution did not complete;
* `pruneToHost` keeps only the actions the host observation calls for;
* `finish` sorts the entries and classifies the restarts.

Each map of the builder is written by functions of its own, so that what a step does to one of them
can be read off without the others.  A nil `Conf` of the source is a configuration without sections.
-/

namespace Configd

open Lib

/-- The host observation `configd plan` compares the candidate plan against
(`plan.Host`): for each entry a description of its drift, if it has any. -/
structure Host where
  mapfiles : StrMap String := ∅
  rewrites : StrMap String := ∅
  postconf : StrMap String := ∅
  postconfd : StrMap String := ∅
  ldap : StrMap String := ∅
  proxygen : String := ""

structure Input where
  prev : Snapshot := {}
  cur : Snapshot
  conf : MtaConfig
  forced : List String := []
  requested : List String := []
  firstRun : Bool := false
  tracked : StrMap TrackedStatus := ∅
  carry : Carry := {}
  /-- When non-empty, limits the plan to these sections. -/
  scope : List String := []
  assumeChanged : Bool := false
  host : Option Host := none
  systemd : Bool := false

/-- The key of a mapped file: its name, and whether it is only checked locally. -/
structure MapfileKey where
  key : String
  isLocal : Bool
  deriving DecidableEq

instance : Ord MapfileKey where
  compare := compareLex (compareOn MapfileKey.key) (compareOn MapfileKey.isLocal)

instance : Std.TransOrd MapfileKey :=
  inferInstanceAs
    (Std.TransCmp (compareLex (compareOn MapfileKey.key) (compareOn MapfileKey.isLocal)))

instance : Std.LawfulEqOrd MapfileKey where
  eq_of_compare {left right} hcompare := by
    have hboth : compare left.key right.key = .eq ∧ compare left.isLocal right.isLocal = .eq := by
      simpa [compare, compareLex, compareOn, Ordering.then_eq_eq] using hcompare
    cases left
    cases right
    simp_all

structure Builder where
  sections : List Section := []
  mapfiles : OrdMap MapfileKey Mapfile := ∅
  heal : StrMap Mapfile := ∅
  rewrites : StrMap Rewrite := ∅
  postconf : StrMap Directive := ∅
  postconfd : StrMap Directive := ∅
  ldap : StrMap Directive := ∅
  proxygen : Option Proxygen := none
  restarts : StrMap Restart := ∅
  deferred : StrMap Restart := ∅
  tracked : StrMap TrackedStatus := ∅

/-! ## Which sections are considered -/

/-- `builder.guardAllDisabled`: false when more than one service is tracked and
none of them is enabled. -/
def guardAllDisabled (input : Input) : Bool :=
  input.tracked.size ≤ 1 || input.tracked.keys.any input.cur.serviceEnabled

/-- `plan.sectionServiceMap`: the service a section gates on, when it is not the
service of its own name. -/
def sectionServiceMap : String → Option String
  | "amavis" => some "mta"
  | "dhparam" => some "!dhparam"
  | "sasl" => some "mta"
  | "webxml" => some "mailbox"
  | "nginx" => some "proxy"
  | _ => none

/-- `plan.SectionEnabled`: a leading `!` of the service negates the check. -/
def sectionEnabled (name : String) (enabled : String → Bool) : Bool :=
  let svc := (sectionServiceMap name).getD name
  match Strings.cutPrefix svc "!" with
  | some rest => !enabled rest
  | none => enabled svc

def inScope (input : Input) (name : String) : Bool :=
  input.scope.isEmpty || name ∈ input.scope

/-- The variable a required variable stands for: a leading `!` is not part of
its name. -/
def lookupKey (key : String) : String :=
  Strings.trimPrefix key "!"

/-- The reason `diffSection` gives for one required lookup, if its observed
value differs.  An empty value is treated as undefined. -/
def diffLookup (input : Input) (sn key : String) (type : LookupType) : Option Reason :=
  let prevVal := input.prev.observedValue type (lookupKey key)
  let curVal := input.cur.observedValue type (lookupKey key)
  if curVal = "" then
    if prevVal ≠ "" then some (varChanged sn type (lookupKey key) prevVal "") else none
  else if prevVal ≠ curVal then
    some (varChanged sn type (lookupKey key) prevVal curVal)
  else
    none

/-- `builder.diffSection`: one reason for each required lookup whose observed
value differs between the previous and the current snapshot. -/
def diffSection (input : Input) (sn : String) (sec : MtaConfigSection) : List Reason :=
  sec.requiredVars.toList.filterMap fun entry => diffLookup input sn entry.1 entry.2

/-- `builder.sectionReasons`: why a section is processed; empty means it is not. -/
def sectionReasons (input : Input) (sn : String) (changes : List Reason) : List Reason :=
  (if sn ∈ input.forced then [{ kind := .forced, sectionName := sn }] else []) ++
    (if sn ∈ input.requested then [{ kind := .requested, sectionName := sn }] else []) ++
    (if input.firstRun then [{ kind := .firstRun, sectionName := sn }] else changes) ++
    (if input.assumeChanged then [{ kind := .evaluated, sectionName := sn }] else [])

/-! ## The actions of a processed section -/

/-- `builder.healMapfiles`: the per-cycle sync of the mapped files of a section. -/
def healMapfiles (sn : String) (sec : MtaConfigSection) (compared : Bool)
    (heal : StrMap Mapfile) : StrMap Mapfile :=
  if compared then
    sec.requiredVars.toList.foldl (fun heal entry =>
      if entry.2 = .mapfile then
        heal.upsert (lookupKey entry.1) { key := lookupKey entry.1 } fun m =>
          { m with
            sections := appendUnique m.sections sn
            reasons := appendReason m.reasons
              { kind := .mapfileSync, sectionName := sn, key := lookupKey entry.1 } }
      else heal) heal
  else heal

/-- `builder.mapfileOps`: the mapped-file syncs of a changed section. -/
def mapfileOps (sn : String) (sec : MtaConfigSection) (reasons : List Reason)
    (mapfiles : OrdMap MapfileKey Mapfile) : OrdMap MapfileKey Mapfile :=
  sec.requiredVars.toList.foldl (fun mapfiles entry =>
    if entry.2 = .mapfile || entry.2 = .maplocal then
      let mk : MapfileKey := ⟨lookupKey entry.1, entry.2 = .maplocal⟩
      mapfiles.upsert mk { key := mk.key, isLocal := mk.isLocal } fun m =>
        { m with
          sections := appendUnique m.sections sn
          reasons := appendReasons m.reasons reasons }
    else mapfiles) mapfiles

def compileRewrites (sn : String) (sec : MtaConfigSection) (reasons : List Reason)
    (rewrites : StrMap Rewrite) : StrMap Rewrite :=
  sec.rewrites.toList.foldl (fun rewrites entry =>
    rewrites.upsert entry.1 { source := entry.1 } fun r =>
      { r with
        target := entry.2.value
        mode := entry.2.mode
        sections := appendUnique r.sections sn
        reasons := appendReasons r.reasons reasons }) rewrites

/-- Set the directive `key` to `val` on behalf of a section: what `setPostconf`,
`setPostconfd` and `compileLdap` do to their map. -/
def setDirective (key val sn : String) (reasons : List Reason) (map : StrMap Directive) :
    StrMap Directive :=
  map.upsert key { key := key } fun d =>
    { d with
      value := val
      sections := appendUnique d.sections sn
      reasons := appendReasons d.reasons reasons }

def setPostconf (key val sn : String) (reasons : List Reason) (postconf : StrMap Directive) :
    StrMap Directive :=
  setDirective key (Strings.replaceChar val '\n' ' ') sn reasons postconf

def setPostconfd (key val sn : String) (reasons : List Reason) (postconfd : StrMap Directive) :
    StrMap Directive :=
  setDirective key (Strings.replaceChar val '\n' ' ') sn reasons postconfd

/-- `builder.compileLdap`: an empty value means no change. -/
def compileLdap (sn : String) (sec : MtaConfigSection) (reasons : List Reason)
    (ldap : StrMap Directive) : StrMap Directive :=
  sec.ldap.toList.foldl (fun ldap entry =>
    if entry.2 = "" then ldap else setDirective entry.1 entry.2 sn reasons ldap) ldap

/-- `builder.conditionHolds`: `if [!]TYPE key`.  A failed lookup yields the
negation flag alone, and `negated` inverts the result. -/
def conditionHolds (cur : Snapshot) (cond : Conditional) : Bool :=
  let negate := (Strings.cutPrefix cond.key "!").isSome
  let key := Strings.trimPrefix cond.key "!"
  let holds := match cur.value cond.type key with
    | some val => isTrueValue val != negate
    | none => negate
  if cond.negated then !holds else holds

/-- The Postfix parameters a section sets: its own, then those of the blocks
whose condition holds (`compileSection` and `compileConditional`). -/
def compilePostconf (cur : Snapshot) (sn : String) (sec : MtaConfigSection)
    (reasons : List Reason) (postconf : StrMap Directive) : StrMap Directive :=
  let own := sec.postconf.toList.foldl
    (fun map entry => setPostconf entry.1 entry.2 sn reasons map) postconf
  sec.conditionals.foldl (fun map cond =>
    if conditionHolds cur cond then
      cond.postconf.toList.foldl
        (fun map entry => setPostconf entry.1 entry.2 sn reasons map) map
    else map) own

/-- The Postfix parameters a section removes, as `compilePostconf`. -/
def compilePostconfd (cur : Snapshot) (sn : String) (sec : MtaConfigSection)
    (reasons : List Reason) (postconfd : StrMap Directive) : StrMap Directive :=
  let own := sec.postconfd.toList.foldl
    (fun map entry => setPostconfd entry.1 entry.2 sn reasons map) postconfd
  sec.conditionals.foldl (fun map cond =>
    if conditionHolds cur cond then
      cond.postconfd.toList.foldl
        (fun map entry => setPostconfd entry.1 entry.2 sn reasons map) map
    else map) own

/-- The request to regenerate the proxy configuration, when the section asks for
it. -/
def compileProxygen (sn : String) (sec : MtaConfigSection) (reasons : List Reason)
    (proxygen : Option Proxygen) : Option Proxygen :=
  if sec.proxygen then
    let p := proxygen.getD {}
    some { p with
      sections := appendUnique p.sections sn
      reasons := appendReasons p.reasons reasons }
  else proxygen

def addRestart (dst : StrMap Restart) (service : String) (action : Action) (sn : String)
    (reasons : List Reason) : StrMap Restart :=
  dst.upsert service { service := service, action := action } fun r =>
    { r with
      action := action
      sections := if sn = "" then r.sections else appendUnique r.sections sn
      reasons := appendReasons r.reasons reasons }

/-- What a changed section asks of one of its services, by lower-case name: a
restart of an enabled service, a stop of a disabled one.  A disabled
`archiving` is left alone, and `opendkim` is restarted along with the MTA. -/
def sectionAction (cur : Snapshot) (name : String) : Option Action :=
  if cur.serviceEnabled name then some .restart
  else if name = "archiving" then none
  else if name = "opendkim" && cur.serviceEnabled "mta" then some .restart
  else some .stop

/-- `builder.compileSectionRestarts`: the entries of the `RESTART` services of a
section. -/
def compileSectionRestarts (cur : Snapshot) (sn : String) (sec : MtaConfigSection)
    (reasons : List Reason) (dst : StrMap Restart) : StrMap Restart :=
  sec.restarts.keys.foldl (fun dst svc =>
    match sectionAction cur (Strings.toLower svc) with
    | some action => addRestart dst (Strings.toLower svc) action sn reasons
    | none => dst) dst

/-- `plan.varChanges`: the reasons that are real changes. -/
def varChanges (reasons : List Reason) : List Reason :=
  reasons.filter fun r => r.kind = .varChanged

/-- The section was forced or requested. -/
def isAsked (input : Input) (sn : String) : Bool :=
  sn ∈ input.forced || sn ∈ input.requested

/-- `builder.compileRestarts`, the part that goes into the restarts of this
cycle: none on the first run, and none for a forced or requested section. -/
def compileRestarts (input : Input) (sn : String) (sec : MtaConfigSection)
    (reasons : List Reason) (restarts : StrMap Restart) : StrMap Restart :=
  if input.firstRun || isAsked input sn then restarts
  else compileSectionRestarts input.cur sn sec reasons restarts

/-- `builder.compileRestarts`, the part that is deferred: the restarts of a
forced or requested section that also has a real change. -/
def compileDeferred (input : Input) (sn : String) (sec : MtaConfigSection)
    (reasons : List Reason) (deferred : StrMap Restart) : StrMap Restart :=
  if input.firstRun || !isAsked input sn || (varChanges reasons).isEmpty then deferred
  else compileSectionRestarts input.cur sn sec
    (varChanges reasons ++ [{ kind := .deferred, sectionName := sn }]) deferred

/-- `builder.compileSection`: gather the actions of a processed section. -/
def compileSection (input : Input) (b : Builder) (sn : String) (sec : MtaConfigSection)
    (reasons : List Reason) : Builder :=
  { b with
    rewrites := compileRewrites sn sec reasons b.rewrites
    postconf := compilePostconf input.cur sn sec reasons b.postconf
    postconfd := compilePostconfd input.cur sn sec reasons b.postconfd
    proxygen := compileProxygen sn sec reasons b.proxygen
    ldap := compileLdap sn sec reasons b.ldap
    restarts := compileRestarts input sn sec reasons b.restarts
    deferred := compileDeferred input sn sec reasons b.deferred }

/-- The section is considered in this cycle: in scope and enabled. -/
def isConsidered (input : Input) (sn : String) : Bool :=
  inScope input sn && sectionEnabled sn input.cur.serviceEnabled

/-- Forced mode compares only the forced sections. -/
def isCompared (input : Input) (sn : String) : Bool :=
  input.forced.isEmpty || sn ∈ input.forced

def changesOf (input : Input) (sn : String) (sec : MtaConfigSection) : List Reason :=
  if isCompared input sn then diffSection input sn sec else []

def reasonsOf (input : Input) (sn : String) (sec : MtaConfigSection) : List Reason :=
  sectionReasons input sn (changesOf input sn sec)

/-- One round of the loop of `builder.processSections`. -/
def processSection (input : Input) (b : Builder) (sn : String) (sec : MtaConfigSection) :
    Builder :=
  if isConsidered input sn then
    let changes := changesOf input sn sec
    let reasons := reasonsOf input sn sec
    let b := { b with heal := healMapfiles sn sec (isCompared input sn) b.heal }
    if reasons.isEmpty then b
    else
      let b := { b with
        sections := b.sections ++ [⟨sn, reasons⟩]
        mapfiles := if !changes.isEmpty || input.firstRun then
          mapfileOps sn sec reasons b.mapfiles else b.mapfiles }
      compileSection input b sn sec reasons
  else b

/-- `builder.processSections`, in sorted section order. -/
def processSections (input : Input) (b : Builder) : Builder :=
  input.conf.sections.toList.foldl (fun b entry => processSection input b entry.1 entry.2) b

/-! ## Tracked services and the carry -/

def trackedStatus (enabled : Bool) : TrackedStatus :=
  if enabled then .running else .stopped

def stopToggle (svc : String) : Restart :=
  { service := svc, action := .stop, reasons := [{ kind := .serviceDisabled, service := svc }] }

def startToggle (svc : String) : Restart :=
  { service := svc, action := .start, reasons := [{ kind := .serviceEnabled, service := svc }] }

/-- The stops and starts of `builder.serviceToggles`.  On the first run nothing
is started. -/
def serviceToggles (input : Input) : StrMap Restart :=
  let stops := input.tracked.keys.foldl (fun toggles svc =>
    if !input.cur.serviceEnabled svc then toggles.insert svc (stopToggle svc) else toggles) ∅
  input.cur.serviceNames.foldl (fun toggles svc =>
    if !input.tracked.contains svc && !input.firstRun then
      toggles.insert svc (startToggle svc)
    else toggles) stops

/-- The tracking map after `builder.serviceToggles`: on the first run it learns
the status of the services it does not know. -/
def trackedAfter (input : Input) : StrMap TrackedStatus :=
  input.cur.serviceNames.foldl (fun tracked svc =>
    if !tracked.contains svc && input.firstRun then
      tracked.insert svc (trackedStatus (isTrueValue (input.cur.serviceValue svc)))
    else tracked) input.tracked

/-- The entry of a service with a toggle: a section-derived entry wins, and keeps
the reason of the toggle too. -/
def withToggle (sectionEntry : Option Restart) (toggle : Restart) : Restart :=
  match sectionEntry with
  | some entry => { entry with reasons := appendReasons entry.reasons toggle.reasons }
  | none => toggle

def trackServices (input : Input) (b : Builder) : Builder :=
  { b with
    restarts := (serviceToggles input).toList.foldl (fun restarts entry =>
      restarts.insert entry.1 (withToggle restarts[entry.1]? entry.2)) b.restarts
    tracked := trackedAfter input }

/-- The reason of a re-included action. -/
def retryReason : Reason :=
  { kind := .retry }

/-- `plan.carryItems`: re-include the carried items that `dst` misses and mark
those it has as retried.  `key` and `mapReasons` are the two halves of `ref`. -/
def carryItems {T : Type} (key : T → String) (mapReasons : (List Reason → List Reason) → T → T)
    (items : List T) (dst : StrMap T) : StrMap T :=
  items.foldl (fun dst it =>
    dst.insert (key it) (mapReasons (appendReason · retryReason) (dst[key it]?.getD it))) dst

def Rewrite.mapReasons (f : List Reason → List Reason) (it : Rewrite) : Rewrite :=
  { it with reasons := f it.reasons }

def Directive.mapReasons (f : List Reason → List Reason) (it : Directive) : Directive :=
  { it with reasons := f it.reasons }

def Proxygen.mapReasons (f : List Reason → List Reason) (it : Proxygen) : Proxygen :=
  { it with reasons := f it.reasons }

def Restart.mapReasons (f : List Reason → List Reason) (it : Restart) : Restart :=
  { it with reasons := f it.reasons }

def Mapfile.mapReasons (f : List Reason → List Reason) (it : Mapfile) : Mapfile :=
  { it with reasons := f it.reasons }

def mergeCarry (c : Carry) (b : Builder) : Builder :=
  { b with
    rewrites := carryItems Rewrite.source Rewrite.mapReasons c.rewrites b.rewrites
    postconf := carryItems Directive.key Directive.mapReasons c.postconf b.postconf
    postconfd := carryItems Directive.key Directive.mapReasons c.postconfd b.postconfd
    ldap := carryItems Directive.key Directive.mapReasons c.ldap b.ldap
    proxygen := match c.proxygen with
      | some carried =>
        some ((b.proxygen.getD carried).mapReasons (appendReason · retryReason))
      | none => b.proxygen
    restarts := carryItems Restart.service Restart.mapReasons c.restarts b.restarts }

/-! ## Comparison with the host -/

/-- The reasons `drifted.keep` gives an action whose target drifted. -/
def driftReasons (drift : String) : Option (List Reason) :=
  if drift = "" then none else some [{ kind := .drift, detail := drift }]

/-- Keep the entries of a map whose target drifted, with the drift as their
reason. -/
def keepDrifted {K T : Type} [Ord K] [Std.TransOrd K]
    (mapReasons : (List Reason → List Reason) → T → T) (drift : K → String)
    (map : OrdMap K T) : OrdMap K T :=
  map.filterMap fun key it => (driftReasons (drift key)).map fun reasons =>
    mapReasons (fun _ => reasons) it

/-- The drift of `key` in a map of the host observation. -/
def driftOf (map : StrMap String) (key : String) : String :=
  map[key]?.getD ""

/-- `builder.pruneMapfiles`, the first loop: a mapped file of the per-cycle sync
that drifted becomes a regular one. -/
def promoteHeal (h : Host) (heal : StrMap Mapfile) (mapfiles : OrdMap MapfileKey Mapfile) :
    OrdMap MapfileKey Mapfile :=
  heal.toList.foldl (fun mapfiles entry =>
    match driftReasons (driftOf h.mapfiles entry.1) with
    | some reasons =>
      mapfiles.insert ⟨entry.1, false⟩
        ((mapfiles[(⟨entry.1, false⟩ : MapfileKey)]?.getD entry.2).mapReasons fun _ => reasons)
    | none => mapfiles) mapfiles

/-- The sections of the mapped files of the per-cycle sync that drifted. -/
def healTouched (h : Host) (heal : StrMap Mapfile) : List String :=
  (keepDrifted Mapfile.mapReasons (driftOf h.mapfiles) heal).valuesList.flatMap
    Mapfile.sections

def sectionDrift (sections : List String) : Reason where
  kind := .drift
  detail := "configuration of section " ++ Strings.join ", " sections ++ " would change"

/-- Restarts are consequences of a drifted section only. -/
def pruneRestarts (touched : List String) (restarts : StrMap Restart) : StrMap Restart :=
  restarts.filterMap fun _ r =>
    if r.sections.any (· ∈ touched) then some { r with reasons := [sectionDrift r.sections] }
    else none

/-- `builder.pruneToHost`: keep only the actions whose target the host
observation says is out of date.  The drift of an LDAP attribute does not count
for its sections. -/
def pruneToHost (b : Builder) : Option Host → Builder
  | none => b
  | some h =>
    let mapfiles := keepDrifted Mapfile.mapReasons
      (fun mk : MapfileKey => driftOf h.mapfiles mk.key) (promoteHeal h b.heal b.mapfiles)
    let rewrites := keepDrifted Rewrite.mapReasons (driftOf h.rewrites) b.rewrites
    let proxygen := b.proxygen.bind fun p =>
      (driftReasons h.proxygen).map fun reasons => p.mapReasons fun _ => reasons
    let postconf := keepDrifted Directive.mapReasons (driftOf h.postconf) b.postconf
    let postconfd := keepDrifted Directive.mapReasons (driftOf h.postconfd) b.postconfd
    let touched := healTouched h b.heal ++ mapfiles.valuesList.flatMap Mapfile.sections ++
      rewrites.valuesList.flatMap Rewrite.sections ++
      (proxygen.map Proxygen.sections).getD [] ++
      postconf.valuesList.flatMap Directive.sections ++
      postconfd.valuesList.flatMap Directive.sections
    { b with
      sections := b.sections.filter fun s => s.name ∈ touched
      mapfiles := mapfiles
      heal := ∅
      rewrites := rewrites
      postconf := postconf
      postconfd := postconfd
      ldap := keepDrifted Directive.mapReasons (driftOf h.ldap) b.ldap
      proxygen := proxygen
      restarts := pruneRestarts touched b.restarts
      deferred := ∅ }

/-! ## The plan -/

/-- `builder.finish`: sort everything and assemble the plan. -/
def finish (input : Input) (b : Builder) : Plan where
  firstRun := input.firstRun
  sections := b.sections
  heal := OrdMap.valuesList (b.heal.filter fun key _ => !b.mapfiles.contains ⟨key, false⟩)
  mapfiles := b.mapfiles.valuesList
  rewrites := b.rewrites.valuesList
  postconf := b.postconf.valuesList
  postconfd := b.postconfd.valuesList
  ldap := b.ldap.valuesList
  proxygen := b.proxygen
  restarts := b.restarts.valuesList.map (Restart.classify input.systemd)
  deferredRestarts := b.deferred.valuesList.map (Restart.classify input.systemd)
  tracked := b.tracked
  enabled := input.cur.serviceNames

/-- The builder after every step of `compute` but the last. -/
def build (input : Input) : Builder :=
  pruneToHost (mergeCarry input.carry (trackServices input (processSections input {})))
    input.host

/-- `plan.Compute`: the plan of a cycle, or none when every tracked service is
disabled (`ErrAllServicesDisabled`). -/
def compute (input : Input) : Option Plan :=
  if guardAllDisabled input then some (finish input (build input)) else none

end Configd
