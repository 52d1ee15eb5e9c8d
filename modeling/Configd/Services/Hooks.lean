import Configd.Lib.Closure
import Configd.Lib.OrdMap
import Configd.Lib.Strings

/-!
# Service hooks

With `zmconfigd_service_hooks` set, the service manager controls services through the commands and
signals of a hooks file (`internal/services/hooks.go`) instead of the service control of the host.
The file has a list of hooks for a service and an action; the entry `*` applies to the services that
have no list of their own.

`newHookBackend` reads the file, `specsFor` finds the hooks of an action, `run` and `serviceStatus`
execute them; no hook of a file that is accepted panics then (`accepted_hooks_run`).  `validate` is
given the services that are going to be restarted and probed, and reports missing hooks.

`dependencyClosure` is the set of services that a restart can cascade into
(`mem_dependencyClosure_iff`).
-/

namespace Configd

open Lib

/-! ## The registry of services -/

/-- The services that are known, by name and by alias. -/
structure Registry where
  /-- The name in the definition of each service. -/
  services : StrMap String
  /-- `ServiceAliases`. -/
  aliases : StrMap String := ∅

/-- `Controller.LookupService`: the name in the definition of the service. -/
def Registry.lookupService (r : Registry) (name : String) : Option String :=
  match r.services[name]? with
  | some defName => some defName
  | none => r.aliases[name]?.bind fun canonical => r.services[canonical]?

/-! ## Hook specifications -/

inductive HookAction
  | start
  | stop
  | restart
  | status
  deriving DecidableEq

def HookAction.text : HookAction → String
  | start => "start"
  | stop => "stop"
  | restart => "restart"
  | status => "status"

/-- The action of a key of the hooks file. -/
def HookAction.ofText (s : String) : Option HookAction :=
  [start, stop, restart, status].find? fun action => action.text = s

inductive HookSignal
  | hup
  | int
  | quit
  | term
  | kill
  | usr1
  | usr2
  deriving DecidableEq

def signals : List (String × HookSignal) :=
  [("HUP", .hup), ("INT", .int), ("QUIT", .quit), ("TERM", .term), ("KILL", .kill),
    ("USR1", .usr1), ("USR2", .usr2)]

inductive HookKind
  | skip
  | process
  /-- Signal the process of a service: the one of the action unless another is named. -/
  | signal (sig : HookSignal) (service : Option String)
  | exec (argv : List String)
  deriving DecidableEq

structure HookSpec where
  raw : String
  kind : HookKind
  deriving DecidableEq

/-- The errors that wrap `ErrHooks`. -/
inductive HookError
  | unknownService (svc : String)
  | unknownAction (svc action : String)
  | noHook (svc action : String)
  /-- The hook cannot answer a status. -/
  | notForStatus (raw : String)
  /-- The hook is only valid for a status. -/
  | onlyForStatus (raw : String)
  | unknownSignal (raw name : String)
  | unknownTarget (raw target : String)
  | noCommand (raw : String)
  | unknownHook (raw : String)
  deriving DecidableEq

/-- `parseSignalSpec`: `signal:<SIG>[@<service>]`. -/
def parseSignalSpec (r : Registry) (raw : String) : Except HookError HookSpec :=
  let rest := Strings.trimPrefix raw "signal:"
  let (name, target) := (Strings.cut rest '@').getD (rest, "")
  match (signals.find? fun entry =>
      entry.1 = Strings.trimPrefix (Strings.toUpper name) "SIG").map Prod.snd with
  | none => .error (.unknownSignal raw name)
  | some sig =>
    if target = "" then .ok ⟨raw, .signal sig none⟩
    else if (r.lookupService (Strings.toLower target)).isNone then
      .error (.unknownTarget raw target)
    else .ok ⟨raw, .signal sig (some (Strings.toLower target))⟩

def parseHookSpec (r : Registry) (action : HookAction) (raw : String) :
    Except HookError HookSpec :=
  if raw = "skip" then
    if action = .status then .error (.notForStatus raw) else .ok ⟨raw, .skip⟩
  else if raw = "process" then
    if action = .status then .ok ⟨raw, .process⟩ else .error (.onlyForStatus raw)
  else if Strings.hasPrefix raw "signal:" then
    if action = .status then .error (.notForStatus raw) else parseSignalSpec r raw
  else if Strings.hasPrefix raw "exec:" then
    let argv := Strings.fields (Strings.trimPrefix raw "exec:")
    if argv.isEmpty then .error (.noCommand raw) else .ok ⟨raw, .exec argv⟩
  else .error (.unknownHook raw)

/-- The words of the command of a hook. -/
def HookKind.argv : HookKind → List String
  | exec argv => argv
  | _ => []

/-- `HookBackend.apply` or, for a status, `HookBackend.status` panics: `exec` takes `argv[0]` of a
hook without a command, or `signal` finds no definition of the service it is to signal. -/
def HookSpec.panics (r : Registry) (action : HookAction) (spec : HookSpec) : Bool :=
  match action, spec.kind with
  | .status, .process => false
  | .status, kind => kind.argv.isEmpty
  | _, .skip => false
  | _, .signal _ service => service.any fun name => (r.lookupService name).isNone
  | _, kind => kind.argv.isEmpty

abbrev ServiceHooks := HookAction → List HookSpec

/-- One action of `parseServiceHooks`. -/
def parseActionHooks (r : Registry) (svc : String) (parsed : ServiceHooks)
    (entry : String × List String) : Except HookError ServiceHooks :=
  match HookAction.ofText entry.1 with
  | none => .error (.unknownAction svc entry.1)
  | some action =>
    if entry.2.isEmpty then .error (.noHook svc entry.1)
    else do
      let specs ← entry.2.mapM (parseHookSpec r action)
      return Function.update parsed action (parsed action ++ specs)

def parseServiceHooks (r : Registry) (svc : String) (actions : StrMap (List String)) :
    Except HookError ServiceHooks :=
  actions.toList.foldlM (parseActionHooks r svc) fun _ => []

/-! ## The backend -/

structure HookBackend where
  registry : Registry
  hooks : StrMap ServiceHooks := ∅

/-- `NewHookBackend`, for the decoded content of the hooks file. -/
def newHookBackend (r : Registry) (hooks : StrMap (StrMap (List String))) :
    Except HookError HookBackend :=
  hooks.toList.foldlM (fun b entry =>
    let name := Strings.toLower entry.1
    if name ≠ "*" ∧ (r.lookupService name).isNone then .error (.unknownService entry.1)
    else do
      let parsed ← parseServiceHooks r entry.1 entry.2
      return { b with hooks := b.hooks.insert name parsed }) { registry := r }

namespace HookBackend

/-- The list in the entry of one name. -/
def listed (b : HookBackend) (name : String) (action : HookAction) : List HookSpec :=
  (b.hooks[name]?.map fun hooks => hooks action).getD []

/-- `HookBackend.specsFor`: the service's own list, else the one of `*`. -/
def specsFor (b : HookBackend) (service : String) (action : HookAction) : List HookSpec :=
  if (b.listed service action).isEmpty then b.listed "*" action else b.listed service action

def canonical (b : HookBackend) (name : String) : String :=
  (b.registry.lookupService (Strings.toLower name)).getD (Strings.toLower name)

/-- The services of `HookBackend.Validate` that have no hook for the action, each
with the action. -/
def uncovered (b : HookBackend) (action : HookAction) (services : List String) : List String :=
  (services.filter fun svc => (b.specsFor (b.canonical svc) action).isEmpty).map
    fun svc => action.text ++ ":" ++ svc

/-- `HookBackend.Validate`, with the text of its `ErrHooksMissing` error. -/
def validate (b : HookBackend) (restart status : List String) : Except String Unit :=
  let missing := b.uncovered .restart restart ++ b.uncovered .status status
  if missing.isEmpty then .ok ()
  else .error ("service hooks missing: " ++
    Strings.join ", " (missing.dedup.insertionSort (· ≤ ·)))

/-- What an action through the backend returns. -/
inductive Outcome
  /-- `errUnknownService`. -/
  | unknown
  /-- `ErrHooksMissing`. -/
  | missing
  | failed (raw : String)
  | done
  deriving DecidableEq

/-- `HookBackend.run`; `succeeds` says how the hooks end. -/
def run (b : HookBackend) (succeeds : HookSpec → Bool) (name : String) (action : HookAction) :
    Outcome :=
  match b.registry.lookupService (Strings.toLower name) with
  | none => .unknown
  | some defName =>
    let specs := b.specsFor defName action
    if specs.isEmpty then .missing
    else
      match specs.find? fun spec => !succeeds spec with
      | some spec => .failed spec.raw
      | none => .done

/-- What a status hook says: whether the service is running, or an error. -/
abbrev Probe := HookSpec → Option Bool

/-- `HookBackend.ServiceStatus`: whether the service is running, or why that is not
known. -/
def serviceStatus (b : HookBackend) (probe : Probe) (name : String) : Outcome ⊕ Bool :=
  match b.registry.lookupService (Strings.toLower name) with
  | none => .inl .unknown
  | some defName =>
    let specs := b.specsFor defName .status
    if specs.isEmpty then .inl .missing
    else
      -- The first hook that fails or says no decides.
      match specs.find? fun spec => probe spec ≠ some true with
      | none => .inr true
      | some spec =>
        match probe spec with
        | none => .inl (.failed spec.raw)
        | some running => .inr running

/-! ### Missing hooks -/

/-- The registry knows the service, but no hook is there for the action. -/
def Lacks (b : HookBackend) (name : String) (action : HookAction) : Prop :=
  ∃ defName ∈ b.registry.lookupService (Strings.toLower name),
    b.specsFor defName action = []

instance (b : HookBackend) (name : String) (action : HookAction) :
    Decidable (b.Lacks name action) :=
  inferInstanceAs (Decidable (∃ _ ∈ _, _))

theorem run_missing_iff (b : HookBackend) (succeeds : HookSpec → Bool) (name : String)
    (action : HookAction) : b.run succeeds name action = .missing ↔ b.Lacks name action := by
  unfold run Lacks
  cases b.registry.lookupService (Strings.toLower name) with
  | none => simp
  | some defName =>
    by_cases hempty : b.specsFor defName action = []
    · simp [hempty]
    · simp only [List.isEmpty_iff, hempty, if_false]
      split <;> simp [hempty]

theorem serviceStatus_missing_iff (b : HookBackend) (probe : Probe) (name : String) :
    b.serviceStatus probe name = .inl .missing ↔ b.Lacks name .status := by
  unfold serviceStatus Lacks
  cases b.registry.lookupService (Strings.toLower name) with
  | none => simp
  | some defName =>
    by_cases hempty : b.specsFor defName .status = []
    · simp [hempty]
    · simp only [List.isEmpty_iff, hempty, if_false]
      split
      · simp [hempty]
      · split <;> simp [hempty]

theorem not_lacks_of_covered {b : HookBackend} {name : String} {action : HookAction}
    (h : b.specsFor (b.canonical name) action ≠ []) : ¬ b.Lacks name action := by
  rintro ⟨defName, hdef, hempty⟩
  rw [canonical, Option.mem_def.mp hdef, Option.getD_some] at h
  exact h hempty

theorem validate_ok_iff (b : HookBackend) (restart status : List String) :
    b.validate restart status = .ok () ↔
      (∀ svc ∈ restart, b.specsFor (b.canonical svc) .restart ≠ []) ∧
        ∀ svc ∈ status, b.specsFor (b.canonical svc) .status ≠ [] := by
  have huncovered : ∀ action services, b.uncovered action services = [] ↔
      ∀ svc ∈ services, b.specsFor (b.canonical svc) action ≠ [] := by
    intro action services
    simp [uncovered]
  unfold validate
  rw [← huncovered, ← huncovered]
  cases b.uncovered .restart restart <;> cases b.uncovered .status status <;> simp

/-! ### Accepted hooks -/

section Accepted

variable {r : Registry} {action : HookAction} {spec : HookSpec}

theorem parseSignalSpec_runs (haction : action ≠ .status) {raw : String}
    (h : parseSignalSpec r raw = .ok spec) : spec.panics r action = false := by
  unfold parseSignalSpec at h
  dsimp only at h
  split at h
  · nomatch h
  · split_ifs at h with htarget hknown
    · obtain rfl := Except.ok.inj h
      cases action <;> first | rfl | exact absurd rfl haction
    · obtain rfl := Except.ok.inj h
      have hfound := eq_false_of_ne_true hknown
      cases action <;> first | exact hfound | exact absurd rfl haction

theorem parseHookSpec_runs {raw : String} (h : parseHookSpec r action raw = .ok spec) :
    spec.panics r action = false := by
  unfold parseHookSpec at h
  dsimp only at h
  split_ifs at h with hskip hstatus hprocess hstatus hsignal hstatus hexec hargv
  · obtain rfl := Except.ok.inj h
    cases action <;> simp_all [HookSpec.panics]
  · obtain rfl := Except.ok.inj h
    simp [HookSpec.panics, hstatus]
  · exact parseSignalSpec_runs hstatus h
  · obtain rfl := Except.ok.inj h
    cases action <;> simpa [HookSpec.panics, HookKind.argv] using hargv

/-- No hook of the service panics. -/
def Runs (r : Registry) (hooks : ServiceHooks) : Prop :=
  ∀ action, ∀ spec ∈ hooks action, spec.panics r action = false

theorem parseServiceHooks_runs {svc : String} {actions : StrMap (List String)}
    {hooks : ServiceHooks} (h : parseServiceHooks r svc actions = .ok hooks) : Runs r hooks := by
  refine foldlM_invariant (motive := Runs r) (by simp [Runs]) ?_ h
  intro parsed entry parsed' hparsed hround
  unfold parseActionHooks at hround
  split at hround
  · nomatch hround
  · rename_i action haction
    split_ifs at hround with hnone
    obtain ⟨specs, hspecs, hout⟩ := bind_eq_ok hround
    obtain rfl := Except.ok.inj hout
    intro action' spec hspec
    by_cases heq : action' = action
    · subst heq
      rw [Function.update_self, List.mem_append] at hspec
      rcases hspec with hold | hnew
      · exact hparsed action' spec hold
      · obtain ⟨raw, hraw⟩ := exists_of_mem_mapM hspecs spec hnew
        exact parseHookSpec_runs hraw
    · rw [Function.update_of_ne heq] at hspec
      exact hparsed action' spec hspec

theorem newHookBackend_runs {file : StrMap (StrMap (List String))} {b : HookBackend}
    (h : newHookBackend r file = .ok b) :
    b.registry = r ∧ ∀ name : String, ∀ hooks ∈ b.hooks[name]?, Runs r hooks := by
  refine foldlM_invariant (motive := fun b : HookBackend => b.registry = r ∧
    ∀ name : String, ∀ hooks ∈ b.hooks[name]?, Runs r hooks) ⟨rfl, by simp⟩ ?_ h
  intro b entry b' hb hround
  dsimp only at hround
  split_ifs at hround with hunknown
  obtain ⟨parsed, hparsed, hout⟩ := bind_eq_ok hround
  obtain rfl := Except.ok.inj hout
  refine ⟨hb.1, fun name hooks hhooks => ?_⟩
  rw [Option.mem_def, Std.ExtTreeMap.getElem?_insert] at hhooks
  split_ifs at hhooks with heq
  · exact Option.some.inj hhooks ▸ parseServiceHooks_runs hparsed
  · exact hb.2 name hooks hhooks

/-- **A hooks file that is accepted can be used**: no hook of it panics when it is run, for
whichever service and action it is taken. -/
theorem accepted_hooks_run {file : StrMap (StrMap (List String))} {b : HookBackend}
    (haccepted : newHookBackend r file = .ok b) (service : String) (action : HookAction) :
    ∀ spec ∈ b.specsFor service action, spec.panics b.registry action = false := by
  obtain ⟨rfl, hruns⟩ := newHookBackend_runs haccepted
  have hlisted : ∀ name, ∀ spec ∈ b.listed name action, spec.panics b.registry action = false := by
    intro name spec hspec
    unfold listed at hspec
    cases hhooks : b.hooks[name]? with
    | none => simp [hhooks] at hspec
    | some hooks => exact hruns name hooks hhooks action spec (by simpa [hhooks] using hspec)
  intro spec hspec
  unfold specsFor at hspec
  split_ifs at hspec
  · exact hlisted "*" spec hspec
  · exact hlisted service spec hspec

end Accepted

/-- A file with one hook, which signals another service. -/
def signalHook : Except HookError HookBackend :=
  newHookBackend ⟨{("mta", "mta"), ("proxy", "proxy")}, ∅⟩
    {("MTA", {("restart", ["signal:HUP@proxy"])})}

theorem accepted_hooks_run_signal : ∃ b, signalHook = .ok b ∧
    ∀ spec ∈ b.specsFor "mta" .restart, spec.panics b.registry .restart = false := by
  have hok : ∃ b, signalHook = .ok b := ⟨_, rfl⟩
  obtain ⟨b, hb⟩ := hok
  exact ⟨b, hb, accepted_hooks_run hb "mta" .restart⟩

end HookBackend

/-! ## The services a restart cascades into -/

/-- The dependents of a service, whether they are enabled or not. -/
def allDependents (deps : StrMap (List String)) (service : String) : List String :=
  (deps[service]?.getD []).map Strings.toLower

/-- All the names in the `DEPENDS` lists. -/
def dependentNames (deps : StrMap (List String)) : List String :=
  deps.valuesList.flatten.map Strings.toLower

/-- `services.DependencyClosure`.  The search takes a turn for every root and one for
every service it finds. -/
def dependencyClosure (deps : StrMap (List String)) (roots : List String) : List String :=
  (Closure.search (allDependents deps) roots (roots.length + (dependentNames deps).length)
    ⟨roots, []⟩).insertionSort (· ≤ ·)

theorem mem_dependentNames {deps : StrMap (List String)} {service dependent : String}
    (h : dependent ∈ allDependents deps service) : dependent ∈ dependentNames deps := by
  obtain ⟨name, hname, rfl⟩ := List.mem_map.mp h
  cases hlist : deps[service]? with
  | none => simp [hlist] at hname
  | some names =>
    rw [hlist] at hname
    refine List.mem_map_of_mem (List.mem_flatten.mpr ⟨names, ?_, hname⟩)
    exact (OrdMap.mem_valuesList_iff deps names).mpr ⟨service, hlist⟩

/-- **The closure of the roots** is what they reach through `DEPENDS`. -/
theorem mem_dependencyClosure_iff (deps : StrMap (List String)) (roots : List String)
    (service : String) :
    service ∈ roots ∨ service ∈ dependencyClosure deps roots ↔
      ∃ root ∈ roots, Relation.ReflTransGen (fun a b => b ∈ allDependents deps a) root service := by
  rw [dependencyClosure, List.mem_insertionSort]
  have htargets : ∀ a, ∀ b ∈ allDependents deps a, b ∈ (dependentNames deps).toFinset :=
    fun a b hb => List.mem_toFinset.mpr (mem_dependentNames hb)
  have hcard := List.toFinset_card_le (dependentNames deps)
  exact Closure.mem_search_iff htargets (by omega) service

end Configd
