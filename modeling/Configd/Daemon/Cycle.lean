import Configd.ConfigMgr.ExecuteSpec
import Configd.ConfigMgr.Observe
import Configd.Restart.Policy

/-!
# The cycles of the daemon

A cycle of the daemon (`cmd/configd/mainloop.go`, with the methods of `ConfigManager` it calls):

`load → parse → plan → execute → applyRestarts → finish`.

A plan is rejected when every service looks disabled, and a failed execution skips the restarts.
Requests of `REWRITE` clients arrive at any time.  `Daemon.step` is one such event; one that the
phase of the cycle does not allow changes nothing.  What the environment decides comes with the
event.  Forced sections belong to the standalone rewrite command, so no event sets them.
-/

namespace Configd

open Lib

/-- Where a cycle stands.  The plan is held from `Plan` to `ApplyRestarts`. -/
inductive Phase
  | idle
  | planned (pl : Plan)
  | executed (pl : Plan)
  | completed
  deriving DecidableEq

def Phase.plan : Phase → Option Plan
  | planned pl => some pl
  | executed pl => some pl
  | _ => none

/-- The state of the daemon: the shared state (`state.State`) and the memory of
the configuration manager (`ConfigManager`). -/
structure Daemon where
  snap : Snapshot := {}
  conf : MtaConfig := {}
  requested : StrMap String := ∅
  forced : StrMap String := ∅
  firstRun : Bool := true
  /-- The snapshot of the last successful plan. -/
  prev : Snapshot := {}
  tracked : StrMap TrackedStatus := ∅
  carry : Carry := {}
  deferred : List Restart := []
  policy : Policy := {}
  phase : Phase := .idle

/-- What a call of `Plan` depends on beside the state. -/
structure PlanEnv where
  files : Files
  scope : List String := []
  systemd : Bool := false

namespace Daemon

def addRequestedConfigs (sections : List String) (requested : StrMap String) : StrMap String :=
  sections.foldl (fun requested name => requested.insert name name) requested

/-- The first half of `ConfigManager.holdDeferred`: the restarts the plan defers
are held with those held already. -/
def hold (deferred fresh : List Restart) (systemd : Bool) : List Restart :=
  if fresh.isEmpty then deferred else mergeRestarts deferred fresh systemd

/-- `ConfigManager.holdDeferred`: what is held afterwards, and the plan with the
held restarts when they are released. -/
def holdDeferred (deferred : List Restart) (pl : Plan) (release systemd : Bool) :
    List Restart × Plan :=
  let held := hold deferred pl.deferredRestarts systemd
  if !release || held.isEmpty then (held, pl)
  else ([], { pl with restarts := mergeRestarts held pl.restarts systemd })

def input (d : Daemon) (env : PlanEnv) : Input where
  prev := d.prev
  cur := observe env.files d.snap d.conf
  conf := d.conf
  forced := d.forced.keys
  requested := d.requested.keys
  firstRun := d.firstRun
  tracked := d.tracked
  carry := d.carry
  scope := env.scope
  systemd := env.systemd

/-- The cycle is not a `REWRITE`, so that held restarts are released. -/
def releases (d : Daemon) : Bool :=
  !d.firstRun && d.requested.keys.isEmpty && d.forced.keys.isEmpty

/-- The state after a plan was computed. -/
def adopt (d : Daemon) (env : PlanEnv) (pl : Plan) : Daemon :=
  let (held, pl') := holdDeferred d.deferred pl d.releases env.systemd
  { d with
    snap := (d.input env).cur
    requested := ∅
    prev := (d.input env).cur
    tracked := pl.tracked
    deferred := held
    phase := .planned pl' }

/-- `ConfigManager.Plan`.  A rejected plan puts the requested sections back. -/
def plan (d : Daemon) (env : PlanEnv) : Daemon :=
  match compute (d.input env) with
  | none =>
    { d with
      snap := (d.input env).cur
      requested := addRequestedConfigs d.requested.keys ∅ }
  | some pl => d.adopt env pl

/-- `ConfigManager.Execute`, with the end of the cycle when it fails. -/
def executePlan (d : Daemon) (env : ExecEnv) (pl : Plan) : Daemon :=
  let result := execute env pl
  { d with
    carry := result.carry
    phase := if result.failed then .idle else .executed pl }

def applyRestarts (d : Daemon) (settings : Settings) (env : HostEnv) (pl : Plan) : Daemon :=
  let result := d.policy.apply pl.restarts settings env
  { d with
    carry := { d.carry with restarts := result.carry }
    policy := result.policy
    phase := .completed }

end Daemon

inductive Event
  | load (load : StagedLoad)
  | parse (fs : Files) (raw : MtaConfig)
  | request (sections : List String)
  | plan (env : PlanEnv)
  | execute (env : ExecEnv)
  | applyRestarts (settings : Settings) (env : HostEnv)
  | finish

def Event.isPlan : Event → Bool
  | plan _ => true
  | _ => false

namespace Daemon

def step (d : Daemon) : Event → Daemon
  | .request sections => { d with requested := addRequestedConfigs sections d.requested }
  | .load load =>
    match d.phase with
    | .idle => { d with snap := load.apply d.snap }
    | _ => d
  | .parse fs raw =>
    match d.phase with
    | .idle => { d with conf := parseMtaConfig fs d.snap raw }
    | _ => d
  | .plan env =>
    match d.phase with
    | .idle => d.plan env
    | _ => d
  | .execute env =>
    match d.phase with
    | .planned pl => d.executePlan env pl
    | _ => d
  | .applyRestarts settings env =>
    match d.phase with
    | .executed pl => d.applyRestarts settings env pl
    | _ => d
  | .finish =>
    match d.phase with
    | .completed => { d with firstRun := false, phase := .idle }
    | _ => d

def run (d : Daemon) (events : List Event) : Daemon :=
  events.foldl step d

@[simp] theorem run_nil (d : Daemon) : d.run [] = d := rfl

@[simp] theorem run_cons (d : Daemon) (e : Event) (rest : List Event) :
    d.run (e :: rest) = (d.step e).run rest := rfl

theorem run_append (d : Daemon) (before after : List Event) :
    d.run (before ++ after) = (d.run before).run after :=
  List.foldl_append

/-- **What an event can do.** -/
theorem step_cases (d : Daemon) (e : Event) :
    d.step e = d ∨
      (∃ sections, e = .request sections ∧
        d.step e = { d with requested := addRequestedConfigs sections d.requested }) ∨
      (∃ load, e = .load load ∧ d.phase = .idle ∧
        d.step e = { d with snap := load.apply d.snap }) ∨
      (∃ fs raw, e = .parse fs raw ∧ d.phase = .idle ∧
        d.step e = { d with conf := parseMtaConfig fs d.snap raw }) ∨
      (∃ env, e = .plan env ∧ d.phase = .idle ∧ d.step e = d.plan env) ∨
      (∃ env pl, e = .execute env ∧ d.phase = .planned pl ∧ d.step e = d.executePlan env pl) ∨
      (∃ settings env pl, e = .applyRestarts settings env ∧ d.phase = .executed pl ∧
        d.step e = d.applyRestarts settings env pl) ∨
      (e = .finish ∧ d.phase = .completed ∧
        d.step e = { d with firstRun := false, phase := .idle }) := by
  cases e <;> cases hphase : d.phase <;> simp [step, hphase]

/-- **What a plan can do.** -/
theorem plan_cases (d : Daemon) (env : PlanEnv) :
    (compute (d.input env) = none ∧
        d.plan env = { d with
          snap := (d.input env).cur
          requested := addRequestedConfigs d.requested.keys ∅ }) ∨
      ∃ pl, compute (d.input env) = some pl ∧ d.plan env = d.adopt env pl := by
  unfold plan
  cases hpl : compute (d.input env) with
  | none => exact Or.inl ⟨rfl, rfl⟩
  | some pl => exact Or.inr ⟨pl, rfl, rfl⟩

/-- The calls of `Policy.dispatch` an event makes. -/
def dispatched (d : Daemon) : Event → List Dispatch
  | .applyRestarts settings env =>
    match d.phase with
    | .executed pl => (d.policy.apply pl.restarts settings env).log
    | _ => []
  | _ => []

end Daemon
end Configd
