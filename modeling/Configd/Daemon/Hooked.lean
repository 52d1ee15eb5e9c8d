import Configd.Daemon.Cycle
import Configd.Services.Hooks
import Configd.Services.Shared

/-!
# The daemon on service hooks

A daemon with a hooks file checks it once, against the first `zmconfigd.cf` it parses
(`validateHooks`, called by `checkHooks`), and ends when hooks are missing.  From then on it
acts on services through the hooks only: the restart policy queues the services of a plan, and
`ProcessRestarts` restarts them; without systemd a start or a stop is queued as a restart, too;
the watchdog, which runs whether `zmconfigd_watchdog` is set or not, probes the services of its
list and queues one that is down, and its pass over the queue cascades through `DEPENDS`.

`validateHooks` looks at the `RESTART` lines of the sections in scope and what they cascade into.
So a hook can be missing for a service that was disabled (`restart_hook_missing`).  `HooksCover`
says what has to be covered beside; `no_hook_missing` is the result for runs.
-/

namespace Configd

open Lib

/-! ## The check of the hooks -/

/-- What a daemon on service hooks is started with. -/
structure HookSetup where
  backend : HookBackend
  /-- `zmconfigd_sections`. -/
  scope : List String := []
  /-- `zmconfigd_watchdog_services`. -/
  wdList : List String := []
  /-- `zmconfigd_watchdog`. -/
  watchdogOn : Bool := true

/-- `sectionDependencies`: the `DEPENDS` list of each section that has one. -/
def sectionDependencies (sections : StrMap MtaConfigSection) : StrMap (List String) :=
  sections.filterMap fun _ sec => if sec.depends.isEmpty then none else some sec.depends.keys

namespace HookSetup

def watchdogServices (setup : HookSetup) : List String :=
  if setup.wdList.isEmpty then ["antivirus"] else setup.wdList

/-- The services that the `RESTART` lines of the sections in scope name. -/
def restartNames (setup : HookSetup) (conf : MtaConfig) : List String :=
  ((conf.sections.toList.filter fun entry =>
    setup.scope.isEmpty || entry.1 ∈ setup.scope).flatMap fun entry =>
      restartServices entry.2).dedup.insertionSort (· ≤ ·)

def validateHooks (setup : HookSetup) (conf : MtaConfig) : Except String Unit :=
  let restart := setup.restartNames conf
  let closure := dependencyClosure (sectionDependencies conf.sections) restart
  setup.backend.validate ((restart ++ closure).dedup.insertionSort (· ≤ ·))
    (if setup.watchdogOn then setup.watchdogServices else [])

/-- The service, and everything its restart cascades into, has a restart hook, if
the registry knows it. -/
def Covers (setup : HookSetup) (deps : StrMap (List String)) (service : String) : Prop :=
  ∀ name ∈ Strings.toLower service :: dependencyClosure deps [Strings.toLower service],
    ¬ setup.backend.Lacks name .restart

instance (setup : HookSetup) (deps : StrMap (List String)) (service : String) :
    Decidable (setup.Covers deps service) :=
  inferInstanceAs (Decidable (∀ name ∈ _, _))

theorem covers_iff (setup : HookSetup) (deps : StrMap (List String)) (service : String) :
    setup.Covers deps service ↔
      ∀ name, Relation.ReflTransGen (fun a b => b ∈ allDependents deps a)
        (Strings.toLower service) name → ¬ setup.backend.Lacks name .restart := by
  have hclosure := mem_dependencyClosure_iff deps [Strings.toLower service]
  simp only [List.mem_singleton, exists_eq_left] at hclosure
  simp only [Covers, List.mem_cons, hclosure]

variable {service : String}

/-- **What the check establishes.**  The `RESTART` services of the sections in scope
are covered, and with the watchdog on its services have status hooks. -/
theorem covers_of_validateHooks {setup : HookSetup} {conf : MtaConfig}
    (hvalid : setup.validateHooks conf = .ok ()) :
    (∀ sn sec, conf.sections[sn]? = some sec →
        (setup.scope.isEmpty || sn ∈ setup.scope) = true →
        ∀ service ∈ restartServices sec,
          setup.Covers (sectionDependencies conf.sections) service) ∧
      (setup.watchdogOn = true → ∀ service ∈ setup.watchdogServices,
        ¬ setup.backend.Lacks service .status) := by
  rw [validateHooks, HookBackend.validate_ok_iff] at hvalid
  obtain ⟨hrestart, hstatus⟩ := hvalid
  constructor
  · intro sn sec hsec hscope service hservice
    have hlower : Strings.toLower service = service := by
      obtain ⟨name, -, rfl⟩ := List.mem_map.mp hservice
      exact Strings.toLower_toLower name
    rw [covers_iff, hlower]
    intro name hreach
    apply HookBackend.not_lacks_of_covered
    apply hrestart
    rw [List.mem_insertionSort, List.mem_dedup, List.mem_append, mem_dependencyClosure_iff]
    refine ⟨service, ?_, hreach⟩
    have hmem := Std.ExtTreeMap.mem_toList_iff_getElem?_eq_some.mpr hsec
    rw [restartNames, List.mem_insertionSort, List.mem_dedup]
    exact List.mem_flatMap.mpr ⟨(sn, sec), List.mem_filter.mpr ⟨hmem, hscope⟩, hservice⟩
  · intro hon service hservice
    apply HookBackend.not_lacks_of_covered
    apply hstatus
    rwa [if_pos hon]

end HookSetup

/-! ## The daemon -/

/-- A call that goes through the hooks: a restart or a status. -/
structure HookCall where
  service : String
  action : HookAction
  deriving DecidableEq

structure HookedDaemon where
  daemon : Daemon := {}
  sm : ServiceManager := {}
  hooksChecked : Bool := false
  /-- The hooks did not cover the configuration, and the daemon has ended. -/
  exited : Bool := false
  monitored : List String := []
  /-- The calls that were made through the hooks. -/
  calls : List HookCall := []

/-- An event of the daemon, or a call of the watchdog, which runs beside it. -/
inductive HookedEvent
  | request (sections : List String)
  | load (load : StagedLoad)
  | parse (fs : Files) (raw : MtaConfig)
  | plan (files : Files)
  | execute (env : ExecEnv)
  | applyRestarts (settings : Settings) (now : Int)
  /-- `Policy.process`: the pass of the policy. -/
  | processRestarts (env : RestartEnv) (fuel : Nat)
  | finish
  | probe (service : String)
  /-- The watchdog queues a service that is down. -/
  | watchdogAdd (service : String)
  /-- The pass of the watchdog. -/
  | watchdogProcess (env : RestartEnv) (lookup : String → String) (fuel : Nat)

namespace HookedDaemon

/-- The environment of `Plan`: the host is not a systemd one. -/
def planEnv (setup : HookSetup) (files : Files) : PlanEnv where
  files := files
  scope := setup.scope
  systemd := false

/-- The service manager queues every restart. -/
def hostEnv (now : Int) : HostEnv := ⟨false, now, fun _ => .ok⟩

/-- `ProcessRestarts`, with at most so many turns; every attempt is a call. -/
def process (s : HookedDaemon) (env : RestartEnv) (lookup : Option (String → String))
    (fuel : Nat) : HookedDaemon :=
  if s.sm.disableRestarts then { s with sm := s.sm.clearRestarts }
  else
    let pass := RestartPass.turns env lookup fuel { sm := s.sm }
    { s with
      sm := pass.sm
      calls := s.calls ++ pass.attempts.map fun attempt => ⟨attempt.service, .restart⟩ }

/-- `checkHooks`, after a configuration was parsed. -/
def checkHooks (setup : HookSetup) (s : HookedDaemon) : HookedDaemon :=
  if s.hooksChecked then s
  else
    match setup.validateHooks s.daemon.conf with
    | .ok () => { s with hooksChecked := true }
    | .error _ => { s with exited := true }

/-- The dependency and plan phases.  The first plan of the first run tells the
watchdog what to monitor. -/
def plan (setup : HookSetup) (s : HookedDaemon) (files : Files) : HookedDaemon :=
  let next := s.daemon.plan (planEnv setup files)
  { s with
    daemon := next
    sm.dependencies := sectionDependencies s.daemon.conf.sections
    monitored :=
      if s.daemon.firstRun && next.phase.plan.isSome then setup.watchdogServices
      else s.monitored }

/-- One event of a daemon that has not ended. -/
def act (setup : HookSetup) (s : HookedDaemon) : HookedEvent → HookedDaemon
  | .request sections => { s with daemon := s.daemon.step (.request sections) }
  | .load load => { s with daemon := s.daemon.step (.load load) }
  | .parse fs raw => checkHooks setup { s with daemon := s.daemon.step (.parse fs raw) }
  | .plan files =>
    if s.hooksChecked ∧ s.daemon.phase = .idle then s.plan setup files else s
  | .execute env => { s with daemon := s.daemon.step (.execute env) }
  | .applyRestarts settings now =>
    { s with
      daemon := s.daemon.step (.applyRestarts settings (hostEnv now))
      sm := (s.daemon.dispatched (.applyRestarts settings (hostEnv now))).foldl
        (fun sm entry => sm.addRestart entry.service entry.reasons) s.sm }
  | .processRestarts env fuel =>
    if s.daemon.phase = .completed then s.process env none fuel else s
  | .finish => { s with daemon := s.daemon.step .finish }
  | .probe service =>
    if service ∈ s.monitored then { s with calls := s.calls ++ [⟨service, .status⟩] } else s
  | .watchdogAdd service =>
    if service ∈ s.monitored then { s with sm := s.sm.addRestart service [] } else s
  | .watchdogProcess env lookup fuel => s.process env (some lookup) fuel

def step (setup : HookSetup) (s : HookedDaemon) (e : HookedEvent) : HookedDaemon :=
  if s.exited then s else s.act setup e

/-! ## What has to be covered -/

/-- The next plan starts or stops the service. -/
def Toggled (d : Daemon) (service : String) : Prop :=
  if d.snap.serviceEnabled service then service ∉ d.tracked ∧ d.firstRun = false
  else service ∈ d.tracked

instance (d : Daemon) (service : String) : Decidable (Toggled d service) := by
  unfold Toggled
  infer_instance

/-- The services with a restart that is still to be carried out. -/
def outstanding (s : HookedDaemon) : List String :=
  (s.daemon.carry.restarts ++ s.daemon.deferred).map Restart.service ++
    s.daemon.policy.pending.keys ++ s.sm.restartQueue.keys

/-- What an event asks of the hooks beyond the check at the start. -/
def HooksCover (setup : HookSetup) (s : HookedDaemon) : HookedEvent → Prop
  | .plan _ => s.daemon.phase = .idle → s.hooksChecked = true →
      setup.validateHooks s.daemon.conf = .ok () ∧
      (∀ service ∈ s.daemon.snap.serviceNames ++ s.daemon.tracked.keys,
        Toggled s.daemon service →
          setup.Covers (sectionDependencies s.daemon.conf.sections) service) ∧
      (sectionDependencies s.daemon.conf.sections ≠ s.sm.dependencies →
        ∀ service ∈ s.outstanding,
          setup.Covers (sectionDependencies s.daemon.conf.sections) service)
  | .watchdogAdd service => service ∈ s.monitored → setup.Covers s.sm.dependencies service
  | .probe service => service ∈ s.monitored → setup.watchdogOn = false →
      ¬ setup.backend.Lacks service .status
  | _ => True

instance (setup : HookSetup) (s : HookedDaemon) : ∀ e, Decidable (s.HooksCover setup e)
  | .plan _ => inferInstanceAs (Decidable (_ → _ → _ ∧ (∀ service ∈ _, _) ∧ (_ → ∀ service ∈ _, _)))
  | .watchdogAdd _ => inferInstanceAs (Decidable (_ → _))
  | .probe _ => inferInstanceAs (Decidable (_ → _ → _))
  | .request _ | .load _ | .parse _ _ | .execute _ | .applyRestarts _ _ | .processRestarts _ _
  | .finish | .watchdogProcess _ _ _ => inferInstanceAs (Decidable True)

/-! ## The services a daemon has restarts of -/

/-- Every service with a restart in the daemon is one of `P`. -/
structure Names (P : String → Prop) (d : Daemon) : Prop where
  plan : ∀ pl, d.phase.plan = some pl → ∀ r ∈ pl.restarts, P r.service
  carry : ∀ r ∈ d.carry.restarts, P r.service
  deferred : ∀ r ∈ d.deferred, P r.service
  pending : ∀ service ∈ d.policy.pending, P service

section Names

variable {P : String → Prop} {d : Daemon}

theorem forall_mem_mergeRestarts {stale fresh : List Restart} (systemd : Bool)
    (hstale : ∀ r ∈ stale, P r.service) (hfresh : ∀ r ∈ fresh, P r.service) :
    ∀ r ∈ mergeRestarts stale fresh systemd, P r.service := by
  intro r hr
  rcases mem_mergeRestarts hr with ⟨f, hf, hsame, -⟩ | ⟨-, t, ht, hsame, -⟩
  · exact hsame ▸ hfresh f hf
  · exact hsame ▸ hstale t ht

theorem names_compute {env : PlanEnv} {pl : Plan} (hpl : compute (d.input env) = some pl)
    (htoggled : ∀ service, Toggled d service → P service)
    (hsections : ∀ sn sec, d.conf.sections[sn]? = some sec →
      (env.scope.isEmpty || sn ∈ env.scope) = true → ∀ service ∈ restartServices sec, P service)
    (hcarry : ∀ r ∈ d.carry.restarts, P r.service) :
    (∀ r ∈ pl.restarts, P r.service) ∧ ∀ r ∈ pl.deferredRestarts, P r.service := by
  have hprocessed : ∀ (entry : String × MtaConfigSection) (service : String),
      entry ∈ d.conf.sections.toList → isProcessed (d.input env) entry.1 entry.2 = true →
      service ∈ restartServices entry.2 → P service := by
    intro entry service hentry hproc hservice
    have hscope : inScope (d.input env) entry.1 = true := by
      simp only [isProcessed, isConsidered, Bool.and_eq_true] at hproc
      exact hproc.1.1
    exact hsections entry.1 entry.2 (Std.ExtTreeMap.mem_toList_iff_getElem?_eq_some.mp hentry)
      hscope service hservice
  constructor
  · intro r hr
    obtain ⟨action, haction, -⟩ :=
      (asks_plan_restarts hpl rfl r.service r.action).mp ⟨r, hr, rfl, rfl⟩
    rw [restartAction] at haction
    by_cases hany : (d.input env).conf.sections.toList.any
        (restartsNow (d.input env) r.service) = true
    · obtain ⟨entry, hentry, hnow⟩ := List.any_eq_true.mp hany
      simp only [restartsNow, Bool.and_eq_true, decide_eq_true_eq] at hnow
      exact hprocessed entry r.service hentry hnow.1.1 hnow.2
    · rw [if_neg hany, Option.none_or] at haction
      cases htoggle : toggleAction (d.input env) r.service with
      | some toggle =>
        apply htoggled
        unfold toggleAction at htoggle
        show if d.snap.serviceEnabled r.service = true then _ else _
        have hservices : (d.input env).cur.serviceEnabled r.service =
          d.snap.serviceEnabled r.service := rfl
        rw [hservices] at htoggle
        split at htoggle
        · rename_i henabled
          rw [if_pos henabled]
          split at htoggle
          · cases htoggle
          · rename_i huntracked
            simpa [Daemon.input] using huntracked
        · rename_i hdisabled
          rw [if_neg hdisabled]
          split at htoggle
          · rename_i htracked
            exact htracked
          · cases htoggle
      | none =>
        rw [htoggle, Option.none_or, carryAction] at haction
        obtain ⟨entry, hentry, -⟩ := Option.map_eq_some_iff.mp haction
        have hservice : entry.service = r.service := by simpa using List.find?_some hentry
        exact hservice ▸ hcarry entry (List.mem_of_find?_eq_some hentry)
  · intro r hr
    obtain ⟨action, haction, -⟩ :=
      (asks_plan_deferred hpl rfl r.service r.action).mp ⟨r, hr, rfl, rfl⟩
    rw [deferredAction] at haction
    split at haction
    · rename_i hany
      obtain ⟨entry, hentry, hlater⟩ := List.any_eq_true.mp hany
      simp only [restartsDeferred, Bool.and_eq_true, decide_eq_true_eq] at hlater
      exact hprocessed entry r.service hentry hlater.1.1 hlater.2
    · cases haction

theorem names_plan (h : Names P d) (env : PlanEnv)
    (htoggled : ∀ service, Toggled d service → P service)
    (hsections : ∀ sn sec, d.conf.sections[sn]? = some sec →
      (env.scope.isEmpty || sn ∈ env.scope) = true → ∀ service ∈ restartServices sec, P service) :
    Names P (d.plan env) := by
  rcases d.plan_cases env with ⟨-, heq⟩ | ⟨pl, hpl, heq⟩ <;> rw [heq]
  · exact ⟨h.plan, h.carry, h.deferred, h.pending⟩
  · obtain ⟨hrestarts, hlater⟩ := names_compute hpl htoggled hsections h.carry
    have hheld : ∀ r ∈ Daemon.hold d.deferred pl.deferredRestarts env.systemd, P r.service := by
      unfold Daemon.hold
      split
      · exact h.deferred
      · exact forall_mem_mergeRestarts _ h.deferred hlater
    have hhold : (∀ r ∈ (Daemon.holdDeferred d.deferred pl d.releases env.systemd).1, P r.service) ∧
        ∀ r ∈ (Daemon.holdDeferred d.deferred pl d.releases env.systemd).2.restarts,
          P r.service := by
      unfold Daemon.holdDeferred
      simp only
      split
      · exact ⟨hheld, hrestarts⟩
      · exact ⟨by simp, forall_mem_mergeRestarts _ hheld hrestarts⟩
    refine ⟨?_, h.carry, hhold.1, h.pending⟩
    intro pl' hpl'
    cases hpl'
    exact hhold.2

theorem names_step (h : Names P d) {e : Event} (he : e.isPlan = false) : Names P (d.step e) := by
  rcases d.step_cases e with heq | ⟨_, -, heq⟩ | ⟨_, -, -, heq⟩ | ⟨_, _, -, -, heq⟩ |
    ⟨env, rfl, -, -⟩ | ⟨env, pl, -, hphase, heq⟩ | ⟨settings, env, pl, -, hphase, heq⟩ |
    ⟨-, -, heq⟩
  · rwa [heq]
  · rw [heq]
    exact ⟨h.plan, h.carry, h.deferred, h.pending⟩
  · rw [heq]
    exact ⟨h.plan, h.carry, h.deferred, h.pending⟩
  · rw [heq]
    exact ⟨h.plan, h.carry, h.deferred, h.pending⟩
  · cases he
  · have hpl : ∀ r ∈ pl.restarts, P r.service := h.plan pl (by rw [hphase]; rfl)
    rw [heq]
    refine ⟨?_, hpl, h.deferred, h.pending⟩
    intro pl' hpl'
    simp only [Daemon.executePlan] at hpl'
    split at hpl'
    · cases hpl'
    · cases hpl'
      exact hpl
  · have hpl : ∀ r ∈ pl.restarts, P r.service := h.plan pl (by rw [hphase]; rfl)
    obtain ⟨-, hpending, hcarry⟩ := Policy.apply_names h.pending hpl settings env
    rw [heq]
    exact ⟨by simp [Daemon.applyRestarts, Phase.plan], hcarry, h.deferred, hpending⟩
  · rw [heq]
    exact ⟨by simp [Phase.plan], h.carry, h.deferred, h.pending⟩

theorem names_dispatched (h : Names P d) (settings : Settings) (env : HostEnv) :
    ∀ x ∈ d.dispatched (.applyRestarts settings env), P x.service := by
  cases hphase : d.phase with
  | executed pl =>
    have hpl : ∀ r ∈ pl.restarts, P r.service := h.plan pl (by rw [hphase]; rfl)
    simpa only [Daemon.dispatched, hphase] using
      (Policy.apply_names h.pending hpl settings env).1
  | idle | planned | completed => simp [Daemon.dispatched, hphase]

end Names

/-! ## The passes over the queue -/

/-- The service is on the queue under the name it is looked up with, and covered. -/
def Ready (setup : HookSetup) (deps : StrMap (List String)) (service : String) : Prop :=
  Strings.toLower service = service ∧ setup.Covers deps service

theorem ready_of_mem_dependentsOf {setup : HookSetup} {deps : StrMap (List String)}
    {lookup : Option (String → String)} {dependent : String}
    (hservice : Ready setup deps service) (h : dependent ∈ dependentsOf deps lookup service) :
    Ready setup deps dependent := by
  obtain ⟨hlower, hcovers⟩ := hservice
  have hmem : dependent ∈ allDependents deps service := by
    cases lookup with
    | none => cases h
    | some lookup => exact (List.mem_filter.mp h).1
  have hdependent : Strings.toLower dependent = dependent := by
    obtain ⟨name, -, rfl⟩ := List.mem_map.mp hmem
    exact Strings.toLower_toLower name
  refine ⟨hdependent, ?_⟩
  rw [HookSetup.covers_iff, hlower] at hcovers
  rw [HookSetup.covers_iff, hdependent]
  exact fun name hreach => hcovers name (.head hmem hreach)

/-- **A pass restarts covered services only**, when every service on the queue is
covered, and leaves covered ones on it. -/
theorem ready_turns (setup : HookSetup) (env : RestartEnv) (lookup : Option (String → String))
    (fuel : Nat) {sm : ServiceManager}
    (hqueue : ∀ service, sm.queued service = true → Ready setup sm.dependencies service) :
    let pass := RestartPass.turns env lookup fuel { sm := sm }
    pass.sm.dependencies = sm.dependencies ∧
      (∀ service, pass.sm.queued service = true → Ready setup sm.dependencies service) ∧
      ∀ attempt ∈ pass.attempts, Ready setup sm.dependencies attempt.service := by
  refine RestartPass.turns_induction (motive := fun pass : RestartPass =>
    pass.sm.dependencies = sm.dependencies ∧
      (∀ service, pass.sm.queued service = true → Ready setup sm.dependencies service) ∧
      ∀ attempt ∈ pass.attempts, Ready setup sm.dependencies attempt.service) ?_ ?_ fuel
    ⟨rfl, hqueue, by simp⟩
  · rintro p service ⟨hdeps, hready, hattempts⟩ hqueued
    have hservice := hready service hqueued
    have hnames : ∀ attempt ∈ (p.attemptServiceRestart env lookup service).2.attempts,
        Ready setup sm.dependencies attempt.service := by
      intro attempt hattempt
      rw [RestartPass.attempts_attempt, List.mem_append, List.mem_singleton] at hattempt
      rcases hattempt with hold | rfl
      · exact hattempts attempt hold
      · exact hservice
    obtain ⟨-, ⟨-, hsm⟩ | ⟨-, hsm | hsm⟩⟩ := RestartPass.attempt_outcome env lookup p service <;>
      rw [hsm]
    · refine ⟨(ServiceManager.dependencies_restarted _ _ _).trans hdeps, ?_, hnames⟩
      intro other hother
      rw [ServiceManager.queued_restarted, hdeps] at hother
      rcases hother with ⟨-, hold⟩ | hdependent
      · exact hready other hold
      · exact ready_of_mem_dependentsOf hservice hdependent
    · exact ⟨hdeps, hready, hnames⟩
    · refine ⟨hdeps, fun other hother => ?_, hnames⟩
      exact hready other ((ServiceManager.queued_dequeue _ _ _).mp hother).2
  · rintro p marks hp
    exact hp

/-! ## The invariant -/

structure Inv (setup : HookSetup) (s : HookedDaemon) : Prop where
  names : Names (setup.Covers s.sm.dependencies) s.daemon
  queue : ∀ service, s.sm.queued service = true → Ready setup s.sm.dependencies service
  calls : ∀ c ∈ s.calls, ¬ setup.backend.Lacks c.service c.action
  /-- The check has looked at the status hooks. -/
  checked : s.hooksChecked = true → setup.watchdogOn = true →
    ∀ service ∈ setup.watchdogServices, ¬ setup.backend.Lacks service .status
  monitored : ∀ service ∈ s.monitored, s.hooksChecked = true ∧ service ∈ setup.watchdogServices

variable {setup : HookSetup} {s : HookedDaemon}

theorem Inv.withDaemon (h : s.Inv setup) {d : Daemon}
    (hd : Names (setup.Covers s.sm.dependencies) d) : Inv setup { s with daemon := d } :=
  ⟨hd, h.queue, h.calls, h.checked, h.monitored⟩

theorem inv_checkHooks (h : s.Inv setup) : (s.checkHooks setup).Inv setup := by
  unfold checkHooks
  split
  · exact h
  · split
    · rename_i hvalid
      exact ⟨h.names, h.queue, h.calls, fun _ => (HookSetup.covers_of_validateHooks hvalid).2,
        fun service hservice => ⟨rfl, (h.monitored service hservice).2⟩⟩
    · exact ⟨h.names, h.queue, h.calls, h.checked, h.monitored⟩

theorem inv_process (h : s.Inv setup) (env : RestartEnv) (lookup : Option (String → String))
    (fuel : Nat) : (s.process env lookup fuel).Inv setup := by
  unfold process
  split
  · refine ⟨h.names, ?_, h.calls, h.checked, h.monitored⟩
    intro service hservice
    simp [ServiceManager.clearRestarts, ServiceManager.queued] at hservice
  · obtain ⟨hdeps, hqueue, hattempts⟩ := ready_turns setup env lookup fuel h.queue
    refine ⟨?_, ?_, ?_, h.checked, h.monitored⟩
    · show Names (setup.Covers (RestartPass.turns env lookup fuel { sm := s.sm }).sm.dependencies) _
      rw [hdeps]
      exact h.names
    · show ∀ service, _ → Ready setup
        (RestartPass.turns env lookup fuel { sm := s.sm }).sm.dependencies service
      rw [hdeps]
      exact hqueue
    · intro c hc
      rcases List.mem_append.mp hc with hold | hnew
      · exact h.calls c hold
      · obtain ⟨attempt, hattempt, rfl⟩ := List.mem_map.mp hnew
        obtain ⟨hlower, hcovers⟩ := hattempts attempt hattempt
        rw [HookSetup.covers_iff, hlower] at hcovers
        exact hcovers _ .refl

theorem ready_addRestart {deps : StrMap (List String)} {sm : ServiceManager}
    (hqueue : ∀ service, sm.queued service = true → Ready setup deps service)
    (hcovers : setup.Covers deps service) (reasons : List String) :
    ∀ other, (sm.addRestart service reasons).queued other = true → Ready setup deps other := by
  intro other hother
  rcases (ServiceManager.queued_addRestart _ _ _ _).mp hother with rfl | hold
  · refine ⟨Strings.toLower_toLower _, ?_⟩
    rwa [HookSetup.covers_iff, Strings.toLower_toLower, ← HookSetup.covers_iff]
  · exact hqueue other hold

theorem mem_keys_of_queued {sm : ServiceManager}
    (h : sm.queued service = true) : service ∈ sm.restartQueue.keys := by
  rw [← ServiceManager.mem_pending, ServiceManager.pending, List.mem_toFinset] at h
  exact (List.mem_filter.mp h).1

theorem Inv.withDependencies (h : s.Inv setup) {deps : StrMap (List String)}
    (hidle : s.daemon.phase = .idle)
    (hcovers : deps ≠ s.sm.dependencies → ∀ service ∈ s.outstanding, setup.Covers deps service) :
    Names (setup.Covers deps) s.daemon ∧
      ∀ service, s.sm.queued service = true → Ready setup deps service := by
  by_cases hsame : deps = s.sm.dependencies
  · rw [hsame]
    exact ⟨h.names, h.queue⟩
  · have hall := hcovers hsame
    simp only [outstanding, List.mem_append, List.mem_map] at hall
    refine ⟨⟨?_, fun r hr => hall _ (Or.inl (Or.inl ⟨r, Or.inl hr, rfl⟩)),
      fun r hr => hall _ (Or.inl (Or.inl ⟨r, Or.inr hr, rfl⟩)),
      fun service hservice => hall _ (Or.inl (Or.inr (Std.ExtTreeMap.mem_keys.mpr hservice)))⟩, ?_⟩
    · simp [hidle, Phase.plan]
    · intro service hqueued
      exact ⟨(h.queue service hqueued).1, hall service (Or.inr (mem_keys_of_queued hqueued))⟩

theorem Toggled.mem {d : Daemon} (h : Toggled d service) :
    service ∈ d.snap.serviceNames ++ d.tracked.keys := by
  unfold Toggled at h
  rw [List.mem_append, Snapshot.mem_serviceNames, Std.ExtTreeMap.mem_keys]
  split at h
  · rename_i henabled
    exact Or.inl henabled
  · exact Or.inr h

theorem inv_plan (h : s.Inv setup) (files : Files) (hidle : s.daemon.phase = .idle)
    (hchecked : s.hooksChecked = true) (hcover : s.HooksCover setup (.plan files)) :
    (s.plan setup files).Inv setup := by
  obtain ⟨hvalid, htoggled, houtstanding⟩ := hcover hidle hchecked
  obtain ⟨hnames, hqueue⟩ := h.withDependencies hidle houtstanding
  refine ⟨?_, hqueue, h.calls, h.checked, ?_⟩
  · exact names_plan hnames (planEnv setup files)
      (fun service hservice => htoggled service hservice.mem hservice)
      (HookSetup.covers_of_validateHooks hvalid).1
  · intro service hservice
    refine ⟨hchecked, ?_⟩
    simp only [plan] at hservice
    split at hservice
    · exact hservice
    · exact (h.monitored service hservice).2

theorem ready_foldl_addRestart {sm : ServiceManager} {log : List Dispatch}
    (hqueue : ∀ service, sm.queued service = true → Ready setup sm.dependencies service)
    (hlog : ∀ x ∈ log, setup.Covers sm.dependencies x.service) :
    (log.foldl (fun sm entry => sm.addRestart entry.service entry.reasons) sm).dependencies =
        sm.dependencies ∧
      ∀ service,
        (log.foldl (fun sm entry => sm.addRestart entry.service entry.reasons) sm).queued service =
          true → Ready setup sm.dependencies service := by
  refine List.foldlRecOn (motive := fun next : ServiceManager =>
    next.dependencies = sm.dependencies ∧
      ∀ service, next.queued service = true → Ready setup sm.dependencies service) _ _
    ⟨rfl, hqueue⟩ ?_
  rintro next ⟨hdeps, hnext⟩ entry hentry
  exact ⟨hdeps, ready_addRestart hnext (hlog entry hentry) entry.reasons⟩

theorem inv_applyRestarts (h : s.Inv setup) (settings : Settings) (now : Int) :
    (s.act setup (.applyRestarts settings now)).Inv setup := by
  obtain ⟨hdeps, hqueue⟩ :=
    ready_foldl_addRestart h.queue (names_dispatched h.names settings (hostEnv now))
  have hnames : Names _ (s.daemon.step (.applyRestarts settings (hostEnv now))) :=
    names_step h.names rfl
  simp only [act]
  refine ⟨?_, ?_, h.calls, h.checked, h.monitored⟩
  · rw [hdeps]
    exact hnames
  · rw [hdeps]
    exact hqueue

theorem inv_act (h : s.Inv setup) {e : HookedEvent} (hcover : s.HooksCover setup e) :
    (s.act setup e).Inv setup := by
  cases e with
  | request sections => exact h.withDaemon (names_step h.names rfl)
  | load load => exact h.withDaemon (names_step h.names rfl)
  | execute env => exact h.withDaemon (names_step h.names rfl)
  | finish => exact h.withDaemon (names_step h.names rfl)
  | parse fs raw =>
    have hnames : Names _ (s.daemon.step (.parse fs raw)) := names_step h.names rfl
    exact inv_checkHooks (h.withDaemon hnames)
  | plan files =>
    simp only [act]
    split
    · rename_i hready
      exact inv_plan h files hready.2 hready.1 hcover
    · exact h
  | applyRestarts settings now => exact inv_applyRestarts h settings now
  | processRestarts env fuel =>
    simp only [act]
    split
    · exact inv_process h env none fuel
    · exact h
  | probe service =>
    simp only [act]
    split
    · rename_i hmonitored
      obtain ⟨hchecked, hlisted⟩ := h.monitored service hmonitored
      refine ⟨h.names, h.queue, ?_, h.checked, h.monitored⟩
      intro c hc
      rcases List.mem_append.mp hc with hold | hnew
      · exact h.calls c hold
      · rw [List.mem_singleton.mp hnew]
        cases hon : setup.watchdogOn with
        | true => exact h.checked hchecked hon service hlisted
        | false => exact hcover hmonitored hon
    · exact h
  | watchdogAdd service =>
    simp only [act]
    split
    · rename_i hmonitored
      exact ⟨h.names, ready_addRestart h.queue (hcover hmonitored) [], h.calls, h.checked,
        h.monitored⟩
    · exact h
  | watchdogProcess env lookup fuel => exact inv_process h env (some lookup) fuel

theorem inv_step (h : s.Inv setup) {e : HookedEvent} (hcover : s.HooksCover setup e) :
    (s.step setup e).Inv setup := by
  unfold step
  split
  · exact h
  · exact inv_act h hcover

/-! ## The result -/

def smallRegistry : Registry where
  services := Std.ExtTreeMap.ofList [("antivirus", "antivirus"), ("mta", "mta"),
    ("proxy", "proxy")] compare

/-- A hooks file with a restart hook for the given services, and with status hooks. -/
def restartHooks (services : List String) : HookBackend where
  registry := smallRegistry
  hooks := Std.ExtTreeMap.ofList (("*", fun action =>
      if action = .status then [⟨"process", .process⟩] else []) ::
    services.map fun service => (service, fun action =>
      if action = .restart then [⟨"skip", .skip⟩] else [])) compare

def mtaSection : MtaConfigSection where
  restarts := Std.ExtTreeMap.ofList [("mta", true)] compare

/-- A cycle up to its pass over the queue; the last restart of the pass fails when
its hook is missing. -/
def hookedCycle (services : List String) (hook : Bool) : List HookedEvent :=
  [.load (.ofServer [] services),
    .parse noFiles { sections := Std.ExtTreeMap.ofList [("mta", mtaSection)] compare },
    .plan noFiles, .execute .allOk, .applyRestarts ⟨true, 0⟩ 0,
    .processRestarts ⟨fun _ => hook, fun _ => false⟩ 3, .finish]

/-- A first cycle with the MTA, and a second one in which the proxy is enabled, too. -/
def proxyEnabled (hook : Bool) : List HookedEvent :=
  hookedCycle ["mta"] true ++ hookedCycle ["mta", "proxy"] hook

/-- **No hook is missing** in a run in which the hooks cover, beside what was checked
at the start, the services that are toggled, the services the watchdog restarts,
what they cascade into and the sections that appear later. -/
theorem no_hook_missing (setup : HookSetup) (disableRestarts : Bool) (events : List HookedEvent)
    (hcover : Along (step setup) (HooksCover setup)
      { sm := { disableRestarts := disableRestarts } } events) :
    ∀ c ∈ (Lib.run (step setup) { sm := { disableRestarts := disableRestarts } } events).calls,
      (∀ succeeds, setup.backend.run succeeds c.service c.action ≠ .missing) ∧
        (c.action = .status →
          ∀ probe, setup.backend.serviceStatus probe c.service ≠ .inl .missing) := by
  have hnames : Names (setup.Covers ∅) {} :=
    ⟨by simp [Phase.plan], by simp, by simp, by simp⟩
  have hinit : Inv setup { sm := { disableRestarts := disableRestarts } } :=
    ⟨hnames, by simp [ServiceManager.queued], by simp, by simp, by simp⟩
  intro c hc
  have hhook :=
    (run_invariant_along hinit (fun _ _ hinv hstep => inv_step hinv hstep) hcover).calls c hc
  refine ⟨fun _ hmissing => hhook ((HookBackend.run_missing_iff _ _ _ _).mp hmissing), ?_⟩
  intro hstatus probe hmissing
  rw [hstatus] at hhook
  exact hhook ((HookBackend.serviceStatus_missing_iff _ _ _).mp hmissing)

/-- The proxy has a restart hook, so it can be enabled: its start calls the hook. -/
theorem no_hook_missing_when_toggled :
    Along (step { backend := restartHooks ["mta", "proxy"] })
        (HooksCover { backend := restartHooks ["mta", "proxy"] })
        { sm := { disableRestarts := false } } (proxyEnabled true) ∧
      "proxy" ∈ (Lib.run (step { backend := restartHooks ["mta", "proxy"] })
        { sm := { disableRestarts := false } } (proxyEnabled true)).calls.map HookCall.service ∧
      ∀ c ∈ (Lib.run (step { backend := restartHooks ["mta", "proxy"] })
          { sm := { disableRestarts := false } } (proxyEnabled true)).calls,
        (∀ succeeds, (restartHooks ["mta", "proxy"]).run succeeds c.service c.action ≠ .missing) ∧
          (c.action = .status → ∀ probe,
            (restartHooks ["mta", "proxy"]).serviceStatus probe c.service ≠ .inl .missing) := by
  have hcover : Along (step { backend := restartHooks ["mta", "proxy"] })
      (HooksCover { backend := restartHooks ["mta", "proxy"] })
      { sm := { disableRestarts := false } } (proxyEnabled true) := by
    decide +kernel
  exact ⟨hcover, by decide +kernel, no_hook_missing _ false _ hcover⟩

/-- The hooks cover the `RESTART` line, and the check passes.  When the proxy is enabled
later, its start is queued as a restart, for which there is no hook. -/
theorem restart_hook_missing :
    HookSetup.validateHooks { backend := restartHooks ["mta"] }
        { sections := Std.ExtTreeMap.ofList [("mta", mtaSection)] compare } = .ok () ∧
      ∃ c ∈ (Lib.run (step { backend := restartHooks ["mta"] })
          { sm := { disableRestarts := false } } (proxyEnabled false)).calls,
        c.service = "proxy" ∧ (restartHooks ["mta"]).run (fun _ => true) c.service c.action =
          .missing := by
  decide +kernel

end HookedDaemon
end Configd
