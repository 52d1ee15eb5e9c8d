import Configd.Plan.Deferred

/-!
# The restart policy

`restart.Policy` (`internal/restart/policy.go`) acts on the restarts of a plan.  With a debounce
period, requests are first recorded and a service is acted on once it has been quiet for the period;
without one, every request is acted on in the cycle it appears in, after what an earlier setting
still holds back.

A call to the host succeeds, fails, or is cut short by a shutdown, as the environment of the call
decides (`HostEnv.outcome`, indexed by how many requests this call has dispatched before).  What the
host was asked is recorded in the log of the call.

`Session.view` is everything a call knows about one service.  Dispatching a request changes the view
of its own service only (`dispatch_view_other`), in a way `Dispatched` describes; the loops follow
by the rules of `Configd.Lib.Loop` (`flush_view`, `queue_view_of_mem`, `record_of_mem`).
-/

namespace Configd

open Lib

def maxAttempts : Nat := 3

inductive CallResult
  | ok
  | failed
  /-- The call failed and the context was cancelled. -/
  | interrupted
  deriving DecidableEq

/-- What the host was asked to do about a request. -/
inductive HostCall
  | addRestart
  | applySystemd
  /-- Nothing but a log line: the restart is left to the operator. -/
  | flag
  deriving DecidableEq

inductive DispatchResult
  | done
  | flagged
  | retry
  | gaveUp
  | interrupted
  deriving DecidableEq

/-- One call of `Policy.dispatch`. -/
structure Dispatch where
  service : String
  action : Action
  reasons : List String
  kinds : List String
  call : HostCall
  result : DispatchResult
  deriving DecidableEq

/-- A debounced restart request (`restart.pendingRestart`). -/
structure PendingRestart where
  action : Action
  reasons : List String := []
  kinds : List String := []
  lastRequest : Int
  deriving DecidableEq

/-- The memory of the policy: the debounced requests and the number of failed
attempts of each service (`restart.Policy`). -/
structure Policy where
  pending : StrMap PendingRestart := ∅
  failures : StrMap Nat := ∅
  deriving DecidableEq

/-- The per-cycle settings (`restart.Settings`). -/
structure Settings where
  enabled : Bool
  debounce : Int
  deriving DecidableEq

/-- The host during one call of the policy. -/
structure HostEnv where
  systemd : Bool
  now : Int
  outcome : Nat → CallResult

/-- The policy in the middle of a call, with the log of the call. -/
structure Session extends Policy where
  log : List Dispatch := []
  deriving DecidableEq

/-- `reasonKinds`: the distinct kinds of the reasons, sorted. -/
def reasonKinds (reasons : List Reason) : List String :=
  ((reasons.map fun r => r.kind.text).foldl appendUnique []).insertionSort (· ≤ ·)

/-- `plan.Strings`. -/
def reasonTexts (reasons : List Reason) : List String :=
  reasons.map Reason.text

/-! ## Dispatching one request -/

/-- A failed attempt is counted; the third in a row is given up on. -/
def failedAttempt (failures : StrMap Nat) (service : String) : DispatchResult × StrMap Nat :=
  let count := failures[service]?.getD 0 + 1
  if count ≥ maxAttempts then (.gaveUp, failures.erase service)
  else (.retry, failures.insert service count)

/-- `Policy.queueLegacy`: hand the restart to the service manager. -/
def queueLegacy (env : HostEnv) (s : Session) (service : String) :
    DispatchResult × StrMap Nat :=
  match env.outcome s.log.length with
  | .ok => (.done, s.failures.erase service)
  | _ => failedAttempt s.failures service

/-- `Policy.applySystemd`: carry the action out on the units of the service.  An
action that a shutdown cut short is not a failed attempt. -/
def applySystemd (env : HostEnv) (s : Session) (service : String) :
    DispatchResult × StrMap Nat :=
  match env.outcome s.log.length with
  | .ok => (.done, s.failures.erase service)
  | .interrupted => (.interrupted, s.failures)
  | .failed => failedAttempt s.failures service

/-- The host call a request leads to. -/
def hostCall (systemd : Bool) (service : String) (action : Action) : HostCall :=
  if !systemd then .addRestart
  else if classify action service true = .pendingRestart then .flag
  else .applySystemd

/-- `Policy.dispatch`: act on one restart request. -/
def dispatch (env : HostEnv) (s : Session) (service : String) (action : Action)
    (reasons kinds : List String) : DispatchResult × Session :=
  let call := hostCall env.systemd service action
  let (result, failures) := match call with
    | .addRestart => queueLegacy env s service
    | .flag => (.flagged, s.failures)
    | .applySystemd => applySystemd env s service
  (result, { s with
    failures := failures
    log := s.log ++ [⟨service, action, reasons, kinds, call, result⟩] })

/-! ## One call of the policy -/

/-- One round of `Policy.record`: the latest action of a service wins, and its
quiet window starts again. -/
def recordOne (now : Int) (pending : StrMap PendingRestart) (e : Restart) :
    StrMap PendingRestart :=
  pending.upsert e.service { action := e.action, lastRequest := now } fun r =>
    { action := e.action
      reasons := (reasonTexts e.reasons).foldl appendUnique r.reasons
      kinds := (reasonKinds e.reasons).foldl appendUnique r.kinds
      lastRequest := now }

def record (now : Int) (pending : StrMap PendingRestart) (restarts : List Restart) :
    StrMap PendingRestart :=
  restarts.foldl (recordOne now) pending

/-- One round of `Policy.flush`: a request that must be tried again stays
pending. -/
def flushOne (env : HostEnv) (due : PendingRestart → Bool) (s : Session) (name : String) :
    Session :=
  match s.pending[name]? with
  | none => s
  | some r =>
    if due r then
      let (result, s') := dispatch env s name r.action r.reasons r.kinds
      if result = .retry then s' else { s' with pending := s'.pending.erase name }
    else s

/-- `Policy.flush`: act on the pending requests that are due, in the order of
their services. -/
def flush (env : HostEnv) (due : PendingRestart → Bool) (s : Session) : Session :=
  s.pending.keys.foldl (flushOne env due) s

/-- One round of `Policy.queue`: a restart that must be tried again is carried. -/
def queueOne (env : HostEnv) (state : Session × List Restart) (e : Restart) :
    Session × List Restart :=
  let (result, s') :=
    dispatch env state.1 e.service e.action (reasonTexts e.reasons) (reasonKinds e.reasons)
  (s', if result = .retry then state.2 ++ [e] else state.2)

/-- `Policy.queue`: act on every restart; the result are those to be tried
again. -/
def queue (env : HostEnv) (s : Session) (restarts : List Restart) : Session × List Restart :=
  restarts.foldl (queueOne env) (s, [])

structure ApplyResult where
  carry : List Restart
  policy : Policy
  log : List Dispatch
  deriving DecidableEq

/-- `Policy.Apply`: act on the restarts of a plan; the restarts that were not
consumed are returned as carry. -/
def Policy.apply (p : Policy) (restarts : List Restart) (settings : Settings) (env : HostEnv) :
    ApplyResult :=
  if !settings.enabled then
    { carry := restarts, policy := p, log := [] }
  else if settings.debounce ≤ 0 then
    let s := flush env (fun _ => true) { toPolicy := p }
    let (s, carry) := queue env s restarts
    { carry := carry, policy := s.toPolicy, log := s.log }
  else
    let s : Session :=
      { pending := record env.now p.pending restarts, failures := p.failures }
    let s := flush env (fun r => decide (env.now - r.lastRequest ≥ settings.debounce)) s
    { carry := [], policy := s.toPolicy, log := s.log }

/-! ## What a call does to one service -/

/-- Everything a call knows about one service. -/
structure ServiceView where
  pending : Option PendingRestart
  failures : Option Nat
  log : List Dispatch

def Session.view (s : Session) (service : String) : ServiceView where
  pending := s.pending[service]?
  failures := s.failures[service]?
  log := s.log.filter fun e => e.service = service

/-- What dispatching a request does to the view of its service: the log has one
entry more, and the failure count follows the result. -/
structure Dispatched (env : HostEnv) (service : String) (action : Action)
    (result : DispatchResult) (old new : ServiceView) : Prop where
  pending : new.pending = old.pending
  log : ∃ reasons kinds, new.log =
    old.log ++ [⟨service, action, reasons, kinds, hostCall env.systemd service action, result⟩]
  flagged : result = .flagged ↔ hostCall env.systemd service action = .flag
  interrupted : result = .interrupted → ∃ i, env.outcome i = .interrupted
  failures_flagged : result = .flagged → new.failures = old.failures
  failures_done : result = .done → new.failures = none
  failures_retry : result = .retry →
    old.failures.getD 0 + 1 < maxAttempts ∧ new.failures = some (old.failures.getD 0 + 1)
  failures_gaveUp : result = .gaveUp →
    maxAttempts ≤ old.failures.getD 0 + 1 ∧ new.failures = none

theorem failedAttempt_cases (failures : StrMap Nat) (service : String) :
    (failedAttempt failures service = (.gaveUp, failures.erase service) ∧
        maxAttempts ≤ failures[service]?.getD 0 + 1) ∨
      (failedAttempt failures service =
          (.retry, failures.insert service (failures[service]?.getD 0 + 1)) ∧
        failures[service]?.getD 0 + 1 < maxAttempts) := by
  unfold failedAttempt
  by_cases hcount : failures[service]?.getD 0 + 1 ≥ maxAttempts
  · exact Or.inl ⟨by simp only [hcount, if_true], hcount⟩
  · exact Or.inr ⟨by simp only [hcount, if_false], by omega⟩

/-- How the failure counts follow the result of a request that reached the
host. -/
inductive CountStep (env : HostEnv) (s : Session) (service : String) :
    DispatchResult → StrMap Nat → Prop
  | done : CountStep env s service .done (s.failures.erase service)
  | gaveUp (hcount : maxAttempts ≤ s.failures[service]?.getD 0 + 1) :
      CountStep env s service .gaveUp (s.failures.erase service)
  | retry (hcount : s.failures[service]?.getD 0 + 1 < maxAttempts) :
      CountStep env s service .retry (s.failures.insert service (s.failures[service]?.getD 0 + 1))
  | interrupted (hctx : env.outcome s.log.length = .interrupted) :
      CountStep env s service .interrupted s.failures

theorem countStep_failedAttempt (env : HostEnv) (s : Session) (service : String) :
    CountStep env s service (failedAttempt s.failures service).1
      (failedAttempt s.failures service).2 := by
  rcases failedAttempt_cases s.failures service with ⟨heq, hcount⟩ | ⟨heq, hcount⟩
  · rw [heq]
    exact .gaveUp hcount
  · rw [heq]
    exact .retry hcount

theorem countStep_queueLegacy (env : HostEnv) (s : Session) (service : String) :
    CountStep env s service (queueLegacy env s service).1 (queueLegacy env s service).2 := by
  unfold queueLegacy
  split
  · exact .done
  · exact countStep_failedAttempt env s service

theorem countStep_applySystemd (env : HostEnv) (s : Session) (service : String) :
    CountStep env s service (applySystemd env s service).1 (applySystemd env s service).2 := by
  unfold applySystemd
  split
  · exact .done
  · rename_i hctx
    exact .interrupted hctx
  · exact countStep_failedAttempt env s service

/-- **What `dispatch` can do**: flag the restart, or ask the host and count the
result. -/
theorem dispatch_cases (env : HostEnv) (s : Session) (service : String) (action : Action)
    (reasons kinds : List String) :
    ∃ result failures,
      dispatch env s service action reasons kinds =
        (result, { s with
          failures := failures
          log := s.log ++ [⟨service, action, reasons, kinds,
            hostCall env.systemd service action, result⟩] }) ∧
      ((hostCall env.systemd service action = .flag ∧ result = .flagged ∧
          failures = s.failures) ∨
        (hostCall env.systemd service action ≠ .flag ∧
          CountStep env s service result failures)) := by
  unfold dispatch
  cases hcall : hostCall env.systemd service action with
  | flag => exact ⟨.flagged, s.failures, rfl, Or.inl ⟨rfl, rfl, rfl⟩⟩
  | addRestart =>
    exact ⟨_, _, rfl, Or.inr ⟨by simp, countStep_queueLegacy env s service⟩⟩
  | applySystemd =>
    exact ⟨_, _, rfl, Or.inr ⟨by simp, countStep_applySystemd env s service⟩⟩

variable {service : String}

theorem countStep_other {env : HostEnv} {s : Session} {other : String}
    {result : DispatchResult} {failures : StrMap Nat}
    (hstep : CountStep env s service result failures) (hne : service ≠ other) :
    failures[other]? = s.failures[other]? := by
  cases hstep with
  | done => rw [OrdMap.getElem?_erase_iff, if_neg hne]
  | gaveUp => rw [OrdMap.getElem?_erase_iff, if_neg hne]
  | retry => rw [OrdMap.getElem?_insert_iff, if_neg hne]
  | interrupted => rfl

theorem dispatch_view_other (env : HostEnv) (s : Session) {other : String}
    (action : Action) (reasons kinds : List String) (hne : service ≠ other) :
    (dispatch env s service action reasons kinds).2.view other = s.view other := by
  obtain ⟨result, failures, heq, hcases⟩ := dispatch_cases env s service action reasons kinds
  have hfailures : failures[other]? = s.failures[other]? := by
    rcases hcases with ⟨-, -, rfl⟩ | ⟨-, hstep⟩
    · rfl
    · exact countStep_other hstep hne
  rw [heq]
  simp [Session.view, hfailures, hne]

theorem dispatch_view_self (env : HostEnv) (s : Session) (service : String) (action : Action)
    (reasons kinds : List String) :
    Dispatched env service action (dispatch env s service action reasons kinds).1
      (s.view service) ((dispatch env s service action reasons kinds).2.view service) := by
  obtain ⟨result, failures, heq, hcases⟩ := dispatch_cases env s service action reasons kinds
  rw [heq]
  have hlog : (s.log ++ [(⟨service, action, reasons, kinds,
      hostCall env.systemd service action, result⟩ : Dispatch)]).filter
        (fun e => e.service = service) =
      s.log.filter (fun e => e.service = service) ++
        [⟨service, action, reasons, kinds, hostCall env.systemd service action, result⟩] := by
    simp
  rcases hcases with ⟨hcall, rfl, rfl⟩ | ⟨hcall, hstep⟩
  · exact {
      pending := rfl
      log := ⟨reasons, kinds, hlog⟩
      flagged := by simp [hcall]
      interrupted := by simp
      failures_flagged := fun _ => rfl
      failures_done := by simp
      failures_retry := by simp
      failures_gaveUp := by simp }
  · have hflag : result ≠ .flagged := by
      cases hstep <;> simp
    refine {
      pending := rfl
      log := ⟨reasons, kinds, hlog⟩
      flagged := by simp [hcall, hflag]
      interrupted := ?_
      failures_flagged := fun h => absurd h hflag
      failures_done := ?_
      failures_retry := ?_
      failures_gaveUp := ?_ }
    · rintro rfl
      cases hstep with
      | interrupted hctx => exact ⟨_, hctx⟩
    · rintro rfl
      cases hstep with
      | done => simp [Session.view]
    · rintro rfl
      cases hstep with
      | retry hcount => exact ⟨hcount, by simp [Session.view]⟩
    · rintro rfl
      cases hstep with
      | gaveUp hcount => exact ⟨hcount, by simp [Session.view]⟩

/-- What `flush` does to the view of a service: a request that is due is
dispatched, and stays pending only when it must be tried again. -/
def Flushed (env : HostEnv) (due : PendingRestart → Bool) (service : String)
    (old new : ServiceView) : Prop :=
  match old.pending with
  | none => new = old
  | some r =>
    if due r then
      ∃ result mid, Dispatched env service r.action result old mid ∧
        new = { mid with pending := if result = .retry then some r else none }
    else new = old

theorem Flushed.cases {env : HostEnv} {due : PendingRestart → Bool}
    {old new : ServiceView} (hflush : Flushed env due service old new) :
    ((∀ r, old.pending = some r → due r = false) ∧ new = old) ∨
      ∃ r result mid, old.pending = some r ∧ due r = true ∧
        Dispatched env service r.action result old mid ∧
        new = { mid with pending := if result = .retry then some r else none } := by
  unfold Flushed at hflush
  split at hflush
  · rename_i hnone
    exact Or.inl ⟨by simp [hnone], hflush⟩
  · rename_i r hr
    split at hflush
    · rename_i hdue
      obtain ⟨result, mid, hstep, hnew⟩ := hflush
      exact Or.inr ⟨r, result, mid, hr, hdue, hstep, hnew⟩
    · rename_i hdue
      refine Or.inl ⟨?_, hflush⟩
      intro r' hr'
      have hsame : r = r' := by simpa [hr] using hr'
      rw [← hsame]
      simpa using hdue

theorem flushOne_view_other (env : HostEnv) (due : PendingRestart → Bool) (s : Session)
    (name other : String) (hne : name ≠ other) :
    (flushOne env due s name).view other = s.view other := by
  unfold flushOne
  cases hpending : s.pending[name]? with
  | none => rfl
  | some r =>
    have hother := dispatch_view_other env s r.action r.reasons r.kinds hne
    by_cases hdue : due r = true
    · by_cases hretry : (dispatch env s name r.action r.reasons r.kinds).1 = .retry
      · simp [hdue, hretry, hother]
      · simp only [hdue, hretry, if_true, if_false]
        rw [← hother]
        simp [Session.view, OrdMap.getElem?_erase_iff, hne]
    · simp [hdue]

theorem flushOne_view_self (env : HostEnv) (due : PendingRestart → Bool) (s : Session)
    (name : String) :
    Flushed env due name (s.view name) ((flushOne env due s name).view name) := by
  unfold flushOne Flushed
  cases hpending : s.pending[name]? with
  | none => simp [Session.view, hpending]
  | some r =>
    have hview : (s.view name).pending = some r := hpending
    have hself := dispatch_view_self env s name r.action r.reasons r.kinds
    rw [hview]
    by_cases hdue : due r = true
    · simp only [hdue, if_true]
      refine ⟨_, _, hself, ?_⟩
      have hkept := hself.pending.trans hview
      by_cases hretry : (dispatch env s name r.action r.reasons r.kinds).1 = .retry
      · simp only [hretry, if_true]
        rw [← hkept]
      · simp [hretry, Session.view]
    · simp [hdue]

/-- **`flush` acts service by service.** -/
theorem flush_view (env : HostEnv) (due : PendingRestart → Bool) (s : Session)
    (service : String) :
    Flushed env due service (s.view service) ((flush env due s).view service) := by
  have hnodup : (s.pending.keys.map id).Nodup := by
    rw [List.map_id, ← Std.ExtTreeMap.map_fst_toList_eq_keys]
    exact OrdMap.nodup_map_fst_toList s.pending
  by_cases hmem : service ∈ s.pending.keys
  · exact foldl_view_of_mem Session.view (flushOne env due) id (flushOne_view_other env due)
      (fun name old new => Flushed env due name old new) (flushOne_view_self env due)
      hnodup s hmem
  · have hsame : (flush env due s).view service = s.view service :=
      foldl_view_of_not_mem Session.view (flushOne env due) id (flushOne_view_other env due)
        s.pending.keys s service (by simpa using hmem)
    have hnone : (s.view service).pending = none := by
      rw [Std.ExtTreeMap.mem_keys, ← OrdMap.getElem?_eq_none_iff] at hmem
      exact hmem
    unfold Flushed
    rw [hnone]
    exact hsame

def queueView (state : Session × List Restart) (service : String) :
    ServiceView × List Restart :=
  (state.1.view service, state.2.filter fun e => e.service = service)

/-- What `queue` does to the view of the service of an entry. -/
def Queued (env : HostEnv) (e : Restart) (old new : ServiceView × List Restart) : Prop :=
  ∃ result, Dispatched env e.service e.action result old.1 new.1 ∧
    new.2 = old.2 ++ if result = .retry then [e] else []

theorem queueOne_view_other (env : HostEnv) (state : Session × List Restart) (e : Restart)
    (other : String) (hne : e.service ≠ other) :
    queueView (queueOne env state e) other = queueView state other := by
  have hother := dispatch_view_other env state.1 e.action (reasonTexts e.reasons)
    (reasonKinds e.reasons) hne
  by_cases hretry : (dispatch env state.1 e.service e.action (reasonTexts e.reasons)
      (reasonKinds e.reasons)).1 = .retry
  · simp [queueView, queueOne, hother, hretry, hne]
  · simp [queueView, queueOne, hother, hretry]

theorem queueOne_view_self (env : HostEnv) (state : Session × List Restart) (e : Restart) :
    Queued env e (queueView state e.service) (queueView (queueOne env state e) e.service) := by
  refine ⟨_, dispatch_view_self env state.1 e.service e.action (reasonTexts e.reasons)
    (reasonKinds e.reasons), ?_⟩
  by_cases hretry : (dispatch env state.1 e.service e.action (reasonTexts e.reasons)
      (reasonKinds e.reasons)).1 = .retry
  · simp [queueView, queueOne, hretry]
  · simp [queueView, queueOne, hretry]

variable {restarts : List Restart}

/-- **`queue` acts service by service**: the service of an entry. -/
theorem queue_view_of_mem (env : HostEnv) (s : Session)
    (hnodup : (restarts.map Restart.service).Nodup) {e : Restart} (hmem : e ∈ restarts) :
    Queued env e (s.view e.service, []) (queueView (queue env s restarts) e.service) :=
  foldl_view_of_mem queueView (queueOne env) Restart.service (queueOne_view_other env)
    (Queued env) (queueOne_view_self env) hnodup (s, []) hmem

theorem queue_view_of_not_mem (env : HostEnv) (s : Session)
    (hmem : service ∉ restarts.map Restart.service) :
    queueView (queue env s restarts) service = (s.view service, []) :=
  foldl_view_of_not_mem queueView (queueOne env) Restart.service (queueOne_view_other env)
    restarts (s, []) service hmem

theorem record_of_not_mem (now : Int) (pending : StrMap PendingRestart)
    (hmem : service ∉ restarts.map Restart.service) :
    (record now pending restarts)[service]? = pending[service]? := by
  refine foldl_view_of_not_mem (fun (pending : StrMap PendingRestart) k => pending[k]?)
    (recordOne now) Restart.service ?_ restarts pending service hmem
  intro pending e k hne
  exact OrdMap.getElem?_upsert_of_ne _ _ _ hne

theorem record_of_mem (now : Int) (pending : StrMap PendingRestart)
    (hnodup : (restarts.map Restart.service).Nodup) {e : Restart} (hmem : e ∈ restarts) :
    ∃ r, (record now pending restarts)[e.service]? = some r ∧ r.action = e.action ∧
      r.lastRequest = now := by
  refine foldl_view_of_mem (fun (pending : StrMap PendingRestart) k => pending[k]?)
    (recordOne now) Restart.service ?_
    (fun e _ new => ∃ r, new = some r ∧ r.action = e.action ∧ r.lastRequest = now) ?_
    hnodup pending hmem
  · intro pending e k hne
    exact OrdMap.getElem?_upsert_of_ne _ _ _ hne
  · intro pending e
    exact ⟨_, OrdMap.getElem?_upsert_self _ _ _ _, rfl, rfl⟩

/-! ## The services a call acts on -/

section Names

variable {P : String → Prop} {env : HostEnv} {s : Session}

/-- Every service that is pending or was dispatched is one of `P`. -/
structure Session.Names (P : String → Prop) (s : Session) : Prop where
  pending : ∀ service ∈ s.pending, P service
  log : ∀ x ∈ s.log, P x.service

theorem names_dispatch (h : s.Names P) (hservice : P service)
    (action : Action) (reasons kinds : List String) :
    (dispatch env s service action reasons kinds).2.Names P := by
  refine ⟨h.pending, fun x hx => ?_⟩
  rcases List.mem_append.mp hx with hold | hnew
  · exact h.log x hold
  · rw [List.mem_singleton.mp hnew]
    exact hservice

theorem names_flush (h : s.Names P) (due : PendingRestart → Bool) :
    (flush env due s).Names P := by
  unfold flush
  refine List.foldlRecOn (motive := Session.Names P) _ _ h ?_
  intro s' hs' name hname
  have hservice : P name := h.pending name (Std.ExtTreeMap.mem_keys.mp hname)
  unfold flushOne
  split
  · exact hs'
  · rename_i r _
    have hdispatch : (dispatch env s' name r.action r.reasons r.kinds).2.Names P :=
      names_dispatch hs' hservice _ _ _
    generalize dispatch env s' name r.action r.reasons r.kinds = outcome at hdispatch ⊢
    split
    · simp only
      split
      · exact hdispatch
      · refine ⟨fun other hother => hdispatch.pending other ?_, hdispatch.log⟩
        exact Std.ExtTreeMap.mem_of_mem_erase hother
    · exact hs'

theorem names_queue (h : s.Names P)
    (hrestarts : ∀ r ∈ restarts, P r.service) :
    (queue env s restarts).1.Names P ∧ ∀ r ∈ (queue env s restarts).2, P r.service := by
  unfold queue
  refine List.foldlRecOn (motive := fun state : Session × List Restart =>
    state.1.Names P ∧ ∀ r ∈ state.2, P r.service) _ _ ⟨h, by simp⟩ ?_
  rintro state ⟨hstate, hcarry⟩ e he
  refine ⟨names_dispatch hstate (hrestarts e he) _ _ _, ?_⟩
  simp only [queueOne]
  split
  · intro r hr
    rcases List.mem_append.mp hr with hold | hnew
    · exact hcarry r hold
    · rw [List.mem_singleton.mp hnew]
      exact hrestarts e he
  · exact hcarry

theorem names_record {pending : StrMap PendingRestart} (hpending : ∀ service ∈ pending, P service)
    (hrestarts : ∀ r ∈ restarts, P r.service) (now : Int) :
    ∀ service ∈ record now pending restarts, P service := by
  unfold record
  refine List.foldlRecOn (motive := fun pending : StrMap PendingRestart =>
    ∀ service ∈ pending, P service) _ _ hpending ?_
  intro pending hpending e he service hservice
  rcases Std.ExtTreeMap.mem_insert.mp hservice with hsame | hold
  · rw [← Std.LawfulEqCmp.eq_of_compare hsame]
    exact hrestarts e he
  · exact hpending service hold

/-- **A call acts on services that were pending or are in the plan.** -/
theorem Policy.apply_names {p : Policy} (hpending : ∀ service ∈ p.pending, P service)
    (hrestarts : ∀ r ∈ restarts, P r.service) (settings : Settings)
    (env : HostEnv) :
    (∀ x ∈ (p.apply restarts settings env).log, P x.service) ∧
      (∀ service ∈ (p.apply restarts settings env).policy.pending, P service) ∧
      ∀ r ∈ (p.apply restarts settings env).carry, P r.service := by
  unfold Policy.apply
  split
  · exact ⟨by simp, hpending, hrestarts⟩
  · split
    · have hflush : (flush env (fun _ => true) { toPolicy := p }).Names P :=
        names_flush ⟨hpending, by simp⟩ _
      have hqueue : (queue env _ restarts).1.Names P ∧
          ∀ r ∈ (queue env _ restarts).2, P r.service :=
        names_queue hflush hrestarts
      exact ⟨hqueue.1.log, hqueue.1.pending, hqueue.2⟩
    · have hrecord : Session.Names P
          { pending := record env.now p.pending restarts, failures := p.failures } :=
        ⟨names_record hpending hrestarts env.now, by simp⟩
      have hflush := fun due => (names_flush hrecord due : (flush env due _).Names P)
      exact ⟨(hflush _).log, (hflush _).pending, by simp⟩

end Names

end Configd
