import Configd.Restart.Policy

/-!
# Runs of the restart policy

A run is any sequence of calls of `Policy.apply`, each with restarts that name no service twice,
settings that may change from call to call, and an arbitrary host whose context is not cancelled.
`PolicyHistory` is what such a run leaves behind: the memory of the policy, everything it
dispatched, and when a request of each service was last recorded.

After a call a service is in one or more of five *situations*: acted on once, flagged, given up on,
held back, carried.  `PolicyHistory.Meets` puts every service the call is about in exactly one of
them; `meets_iff` says when a call keeps it.  It does unless a service is both held back and planned
in a call without debounce: such a service is dispatched twice.
-/

namespace Configd

open Lib

/-- A call of the policy in an uncancelled context, with at most one restart for
each service. -/
structure ApplyCall where
  restarts : List Restart
  nodup : (restarts.map Restart.service).Nodup
  settings : Settings
  env : HostEnv
  uncancelled : ∀ i, env.outcome i ≠ .interrupted

/-- What a run of calls leaves behind. -/
structure PolicyHistory where
  policy : Policy := {}
  log : List Dispatch := []
  /-- When a request of a service was last recorded. -/
  lastRequest : String → Option Int := fun _ => none

def PolicyHistory.result (h : PolicyHistory) (c : ApplyCall) : ApplyResult :=
  h.policy.apply c.restarts c.settings c.env

def PolicyHistory.next (h : PolicyHistory) (c : ApplyCall) : PolicyHistory where
  policy := (h.result c).policy
  log := h.log ++ (h.result c).log
  lastRequest := fun service =>
    if c.settings.enabled ∧ 0 < c.settings.debounce ∧ service ∈ c.restarts.map Restart.service then
      some c.env.now
    else h.lastRequest service

/-- A run of calls, from a new policy. -/
def runCalls (calls : List ApplyCall) : PolicyHistory :=
  calls.foldl PolicyHistory.next {}

/-! ## Situations -/

/-- Where a service can be after a call. -/
inductive Situation
  | dispatched
  | flagged
  | gaveUp
  | held
  | carried
  deriving DecidableEq

def resultsOf (log : List Dispatch) (service : String) : List DispatchResult :=
  (log.filter fun e => e.service = service).map Dispatch.result

/-- The results of actual attempts: flagging a restart is none. -/
def attempts (results : List DispatchResult) : List DispatchResult :=
  results.filter (· ≠ .flagged)

/-- A situation of a service, from the results of its dispatches before the call
(`past`) and in the call.  A service is given up on at its third failed attempt
in a row. -/
def SituationHolds (past results : List DispatchResult) (held carried : Prop) :
    Situation → Prop
  | .dispatched => results.count .done = 1
  | .flagged => .flagged ∈ results
  | .gaveUp => ∃ older newer, results = older ++ .gaveUp :: newer ∧
      [.retry, .retry] <:+ attempts (past ++ older)
  | .held => held
  | .carried => carried

def PolicyHistory.InSituation (h : PolicyHistory) (c : ApplyCall) (service : String) :
    Situation → Prop :=
  SituationHolds (resultsOf h.log service) (resultsOf (h.result c).log service)
    (service ∈ (h.result c).policy.pending)
    (service ∈ (h.result c).carry.map Restart.service)

structure PolicyHistory.Meets (h : PolicyHistory) (c : ApplyCall) : Prop where
  /-- With restarts enabled, every service that is pending or planned ends in
  exactly one situation. -/
  situation : c.settings.enabled = true → ∀ service,
    (service ∈ h.policy.pending ∨ service ∈ c.restarts.map Restart.service) →
      ∃! x, h.InSituation c service x
  /-- With restarts disabled, the restarts are returned and nothing happens. -/
  disabled : c.settings.enabled = false →
    h.result c = { carry := c.restarts, policy := h.policy, log := [] }
  /-- With a debounce period, only a service that was quiet for it is acted on. -/
  quiet : c.settings.enabled = true → 0 < c.settings.debounce → ∀ e ∈ (h.result c).log,
    ∃ t, (h.next c).lastRequest e.service = some t ∧ c.settings.debounce ≤ c.env.now - t
  /-- A heavy service is never restarted through systemd. -/
  heavy : ∀ e ∈ (h.result c).log, e.call = .applySystemd →
    ¬ (e.action = .restart ∧ heavyService e.service = true)

theorem exists_situation_iff (P : Situation → Prop) :
    (∃ x, P x) ↔ P .dispatched ∨ P .flagged ∨ P .gaveUp ∨ P .held ∨ P .carried := by
  constructor
  · rintro ⟨x, hx⟩
    cases x <;> simp [hx]
  · rintro (h | h | h | h | h) <;> exact ⟨_, h⟩

theorem forall_situation_iff (P : Situation → Prop) :
    (∀ x, P x) ↔ P .dispatched ∧ P .flagged ∧ P .gaveUp ∧ P .held ∧ P .carried := by
  constructor
  · intro h
    exact ⟨h _, h _, h _, h _, h _⟩
  · rintro ⟨h₁, h₂, h₃, h₄, h₅⟩ x
    cases x <;> assumption

section Situations

variable (past : List DispatchResult) {held carried : Prop}

theorem gaveUp_holds_singleton (held carried : Prop) {r : DispatchResult}
    (hthird : r = .gaveUp → [.retry, .retry] <:+ attempts past) :
    SituationHolds past [r] held carried .gaveUp ↔ r = .gaveUp := by
  constructor
  · rintro ⟨older, newer, heq, -⟩
    have hmem : DispatchResult.gaveUp ∈ [r] := by
      rw [heq]
      simp
    simpa [eq_comm] using hmem
  · intro hr
    exact ⟨[], [], by simp [hr], by simpa using hthird hr⟩

theorem existsUnique_of_dispatched_once {r : DispatchResult} (hctx : r ≠ .interrupted)
    (hthird : r = .gaveUp → [.retry, .retry] <:+ attempts past)
    (hretry : (held ↔ r = .retry) ∧ ¬ carried ∨ ¬ held ∧ (carried ↔ r = .retry)) :
    ∃! x, SituationHolds past [r] held carried x := by
  have hgaveUp := gaveUp_holds_singleton past held carried hthird
  simp only [ExistsUnique, exists_situation_iff, forall_situation_iff, hgaveUp]
  cases r <;> simp_all [SituationHolds]
  tauto

/-- **A service that was dispatched twice** is in exactly one situation only if
it was flagged both times. -/
theorem existsUnique_of_dispatched_twice {r₁ r₂ : DispatchResult} (hctx₁ : r₁ ≠ .interrupted)
    (hctx₂ : r₂ ≠ .interrupted) (hthird₁ : r₁ = .gaveUp → [.retry, .retry] <:+ attempts past)
    (hthird₂ : r₂ = .gaveUp → [.retry, .retry] <:+ attempts (past ++ [r₁]))
    (hheld : held ↔ r₁ = .retry) (hcarried : carried ↔ r₂ = .retry) :
    (∃! x, SituationHolds past [r₁, r₂] held carried x) ↔ r₁ = .flagged ∧ r₂ = .flagged := by
  have hgaveUp : SituationHolds past [r₁, r₂] held carried .gaveUp ↔
      r₁ = .gaveUp ∨ r₂ = .gaveUp := by
    constructor
    · rintro ⟨older, newer, heq, -⟩
      have hmem : DispatchResult.gaveUp ∈ [r₁, r₂] := by
        rw [heq]
        simp
      simpa [eq_comm] using hmem
    · rintro (hr | hr)
      · exact ⟨[], [r₂], by simp [hr], by simpa using hthird₁ hr⟩
      · exact ⟨[r₁], [], by simp [hr], hthird₂ hr⟩
  -- The second attempt after giving up is the first of a new row.
  have hrow : ¬ (r₁ = .gaveUp ∧ r₂ = .gaveUp) := by
    rintro ⟨rfl, hr₂⟩
    obtain ⟨init, hinit⟩ := hthird₂ hr₂
    have hlast := congrArg List.getLast? hinit
    simp [attempts] at hlast
  simp only [ExistsUnique, exists_situation_iff, forall_situation_iff, hgaveUp]
  cases r₁ <;> cases r₂ <;> simp_all [SituationHolds]

end Situations

/-! ## One call, service by service -/

def Policy.view (p : Policy) (service : String) : ServiceView where
  pending := p.pending[service]?
  failures := p.failures[service]?
  log := []

def ApplyResult.view (res : ApplyResult) (service : String) : ServiceView × List Restart :=
  (⟨res.policy.pending[service]?, res.policy.failures[service]?,
    res.log.filter fun e => e.service = service⟩,
    res.carry.filter fun e => e.service = service)

variable {c : ApplyCall}

theorem result_disabled (h : PolicyHistory) (hoff : c.settings.enabled = false) :
    h.result c = { carry := c.restarts, policy := h.policy, log := [] } := by
  simp [PolicyHistory.result, Policy.apply, hoff]

section Immediate

variable (h : PolicyHistory) {c : ApplyCall} (hon : c.settings.enabled = true)
  (hdebounce : c.settings.debounce ≤ 0)

include hon hdebounce

theorem result_immediate_view (service : String) :
    (h.result c).view service =
      queueView (queue c.env (flush c.env (fun _ => true) { toPolicy := h.policy }) c.restarts)
        service := by
  simp [PolicyHistory.result, Policy.apply, hon, hdebounce, ApplyResult.view, queueView,
    Session.view]

theorem result_immediate_cases (service : String) :
    ∃ mid, Flushed c.env (fun _ => true) service (h.policy.view service) mid ∧
      ((service ∉ c.restarts.map Restart.service ∧ (h.result c).view service = (mid, [])) ∨
        ∃ e ∈ c.restarts, e.service = service ∧
          Queued c.env e (mid, []) ((h.result c).view service)) := by
  have hflush := flush_view c.env (fun _ => true) { toPolicy := h.policy } service
  refine ⟨_, hflush, ?_⟩
  rw [result_immediate_view h hon hdebounce]
  by_cases hmem : service ∈ c.restarts.map Restart.service
  · obtain ⟨e, he, rfl⟩ := List.mem_map.mp hmem
    exact Or.inr ⟨e, he, rfl, queue_view_of_mem c.env _ c.nodup he⟩
  · exact Or.inl ⟨hmem, queue_view_of_not_mem c.env _ hmem⟩

end Immediate

section Debounced

variable (h : PolicyHistory) {c : ApplyCall} (hon : c.settings.enabled = true)
  (hdebounce : 0 < c.settings.debounce)

include hon hdebounce

theorem result_debounced_flushed (service : String) :
    Flushed c.env (fun r => decide (c.env.now - r.lastRequest ≥ c.settings.debounce)) service
      ⟨(record c.env.now h.policy.pending c.restarts)[service]?, h.policy.failures[service]?, []⟩
      ((h.result c).view service).1 := by
  have hflush := flush_view c.env
    (fun r => decide (c.env.now - r.lastRequest ≥ c.settings.debounce))
    { pending := record c.env.now h.policy.pending c.restarts, failures := h.policy.failures }
    service
  have hview : ((h.result c).view service).1 =
      (flush c.env (fun r => decide (c.env.now - r.lastRequest ≥ c.settings.debounce))
        { pending := record c.env.now h.policy.pending c.restarts,
          failures := h.policy.failures }).view service := by
    simp [PolicyHistory.result, Policy.apply, hon, not_le.mpr hdebounce, ApplyResult.view,
      Session.view]
  rw [hview]
  exact hflush

theorem result_debounced_carry : (h.result c).carry = [] := by
  simp [PolicyHistory.result, Policy.apply, hon, not_le.mpr hdebounce]

end Debounced

variable {service : String}

theorem not_due_of_planned (h : PolicyHistory)
    (hdebounce : 0 < c.settings.debounce) {r : PendingRestart}
    (hplanned : service ∈ c.restarts.map Restart.service)
    (hr : (record c.env.now h.policy.pending c.restarts)[service]? = some r) :
    ¬ c.env.now - r.lastRequest ≥ c.settings.debounce := by
  obtain ⟨e, he, rfl⟩ := List.mem_map.mp hplanned
  obtain ⟨r', hr', -, hnow⟩ := record_of_mem c.env.now h.policy.pending c.nodup he
  have hsame : r' = r := by simpa [hr'] using hr
  rw [← hsame, hnow]
  omega

/-! ## What every run keeps -/

/-- The failure count of a service is the length of its current row of failed
attempts. -/
structure Counted (past : List DispatchResult) (v : ServiceView) : Prop where
  bound : v.failures.getD 0 < maxAttempts
  row : List.replicate (v.failures.getD 0) .retry <:+ attempts (past ++ v.log.map Dispatch.result)

variable {old new : ServiceView}

theorem Counted.dispatched {past : List DispatchResult} {env : HostEnv}
    {action : Action} {result : DispatchResult} (hold : Counted past old)
    (hstep : Dispatched env service action result old new) (hctx : result ≠ .interrupted) :
    Counted past new ∧ (result = .gaveUp →
      [.retry, .retry] <:+ attempts (past ++ old.log.map Dispatch.result)) := by
  obtain ⟨reasons, kinds, hlog⟩ := hstep.log
  have hnew : attempts (past ++ new.log.map Dispatch.result) =
      attempts (past ++ old.log.map Dispatch.result) ++ attempts [result] := by
    simp [hlog, attempts]
  cases result with
  | interrupted => exact absurd rfl hctx
  | done =>
    have hnone := hstep.failures_done rfl
    exact ⟨⟨by simp [hnone, maxAttempts], by simp [hnone]⟩, by simp⟩
  | flagged =>
    have hsame := hstep.failures_flagged rfl
    refine ⟨⟨by rw [hsame]; exact hold.bound, ?_⟩, by simp⟩
    rw [hsame, hnew]
    simpa [attempts] using hold.row
  | retry =>
    obtain ⟨hbound, hcount⟩ := hstep.failures_retry rfl
    refine ⟨⟨by simpa [hcount] using hbound, ?_⟩, by simp⟩
    rw [hnew, hcount]
    obtain ⟨init, hinit⟩ := hold.row
    refine ⟨init, ?_⟩
    rw [← hinit]
    simp [attempts, List.replicate_succ']
  | gaveUp =>
    obtain ⟨hthird, hnone⟩ := hstep.failures_gaveUp rfl
    refine ⟨⟨by simp [hnone, maxAttempts], by simp [hnone]⟩, fun _ => ?_⟩
    have hbound := hold.bound
    have htwo : old.failures.getD 0 = 2 := by
      unfold maxAttempts at hthird hbound
      omega
    have hrow := hold.row
    rwa [htwo] at hrow

theorem Dispatched.not_interrupted {action : Action}
    {result : DispatchResult}
    (hstep : Dispatched c.env service action result old new) : result ≠ .interrupted := by
  intro hresult
  obtain ⟨i, hi⟩ := hstep.interrupted hresult
  exact c.uncancelled i hi

theorem Counted.flushed {past : List DispatchResult}
    {due : PendingRestart → Bool}
    (hold : Counted past old) (hflush : Flushed c.env due service old new) :
    Counted past new := by
  unfold Flushed at hflush
  split at hflush
  · rw [hflush]
    exact hold
  · split at hflush
    · obtain ⟨result, mid, hstep, rfl⟩ := hflush
      obtain ⟨hbound, hrow⟩ := (hold.dispatched hstep hstep.not_interrupted).1
      exact ⟨hbound, hrow⟩
    · rw [hflush]
      exact hold

theorem Flushed.pending {env : HostEnv} {due : PendingRestart → Bool}
    (hflush : Flushed env due service old new) :
    new.pending = none ∨ new.pending = old.pending := by
  unfold Flushed at hflush
  split at hflush
  · rw [hflush]
    exact Or.inr rfl
  · rename_i r hr
    split at hflush
    · obtain ⟨result, mid, hstep, rfl⟩ := hflush
      by_cases hretry : result = .retry
      · exact Or.inr (by simp [hretry, hr])
      · exact Or.inl (by simp [hretry])
    · rw [hflush]
      exact Or.inr rfl

/-- What holds between the calls of a run. -/
structure PolicyHistory.Inv (h : PolicyHistory) : Prop where
  counted : ∀ service, Counted (resultsOf h.log service) (h.policy.view service)
  lastRequest : ∀ (service : String) r, h.policy.pending[service]? = some r →
    h.lastRequest service = some r.lastRequest

theorem inv_init : PolicyHistory.Inv {} where
  counted service := ⟨by simp [Policy.view, maxAttempts], by simp [Policy.view]⟩
  lastRequest service r hr := by simp at hr

variable {h : PolicyHistory}

theorem counted_result (hinv : h.Inv) (c : ApplyCall) (service : String) :
    Counted (resultsOf h.log service) ((h.result c).view service).1 := by
  have hold := hinv.counted service
  by_cases hon : c.settings.enabled = true
  · by_cases hdebounce : c.settings.debounce ≤ 0
    · obtain ⟨mid, hflush, ⟨-, hview⟩ | ⟨e, -, rfl, result, hstep, -⟩⟩ :=
        result_immediate_cases h hon hdebounce service
      · rw [hview]
        exact hold.flushed hflush
      · exact ((hold.flushed hflush).dispatched hstep hstep.not_interrupted).1
    · have hflush := result_debounced_flushed h hon (not_le.mp hdebounce) service
      refine Counted.flushed ?_ hflush
      exact ⟨hold.bound, hold.row⟩
  · rw [result_disabled h (by simpa using hon)]
    simpa [ApplyResult.view, Policy.view] using hold

theorem pending_result (hinv : h.Inv) (c : ApplyCall)
    {r : PendingRestart} (hr : (h.result c).policy.pending[service]? = some r) :
    (h.next c).lastRequest service = some r.lastRequest := by
  by_cases hon : c.settings.enabled = true
  · by_cases hdebounce : c.settings.debounce ≤ 0
    · have hnext : (h.next c).lastRequest service = h.lastRequest service := by
        simp [PolicyHistory.next, not_lt.mpr hdebounce]
      have hbefore : h.policy.pending[service]? = some r := by
        obtain ⟨mid, hflush, hcases⟩ := result_immediate_cases h hon hdebounce service
        have hmid : mid.pending = some r := by
          rcases hcases with ⟨-, hview⟩ | ⟨e, -, rfl, result, hstep, -⟩
          · rw [← hr]
            exact (congrArg (fun v => v.1.pending) hview).symm
          · exact hstep.pending.symm.trans hr
        rcases hflush.pending with hnone | hsame
        · simp [hmid] at hnone
        · exact hsame.symm.trans hmid
      rw [hnext]
      exact hinv.lastRequest service r hbefore
    · have hpos := not_le.mp hdebounce
      have hrecorded : (record c.env.now h.policy.pending c.restarts)[service]? = some r := by
        rcases (result_debounced_flushed h hon hpos service).pending with hnone | hsame
        · exact absurd (hnone.symm.trans hr) (by simp)
        · exact hsame.symm.trans hr
      by_cases hmem : service ∈ c.restarts.map Restart.service
      · obtain ⟨e, he, rfl⟩ := List.mem_map.mp hmem
        obtain ⟨r', hr', -, hnow⟩ := record_of_mem c.env.now h.policy.pending c.nodup he
        have hsame : r' = r := by simpa [hr'] using hrecorded
        simp only [PolicyHistory.next, hon, hpos, hmem, true_and, if_true]
        rw [← hsame, hnow]
      · rw [record_of_not_mem _ _ hmem] at hrecorded
        simp only [PolicyHistory.next, hmem, and_false, if_false]
        exact hinv.lastRequest service r hrecorded
  · have hoff : c.settings.enabled = false := by simpa using hon
    rw [result_disabled h hoff] at hr
    simp only [PolicyHistory.next, hoff, Bool.false_eq_true, false_and, if_false]
    exact hinv.lastRequest service r hr

theorem inv_next (hinv : h.Inv) (c : ApplyCall) : (h.next c).Inv where
  counted service := by
    obtain ⟨hbound, hrow⟩ := counted_result hinv c service
    refine ⟨hbound, ?_⟩
    simpa [PolicyHistory.next, ApplyResult.view, Policy.view, resultsOf] using hrow
  lastRequest _ _ hr := pending_result hinv c hr

theorem inv_runCalls (calls : List ApplyCall) : (runCalls calls).Inv := by
  unfold runCalls
  refine List.foldlRecOn _ _ inv_init ?_
  intro h hinv c _
  exact inv_next hinv c

/-! ## The contract of a call -/

theorem call_of_mem_log (h : PolicyHistory) (c : ApplyCall) {e : Dispatch}
    (he : e ∈ (h.result c).log) : e.call = hostCall c.env.systemd e.service e.action := by
  -- Read in the view of its service, the entry comes from the flush or from the queue.
  have hview : e ∈ ((h.result c).view e.service).1.log := by
    simp [ApplyResult.view, he]
  have hdispatched : ∀ {action result} {old new : ServiceView},
      Dispatched c.env e.service action result old new → e ∈ new.log →
        e ∈ old.log ∨ e.call = hostCall c.env.systemd e.service e.action := by
    intro action result old new hstep hnew
    obtain ⟨reasons, kinds, hlog⟩ := hstep.log
    rw [hlog, List.mem_append, List.mem_singleton] at hnew
    rcases hnew with hold | heq
    · exact Or.inl hold
    · exact Or.inr (by rw [heq])
  have hflushed : ∀ {due} {old new : ServiceView}, Flushed c.env due e.service old new →
      old.log = [] → e ∈ new.log → e.call = hostCall c.env.systemd e.service e.action := by
    intro due old new hflush hempty hnew
    unfold Flushed at hflush
    split at hflush
    · simp [hflush, hempty] at hnew
    · split at hflush
      · obtain ⟨result, mid, hstep, rfl⟩ := hflush
        rcases hdispatched hstep hnew with hold | hcall
        · simp [hempty] at hold
        · exact hcall
      · simp [hflush, hempty] at hnew
  by_cases hon : c.settings.enabled = true
  · by_cases hdebounce : c.settings.debounce ≤ 0
    · obtain ⟨mid, hflush, hcases⟩ := result_immediate_cases h hon hdebounce e.service
      rcases hcases with ⟨-, heq⟩ | ⟨e', -, hservice, result, hstep, -⟩
      · rw [heq] at hview
        exact hflushed hflush rfl hview
      · rw [hservice] at hstep
        rcases hdispatched hstep hview with hmid | hcall
        · exact hflushed hflush rfl hmid
        · exact hcall
    · exact hflushed (result_debounced_flushed h hon (not_le.mp hdebounce) e.service) rfl hview
  · rw [result_disabled h (by simpa using hon)] at he
    simp at he

theorem heavy_not_restarted (h : PolicyHistory) (c : ApplyCall) {e : Dispatch}
    (he : e ∈ (h.result c).log) (hcall : e.call = .applySystemd) :
    ¬ (e.action = .restart ∧ heavyService e.service = true) := by
  rintro ⟨haction, hheavy⟩
  rw [call_of_mem_log h c he] at hcall
  cases hsystemd : c.env.systemd <;>
    simp [hostCall, classify, hsystemd, haction, hheavy] at hcall

theorem quiet_of_dispatched (hinv : h.Inv)
    (hon : c.settings.enabled = true) (hdebounce : 0 < c.settings.debounce) {e : Dispatch}
    (he : e ∈ (h.result c).log) :
    ∃ t, (h.next c).lastRequest e.service = some t ∧ c.settings.debounce ≤ c.env.now - t := by
  have hview : e ∈ ((h.result c).view e.service).1.log := by
    simp [ApplyResult.view, he]
  have hflush := result_debounced_flushed h hon hdebounce e.service
  unfold Flushed at hflush
  split at hflush
  · simp [hflush] at hview
  · rename_i r hr
    split at hflush
    · rename_i hdue
      have hquiet : c.settings.debounce ≤ c.env.now - r.lastRequest := by simpa using hdue
      have hmem : e.service ∉ c.restarts.map Restart.service :=
        fun hmem => not_due_of_planned h hdebounce hmem hr hquiet
      have hpending : h.policy.pending[e.service]? = some r := by
        rw [← record_of_not_mem c.env.now h.policy.pending hmem]
        exact hr
      refine ⟨r.lastRequest, ?_, hquiet⟩
      simp only [PolicyHistory.next, hmem, and_false, if_false]
      exact hinv.lastRequest e.service r hpending
    · simp [hflush] at hview

theorem inSituation_of_view (h : PolicyHistory) (c : ApplyCall) (service : String)
    {v : ServiceView} {carried : List Restart}
    (hview : (h.result c).view service = (v, carried)) :
    h.InSituation c service =
      SituationHolds (resultsOf h.log service) (v.log.map Dispatch.result)
        (v.pending.isSome = true) (carried ≠ []) := by
  have hlog : resultsOf (h.result c).log service = v.log.map Dispatch.result :=
    congrArg (fun w => w.1.log.map Dispatch.result) hview
  have hpending : (service ∈ (h.result c).policy.pending) = (v.pending.isSome = true) := by
    rw [Std.ExtTreeMap.mem_iff_isSome_getElem?]
    exact congrArg (fun w => w.1.pending.isSome = true) hview
  have hcarry : (service ∈ (h.result c).carry.map Restart.service) = (carried ≠ []) := by
    have hfilter : (h.result c).carry.filter (fun e => e.service = service) = carried :=
      congrArg Prod.snd hview
    rw [← hfilter]
    simp [List.filter_eq_nil_iff]
  unfold PolicyHistory.InSituation
  rw [hlog, hpending, hcarry]

theorem Dispatched.results {env : HostEnv} {action : Action}
    {result : DispatchResult}
    (hstep : Dispatched env service action result old new) :
    new.log.map Dispatch.result = old.log.map Dispatch.result ++ [result] := by
  obtain ⟨reasons, kinds, hlog⟩ := hstep.log
  simp [hlog]

theorem situation_debounced (hinv : h.Inv)
    (hon : c.settings.enabled = true) (hdebounce : 0 < c.settings.debounce)
    (habout : service ∈ h.policy.pending ∨ service ∈ c.restarts.map Restart.service) :
    ∃! x, h.InSituation c service x := by
  have hcarry : ((h.result c).view service).2 = [] := by
    simp [ApplyResult.view, result_debounced_carry h hon hdebounce]
  rw [inSituation_of_view h c service (Prod.mk.eta (p := (h.result c).view service)).symm, hcarry]
  have hcounted := hinv.counted service
  have hrecorded : ∃ r, (record c.env.now h.policy.pending c.restarts)[service]? = some r := by
    by_cases hmem : service ∈ c.restarts.map Restart.service
    · obtain ⟨e, he, rfl⟩ := List.mem_map.mp hmem
      obtain ⟨r, hr, -⟩ := record_of_mem c.env.now h.policy.pending c.nodup he
      exact ⟨r, hr⟩
    · rw [record_of_not_mem _ _ hmem]
      exact (OrdMap.mem_iff_getElem?_isSome _ _).mp (habout.resolve_right hmem)
  obtain ⟨r, hr⟩ := hrecorded
  rcases (result_debounced_flushed h hon hdebounce service).cases with
    ⟨-, hsame⟩ | ⟨r', result, mid, -, -, hstep, hnew⟩
  · rw [hsame]
    simp only [ExistsUnique, exists_situation_iff, forall_situation_iff]
    simp [SituationHolds, hr]
  · have hbefore : Counted (resultsOf h.log service)
        ⟨(record c.env.now h.policy.pending c.restarts)[service]?,
          h.policy.failures[service]?, []⟩ := ⟨hcounted.bound, hcounted.row⟩
    have hthird := (hbefore.dispatched hstep hstep.not_interrupted).2
    have hresults := hstep.results
    rw [hnew]
    simp only [List.map_nil, List.nil_append] at hresults
    simp only [hresults]
    refine existsUnique_of_dispatched_once _ hstep.not_interrupted ?_ (Or.inl ⟨?_, by simp⟩)
    · simpa using hthird
    · by_cases hretry : result = .retry <;> simp [hretry]

theorem situation_immediate_not_held (hinv : h.Inv)
    (hon : c.settings.enabled = true) (hdebounce : c.settings.debounce ≤ 0)
    (hnone : h.policy.pending[service]? = none)
    (hplanned : service ∈ c.restarts.map Restart.service) :
    ∃! x, h.InSituation c service x := by
  obtain ⟨mid, hflush, hqueue⟩ := result_immediate_cases h hon hdebounce service
  have hmid : mid = h.policy.view service := by
    rcases hflush.cases with ⟨-, hmid⟩ | ⟨r, result, last, hpending, -⟩
    · exact hmid
    · have hheld : h.policy.pending[service]? = some r := hpending
      rw [hnone] at hheld
      cases hheld
  rcases hqueue with ⟨hnot, -⟩ | ⟨e, he, rfl, result, hstep, hcarry⟩
  · exact absurd hplanned hnot
  · rw [inSituation_of_view h c e.service (Prod.mk.eta (p := (h.result c).view e.service)).symm]
    rw [hmid] at hstep
    have hthird := ((hinv.counted e.service).dispatched hstep hstep.not_interrupted).2
    have hheldAfter : ((h.result c).view e.service).1.pending = none := hstep.pending.trans hnone
    rw [hstep.results, hheldAfter, hcarry]
    refine existsUnique_of_dispatched_once _ hstep.not_interrupted ?_ (Or.inr ⟨by simp, ?_⟩)
    · simpa [Policy.view] using hthird
    · by_cases hretry : result = .retry <;> simp [hretry]

theorem situation_immediate (hinv : h.Inv)
    (hon : c.settings.enabled = true) (hdebounce : c.settings.debounce ≤ 0)
    (habout : service ∈ h.policy.pending ∨ service ∈ c.restarts.map Restart.service) :
    (∃! x, h.InSituation c service x) ↔
      ∀ r, h.policy.pending[service]? = some r → ∀ e ∈ c.restarts, e.service = service →
        hostCall c.env.systemd service r.action = .flag ∧
          hostCall c.env.systemd service e.action = .flag := by
  have hcounted := hinv.counted service
  obtain ⟨mid, hflush, hqueue⟩ := result_immediate_cases h hon hdebounce service
  rcases hflush.cases with ⟨hheld, hmid⟩ | ⟨r, result, last, hpending, -, hstep, hmid⟩
  · -- Not held back, so the service is planned.
    have hnone : h.policy.pending[service]? = none := by
      cases hr : h.policy.pending[service]? with
      | none => rfl
      | some r => exact absurd (hheld r hr) (by simp)
    have hplanned := habout.resolve_left (by
      rw [Std.ExtTreeMap.mem_iff_isSome_getElem?, hnone]
      simp)
    exact ⟨fun _ r hr => by simp [hnone] at hr,
      fun _ => situation_immediate_not_held hinv hon hdebounce hnone hplanned⟩
  · have hpolicy : h.policy.pending[service]? = some r := hpending
    obtain ⟨hcountedLast, hthird⟩ := hcounted.dispatched hstep hstep.not_interrupted
    have hresults : mid.log.map Dispatch.result = [result] := by
      rw [hmid]
      simpa [Policy.view] using hstep.results
    have hcountedMid : Counted (resultsOf h.log service) mid := by
      rw [hmid]
      exact ⟨hcountedLast.bound, hcountedLast.row⟩
    have hmidHeld : mid.pending.isSome = true ↔ result = .retry := by
      rw [hmid]
      by_cases hretry : result = .retry <;> simp [hretry]
    rcases hqueue with ⟨hnot, hview⟩ | ⟨e, he, rfl, result', hstep', hcarry⟩
    · -- Held back but not planned: dispatched once by the flush.
      constructor
      · intro _ r' _ e he hservice
        exact absurd (List.mem_map.mpr ⟨e, he, hservice⟩) hnot
      · intro _
        rw [inSituation_of_view h c service hview, hresults]
        refine existsUnique_of_dispatched_once _ hstep.not_interrupted ?_
          (Or.inl ⟨hmidHeld, by simp⟩)
        simpa [Policy.view] using hthird
    · -- Held back and planned: dispatched by the flush and again by the queue.
      rw [inSituation_of_view h c e.service
        (Prod.mk.eta (p := (h.result c).view e.service)).symm, hstep'.results, hresults,
        hstep'.pending, hcarry]
      have hthird' := (hcountedMid.dispatched hstep' hstep'.not_interrupted).2
      rw [hresults] at hthird'
      have hcarried : (([] : List Restart) ++ if result' = .retry then [e] else []) ≠ [] ↔
          result' = .retry := by
        by_cases hretry : result' = .retry <;> simp [hretry]
      refine (existsUnique_of_dispatched_twice (resultsOf h.log e.service) hstep.not_interrupted
        hstep'.not_interrupted (by simpa [Policy.view] using hthird) hthird' hmidHeld
        hcarried).trans ?_
      rw [hstep.flagged, hstep'.flagged]
      constructor
      · rintro ⟨hfirst, hsecond⟩ r' hr' e' he' hservice
        have hr : r = r' := by simpa [hpolicy] using hr'
        have hsame : e' = e := List.inj_on_of_nodup_map c.nodup he' he hservice
        rw [← hr, hsame]
        exact ⟨hfirst, hsecond⟩
      · intro hall
        exact hall r hpolicy e he rfl

/-- **When a call of the policy keeps its contract.**  It does exactly when no
service is both held back and planned in a call without debounce, except a heavy
one that is only flagged both times. -/
theorem meets_iff (calls : List ApplyCall) (c : ApplyCall) :
    (runCalls calls).Meets c ↔
      (c.settings.enabled = true → c.settings.debounce ≤ 0 → ∀ (service : String) r,
        (runCalls calls).policy.pending[service]? = some r →
          ∀ e ∈ c.restarts, e.service = service →
            hostCall c.env.systemd service r.action = .flag ∧
              hostCall c.env.systemd service e.action = .flag) := by
  have hinv := inv_runCalls calls
  constructor
  · intro hmeets hon hdebounce service r hr
    have habout : service ∈ (runCalls calls).policy.pending :=
      (OrdMap.mem_iff_getElem?_isSome _ _).mpr ⟨r, hr⟩
    exact (situation_immediate hinv hon hdebounce (Or.inl habout)).mp
      (hmeets.situation hon service (Or.inl habout)) r hr
  · intro hcond
    exact {
      situation := by
        intro hon service habout
        by_cases hdebounce : c.settings.debounce ≤ 0
        · exact (situation_immediate hinv hon hdebounce habout).mpr
            fun r hr => hcond hon hdebounce service r hr
        · exact situation_debounced hinv hon (not_le.mp hdebounce) habout
      disabled := fun hoff => result_disabled _ hoff
      quiet := fun hon hdebounce e he => quiet_of_dispatched hinv hon hdebounce he
      heavy := fun e he hcall => heavy_not_restarted _ c he hcall }

def acceptingHost (now : Int) : HostEnv where
  systemd := false
  now := now
  outcome := fun _ => .ok

/-- A planned restart of `mta`, with a debounce of `debounce` seconds. -/
def restartMta (now debounce : Int) : ApplyCall where
  restarts := [{ service := "mta", action := .restart }]
  nodup := by simp
  settings := { enabled := true, debounce := debounce }
  env := acceptingHost now
  uncancelled := by simp [acceptingHost]

/-- A restart that was held back when the debounce is turned off goes out twice
in the call that plans it again. -/
theorem not_meets_of_debounce_turned_off :
    ((runCalls [restartMta 0 10]).result (restartMta 1 0)).log.map Dispatch.result =
        [.done, .done] ∧
      ¬ (runCalls [restartMta 0 10]).Meets (restartMta 1 0) := by
  have hpending : (runCalls [restartMta 0 10]).policy.pending["mta"]? =
      some { action := .restart, lastRequest := 0 } := by decide
  have habout : "mta" ∈ (runCalls [restartMta 0 10]).policy.pending :=
    (OrdMap.mem_iff_getElem?_isSome _ _).mpr ⟨_, hpending⟩
  refine ⟨by decide, ?_⟩
  intro hmeets
  have hflag := (situation_immediate (inv_runCalls [restartMta 0 10]) (c := restartMta 1 0) rfl
    (by decide) (Or.inl habout)).mp (hmeets.situation rfl "mta" (Or.inl habout)) _ hpending
    { service := "mta", action := .restart } (by simp [restartMta]) rfl
  exact absurd hflag.2 (by decide)

end Configd
