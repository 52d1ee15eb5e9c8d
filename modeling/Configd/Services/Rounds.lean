import Configd.Services.Shared

/-!
# The rounds of a restart pass

A pass of `ProcessRestarts` without a lookup queues nothing: it only works its queue
off, one round after the other, as long as a round takes a service off the queue.
What it remembers of the past rounds is decided by how often each service was
attempted and with which outcome (`RestartPass.Tallied`), so the attempts that were
made tell everything about how it ends.

`processRestarts_meets` says that it ends, in which order and how often it attempts
the services, what it returns and what it leaves in the queue.
-/

namespace Configd

open Lib

/-! ## The queue -/

namespace ServiceManager

/-- The entries of the queue are set, and only queued services have reasons. -/
structure WellQueued (sm : ServiceManager) : Prop where
  entries : ∀ (service : String) flag, sm.restartQueue[service]? = some flag → flag = true
  reasons : ∀ service : String, sm.queued service = false → sm.restartReasons[service]? = none

theorem queued_iff_entry {sm : ServiceManager} {service : String} :
    sm.queued service = true ↔ sm.restartQueue[service]? = some true := by
  unfold queued
  cases sm.restartQueue[service]? with
  | none => simp
  | some flag => simp

theorem nodup_getSortedServices (sm : ServiceManager) : sm.getSortedServices.Nodup := by
  rw [getSortedServices, List.Perm.nodup_iff (List.perm_insertionSort _ _),
    ← Std.ExtTreeMap.map_fst_toList_eq_keys]
  exact OrdMap.nodup_map_fst_toList _

theorem WellQueued.addRestart {sm : ServiceManager} (hsm : sm.WellQueued) (service : String)
    (reasons : List String) : (sm.addRestart service reasons).WellQueued := by
  refine ⟨?_, ?_⟩
  · intro other flag hflag
    rw [ServiceManager.addRestart, OrdMap.getElem?_insert_iff] at hflag
    split at hflag
    · exact (Option.some.inj hflag).symm
    · exact hsm.entries other flag hflag
  · intro other hother
    have hnot : ¬ (other = Strings.toLower service ∨ sm.queued other = true) := by
      rw [← queued_addRestart sm service other reasons, hother]
      simp
    push Not at hnot
    have hold := hsm.reasons other (by simpa using hnot.2)
    simp only [ServiceManager.addRestart]
    split
    · exact hold
    · rw [OrdMap.getElem?_upsert_of_ne _ _ _ (Ne.symm hnot.1)]
      exact hold

theorem WellQueued.dequeue {sm : ServiceManager} (hsm : sm.WellQueued) (service : String) :
    (sm.dequeue service).WellQueued := by
  refine ⟨?_, ?_⟩
  · intro other flag hflag
    rw [ServiceManager.dequeue, OrdMap.getElem?_erase_iff] at hflag
    split at hflag
    · simp at hflag
    · exact hsm.entries other flag hflag
  · intro other hother
    rw [ServiceManager.dequeue, OrdMap.getElem?_erase_iff]
    split
    · rfl
    · rename_i hne
      refine hsm.reasons other ?_
      by_contra hqueued
      rw [Bool.not_eq_false] at hqueued
      simp [(queued_dequeue sm service other).mpr ⟨Ne.symm hne, hqueued⟩] at hother

theorem WellQueued.restarted {sm : ServiceManager} (hsm : sm.WellQueued)
    (lookup : Option (String → String)) (service : String) :
    (sm.restarted lookup service).WellQueued := by
  cases lookup with
  | none => exact hsm.dequeue service
  | some lookup =>
    refine List.foldlRecOn _ _ (hsm.dequeue service) ?_
    intro sm hsm dependent _
    unfold queueDependencyRestart
    split
    · exact hsm.addRestart _ _
    · exact hsm

end ServiceManager

/-- **The queue of a manager is always so**, whatever calls were made on it. -/
theorem wellQueued_of_calls (disableRestarts : Bool) (calls : List ManagerCall) :
    (run SharedManager.step { sm := { disableRestarts := disableRestarts } }
      calls).sm.WellQueued := by
  refine run_invariant (motive := fun s : SharedManager => s.sm.WellQueued)
    ⟨by simp, by simp⟩ ?_ calls
  intro s call hs
  have hprocess : ∀ env lookup fuel, (s.process env lookup fuel).sm.WellQueued := by
    intro env lookup fuel
    unfold SharedManager.process
    split
    · exact ⟨by simp [ServiceManager.clearRestarts], by simp [ServiceManager.clearRestarts]⟩
    · simp only [OwnedPass.pass_turns]
      refine RestartPass.turns_induction (motive := fun p => p.sm.WellQueued) ?_
        (fun _ _ hp => hp) fuel hs
      intro p service hp _
      rcases (p.attempt_outcome env lookup service).2 with ⟨-, hsm⟩ | ⟨-, hsm | hsm⟩
      · rw [hsm]
        exact hp.restarted lookup service
      · rw [hsm]
        exact hp
      · rw [hsm]
        exact hp.dequeue service
  cases call with
  | setDependencies deps => exact ⟨hs.entries, hs.reasons⟩
  | policyAdd service reasons => exact hs.addRestart service reasons
  | watchdogAdd service => exact hs.addRestart service []
  | policyProcess env fuel => exact hprocess env none fuel
  | watchdogProcess env lookup fuel => exact hprocess env (some lookup) fuel

/-! ## Counting attempts -/

namespace RestartPass

/-- The services attempted so far, in order, with how the attempts ended. -/
def outcomes (env : RestartEnv) (p : RestartPass) : List (String × Bool) :=
  p.attempts.mapIdx fun number attempt => (attempt.service, env.restart number)

/-- How often the service was restarted. -/
def successes (env : RestartEnv) (p : RestartPass) (service : String) : Nat :=
  (p.outcomes env).count (service, true)

/-- How often a restart of the service failed. -/
def failures (env : RestartEnv) (p : RestartPass) (service : String) : Nat :=
  (p.outcomes env).count (service, false)

/-- How often the service was attempted. -/
def attemptsOf (p : RestartPass) (service : String) : Nat :=
  (p.attempts.map RestartAttempt.service).count service

theorem attemptsOf_eq (env : RestartEnv) (p : RestartPass) (service : String) :
    p.attemptsOf service = p.successes env service + p.failures env service := by
  have hsplit : ∀ outcomes : List (String × Bool), (outcomes.map Prod.fst).count service =
      outcomes.count (service, true) + outcomes.count (service, false) := by
    intro outcomes
    induction outcomes with
    | nil => rfl
    | cons outcome rest ih =>
      obtain ⟨name, ok⟩ := outcome
      rw [List.map_cons, List.count_cons, List.count_cons, List.count_cons, ih]
      by_cases hname : name = service
      · cases ok <;> simp [hname] <;> omega
      · simp [hname]
  have hnames : p.attempts.map RestartAttempt.service = (p.outcomes env).map Prod.fst := by
    apply List.ext_getElem?
    intro i
    simp only [outcomes, List.getElem?_map, List.getElem?_mapIdx]
    cases p.attempts[i]? <;> rfl
  rw [attemptsOf, hnames, hsplit]
  rfl

theorem counts_of_attempts (env : RestartEnv) {p p' : RestartPass} {attempt : RestartAttempt}
    (hattempts : p'.attempts = p.attempts ++ [attempt]) (service : String) :
    p'.successes env service = p.successes env service +
        (if attempt.service = service ∧ env.restart p.attempts.length = true then 1 else 0) ∧
      p'.failures env service = p.failures env service +
        (if attempt.service = service ∧ env.restart p.attempts.length = false then 1 else 0) := by
  simp [successes, failures, outcomes, hattempts, List.mapIdx_append, List.count_singleton]

/-- **What the pass remembers** is decided by the attempts: `sm` is the manager it
started with. -/
structure Tallied (sm : ServiceManager) (env : RestartEnv) (p : RestartPass) : Prop where
  maxFailedRestarts : p.sm.maxFailedRestarts = sm.maxFailedRestarts
  startOrder : p.sm.startOrder = sm.startOrder
  entries : ∀ (service : String) flag, p.sm.restartQueue[service]? = some flag → flag = true
  queued : ∀ service : String, p.sm.queued service = true ↔
    sm.queued service = true ∧ p.successes env service = 0 ∧
      (p.failures env service = 0 ∨ (p.failures env service : Int) < sm.maxFailedRestarts)
  reasons : ∀ service : String, p.sm.restartReasons[service]? =
    if p.sm.queued service then sm.restartReasons[service]? else none
  failed : ∀ service : String, p.failedRestarts[service]? =
    if p.successes env service = 0 ∧ 0 < p.failures env service
    then some (p.failures env service : Int) else none
  attempted : ∀ service : String,
    0 < p.successes env service + p.failures env service → sm.queued service = true
  once : ∀ service : String, p.successes env service ≤ 1
  bound : ∀ service : String,
    ((p.successes env service + p.failures env service : Nat) : Int) ≤ max 1 sm.maxFailedRestarts
  /-- Only services that left the queue are marked in a round. -/
  marks : ∀ service : String, p.processedThisRound[service]?.getD false = true →
    p.sm.queued service = false

theorem tallied_start {sm : ServiceManager} (hsm : sm.WellQueued) (env : RestartEnv) :
    Tallied sm env { sm := sm } where
  maxFailedRestarts := rfl
  startOrder := rfl
  entries := hsm.entries
  queued := by simp [successes, failures, outcomes]
  reasons := by
    intro service
    cases hqueued : sm.queued service with
    | true => simp
    | false => simp [hsm.reasons service hqueued]
  failed := by simp [successes, failures, outcomes]
  attempted := by simp [successes, failures, outcomes]
  once := by simp [successes, outcomes]
  bound := by
    intro service
    simp [successes, failures, outcomes]
  marks := by simp

section Attempt

variable {sm : ServiceManager} {env : RestartEnv} (hcontext : ∀ n, env.cancelled n = false)

include hcontext

/-- **What an attempt does** when nothing is looked up and the context is not
cancelled. -/
theorem attempt_none_cases (p : RestartPass) (service : String) :
    (env.restart p.attempts.length = true ∧ p.attemptServiceRestart env none service =
        (true, { p with
          sm := p.sm.dequeue service
          failedRestarts := p.failedRestarts.erase service
          attempts := p.attempts ++ [⟨service, p.sm.restartReasons[service]?.getD []⟩] })) ∨
      (env.restart p.attempts.length = false ∧
        p.failedRestarts[service]?.getD 0 + 1 ≥ p.sm.maxFailedRestarts ∧
        p.attemptServiceRestart env none service = (true, { p with
          sm := p.sm.dequeue service
          failedRestarts := p.failedRestarts.insert service (p.failedRestarts[service]?.getD 0 + 1)
          attempts := p.attempts ++ [⟨service, p.sm.restartReasons[service]?.getD []⟩] })) ∨
      (env.restart p.attempts.length = false ∧
        p.failedRestarts[service]?.getD 0 + 1 < p.sm.maxFailedRestarts ∧
        p.attemptServiceRestart env none service = (false, { p with
          failedRestarts := p.failedRestarts.insert service (p.failedRestarts[service]?.getD 0 + 1)
          attempts := p.attempts ++ [⟨service, p.sm.restartReasons[service]?.getD []⟩] })) := by
  unfold attemptServiceRestart
  simp only [hcontext, Bool.false_eq_true, if_false]
  cases hok : env.restart p.attempts.length with
  | true =>
    left
    simp
  | false =>
    right
    by_cases hlast : p.failedRestarts[service]?.getD 0 + 1 ≥ p.sm.maxFailedRestarts
    · left
      simp [hlast]
    · right
      simp [hlast, lt_of_not_ge hlast]

end Attempt

theorem Tallied.unmarked {sm : ServiceManager} {env : RestartEnv} {p : RestartPass}
    (hp : Tallied sm env p) : Tallied sm env { p with processedThisRound := {} } :=
  ⟨hp.maxFailedRestarts, hp.startOrder, hp.entries, hp.queued, hp.reasons, hp.failed,
    hp.attempted, hp.once, hp.bound, by simp⟩

theorem Tallied.getD_failed {sm : ServiceManager} {env : RestartEnv} {p : RestartPass}
    (hp : Tallied sm env p) {service : String} (hqueued : p.sm.queued service = true) :
    p.failedRestarts[service]?.getD 0 = (p.failures env service : Int) := by
  obtain ⟨-, hnone, -⟩ := (hp.queued service).mp hqueued
  rw [hp.failed service]
  by_cases hfailed : 0 < p.failures env service
  · simp [hnone, hfailed]
  · have hzero : p.failures env service = 0 := by omega
    simp [hzero]

section Step

variable {sm : ServiceManager} {env : RestartEnv} {p p' : RestartPass} {service : String}
  (hp : Tallied sm env p) (hqueued : p.sm.queued service = true)
  (hattempts : p'.attempts = p.attempts ++ [⟨service, p.sm.restartReasons[service]?.getD []⟩])
  (hmarks : ∀ other : String, p'.processedThisRound[other]?.getD false = true →
    p'.sm.queued other = false ∨ p.processedThisRound[other]?.getD false = true)

include hp hqueued hattempts

theorem Tallied.counts :
    (∀ other, 0 < p'.successes env other + p'.failures env other → sm.queued other = true) ∧
      (∀ other, p'.successes env other ≤ 1) ∧
      ∀ other, ((p'.successes env other + p'.failures env other : Nat) : Int) ≤
        max 1 sm.maxFailedRestarts := by
  obtain ⟨hstart, hnone, hleft⟩ := (hp.queued service).mp hqueued
  refine ⟨?_, ?_, ?_⟩
  · intro other hpos
    by_cases hother : service = other
    · rw [← hother]
      exact hstart
    · obtain ⟨hs, hf⟩ := counts_of_attempts env hattempts other
      simp only [hother, false_and, if_false, Nat.add_zero] at hs hf
      exact hp.attempted other (by omega)
  · intro other
    obtain ⟨hs, -⟩ := counts_of_attempts env hattempts other
    by_cases hother : service = other
    · subst hother
      rw [hs, hnone]
      split <;> omega
    · have hold := hp.once other
      simp only [hother, false_and, if_false, Nat.add_zero] at hs
      omega
  · intro other
    obtain ⟨hs, hf⟩ := counts_of_attempts env hattempts other
    by_cases hother : service = other
    · subst hother
      rw [hs, hf, hnone]
      -- A queued service was not restarted and is below the bound.
      cases env.restart p.attempts.length <;> simp <;> omega
    · have hold := hp.bound other
      simp only [hother, false_and, if_false, Nat.add_zero] at hs hf
      rw [hs, hf]
      exact hold

include hmarks

theorem Tallied.leaves (hsm : p'.sm = p.sm.dequeue service)
    (hfailed : p'.failedRestarts = if env.restart p.attempts.length
      then p.failedRestarts.erase service
      else p.failedRestarts.insert service (p.failedRestarts[service]?.getD 0 + 1))
    (hlast : env.restart p.attempts.length = false →
      sm.maxFailedRestarts ≤ p.failures env service + 1) :
    Tallied sm env p' := by
  obtain ⟨hattempted, honce, hbound⟩ := hp.counts hqueued hattempts
  obtain ⟨-, hnone, -⟩ := (hp.queued service).mp hqueued
  have hdequeued : ∀ other, p'.sm.queued other = true ↔
      other ≠ service ∧ p.sm.queued other = true := by
    intro other
    rw [hsm, ServiceManager.queued_dequeue]
  refine ⟨?_, ?_, ?_, ?_, ?_, ?_, hattempted, honce, hbound, ?_⟩
  · rw [hsm]
    exact hp.maxFailedRestarts
  · rw [hsm]
    exact hp.startOrder
  · intro other flag hflag
    rw [hsm, ServiceManager.dequeue, OrdMap.getElem?_erase_iff] at hflag
    split at hflag
    · simp at hflag
    · exact hp.entries other flag hflag
  · intro other
    obtain ⟨hs, hf⟩ := counts_of_attempts env hattempts other
    rw [hdequeued]
    by_cases hother : service = other
    · subst hother
      cases hok : env.restart p.attempts.length with
      | true => simp [hok, hnone, hs]
      | false =>
        have hmany := hlast hok
        simp only [hok, and_self, if_true, Bool.false_eq_true, and_false, if_false] at hs hf
        simp [hs, hf, hnone]
        intro _
        omega
    · simp only [hother, false_and, if_false, Nat.add_zero] at hs hf
      rw [hs, hf, hp.queued other]
      simp [Ne.symm hother]
  · intro other
    by_cases hother : service = other
    · subst hother
      have hgone : p'.sm.queued service = false := by
        simpa using (hdequeued service).not.mpr (by simp)
      rw [hgone, hsm, ServiceManager.dequeue, OrdMap.getElem?_erase_iff]
      simp
    · have hsame : p'.sm.queued other = p.sm.queued other := by
        rw [Bool.eq_iff_iff, hdequeued]
        simp [Ne.symm hother]
      rw [hsame, hsm, ServiceManager.dequeue, OrdMap.getElem?_erase_iff, if_neg hother]
      exact hp.reasons other
  · intro other
    obtain ⟨hs, hf⟩ := counts_of_attempts env hattempts other
    rw [hfailed]
    by_cases hother : service = other
    · subst hother
      cases hok : env.restart p.attempts.length with
      | true => simp [hok, hnone, hs]
      | false => simp [hok, hnone, hs, hf, hp.getD_failed hqueued]
    · simp only [hother, false_and, if_false, Nat.add_zero] at hs hf
      rw [hs, hf, ← hp.failed other]
      split
      · rw [OrdMap.getElem?_erase_iff, if_neg hother]
      · rw [OrdMap.getElem?_insert_iff, if_neg hother]
  · intro other hmark
    rcases hmarks other hmark with hgone | hold
    · exact hgone
    · have hnot := hp.marks other hold
      by_contra hstill
      rw [Bool.not_eq_false, hdequeued] at hstill
      simp [hnot] at hstill

theorem Tallied.stays (hsm : p'.sm = p.sm)
    (hfailed : p'.failedRestarts =
      p.failedRestarts.insert service (p.failedRestarts[service]?.getD 0 + 1))
    (hok : env.restart p.attempts.length = false)
    (hmore : (p.failures env service : Int) + 1 < sm.maxFailedRestarts) :
    Tallied sm env p' := by
  obtain ⟨hattempted, honce, hbound⟩ := hp.counts hqueued hattempts
  obtain ⟨hstart, hnone, -⟩ := (hp.queued service).mp hqueued
  refine ⟨?_, ?_, ?_, ?_, ?_, ?_, hattempted, honce, hbound, ?_⟩
  · rw [hsm]
    exact hp.maxFailedRestarts
  · rw [hsm]
    exact hp.startOrder
  · rw [hsm]
    exact hp.entries
  · intro other
    obtain ⟨hs, hf⟩ := counts_of_attempts env hattempts other
    rw [hsm]
    by_cases hother : service = other
    · subst hother
      simp only [hok, and_self, if_true, Bool.false_eq_true, and_false, if_false] at hs hf
      simp [hqueued, hs, hf, hnone, hstart]
      omega
    · simp only [hother, false_and, if_false, Nat.add_zero] at hs hf
      rw [hs, hf]
      exact hp.queued other
  · rw [hsm]
    exact hp.reasons
  · intro other
    obtain ⟨hs, hf⟩ := counts_of_attempts env hattempts other
    rw [hfailed, OrdMap.getElem?_insert_iff]
    by_cases hother : service = other
    · subst hother
      simp [hok, hnone, hs, hf, hp.getD_failed hqueued]
    · simp only [hother, false_and, if_false, Nat.add_zero] at hs hf
      rw [hs, hf, ← hp.failed other, if_neg hother]
  · intro other hmark
    rw [hsm]
    rcases hmarks other hmark with hgone | hold
    · rwa [hsm] at hgone
    · exact hp.marks other hold

end Step

section Round

variable {sm : ServiceManager} {env : RestartEnv} (hcontext : ∀ n, env.cancelled n = false)

include hcontext

/-- **One service of a round.**  It is attempted, and the round made progress if it
left the queue. -/
theorem tallied_restartOne {acc : Bool × RestartPass} (hp : Tallied sm env acc.2)
    {service : String} (hqueued : acc.2.sm.queued service = true) :
    Tallied sm env (restartOne env none acc service).2 ∧
      (restartOne env none acc service).2.attempts.map RestartAttempt.service =
        acc.2.attempts.map RestartAttempt.service ++ [service] ∧
      (∀ other, other ≠ service →
        (restartOne env none acc service).2.sm.queued other = acc.2.sm.queued other) ∧
      ((restartOne env none acc service).1 = true ↔
        acc.1 = true ∨ (restartOne env none acc service).2.sm.queued service = false) := by
  have hunmarked : acc.2.processedThisRound[service]?.getD false = false := by
    by_contra hmark
    rw [Bool.not_eq_false] at hmark
    simp [hp.marks service hmark] at hqueued
  have hcount := hp.getD_failed hqueued
  have hdequeued : ∀ other, other ≠ service →
      (acc.2.sm.dequeue service).queued other = acc.2.sm.queued other := by
    intro other hother
    rw [Bool.eq_iff_iff, ServiceManager.queued_dequeue]
    simp [hother]
  have hgone : (acc.2.sm.dequeue service).queued service = false := by
    simpa using (ServiceManager.queued_dequeue acc.2.sm service service).not.mpr (by simp)
  have hmarked : ∀ other : String,
      (acc.2.processedThisRound.insert service true)[other]?.getD false = true →
        (acc.2.sm.dequeue service).queued other = false ∨
          acc.2.processedThisRound[other]?.getD false = true := by
    intro other hmark
    rw [OrdMap.getElem?_insert_iff] at hmark
    split at hmark
    · rename_i hother
      rw [← hother]
      exact Or.inl hgone
    · exact Or.inr hmark
  unfold restartOne
  simp only [hcontext, hqueued, hunmarked, Bool.not_true, Bool.or_false, Bool.false_eq_true,
    if_false]
  rcases attempt_none_cases hcontext acc.2 service with ⟨hok, hattempt⟩ |
    ⟨hok, hlast, hattempt⟩ | ⟨hok, hmore, hattempt⟩
  · rw [hattempt]
    simp only [if_true, List.map_append, List.map_cons, List.map_nil, true_and, hgone, or_true]
    refine ⟨?_, hdequeued, trivial⟩
    exact hp.leaves hqueued rfl hmarked rfl (by simp [hok]) (by simp [hok])
  · rw [hattempt]
    simp only [if_true, List.map_append, List.map_cons, List.map_nil, true_and, hgone, or_true]
    refine ⟨?_, hdequeued, trivial⟩
    refine hp.leaves hqueued rfl hmarked rfl (by simp [hok]) ?_
    intro _
    rw [hcount, hp.maxFailedRestarts] at hlast
    exact hlast
  · rw [hattempt]
    simp only [Bool.false_eq_true, if_false, List.map_append, List.map_cons, List.map_nil,
      true_and, hqueued, Bool.true_eq_false, or_false, and_true]
    rw [hcount, hp.maxFailedRestarts] at hmore
    exact ⟨hp.stays hqueued rfl (fun other hmark => Or.inr hmark) rfl rfl hok hmore,
      fun _ _ => trivial⟩

/-- **A round over queued services.**  Each of them is attempted, in this order. -/
theorem tallied_foldl_restartOne (services : List String) {acc : Bool × RestartPass}
    (hp : Tallied sm env acc.2) (hnodup : services.Nodup)
    (hqueued : ∀ service ∈ services, acc.2.sm.queued service = true) :
    Tallied sm env (services.foldl (restartOne env none) acc).2 ∧
      (services.foldl (restartOne env none) acc).2.attempts.map RestartAttempt.service =
        acc.2.attempts.map RestartAttempt.service ++ services ∧
      (∀ other, other ∉ services →
        (services.foldl (restartOne env none) acc).2.sm.queued other = acc.2.sm.queued other) ∧
      ((services.foldl (restartOne env none) acc).1 = true ↔ acc.1 = true ∨
        ∃ service ∈ services,
          (services.foldl (restartOne env none) acc).2.sm.queued service = false) := by
  induction services generalizing acc with
  | nil => simp [hp]
  | cons service rest ih =>
    rw [List.nodup_cons] at hnodup
    obtain ⟨hone, hattempts, hothers, hprogress⟩ :=
      tallied_restartOne hcontext hp (hqueued service (by simp))
    have hrest : ∀ other ∈ rest,
        (restartOne env none acc service).2.sm.queued other = true := by
      intro other hother
      rw [hothers other (ne_of_mem_of_not_mem hother hnodup.1)]
      exact hqueued other (List.mem_cons_of_mem _ hother)
    obtain ⟨hall, hattempts', hothers', hprogress'⟩ := ih hone hnodup.2 hrest
    rw [List.foldl_cons]
    refine ⟨hall, ?_, ?_, ?_⟩
    · rw [hattempts', hattempts, List.append_assoc, List.singleton_append]
    · intro other hother
      rw [List.mem_cons, not_or] at hother
      rw [hothers' other hother.2, hothers other hother.1]
    · rw [hprogress', hprogress, ← hothers' service hnodup.1, or_assoc]
      simp

/-- **A whole round** attempts every queued service. -/
theorem tallied_processRestartRound {p : RestartPass} (hp : Tallied sm env p) :
    Tallied sm env (p.processRestartRound env none).2 ∧
      (p.processRestartRound env none).2.attempts.map RestartAttempt.service =
        p.attempts.map RestartAttempt.service ++ p.sm.getSortedServices ∧
      (∀ service, (p.processRestartRound env none).2.sm.queued service = true →
        p.sm.queued service = true) ∧
      ((p.processRestartRound env none).1 = true ↔ ∃ service, p.sm.queued service = true ∧
        (p.processRestartRound env none).2.sm.queued service = false) := by
  have hsorted : ∀ service, service ∈ p.sm.getSortedServices ↔ p.sm.queued service = true := by
    intro service
    refine ⟨?_, mem_getSortedServices⟩
    intro hmem
    rw [ServiceManager.getSortedServices, List.mem_insertionSort, Std.ExtTreeMap.mem_keys,
      OrdMap.mem_iff_getElem?_isSome] at hmem
    obtain ⟨flag, hflag⟩ := hmem
    rw [ServiceManager.queued_iff_entry, hflag, hp.entries service flag hflag]
  obtain ⟨hall, hattempts, hothers, hprogress⟩ := tallied_foldl_restartOne hcontext
    p.sm.getSortedServices (show Tallied sm env (false, p).2 from hp) p.sm.nodup_getSortedServices
    fun service => (hsorted service).mp
  refine ⟨hall, hattempts, ?_, ?_⟩
  · intro service hqueued
    by_contra hnot
    rw [Bool.not_eq_true] at hnot
    have hsame := hothers service (by simp [hsorted, hnot])
    rw [processRestartRound] at hqueued
    simp [hsame, hnot] at hqueued
  · rw [processRestartRound, hprogress]
    simp [hsorted]

end Round

/-! ## A whole pass -/

/-- The services attempted in each round of a pass. -/
def rounds (env : RestartEnv) (lookup : Option (String → String)) :
    Nat → RestartPass → List (List String)
  | 0, _ => []
  | fuel + 1, p =>
    if p.sm.restartQueue.isEmpty then []
    else
      let round := p.processRestartRound env lookup
      ((round.2.attempts.drop p.attempts.length).map RestartAttempt.service) ::
        match p.turn env lookup with
        | .inl next => rounds env lookup fuel next
        | .inr _ => []

end RestartPass

/-- The order in which services are started: by their start order, then by name. -/
def ServiceManager.Before (sm : ServiceManager) (first second : String) : Prop :=
  sm.startOrderOf first < sm.startOrderOf second ∨
    sm.startOrderOf first = sm.startOrderOf second ∧ first < second

theorem ServiceManager.pairwise_getSortedServices (sm : ServiceManager) :
    sm.getSortedServices.Pairwise sm.Before := by
  have htotal : Std.Total fun a b => sm.startOrderOf a < sm.startOrderOf b ∨
      sm.startOrderOf a = sm.startOrderOf b ∧ a ≤ b := by
    refine ⟨fun a b => ?_⟩
    rcases lt_trichotomy (sm.startOrderOf a) (sm.startOrderOf b) with hlt | heq | hgt
    · exact Or.inl (Or.inl hlt)
    · exact (le_total a b).imp (fun h => Or.inr ⟨heq, h⟩) fun h => Or.inr ⟨heq.symm, h⟩
    · exact Or.inr (Or.inl hgt)
  have htrans : IsTrans String fun a b => sm.startOrderOf a < sm.startOrderOf b ∨
      sm.startOrderOf a = sm.startOrderOf b ∧ a ≤ b := by
    refine ⟨fun a b c => ?_⟩
    rintro (hab | ⟨hab, hab'⟩) (hbc | ⟨hbc, hbc'⟩)
    · exact Or.inl (hab.trans hbc)
    · exact Or.inl (hbc ▸ hab)
    · exact Or.inl (hab ▸ hbc)
    · exact Or.inr ⟨hab.trans hbc, hab'.trans hbc'⟩
  have hsorted := List.pairwise_insertionSort (fun a b => sm.startOrderOf a < sm.startOrderOf b ∨
    sm.startOrderOf a = sm.startOrderOf b ∧ a ≤ b) sm.restartQueue.keys
  refine (hsorted.and sm.nodup_getSortedServices).imp ?_
  rintro a b ⟨hlt | ⟨heq, hle⟩, hne⟩
  · exact Or.inl hlt
  · exact Or.inr ⟨heq, lt_of_le_of_ne hle hne⟩

namespace RestartPass

section Pass

variable {sm : ServiceManager} {env : RestartEnv} (hcontext : ∀ n, env.cancelled n = false)

include hcontext

theorem turn_cases (p : RestartPass) :
    (p.sm.restartQueue.isEmpty = true ∧ p.turn env none = .inr (p.report, p)) ∨
      p.sm.restartQueue.isEmpty = false ∧
        ((p.processRestartRound env none).1 = true ∧
            p.turn env none = .inl { (p.processRestartRound env none).2 with
              processedThisRound := {} } ∨
          (p.processRestartRound env none).1 = false ∧
            p.turn env none =
              .inr ((p.processRestartRound env none).2.report, (p.processRestartRound env none).2))
    := by
  unfold turn
  cases hempty : p.sm.restartQueue.isEmpty with
  | true => simp
  | false => cases hprogress : (p.processRestartRound env none).1 <;> simp [hcontext, hprogress]

/-- **It returns**: a round that makes progress takes a service off the queue. -/
theorem exists_iterate_turn {p : RestartPass} (hp : Tallied sm env p) :
    ∃ fuel, (Worklist.iterate (turn env none) fuel p).isSome = true := by
  have hwf : WellFounded (InvImage (· < ·) fun p : RestartPass => p.sm.pending.card) :=
    InvImage.wf _ wellFounded_lt
  refine Worklist.exists_iterate_of_acc (Tallied sm env) ?_ (hwf.apply p) hp
  intro p p' hp hturn
  rcases turn_cases hcontext p with ⟨-, heq⟩ | ⟨-, ⟨hprogress, heq⟩ | ⟨-, heq⟩⟩
  · simp [heq] at hturn
  · obtain ⟨hround, -, hkept, hmoved⟩ := tallied_processRestartRound hcontext hp
    obtain ⟨service, hwas, hgone⟩ := hmoved.mp hprogress
    rw [heq, Sum.inl.injEq] at hturn
    subst hturn
    refine ⟨Finset.card_lt_card ?_, ?_⟩
    · rw [Finset.ssubset_iff_of_subset]
      · refine ⟨service, ServiceManager.mem_pending.mpr hwas, ?_⟩
        rw [ServiceManager.mem_pending]
        simp [hgone]
      · intro other hother
        rw [ServiceManager.mem_pending] at hother ⊢
        exact hkept other hother
    · exact hround.unmarked
  · simp [heq] at hturn

/-- **How it ends.**  What is still queued was attempted, and failed. -/
theorem iterate_turn_spec {fuel : Nat} {p final : RestartPass} {result : RestartResult}
    (hp : Tallied sm env p)
    (hreturns : Worklist.iterate (turn env none) fuel p = some (result, final)) :
    result = final.report ∧ Tallied sm env final ∧
      (∀ service, final.sm.queued service = true → 0 < final.failures env service) ∧
      final.attempts.map RestartAttempt.service =
        p.attempts.map RestartAttempt.service ++ (rounds env none fuel p).flatten ∧
      ∀ round ∈ rounds env none fuel p, round.Pairwise sm.Before := by
  induction fuel generalizing p with
  | zero => simp [Worklist.iterate] at hreturns
  | succ fuel ih =>
    obtain ⟨hround, hattempts, hkept, -⟩ := tallied_processRestartRound hcontext hp
    have horder : p.sm.getSortedServices.Pairwise sm.Before := by
      refine p.sm.pairwise_getSortedServices.imp fun {a b} hbefore => ?_
      simpa only [ServiceManager.Before, ServiceManager.startOrderOf, hp.startOrder] using hbefore
    have hservices : ((p.processRestartRound env none).2.attempts.drop p.attempts.length).map
        RestartAttempt.service = p.sm.getSortedServices := by
      rw [List.map_drop, hattempts, List.drop_left' (by simp)]
    rw [Worklist.iterate] at hreturns
    rcases turn_cases hcontext p with ⟨hempty, heq⟩ | ⟨hempty, ⟨-, heq⟩ | ⟨-, heq⟩⟩
    · simp only [heq, Option.some.injEq, Prod.mk.injEq] at hreturns
      obtain ⟨rfl, rfl⟩ := hreturns
      refine ⟨rfl, hp, ?_, by simp [rounds, hempty], by simp [rounds, hempty]⟩
      intro service hqueued
      rw [ServiceManager.queued_iff_entry] at hqueued
      rw [Std.ExtTreeMap.isEmpty_iff] at hempty
      simp [hempty] at hqueued
    · simp only [heq] at hreturns
      obtain ⟨hresult, hfinal, hqueued, hattempts', hpairwise⟩ :=
        ih hround.unmarked hreturns
      refine ⟨hresult, hfinal, hqueued, ?_, ?_⟩
      · rw [hattempts', hattempts, rounds]
        simp [hempty, heq, hservices]
      · rw [rounds]
        simp only [hempty, Bool.false_eq_true, if_false, heq, hservices, List.forall_mem_cons]
        exact ⟨horder, hpairwise⟩
    · simp only [heq, Option.some.injEq, Prod.mk.injEq] at hreturns
      obtain ⟨rfl, rfl⟩ := hreturns
      refine ⟨rfl, hround, ?_, ?_, ?_⟩
      · intro service hqueued
        obtain ⟨-, hnone, -⟩ := (hround.queued service).mp hqueued
        have hattempted : 0 < (p.processRestartRound env none).2.attemptsOf service := by
          rw [attemptsOf, List.count_pos_iff, hattempts, List.mem_append]
          exact Or.inr (mem_getSortedServices (hkept service hqueued))
        rw [attemptsOf_eq env] at hattempted
        omega
      · rw [hattempts, rounds]
        simp [hempty, heq, hservices]
      · rw [rounds]
        simp only [hempty, Bool.false_eq_true, if_false, heq, hservices, List.mem_singleton]
        rintro round rfl
        exact horder

end Pass

end RestartPass

/-! ## The result -/

/-- What a pass over the queue of `sm` has to do: `p` is the pass at its end. -/
structure RestartsMeet (sm : ServiceManager) (env : RestartEnv) (fuel : Nat)
    (result : RestartResult) (p : RestartPass) : Prop where
  successes : ∀ service, p.successes env service ≤ 1
  attempts : ∀ service, (p.attemptsOf service : Int) ≤ max 1 sm.maxFailedRestarts
  rounds : p.attempts.map RestartAttempt.service =
    (RestartPass.rounds env none fuel { sm := sm }).flatten
  order : ∀ round ∈ RestartPass.rounds env none fuel { sm := sm }, round.Pairwise sm.Before
  done : result = .done ↔ ∀ service, sm.queued service = true → p.successes env service = 1
  failed : result ≠ .done → ∃ services, result = .failed services ∧
    services.Pairwise (· < ·) ∧
    ∀ service, service ∈ services ↔ sm.queued service = true ∧ p.successes env service = 0
  queue : ∀ service, service ∈ p.sm.restartQueue.keys ↔ sm.queued service = true ∧
    p.successes env service = 0 ∧ (p.failures env service : Int) < sm.maxFailedRestarts
  reasons : ∀ service : String, p.sm.restartReasons[service]? =
    if service ∈ p.sm.restartQueue.keys then sm.restartReasons[service]? else none

namespace RestartPass

/-- The services that are reported: those that failed and those still queued. -/
def unrecovered (p : RestartPass) : List String :=
  (p.failedRestarts.keys ++ p.sm.restartQueue.keys).dedup.insertionSort (· ≤ ·)

theorem report_eq (p : RestartPass) :
    p.report = if p.unrecovered.isEmpty then .done else .failed p.unrecovered := rfl

theorem pairwise_unrecovered (p : RestartPass) : p.unrecovered.Pairwise (· < ·) := by
  have hnodup : p.unrecovered.Nodup := by
    rw [unrecovered, List.Perm.nodup_iff (List.perm_insertionSort _ _)]
    exact List.nodup_dedup _
  have hsorted := List.pairwise_insertionSort (α := String) (· ≤ ·)
    (p.failedRestarts.keys ++ p.sm.restartQueue.keys).dedup
  exact (hsorted.and hnodup).imp fun hboth => lt_of_le_of_ne hboth.1 hboth.2

section Final

variable {sm : ServiceManager} {env : RestartEnv} {p : RestartPass} (hp : Tallied sm env p)

include hp

theorem Tallied.mem_keys (service : String) :
    service ∈ p.sm.restartQueue.keys ↔ p.sm.queued service = true := by
  rw [Std.ExtTreeMap.mem_keys, OrdMap.mem_iff_getElem?_isSome, ServiceManager.queued_iff_entry]
  constructor
  · rintro ⟨flag, hflag⟩
    rw [hflag, hp.entries service flag hflag]
  · intro hentry
    exact ⟨true, hentry⟩

/-- **The reported services** are those that were not restarted. -/
theorem Tallied.mem_unrecovered (service : String) :
    service ∈ p.unrecovered ↔ sm.queued service = true ∧ p.successes env service = 0 := by
  have hfailed : service ∈ p.failedRestarts.keys ↔
      p.successes env service = 0 ∧ 0 < p.failures env service := by
    rw [Std.ExtTreeMap.mem_keys, OrdMap.mem_iff_getElem?_isSome, hp.failed service]
    split <;> simp_all
  rw [unrecovered, List.mem_insertionSort, List.mem_dedup, List.mem_append, hfailed, hp.mem_keys,
    hp.queued service]
  constructor
  · rintro (⟨hnone, hpos⟩ | ⟨hqueued, hnone, -⟩)
    · exact ⟨hp.attempted service (by omega), hnone⟩
    · exact ⟨hqueued, hnone⟩
  · rintro ⟨hqueued, hnone⟩
    by_cases hpos : 0 < p.failures env service
    · exact Or.inl ⟨hnone, hpos⟩
    · exact Or.inr ⟨hqueued, hnone, Or.inl (by omega)⟩

end Final

end RestartPass

def twoQueued : ServiceManager :=
  (({} : ServiceManager).addRestart "mta" ["section mta"]).addRestart "proxy" []

def secondFails : RestartEnv where
  restart := fun number => number ≠ 1
  cancelled := fun _ => false

/-- **A restart pass.**  Without a lookup and with a context that is not cancelled it
ends, and it does what `RestartsMeet` says. -/
theorem processRestarts_meets (sm : ServiceManager) (env : RestartEnv)
    (henabled : sm.disableRestarts = false) (hqueue : sm.WellQueued)
    (hcontext : ∀ n, env.cancelled n = false) :
    (∃ fuel, (sm.processRestarts env none fuel).isSome = true) ∧
      ∀ fuel result p, sm.processRestarts env none fuel = some (result, p) →
        RestartsMeet sm env fuel result p := by
  have hstart := RestartPass.tallied_start hqueue env
  simp only [ServiceManager.processRestarts, henabled, Bool.false_eq_true, if_false]
  refine ⟨RestartPass.exists_iterate_turn hcontext hstart, ?_⟩
  intro fuel result p hreturns
  obtain ⟨hresult, hp, hfailed, hrounds, horder⟩ :=
    RestartPass.iterate_turn_spec hcontext hstart hreturns
  have hempty : p.unrecovered.isEmpty = true ↔
      ∀ service, sm.queued service = true → p.successes env service = 1 := by
    rw [List.isEmpty_iff, List.eq_nil_iff_forall_not_mem]
    simp only [hp.mem_unrecovered, not_and]
    refine forall₂_congr fun service _ => ?_
    have honce := hp.once service
    omega
  refine {
    successes := hp.once
    attempts := ?_
    rounds := by simpa using hrounds
    order := horder
    done := ?_
    failed := ?_
    queue := ?_
    reasons := ?_ }
  · intro service
    rw [RestartPass.attemptsOf_eq env]
    exact hp.bound service
  · rw [← hempty, hresult, RestartPass.report_eq]
    split <;> simp_all
  · intro hnot
    rw [hresult, RestartPass.report_eq] at hnot ⊢
    split at hnot
    · simp at hnot
    · rename_i hsome
      exact ⟨p.unrecovered, by simp [hsome], p.pairwise_unrecovered, hp.mem_unrecovered⟩
  · intro service
    rw [hp.mem_keys]
    constructor
    · intro hqueued
      obtain ⟨hstart, hnone, hzero | hfew⟩ := (hp.queued service).mp hqueued
      · have hpos := hfailed service hqueued
        omega
      · exact ⟨hstart, hnone, hfew⟩
    · rintro ⟨hstart, hnone, hfew⟩
      exact (hp.queued service).mpr ⟨hstart, hnone, Or.inr hfew⟩
  · intro service
    rw [hp.reasons service]
    simp only [hp.mem_keys]

/-- The proxy comes first and is restarted; the mail server fails and is restarted in
the second round. -/
theorem processRestarts_meets_two :
    (∃ p, twoQueued.processRestarts secondFails none 3 = some (.done, p) ∧
        p.attempts.map RestartAttempt.service = ["proxy", "mta", "mta"]) ∧
      ∀ fuel result p, twoQueued.processRestarts secondFails none fuel = some (result, p) →
        RestartsMeet twoQueued secondFails fuel result p := by
  have hqueue : twoQueued.WellQueued :=
    (ServiceManager.WellQueued.addRestart ⟨by simp, by simp⟩ _ _).addRestart _ _
  refine ⟨?_, (processRestarts_meets twoQueued secondFails rfl hqueue fun _ => rfl).2⟩
  have hrun : (twoQueued.processRestarts secondFails none 3).map
      (fun r => (r.1, r.2.attempts.map RestartAttempt.service)) =
        some (.done, ["proxy", "mta", "mta"]) := by decide +kernel
  obtain ⟨⟨result, p⟩, hreturns, hshape⟩ := Option.map_eq_some_iff.mp hrun
  obtain ⟨rfl, hattempts⟩ := Prod.mk.inj hshape
  exact ⟨p, hreturns, hattempts⟩

end Configd
