import Configd.Lib.Runs
import Configd.Services.Cascade

/-!
# The service manager shared by the restart policy and the watchdog

The restart policy and the watchdog put services on the queue of one service manager, and each of
them runs passes over the queue.  A call holds the lock of the manager, so any interleaving of the
two is a list of calls.  A pass of the watchdog queues the dependents (`DEPENDS`) of what it
restarts; a pass of the policy does not, because a restart for a configuration change is not to
cascade.

The queue does not say who put a service on it.  `owned` does: it has the services whose entry came
from the watchdog or is one of a dependent.  `cascades` records every service that was queued as a
dependent, with whether the entry of the restarted service was owned.  Nothing of the manager
depends on the two.

A pass of the watchdog restarts whatever it finds in the queue, so a restart for a configuration
change that the policy has queued and not processed yet, or that an earlier pass left there, does
cascade (`config_restart_cascades`).  No restart does so in a run in which the watchdog finds only
such entries of the policy as have no enabled dependents (`cascades_owned`).
-/

namespace Configd

open Lib

/-! ## A pass that need not return -/

namespace RestartPass

variable {env : RestartEnv} {lookup : Option (String → String)}

/-- The pass after at most so many turns of its loop. -/
def turns (env : RestartEnv) (lookup : Option (String → String)) : Nat → RestartPass → RestartPass
  | 0, p => p
  | fuel + 1, p =>
    match p.turn env lookup with
    | .inl next => turns env lookup fuel next
    | .inr (_, final) => final

theorem turns_of_returns {fuel : Nat} {p final : RestartPass} {result : RestartResult}
    (hreturns : Worklist.iterate (turn env lookup) fuel p = some (result, final)) :
    p.turns env lookup fuel = final := by
  induction fuel generalizing p with
  | zero => simp [Worklist.iterate] at hreturns
  | succ fuel ih =>
    rw [Worklist.iterate] at hreturns
    rw [turns]
    cases hturn : turn env lookup p with
    | inl next => exact ih (by simpa only [hturn] using hreturns)
    | inr outcome => simp_all

/-- **The rule for passes.**  What every attempt on a queued service keeps, and what
does not depend on the marks of a round, a pass keeps. -/
theorem turns_induction {motive : RestartPass → Prop}
    (hattempt : ∀ p service, motive p → p.sm.queued service = true →
      motive (p.attemptServiceRestart env lookup service).2)
    (hmarks : ∀ p marks, motive p → motive { p with processedThisRound := marks })
    (fuel : Nat) {p : RestartPass} (hp : motive p) : motive (p.turns env lookup fuel) := by
  have hround : ∀ p, motive p → motive (p.processRestartRound env lookup).2 := by
    intro p hp
    unfold processRestartRound
    refine List.foldlRecOn (motive := fun acc : Bool × RestartPass => motive acc.2) _ _ hp ?_
    intro acc hacc service _
    unfold restartOne
    split
    · exact hacc
    · split
      · exact hacc
      · rename_i hskip
        have hqueued : acc.2.sm.queued service = true := by
          by_contra hnot
          exact hskip (by simp [hnot])
        have hnext := hattempt acc.2 service hacc hqueued
        simp only
        split
        · exact hmarks _ _ hnext
        · exact hnext
  induction fuel generalizing p with
  | zero => exact hp
  | succ fuel ih =>
    rw [turns]
    unfold turn
    by_cases hempty : p.sm.restartQueue.isEmpty = true
    · simpa only [hempty, if_true] using hp
    · simp only [hempty, Bool.false_eq_true, if_false]
      by_cases hcancelled :
          env.cancelled (p.processRestartRound env lookup).2.attempts.length = true
      · simpa only [hcancelled, if_true] using hround p hp
      · simp only [hcancelled, Bool.false_eq_true, if_false]
        by_cases hprogress : (p.processRestartRound env lookup).1 = true
        · simp only [hprogress, if_true]
          exact ih (hmarks _ _ (hround p hp))
        · simpa only [hprogress, Bool.false_eq_true, if_false] using hround p hp

end RestartPass

/-- A service that was queued as a dependent. -/
structure Cascade where
  service : String
  /-- The service it is a dependency of. -/
  cause : String
  /-- The watchdog, or a cascade, had put `cause` on the queue. -/
  owned : Bool
  deriving DecidableEq

/-- The services that a successful restart puts on the queue. -/
def dependentsOf (deps : StrMap (List String)) (lookup : Option (String → String))
    (service : String) : List String :=
  lookup.elim [] fun lookup =>
    ((deps[service]?.getD []).map Strings.toLower).filter (ServiceManager.cascadesTo lookup)

/-- A pass over the queue, with the record of its cascades. -/
structure OwnedPass where
  pass : RestartPass
  owned : Finset String := ∅
  cascades : List Cascade := []

namespace OwnedPass

/-- What the record becomes when the round has come to `service` and the pass has
gone on to `next`. -/
def observe (env : RestartEnv) (lookup : Option (String → String)) (p : OwnedPass)
    (service : String) (next : RestartPass) : OwnedPass :=
  if next.attempts.length = p.pass.attempts.length then
    -- The round skipped the service.
    { p with pass := next }
  else if env.restart p.pass.attempts.length then
    let dependents := dependentsOf p.pass.sm.dependencies lookup service
    { pass := next
      owned := p.owned.erase service ∪ dependents.toFinset
      cascades := p.cascades ++
        dependents.map fun dependent => ⟨dependent, service, service ∈ p.owned⟩ }
  else
    -- A service that failed too often has left the queue.
    { p with
      pass := next
      owned := if next.sm.queued service then p.owned else p.owned.erase service }

def restartOne (env : RestartEnv) (lookup : Option (String → String)) (acc : Bool × OwnedPass)
    (service : String) : Bool × OwnedPass :=
  let next := RestartPass.restartOne env lookup (acc.1, acc.2.pass) service
  (next.1, acc.2.observe env lookup service next.2)

def processRestartRound (env : RestartEnv) (lookup : Option (String → String))
    (p : OwnedPass) : Bool × OwnedPass :=
  p.pass.sm.getSortedServices.foldl (restartOne env lookup) (false, p)

/-- `RestartPass.turn`, with whether the loop goes on. -/
def turn (env : RestartEnv) (lookup : Option (String → String)) (p : OwnedPass) :
    Bool × OwnedPass :=
  if p.pass.sm.restartQueue.isEmpty then (false, p)
  else
    let round := p.processRestartRound env lookup
    if env.cancelled round.2.pass.attempts.length then (false, round.2)
    else if round.1 then (true, { round.2 with pass.processedThisRound := {} })
    else (false, round.2)

/-- The pass after at most so many turns of its loop. -/
def turns (env : RestartEnv) (lookup : Option (String → String)) : Nat → OwnedPass → OwnedPass
  | 0, p => p
  | fuel + 1, p =>
    let next := p.turn env lookup
    if next.1 then turns env lookup fuel next.2 else next.2

/-! ## The record does not change the pass -/

theorem pass_observe (env : RestartEnv) (lookup : Option (String → String)) (p : OwnedPass)
    (service : String) (next : RestartPass) : (p.observe env lookup service next).pass = next := by
  unfold observe
  split
  · rfl
  · split <;> rfl

theorem pass_processRestartRound (env : RestartEnv) (lookup : Option (String → String))
    (p : OwnedPass) :
    p.pass.processRestartRound env lookup =
      ((p.processRestartRound env lookup).1, (p.processRestartRound env lookup).2.pass) := by
  unfold processRestartRound RestartPass.processRestartRound
  -- The two folds go through the same services side by side.
  have hfold : ∀ (services : List String) (acc : Bool × OwnedPass),
      services.foldl (RestartPass.restartOne env lookup) (acc.1, acc.2.pass) =
        ((services.foldl (restartOne env lookup) acc).1,
          (services.foldl (restartOne env lookup) acc).2.pass) := by
    intro services
    induction services with
    | nil => intro acc; rfl
    | cons service rest ih =>
      intro acc
      rw [List.foldl_cons, List.foldl_cons, ← ih]
      simp only [restartOne, pass_observe]
  exact hfold _ (false, p)

theorem pass_turn (env : RestartEnv) (lookup : Option (String → String)) (p : OwnedPass) :
    ((p.turn env lookup).1 = true ∧
        p.pass.turn env lookup = .inl (p.turn env lookup).2.pass) ∨
      ((p.turn env lookup).1 = false ∧
        ∃ result, p.pass.turn env lookup = .inr (result, (p.turn env lookup).2.pass)) := by
  unfold turn RestartPass.turn
  rw [pass_processRestartRound env lookup p]
  by_cases hempty : p.pass.sm.restartQueue.isEmpty = true
  · exact Or.inr (by simp [hempty])
  · simp only [hempty, Bool.false_eq_true, if_false]
    by_cases hcancelled :
        env.cancelled (p.processRestartRound env lookup).2.pass.attempts.length = true
    · exact Or.inr (by simp [hcancelled])
    · cases hprogress : (p.processRestartRound env lookup).1 with
      | true => exact Or.inl (by simp [hcancelled])
      | false => exact Or.inr (by simp [hcancelled])

/-- **The record does not change what a pass does.** -/
theorem pass_turns (env : RestartEnv) (lookup : Option (String → String)) (fuel : Nat)
    (p : OwnedPass) : (p.turns env lookup fuel).pass = p.pass.turns env lookup fuel := by
  induction fuel generalizing p with
  | zero => rfl
  | succ fuel ih =>
    rw [turns, RestartPass.turns]
    rcases pass_turn env lookup p with ⟨hgoes, heq⟩ | ⟨hends, result, heq⟩
    · simp only [hgoes, if_true, heq]
      exact ih _
    · simp only [hends, Bool.false_eq_true, if_false, heq]

end OwnedPass

namespace ServiceManager

/-- The manager after a restart that succeeded. -/
def restarted (sm : ServiceManager) (lookup : Option (String → String)) (service : String) :
    ServiceManager :=
  lookup.elim (sm.dequeue service) ((sm.dequeue service).addDependencyRestarts service)

theorem queued_restarted (sm : ServiceManager) (lookup : Option (String → String))
    (service other : String) :
    (sm.restarted lookup service).queued other = true ↔
      other ≠ service ∧ sm.queued other = true ∨
        other ∈ dependentsOf sm.dependencies lookup service := by
  cases lookup with
  | none => simp [restarted, queued_dequeue, dependentsOf]
  | some lookup =>
    show ((sm.dequeue service).addDependencyRestarts service lookup).queued other = true ↔ _
    rw [addDependencyRestarts, queued_foldl_queueDependencyRestart, queued_dequeue]
    have hdeps : (sm.dequeue service).dependencies = sm.dependencies := rfl
    rw [hdeps]
    constructor
    · rintro (hold | ⟨name, hname, hlower, hcascades⟩)
      · exact Or.inl hold
      · exact Or.inr (List.mem_filter.mpr ⟨List.mem_map.mpr ⟨name, hname, hlower⟩, hcascades⟩)
    · rintro (hold | hdependent)
      · exact Or.inl hold
      · obtain ⟨hmem, hcascades⟩ := List.mem_filter.mp hdependent
        obtain ⟨name, hname, hlower⟩ := List.mem_map.mp hmem
        exact Or.inr ⟨name, hname, hlower, hcascades⟩

theorem dependencies_restarted (sm : ServiceManager) (lookup : Option (String → String))
    (service : String) : (sm.restarted lookup service).dependencies = sm.dependencies := by
  cases lookup with
  | none => rfl
  | some lookup => exact dependencies_addDependencyRestarts _ _ _

end ServiceManager

theorem RestartPass.attempts_attempt (env : RestartEnv) (lookup : Option (String → String))
    (p : RestartPass) (service : String) :
    (p.attemptServiceRestart env lookup service).2.attempts =
      p.attempts ++ [⟨service, p.sm.restartReasons[service]?.getD []⟩] := by
  unfold attemptServiceRestart
  simp only
  split
  · rfl
  · split
    · rfl
    · split <;> rfl

theorem RestartPass.attempt_outcome (env : RestartEnv) (lookup : Option (String → String))
    (p : RestartPass) (service : String) :
    (p.attemptServiceRestart env lookup service).2.attempts.length = p.attempts.length + 1 ∧
      (env.restart p.attempts.length = true ∧
          (p.attemptServiceRestart env lookup service).2.sm = p.sm.restarted lookup service ∨
        env.restart p.attempts.length = false ∧
          ((p.attemptServiceRestart env lookup service).2.sm = p.sm ∨
            (p.attemptServiceRestart env lookup service).2.sm = p.sm.dequeue service)) := by
  unfold attemptServiceRestart
  by_cases hok : env.restart p.attempts.length = true
  · simp only [hok, if_true]
    exact ⟨by simp, Or.inl ⟨trivial, rfl⟩⟩
  · rw [Bool.not_eq_true] at hok
    simp only [hok, Bool.false_eq_true, if_false]
    by_cases hcancel : env.cancelled (p.attempts.length + 1) = true
    · simp [hcancel]
    · by_cases hlast : p.failedRestarts[service]?.getD 0 + 1 ≥ p.sm.maxFailedRestarts
      · simp [hcancel, hlast]
      · simp [hcancel, hlast]

namespace OwnedPass

/-- **What the record becomes when a round comes to a service.** -/
theorem restartOne_cases (env : RestartEnv) (lookup : Option (String → String))
    (acc : Bool × OwnedPass) (service : String) :
    (restartOne env lookup acc service).2 = acc.2 ∨
      (acc.2.pass.sm.queued service = true ∧
        (restartOne env lookup acc service).2.pass.sm = acc.2.pass.sm.restarted lookup service ∧
        (restartOne env lookup acc service).2.owned = acc.2.owned.erase service ∪
          (dependentsOf acc.2.pass.sm.dependencies lookup service).toFinset ∧
        (restartOne env lookup acc service).2.cascades = acc.2.cascades ++
          (dependentsOf acc.2.pass.sm.dependencies lookup service).map
            fun dependent => ⟨dependent, service, service ∈ acc.2.owned⟩) ∨
      ((restartOne env lookup acc service).2.cascades = acc.2.cascades ∧
        ((restartOne env lookup acc service).2.pass.sm = acc.2.pass.sm ∧
            (restartOne env lookup acc service).2.owned = acc.2.owned ∨
          (restartOne env lookup acc service).2.pass.sm = acc.2.pass.sm.dequeue service ∧
            (restartOne env lookup acc service).2.owned = acc.2.owned.erase service)) := by
  have hskipped : RestartPass.restartOne env lookup (acc.1, acc.2.pass) service =
      (acc.1, acc.2.pass) → (restartOne env lookup acc service).2 = acc.2 := by
    intro hsame
    simp only [restartOne, hsame, observe, if_true]
  obtain ⟨hlength, houtcome⟩ := acc.2.pass.attempt_outcome env lookup service
  by_cases hcancelled : env.cancelled acc.2.pass.attempts.length = true
  · exact Or.inl (hskipped (by simp [RestartPass.restartOne, hcancelled]))
  by_cases hskip : (!acc.2.pass.sm.queued service ||
      acc.2.pass.processedThisRound[service]?.getD false) = true
  · exact Or.inl (hskipped (by simp [RestartPass.restartOne, hcancelled, hskip]))
  have hqueued : acc.2.pass.sm.queued service = true := by
    by_contra hnot
    exact hskip (by simp [hnot])
  right
  -- What the round keeps of the attempt, whether or not the service left the queue.
  obtain ⟨next, hnext, hsm, hattempts⟩ : ∃ next : Bool × RestartPass,
      RestartPass.restartOne env lookup (acc.1, acc.2.pass) service = next ∧
        next.2.sm = (acc.2.pass.attemptServiceRestart env lookup service).2.sm ∧
        next.2.attempts.length = acc.2.pass.attempts.length + 1 := by
    refine ⟨_, rfl, ?_, ?_⟩
    · simp only [RestartPass.restartOne, hcancelled, hskip, Bool.false_eq_true, if_false]
      split <;> rfl
    · simp only [RestartPass.restartOne, hcancelled, hskip, Bool.false_eq_true, if_false]
      split <;> exact hlength
  have hcounted : ¬ next.2.attempts.length = acc.2.pass.attempts.length := by omega
  simp only [restartOne, hnext, observe, if_neg hcounted]
  rcases houtcome with ⟨hok, hrestarted⟩ | ⟨hfailed, hsame | hdropped⟩
  · left
    simp only [hok, if_true]
    exact ⟨hqueued, hsm.trans hrestarted, trivial, trivial⟩
  · right
    have hstill : next.2.sm.queued service = true := by rw [hsm, hsame, hqueued]
    simp only [hfailed, Bool.false_eq_true, if_false, hstill, if_true]
    exact ⟨trivial, Or.inl ⟨hsm.trans hsame, trivial⟩⟩
  · right
    have hgone : ¬ next.2.sm.queued service = true := by
      rw [hsm, hdropped, ServiceManager.queued_dequeue]
      simp
    simp only [hfailed, Bool.false_eq_true, if_false, hgone]
    exact ⟨trivial, Or.inr ⟨hsm.trans hdropped, trivial⟩⟩

/-! ## The invariant of a pass -/

/-- What holds of the record throughout a pass. -/
structure Inv (deps : StrMap (List String)) (lookup : Option (String → String)) (p : OwnedPass) :
    Prop where
  dependencies : p.pass.sm.dependencies = deps
  /-- A service that only the policy put on the queue has no enabled dependents. -/
  clear : ∀ service, p.pass.sm.queued service = true →
    service ∈ p.owned ∨ dependentsOf deps lookup service = []
  owned : ∀ service ∈ p.owned, p.pass.sm.queued service = true
  cascades : ∀ c ∈ p.cascades, c.owned = true

variable {deps : StrMap (List String)} {lookup : Option (String → String)}

theorem Inv.dropped {p p' : OwnedPass} (h : p.Inv deps lookup) {service : String}
    (hsm : p'.pass.sm = p.pass.sm.dequeue service) (howned : p'.owned = p.owned.erase service)
    (hcascades : p'.cascades = p.cascades) : p'.Inv deps lookup := by
  refine ⟨?_, ?_, ?_, ?_⟩
  · rw [hsm]
    exact h.dependencies
  · intro other hother
    rw [hsm, ServiceManager.queued_dequeue] at hother
    rw [howned, Finset.mem_erase]
    exact (h.clear other hother.2).imp_left fun hmem => ⟨hother.1, hmem⟩
  · intro other hother
    rw [howned, Finset.mem_erase] at hother
    rw [hsm, ServiceManager.queued_dequeue]
    exact ⟨hother.1, h.owned other hother.2⟩
  · rw [hcascades]
    exact h.cascades

theorem Inv.restarted {p p' : OwnedPass} (h : p.Inv deps lookup) {service : String}
    (hqueued : p.pass.sm.queued service = true)
    (hsm : p'.pass.sm = p.pass.sm.restarted lookup service)
    (howned : p'.owned = p.owned.erase service ∪ (dependentsOf deps lookup service).toFinset)
    (hcascades : p'.cascades = p.cascades ++ (dependentsOf deps lookup service).map
      fun dependent => ⟨dependent, service, service ∈ p.owned⟩) : p'.Inv deps lookup := by
  refine ⟨?_, ?_, ?_, ?_⟩
  · rw [hsm, ServiceManager.dependencies_restarted]
    exact h.dependencies
  · intro other hother
    rw [hsm, ServiceManager.queued_restarted, h.dependencies] at hother
    rw [howned, Finset.mem_union, Finset.mem_erase, List.mem_toFinset]
    rcases hother with ⟨hne, hold⟩ | hdependent
    · exact (h.clear other hold).imp_left fun hmem => Or.inl ⟨hne, hmem⟩
    · exact Or.inl (Or.inr hdependent)
  · intro other hother
    rw [howned, Finset.mem_union, Finset.mem_erase, List.mem_toFinset] at hother
    rw [hsm, ServiceManager.queued_restarted, h.dependencies]
    rcases hother with ⟨hne, hmem⟩ | hdependent
    · exact Or.inl ⟨hne, h.owned other hmem⟩
    · exact Or.inr hdependent
  · intro c hc
    rw [hcascades, List.mem_append, List.mem_map] at hc
    rcases hc with hold | ⟨dependent, hdependent, rfl⟩
    · exact h.cascades c hold
    · rcases h.clear service hqueued with hmem | hnone
      · simpa using hmem
      · simp [hnone] at hdependent

theorem inv_restartOne (env : RestartEnv) {acc : Bool × OwnedPass} (h : acc.2.Inv deps lookup)
    (service : String) : (restartOne env lookup acc service).2.Inv deps lookup := by
  rcases restartOne_cases env lookup acc service with hsame | ⟨hqueued, hsm, howned, hcascades⟩ |
    ⟨hcascades, ⟨hsm, howned⟩ | ⟨hsm, howned⟩⟩
  · rwa [hsame]
  · rw [h.dependencies] at howned hcascades
    exact h.restarted hqueued hsm howned hcascades
  · refine ⟨?_, ?_, ?_, ?_⟩
    · rw [hsm]
      exact h.dependencies
    · rw [hsm, howned]
      exact h.clear
    · rw [hsm, howned]
      exact h.owned
    · rw [hcascades]
      exact h.cascades
  · exact h.dropped hsm howned hcascades

theorem inv_processRestartRound (env : RestartEnv) {p : OwnedPass} (h : p.Inv deps lookup) :
    (p.processRestartRound env lookup).2.Inv deps lookup := by
  unfold processRestartRound
  refine List.foldlRecOn (motive := fun acc : Bool × OwnedPass => acc.2.Inv deps lookup) _ _ h ?_
  intro acc hacc service _
  exact inv_restartOne env hacc service

theorem inv_turn (env : RestartEnv) {p : OwnedPass} (h : p.Inv deps lookup) :
    (p.turn env lookup).2.Inv deps lookup := by
  have hround := inv_processRestartRound env h
  unfold turn
  split
  · exact h
  · simp only
    split
    · exact hround
    · split
      · exact ⟨hround.dependencies, hround.clear, hround.owned, hround.cascades⟩
      · exact hround

theorem inv_turns (env : RestartEnv) (fuel : Nat) {p : OwnedPass} (h : p.Inv deps lookup) :
    (p.turns env lookup fuel).Inv deps lookup := by
  induction fuel generalizing p with
  | zero => exact h
  | succ fuel ih =>
    rw [turns]
    split
    · exact ih (inv_turn env h)
    · exact inv_turn env h

end OwnedPass

/-! ## The calls on the shared manager -/

/-- A call of the restart policy or the watchdog.  A pass comes with what the
restarts do and a bound on the turns of its loop. -/
inductive ManagerCall
  /-- `SetDependencies`, which the main loop makes before each plan. -/
  | setDependencies (deps : StrMap (List String))
  /-- `Policy.queueLegacy`. -/
  | policyAdd (service : String) (reasons : List String)
  /-- `Policy.process`. -/
  | policyProcess (env : RestartEnv) (fuel : Nat)
  /-- The `AddRestart` of `restartDownService`. -/
  | watchdogAdd (service : String)
  /-- The `ProcessRestarts` of `restartDownService`. -/
  | watchdogProcess (env : RestartEnv) (lookup : String → String) (fuel : Nat)

/-- The shared manager, with the record of its cascades. -/
structure SharedManager where
  sm : ServiceManager := {}
  owned : Finset String := ∅
  cascades : List Cascade := []

namespace SharedManager

/-- `ProcessRestarts`. -/
def process (s : SharedManager) (env : RestartEnv) (lookup : Option (String → String))
    (fuel : Nat) : SharedManager :=
  if s.sm.disableRestarts then { s with sm := s.sm.clearRestarts, owned := ∅ }
  else
    let final : OwnedPass := OwnedPass.turns env lookup fuel ⟨{ sm := s.sm }, s.owned, s.cascades⟩
    ⟨final.pass.sm, final.owned, final.cascades⟩

def step (s : SharedManager) : ManagerCall → SharedManager
  | .setDependencies deps => { s with sm.dependencies := deps }
  | .policyAdd service reasons => { s with sm := s.sm.addRestart service reasons }
  | .policyProcess env fuel => s.process env none fuel
  | .watchdogAdd service =>
    { s with
      sm := s.sm.addRestart service []
      owned := insert (Strings.toLower service) s.owned }
  | .watchdogProcess env lookup fuel => s.process env (some lookup) fuel

theorem sm_process (s : SharedManager) (env : RestartEnv) (lookup : Option (String → String))
    {fuel : Nat} {result : RestartResult} {final : RestartPass}
    (hreturns : s.sm.processRestarts env lookup fuel = some (result, final)) :
    (s.process env lookup fuel).sm = final.sm := by
  unfold ServiceManager.processRestarts at hreturns
  unfold process
  split at hreturns
  · rename_i hdisabled
    simp only [hdisabled, if_true]
    simp only [Option.some.injEq, Prod.mk.injEq] at hreturns
    rw [← hreturns.2]
  · rename_i henabled
    simp only [henabled, Bool.false_eq_true, if_false]
    rw [OwnedPass.pass_turns, RestartPass.turns_of_returns hreturns]

/-- A pass of the watchdog finds only such entries of the policy on the queue as
have no enabled dependents. -/
def DrainsOwn (s : SharedManager) : ManagerCall → Prop
  | .watchdogProcess _ lookup _ => s.sm.disableRestarts = false →
      ∀ service ∈ s.sm.restartQueue.keys, service ∈ s.owned ∨
        dependentsOf s.sm.dependencies (some lookup) service = []
  | _ => True

instance (s : SharedManager) : ∀ call, Decidable (s.DrainsOwn call)
  | .watchdogProcess _ lookup _ => inferInstanceAs (Decidable (s.sm.disableRestarts = false →
      ∀ service ∈ s.sm.restartQueue.keys, service ∈ s.owned ∨
        dependentsOf s.sm.dependencies (some lookup) service = []))
  | .setDependencies _ | .policyAdd _ _ | .policyProcess _ _ | .watchdogAdd _ =>
    inferInstanceAs (Decidable True)

/-- What holds of the record between two calls. -/
structure Inv (s : SharedManager) : Prop where
  owned : ∀ service ∈ s.owned, s.sm.queued service = true
  cascades : ∀ c ∈ s.cascades, c.owned = true

theorem inv_process {s : SharedManager} (h : s.Inv) (env : RestartEnv)
    (lookup : Option (String → String)) (fuel : Nat)
    (hclear : s.sm.disableRestarts = false → ∀ service, s.sm.queued service = true →
      service ∈ s.owned ∨ dependentsOf s.sm.dependencies lookup service = []) :
    (s.process env lookup fuel).Inv := by
  unfold process
  cases hdisabled : s.sm.disableRestarts with
  | true => exact ⟨by simp, h.cascades⟩
  | false =>
    have hinit : OwnedPass.Inv s.sm.dependencies lookup ⟨{ sm := s.sm }, s.owned, s.cascades⟩ :=
      ⟨rfl, hclear hdisabled, h.owned, h.cascades⟩
    have hpass := OwnedPass.inv_turns env fuel hinit
    exact ⟨hpass.owned, hpass.cascades⟩

theorem inv_step {s : SharedManager} (h : s.Inv) {call : ManagerCall} (hcall : s.DrainsOwn call) :
    (s.step call).Inv := by
  cases call with
  | setDependencies deps => exact ⟨h.owned, h.cascades⟩
  | policyAdd service reasons =>
    refine ⟨fun other hother => ?_, h.cascades⟩
    exact (ServiceManager.queued_addRestart _ _ _ _).mpr (Or.inr (h.owned other hother))
  | policyProcess env fuel => exact inv_process h env none fuel fun _ _ _ => Or.inr rfl
  | watchdogAdd service =>
    refine ⟨fun other hother => ?_, h.cascades⟩
    refine (ServiceManager.queued_addRestart _ _ _ _).mpr ?_
    rcases Finset.mem_insert.mp hother with heq | hold
    · exact Or.inl heq
    · exact Or.inr (h.owned other hold)
  | watchdogProcess env lookup fuel =>
    refine inv_process h env (some lookup) fuel fun hdisabled service hqueued => ?_
    refine hcall hdisabled service ?_
    rw [← ServiceManager.mem_pending, ServiceManager.pending, List.mem_toFinset] at hqueued
    exact (List.mem_filter.mp hqueued).1

/-! ## Restarts for a configuration change and cascades -/

def antivirusDeps : StrMap (List String) := [("antivirus", ["amavis"])].foldl
  (fun deps entry => deps.insert entry.1 entry.2) {}

def allEnabled : String → String := fun _ => "TRUE"

def antivirusTwice : List ManagerCall :=
  [.setDependencies antivirusDeps, .policyAdd "antivirus" ["rewrite"],
    .policyProcess RestartPass.allSucceed 3, .watchdogAdd "antivirus",
    .watchdogProcess RestartPass.allSucceed allEnabled 3]

/-- **No restart that was queued for a configuration change only cascades**, in every
interleaving of the calls in which the passes of the watchdog find no entry of the
policy that has enabled dependents. -/
theorem cascades_owned (disableRestarts : Bool) (calls : List ManagerCall)
    (hcalls : Along step DrainsOwn { sm := { disableRestarts := disableRestarts } } calls) :
    ∀ c ∈ (run step { sm := { disableRestarts := disableRestarts } } calls).cascades,
      c.owned = true := by
  have hinit : Inv { sm := { disableRestarts := disableRestarts } } := ⟨by simp, by simp⟩
  exact (run_invariant_along hinit (fun _ _ hinv hcall => inv_step hinv hcall) hcalls).cascades

/-- The policy processes the restart of `antivirus` it queued, and the watchdog
restarts `antivirus` later: only the second restart cascades. -/
theorem cascades_owned_watchdog :
    Along step DrainsOwn { sm := { disableRestarts := false } } antivirusTwice ∧
      ⟨"amavis", "antivirus", true⟩ ∈
        (run step { sm := { disableRestarts := false } } antivirusTwice).cascades ∧
      ∀ c ∈ (run step { sm := { disableRestarts := false } } antivirusTwice).cascades,
        c.owned = true := by
  have hcalls : Along step DrainsOwn { sm := { disableRestarts := false } } antivirusTwice := by
    decide +kernel
  exact ⟨hcalls, by decide +kernel, cascades_owned false _ hcalls⟩

/-- The watchdog restarts `mta` between the two calls of the policy for `antivirus`:
its pass restarts `antivirus` too, and `amavis` as a dependent of it. -/
theorem config_restart_cascades :
    ⟨"amavis", "antivirus", false⟩ ∈ (run step { sm := { disableRestarts := false } }
      [.setDependencies antivirusDeps, .policyAdd "antivirus" ["rewrite"],
        .watchdogAdd "mta", .watchdogProcess RestartPass.allSucceed allEnabled 3]).cascades := by
  decide +kernel

end SharedManager
end Configd
