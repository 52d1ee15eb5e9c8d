import Configd.Services.Manager

/-!
# When a pass over the restart queue returns

A restart that succeeds queues the dependent services again, whatever was
restarted before, so a pass is a worklist over the graph of `Cascades`: an edge
leads from a service to each dependent service that would be queued.  A pass
with a lookup of the enabled services returns for every sequence of outcomes
exactly when restarts are disabled or no queued service reaches a cycle of that
graph (`processRestarts_returns_iff`).
-/

namespace Configd

open Lib Relation

namespace ServiceManager

/-- A restart of `service` queues `dependent`. -/
def Cascades (deps : StrMap (List String)) (lookup : String → String)
    (service dependent : String) : Prop :=
  ∃ name ∈ deps[service]?.getD [], Strings.toLower name = dependent ∧
    cascadesTo lookup dependent = true

/-- The services that are queued. -/
def pending (sm : ServiceManager) : Finset String :=
  (sm.restartQueue.keys.filter sm.queued).toFinset

theorem mem_pending {sm : ServiceManager} {service : String} :
    service ∈ sm.pending ↔ sm.queued service = true := by
  simp only [pending, List.mem_toFinset, List.mem_filter, and_iff_right_iff_imp]
  intro hqueued
  rw [Std.ExtTreeMap.mem_keys, OrdMap.mem_iff_getElem?_isSome]
  unfold queued at hqueued
  cases hentry : sm.restartQueue[service]? with
  | none => simp [hentry] at hqueued
  | some flag => exact ⟨flag, rfl⟩

/-! ## The steps of a pass -/

theorem queued_addRestart (sm : ServiceManager) (service other : String)
    (reasons : List String) :
    (sm.addRestart service reasons).queued other = true ↔
      other = Strings.toLower service ∨ sm.queued other = true := by
  unfold queued addRestart
  rw [OrdMap.getElem?_insert_iff]
  by_cases heq : Strings.toLower service = other
  · simp [heq]
  · simp [heq, Ne.symm heq]

theorem queued_dequeue (sm : ServiceManager) (service other : String) :
    (sm.dequeue service).queued other = true ↔ other ≠ service ∧ sm.queued other = true := by
  unfold queued dequeue
  rw [OrdMap.getElem?_erase_iff]
  by_cases heq : service = other
  · simp [heq]
  · simp [heq, Ne.symm heq]

theorem pending_dequeue (sm : ServiceManager) (service : String) :
    (sm.dequeue service).pending = sm.pending.erase service := by
  ext other
  rw [mem_pending, queued_dequeue, Finset.mem_erase, mem_pending]

theorem queued_foldl_queueDependencyRestart (lookup : String → String) (reason : String)
    (names : List String) (sm : ServiceManager) (other : String) :
    (names.foldl (fun sm name =>
        sm.queueDependencyRestart (Strings.toLower name) reason lookup) sm).queued other = true ↔
      sm.queued other = true ∨ ∃ name ∈ names, Strings.toLower name = other ∧
        cascadesTo lookup other = true := by
  induction names generalizing sm with
  | nil => simp
  | cons name rest ih =>
    rw [List.foldl_cons, ih, queueDependencyRestart]
    by_cases hcascades : cascadesTo lookup (Strings.toLower name) = true
    · rw [if_pos hcascades, queued_addRestart, Strings.toLower_toLower]
      constructor
      · rintro ((rfl | hold) | ⟨next, hnext, hother⟩)
        · exact Or.inr ⟨name, by simp, rfl, hcascades⟩
        · exact Or.inl hold
        · exact Or.inr ⟨next, by simp [hnext], hother⟩
      · rintro (hold | ⟨next, hnext, hlower, hother⟩)
        · exact Or.inl (Or.inr hold)
        · rcases List.mem_cons.mp hnext with rfl | hnext
          · exact Or.inl (Or.inl hlower.symm)
          · exact Or.inr ⟨next, hnext, hlower, hother⟩
    · rw [if_neg hcascades]
      constructor
      · rintro (hold | ⟨next, hnext, hother⟩)
        · exact Or.inl hold
        · exact Or.inr ⟨next, by simp [hnext], hother⟩
      · rintro (hold | ⟨next, hnext, hlower, hother⟩)
        · exact Or.inl hold
        · rcases List.mem_cons.mp hnext with rfl | hnext
          · rw [hlower] at hcascades
            exact absurd hother hcascades
          · exact Or.inr ⟨next, hnext, hlower, hother⟩

theorem dependencies_addDependencyRestarts (sm : ServiceManager) (service : String)
    (lookup : String → String) :
    (sm.addDependencyRestarts service lookup).dependencies = sm.dependencies := by
  unfold addDependencyRestarts
  refine List.foldlRecOn (motive := fun next : ServiceManager =>
    next.dependencies = sm.dependencies) _ _ rfl ?_
  intro next hnext name _
  unfold queueDependencyRestart
  split
  · exact hnext
  · exact hnext

theorem mem_pending_restarted (sm : ServiceManager) (lookup : String → String)
    (service other : String) :
    other ∈ ((sm.dequeue service).addDependencyRestarts service lookup).pending ↔
      other ∈ sm.pending.erase service ∨ Cascades sm.dependencies lookup service other := by
  rw [mem_pending, addDependencyRestarts, queued_foldl_queueDependencyRestart, ← mem_pending,
    pending_dequeue]
  rfl

end ServiceManager

open ServiceManager

namespace RestartPass

variable {env : RestartEnv} {lookup : String → String}

theorem attempt_cases (env : RestartEnv) (lookup : String → String) (p : RestartPass)
    {service : String} (hqueued : p.sm.queued service = true) :
    ((p.attemptServiceRestart env (some lookup) service).1 = true ∧
        Worklist.Handles (Cascades p.sm.dependencies lookup) p.sm.pending
          (p.attemptServiceRestart env (some lookup) service).2.sm.pending ∧
        (p.attemptServiceRestart env (some lookup) service).2.sm.dependencies =
          p.sm.dependencies) ∨
      ((p.attemptServiceRestart env (some lookup) service).1 = false ∧
        (p.attemptServiceRestart env (some lookup) service).2.sm = p.sm) := by
  have hmem : service ∈ p.sm.pending := mem_pending.mpr hqueued
  unfold attemptServiceRestart
  by_cases hok : env.restart p.attempts.length = true
  · left
    simp only [hok, if_true]
    refine ⟨trivial, ?_, dependencies_addDependencyRestarts _ _ _⟩
    have hpending := mem_pending_restarted p.sm lookup service
    exact Worklist.handles_of_mem hmem (fun b hb => (hpending b).mpr (Or.inl hb))
      fun b hb => (hpending b).mp hb
  · simp only [hok, Bool.false_eq_true, if_false]
    by_cases hcancel : env.cancelled (p.attempts.length + 1) = true
    · right
      simp [hcancel]
    · simp only [hcancel, Bool.false_eq_true, if_false]
      by_cases hlast : p.failedRestarts[service]?.getD 0 + 1 ≥ p.sm.maxFailedRestarts
      · left
        rw [if_pos hlast]
        exact ⟨rfl, ⟨service, hmem, ∅, by simp, by simp [pending_dequeue]⟩, rfl⟩
      · right
        rw [if_neg hlast]
        exact ⟨rfl, rfl⟩

/-- What a round does, seen from the pass it started with: without progress the
queue is unchanged, with progress services were handled. -/
structure RoundFrom (lookup : String → String) (p : RestartPass) (acc : Bool × RestartPass) :
    Prop where
  dependencies : acc.2.sm.dependencies = p.sm.dependencies
  idle : acc.1 = false → acc.2.sm.pending = p.sm.pending
  progress : acc.1 = true → TransGen (Worklist.Handles (Cascades p.sm.dependencies lookup))
    p.sm.pending acc.2.sm.pending

variable {p : RestartPass}

theorem roundFrom_restartOne {acc : Bool × RestartPass}
    (hacc : RoundFrom lookup p acc) (service : String) :
    RoundFrom lookup p (restartOne env (some lookup) acc service) := by
  unfold restartOne
  split
  · exact hacc
  · split
    · exact hacc
    · rename_i hskip
      have hqueued : acc.2.sm.queued service = true := by
        by_contra hnot
        exact hskip (by simp [hnot])
      rcases attempt_cases env lookup acc.2 hqueued with ⟨hleft, hhandles, hdeps⟩ | ⟨hstays, hsame⟩
      · rw [if_pos hleft]
        rw [hacc.dependencies] at hhandles
        refine ⟨hdeps.trans hacc.dependencies, by simp, ?_⟩
        intro _
        cases hbefore : acc.1 with
        | true => exact (hacc.progress hbefore).tail hhandles
        | false =>
          rw [hacc.idle hbefore] at hhandles
          exact .single hhandles
      · rw [if_neg (by simp [hstays])]
        refine ⟨?_, ?_, ?_⟩
        · show (acc.2.attemptServiceRestart env (some lookup) service).2.sm.dependencies = _
          rw [hsame]
          exact hacc.dependencies
        · intro hidle
          show (acc.2.attemptServiceRestart env (some lookup) service).2.sm.pending = _
          rw [hsame]
          exact hacc.idle hidle
        · intro hprogress
          show TransGen _ _ (acc.2.attemptServiceRestart env (some lookup) service).2.sm.pending
          rw [hsame]
          exact hacc.progress hprogress

theorem roundFrom_processRestartRound (env : RestartEnv) (lookup : String → String)
    (p : RestartPass) : RoundFrom lookup p (p.processRestartRound env (some lookup)) := by
  unfold processRestartRound
  refine List.foldlRecOn (motive := RoundFrom lookup p) _ _ ?_ ?_
  · exact ⟨rfl, fun _ => rfl, by simp⟩
  · intro acc hacc service _
    exact roundFrom_restartOne hacc service

/-- **A turn that goes on handles services.** -/
theorem turn_inl {p' : RestartPass} (hturn : p.turn env (some lookup) = .inl p') :
    TransGen (Worklist.Handles (Cascades p.sm.dependencies lookup)) p.sm.pending p'.sm.pending ∧
      p'.sm.dependencies = p.sm.dependencies := by
  have hround := roundFrom_processRestartRound env lookup p
  unfold turn at hturn
  split at hturn
  · cases hturn
  · simp only at hturn
    split at hturn
    · cases hturn
    · split at hturn
      · rename_i hprogress
        cases hturn
        exact ⟨hround.progress hprogress, hround.dependencies⟩
      · cases hturn

theorem exists_iterate_of_acc (env : RestartEnv)
    (hacc : ∀ service ∈ p.sm.pending,
      Acc (fun b a => Cascades p.sm.dependencies lookup a b) service) :
    ∃ fuel, (Worklist.iterate (turn env (some lookup)) fuel p).isSome = true := by
  have hpass : Acc (InvImage (TransGen fun q' q =>
      Worklist.Handles (Cascades p.sm.dependencies lookup) q q')
        (fun next : RestartPass => next.sm.pending)) p :=
    InvImage.accessible _ (Worklist.acc_handles hacc).transGen
  refine Worklist.exists_iterate_of_acc
    (fun next => next.sm.dependencies = p.sm.dependencies) ?_ hpass rfl
  intro next next' hdeps hturn
  obtain ⟨hhandles, hsame⟩ := turn_inl hturn
  rw [hdeps] at hhandles hsame
  exact ⟨transGen_swap.mp hhandles, hsame⟩

/-! ## A pass in which every restart succeeds -/

/-- A chain of dependents starts at a queued service and never ends. -/
def Endless (deps : StrMap (List String)) (lookup : String → String) (p : RestartPass) : Prop :=
  p.sm.dependencies = deps ∧
    ∃ service ∈ p.sm.pending, ¬ Acc (fun b a => Cascades deps lookup a b) service

def allSucceed : RestartEnv where
  restart := fun _ => true
  cancelled := fun _ => false

theorem attempt_allSucceed (lookup : String → String) (p : RestartPass) (service : String) :
    (p.attemptServiceRestart allSucceed (some lookup) service).1 = true ∧
      (p.attemptServiceRestart allSucceed (some lookup) service).2.sm =
        (p.sm.dequeue service).addDependencyRestarts service lookup :=
  ⟨rfl, rfl⟩

variable {deps : StrMap (List String)}

theorem endless_restartOne {acc : Bool × RestartPass}
    (hacc : Endless deps lookup acc.2) (service : String) :
    Endless deps lookup (restartOne allSucceed (some lookup) acc service).2 := by
  obtain ⟨hdeps, hendless⟩ := hacc
  unfold restartOne
  split
  · exact ⟨hdeps, hendless⟩
  · split
    · exact ⟨hdeps, hendless⟩
    · obtain ⟨hleft, hsm⟩ := attempt_allSucceed lookup acc.2 service
      have hpending := mem_pending_restarted acc.2.sm lookup service
      rw [hdeps, ← hsm] at hpending
      rw [if_pos hleft]
      refine ⟨?_, Worklist.exists_not_acc_of_handled (fun b hb => (hpending b).mpr (Or.inl hb))
        (fun b hb => (hpending b).mpr (Or.inr hb)) hendless⟩
      show (acc.2.attemptServiceRestart allSucceed (some lookup) service).2.sm.dependencies = deps
      rw [hsm, dependencies_addDependencyRestarts]
      exact hdeps

theorem endless_processRestartRound
    (hp : Endless deps lookup p) :
    Endless deps lookup (p.processRestartRound allSucceed (some lookup)).2 := by
  unfold processRestartRound
  refine List.foldlRecOn (motive := fun acc : Bool × RestartPass => Endless deps lookup acc.2)
    _ _ hp ?_
  intro acc hacc service _
  exact endless_restartOne hacc service

theorem foldl_restartOne_progress (env : RestartEnv) (lookup : Option (String → String))
    (services : List String) (p : RestartPass) :
    (services.foldl (restartOne env lookup) (true, p)).1 = true := by
  refine List.foldlRecOn (motive := fun acc : Bool × RestartPass => acc.1 = true) _ _ rfl ?_
  intro acc hacc service _
  unfold restartOne
  split
  · exact hacc
  · split
    · exact hacc
    · simp only
      split
      · rfl
      · exact hacc

theorem foldl_restartOne_of_queued {services : List String}
    (hprocessed : p.processedThisRound = {})
    (hqueued : ∃ service ∈ services, p.sm.queued service = true) :
    (services.foldl (restartOne allSucceed (some lookup)) (false, p)).1 = true := by
  induction services with
  | nil =>
    obtain ⟨service, hmem, -⟩ := hqueued
    cases hmem
  | cons first rest ih =>
    rw [List.foldl_cons]
    by_cases hfirst : p.sm.queued first = true
    · have hone : (restartOne allSucceed (some lookup) (false, p) first).1 = true := by
        simp [restartOne, allSucceed, hfirst, hprocessed, attemptServiceRestart]
      rw [← Prod.mk.eta (p := restartOne allSucceed (some lookup) (false, p) first), hone]
      exact foldl_restartOne_progress _ _ _ _
    · have hone : restartOne allSucceed (some lookup) (false, p) first = (false, p) := by
        simp [restartOne, hfirst]
      rw [hone]
      apply ih
      obtain ⟨service, hmem, hservice⟩ := hqueued
      rcases List.mem_cons.mp hmem with rfl | hrest
      · exact absurd hservice hfirst
      · exact ⟨service, hrest, hservice⟩

theorem mem_getSortedServices {sm : ServiceManager} {service : String}
    (hqueued : sm.queued service = true) : service ∈ sm.getSortedServices := by
  have hmem := mem_pending.mpr hqueued
  rw [pending, List.mem_toFinset, List.mem_filter] at hmem
  rw [getSortedServices, List.mem_insertionSort]
  exact hmem.1

/-- **A turn of an endless pass goes on**, and the pass stays endless. -/
theorem turn_of_endless
    (hp : Endless deps lookup p) (hprocessed : p.processedThisRound = {}) :
    ∃ p', p.turn allSucceed (some lookup) = .inl p' ∧ Endless deps lookup p' ∧
      p'.processedThisRound = {} := by
  have hround := endless_processRestartRound hp
  obtain ⟨-, service, hservice, -⟩ := hp
  have hqueued := mem_pending.mp hservice
  have hnonempty : p.sm.restartQueue.isEmpty = false := by
    by_contra hempty
    have hnil : p.sm.restartQueue = ∅ := Std.ExtTreeMap.isEmpty_iff.mp (by simpa using hempty)
    simp [queued, hnil] at hqueued
  have hprogress : (p.processRestartRound allSucceed (some lookup)).1 = true :=
    foldl_restartOne_of_queued hprocessed ⟨service, mem_getSortedServices hqueued, hqueued⟩
  refine ⟨{ (p.processRestartRound allSucceed (some lookup)).2 with processedThisRound := {} },
    ?_, hround, rfl⟩
  have hcontext : ∀ n, allSucceed.cancelled n = false := fun _ => rfl
  simp [turn, hnonempty, hprogress, hcontext]

end RestartPass

/-! ## The result -/

open RestartPass

theorem finite_cascades (deps : StrMap (List String)) (lookup : String → String) :
    {dependent | ∃ service, Cascades deps lookup service dependent}.Finite := by
  refine ((deps.toList.flatMap Prod.snd).map Strings.toLower).toFinset.finite_toSet.subset ?_
  rintro dependent ⟨service, name, hname, hlower, -⟩
  cases hentry : deps[service]? with
  | none => simp [hentry] at hname
  | some names =>
    have hmem := Std.ExtTreeMap.mem_toList_iff_getElem?_eq_some.mpr hentry
    have hname' : name ∈ names := by simpa [hentry] using hname
    simp only [List.coe_toFinset, List.mem_map, List.mem_flatMap, Set.mem_ofPred_eq]
    exact ⟨name, ⟨(service, names), hmem, hname'⟩, hlower⟩

/-- No queued service reaches a cycle of dependents. -/
def ServiceManager.NoCycle (sm : ServiceManager) (lookup : String → String) : Prop :=
  ∀ service, sm.queued service = true →
    ∀ reached, ReflTransGen (Cascades sm.dependencies lookup) service reached →
      ¬ TransGen (Cascades sm.dependencies lookup) reached reached

theorem noCycle_iff_acc (sm : ServiceManager) (lookup : String → String) :
    sm.NoCycle lookup ↔ ∀ service ∈ sm.pending,
      Acc (fun b a => Cascades sm.dependencies lookup a b) service := by
  unfold NoCycle
  refine forall_congr' fun service => ?_
  rw [mem_pending, Worklist.acc_iff_no_cycle
    (Worklist.finite_reaches (finite_cascades sm.dependencies lookup) service)]

theorem processRestarts_of_cycle {sm : ServiceManager} {lookup : String → String}
    (henabled : sm.disableRestarts = false) (hcycle : ¬ sm.NoCycle lookup) (fuel : Nat) :
    sm.processRestarts allSucceed (some lookup) fuel = none := by
  rw [noCycle_iff_acc] at hcycle
  push Not at hcycle
  obtain ⟨service, hservice, hendless⟩ := hcycle
  have hpass : Endless sm.dependencies lookup { sm := sm } := ⟨rfl, service, hservice, hendless⟩
  rw [processRestarts, henabled]
  exact Worklist.iterate_eq_none (fun next => Endless sm.dependencies lookup next ∧
    next.processedThisRound = {}) (fun _ hnext => turn_of_endless hnext.1 hnext.2) fuel ⟨hpass, rfl⟩

/-- **When a pass over the restart queue returns.**  With a lookup of the enabled
services and without a cancellation it returns for every sequence of outcomes
exactly when restarts are disabled or no queued service reaches a cycle. -/
theorem processRestarts_returns_iff (sm : ServiceManager) (lookup : String → String) :
    (∀ outcomes : Nat → Bool, ∃ fuel,
        (sm.processRestarts ⟨outcomes, fun _ => false⟩ (some lookup) fuel).isSome = true) ↔
      sm.disableRestarts = true ∨ sm.NoCycle lookup := by
  cases hdisabled : sm.disableRestarts with
  | true => simp [processRestarts, hdisabled]
  | false =>
    simp only [Bool.false_eq_true, false_or]
    constructor
    · intro hreturns
      by_contra hcycle
      obtain ⟨fuel, hfuel⟩ := hreturns fun _ => true
      have hnone := processRestarts_of_cycle hdisabled hcycle fuel
      rw [allSucceed] at hnone
      rw [hnone] at hfuel
      cases hfuel
    · intro hacyclic outcomes
      obtain ⟨fuel, hfuel⟩ := exists_iterate_of_acc ⟨outcomes, fun _ => false⟩ (p := { sm := sm })
        ((noCycle_iff_acc sm lookup).mp hacyclic)
      exact ⟨fuel, by simpa [processRestarts, hdisabled] using hfuel⟩

/-- `amavis` and `mta` depend on each other, and `mta` is to be restarted. -/
def mutualDependents : ServiceManager where
  restartQueue := Std.ExtTreeMap.ofList [("mta", true)] compare
  dependencies := Std.ExtTreeMap.ofList [("amavis", ["mta"]), ("mta", ["amavis"])] compare

theorem not_returns_of_mutual_dependents :
    ¬ ∃ fuel, (mutualDependents.processRestarts allSucceed
      (some fun _ => "TRUE") fuel).isSome = true := by
  rintro ⟨fuel, hfuel⟩
  have hfirst : Cascades mutualDependents.dependencies (fun _ => "TRUE") "mta" "amavis" :=
    ⟨"amavis", by decide, by decide, by decide⟩
  have hsecond : Cascades mutualDependents.dependencies (fun _ => "TRUE") "amavis" "mta" :=
    ⟨"mta", by decide, by decide, by decide⟩
  have hcycle : ¬ mutualDependents.NoCycle (fun _ => "TRUE") := by
    intro hacyclic
    exact hacyclic "mta" (by decide) "mta" .refl (.head hfirst (.single hsecond))
  rw [processRestarts_of_cycle rfl hcycle] at hfuel
  cases hfuel

end Configd
