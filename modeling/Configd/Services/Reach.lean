import Configd.Services.Cascade
import Configd.Services.Hooks

/-!
# Which services a pass attempts to restart

`DependencyClosure` is asked for before a pass over the restart queue, to tell which
services the pass may come to.  It always returns, and returns the services that the roots
lead to (`closure_ends`, `mem_dependencyClosure`).  A pass, however long and whatever its
restarts end in, attempts no other services than the queued ones and those of the closure
(`RestartPass.Within.passOf`).
-/

namespace Configd

open Lib Relation ServiceManager

/-- A restart of the first service may queue the second one. -/
def LeadsTo (deps : StrMap (List String)) (service dependent : String) : Prop :=
  dependent ∈ allDependents deps service

/-! ## The closure -/

section Closure

variable (deps : StrMap (List String)) (roots : List String)

/-- The loop of `DependencyClosure` comes to an empty queue. -/
def ClosureEnds : Prop :=
  Closure.Ends (allDependents deps) roots (roots.length + (dependentNames deps).length) ⟨roots, []⟩

theorem closure_ends : ClosureEnds deps roots := by
  have htargets : ∀ a, ∀ b ∈ allDependents deps a, b ∈ (dependentNames deps).toFinset :=
    fun a b hb => List.mem_toFinset.mpr (mem_dependentNames hb)
  have hcard := List.toFinset_card_le (dependentNames deps)
  exact Closure.search_ends htargets (by omega)

theorem sorted_dependencyClosure : (dependencyClosure deps roots).Pairwise (· < ·) := by
  have hnodup : (dependencyClosure deps roots).Nodup :=
    (List.perm_insertionSort _ _).nodup_iff.mpr (Closure.search_fresh _ roots _).1
  have hsorted : (dependencyClosure deps roots).Pairwise (· ≤ ·) := List.pairwise_insertionSort _ _
  refine (hsorted.and hnodup).imp ?_
  rintro a b ⟨hle, hne⟩
  exact lt_of_le_of_ne hle hne

variable {service : String}

/-- **The closure** is what the roots lead to in one or more steps, the roots apart. -/
theorem mem_dependencyClosure :
    service ∈ dependencyClosure deps roots ↔
      service ∉ roots ∧ ∃ root ∈ roots, TransGen (LeadsTo deps) root service := by
  have hreach := mem_dependencyClosure_iff deps roots service
  constructor
  · intro hmem
    obtain ⟨root, hroot, hchain⟩ := hreach.mp (Or.inr hmem)
    have hnot := (Closure.search_fresh _ roots _).2 service ((List.mem_insertionSort _).mp hmem)
    rcases reflTransGen_iff_eq_or_transGen.mp hchain with rfl | hchain
    · exact absurd hroot hnot
    · exact ⟨hnot, root, hroot, hchain⟩
  · rintro ⟨hnot, root, hroot, hchain⟩
    exact (hreach.mpr ⟨root, hroot, hchain.to_reflTransGen⟩).resolve_left hnot

end Closure

/-! ## A pass -/

/-- `ProcessRestarts` over time: the state of the pass before its loop, after some of its
turns, and when it has returned. -/
inductive PassOf (env : RestartEnv) (lookup : Option (String → String)) (sm : ServiceManager) :
    RestartPass → Prop
  | start (h : sm.disableRestarts = false) : PassOf env lookup sm { sm := sm }
  | goesOn {p p' : RestartPass} (h : PassOf env lookup sm p) (hturn : p.turn env lookup = .inl p') :
      PassOf env lookup sm p'
  | returns {p p' : RestartPass} {result : RestartResult} (h : PassOf env lookup sm p)
      (hturn : p.turn env lookup = .inr (result, p')) : PassOf env lookup sm p'
  | disabled (h : sm.disableRestarts = true) : PassOf env lookup sm { sm := sm.clearRestarts }

theorem PassOf.iterate {env : RestartEnv} {lookup : Option (String → String)}
    {sm : ServiceManager} {result : RestartResult} {last : RestartPass} :
    ∀ (fuel : Nat) {p : RestartPass}, PassOf env lookup sm p →
      Worklist.iterate (RestartPass.turn env lookup) fuel p = some (result, last) →
      PassOf env lookup sm last
  | 0, _, _, hlast => nomatch hlast
  | fuel + 1, p, hp, hlast => by
    rw [Worklist.iterate] at hlast
    split at hlast
    · next next hturn => exact PassOf.iterate fuel (hp.goesOn hturn) hlast
    · next answer hturn =>
        obtain rfl := Option.some.inj hlast
        exact hp.returns hturn

variable {p : RestartPass}

theorem passOf_processRestarts {env : RestartEnv} {lookup : Option (String → String)}
    {sm : ServiceManager} {fuel : Nat} {result : RestartResult}
    (h : sm.processRestarts env lookup fuel = some (result, p)) : PassOf env lookup sm p := by
  unfold ServiceManager.processRestarts at h
  split at h
  · next hdisabled =>
      obtain ⟨-, rfl⟩ := Prod.mk.inj (Option.some.inj h)
      exact PassOf.disabled hdisabled
  · next henabled => exact PassOf.iterate fuel (PassOf.start (by simpa using henabled)) h

namespace RestartPass

structure Within (deps : StrMap (List String)) (within : String → Prop) (p : RestartPass) :
    Prop where
  dependencies : p.sm.dependencies = deps
  queued : ∀ service, p.sm.queued service = true → within service
  attempted : ∀ a ∈ p.attempts, within a.service

section Within

variable {env : RestartEnv} {lookup : Option (String → String)} {deps : StrMap (List String)}
  {within : String → Prop}

theorem Within.attempt {p' : RestartPass} (hp : Within deps within p)
    (hqueued : p.sm.queued service = true) (hdeps : p'.sm.dependencies = deps)
    (hqueue : ∀ other, p'.sm.queued other = true → within other)
    (hattempts : p'.attempts =
      p.attempts ++ [⟨service, p.sm.restartReasons[service]?.getD []⟩]) :
    Within deps within p' := by
  refine ⟨hdeps, hqueue, ?_⟩
  intro a ha
  rw [hattempts, List.mem_append, List.mem_singleton] at ha
  rcases ha with hold | rfl
  · exact hp.attempted a hold
  · exact hp.queued service hqueued

theorem Within.dequeue (hp : Within deps within p) (service : String) :
    ∀ other, (p.sm.dequeue service).queued other = true → within other := by
  intro other hother
  exact hp.queued other ((queued_dequeue _ _ _).mp hother).2

theorem Within.cascade (hclosed : ∀ a b, within a → LeadsTo deps a b → within b)
    (hp : Within deps within p)
    (hqueued : p.sm.queued service = true) (lookup : String → String) :
    ∀ other, ((p.sm.dequeue service).addDependencyRestarts service lookup).queued other = true →
      within other := by
  intro other hother
  rcases (mem_pending_restarted _ _ _ _).mp (mem_pending.mpr hother) with hold | hnew
  · exact hp.queued other (mem_pending.mp (Finset.mem_of_mem_erase hold))
  · obtain ⟨name, hname, hlower, -⟩ := hnew
    rw [hp.dependencies] at hname
    refine hclosed service other (hp.queued service hqueued) ?_
    exact List.mem_map.mpr ⟨name, hname, hlower⟩

theorem Within.attemptServiceRestart (hclosed : ∀ a b, within a → LeadsTo deps a b → within b)
    (hp : Within deps within p)
    (hqueued : p.sm.queued service = true) :
    Within deps within (p.attemptServiceRestart env lookup service).2 := by
  unfold RestartPass.attemptServiceRestart
  dsimp only
  split
  · -- The restart succeeded.
    cases lookup with
    | none => exact hp.attempt hqueued hp.dependencies (hp.dequeue service) rfl
    | some lookup =>
      have hdeps := dependencies_addDependencyRestarts (p.sm.dequeue service) service lookup
      exact hp.attempt hqueued (hdeps.trans hp.dependencies)
        (hp.cascade hclosed hqueued lookup) rfl
  · split
    · exact hp.attempt hqueued hp.dependencies hp.queued rfl
    · split
      · exact hp.attempt hqueued hp.dependencies (hp.dequeue service) rfl
      · exact hp.attempt hqueued hp.dependencies hp.queued rfl

theorem Within.restartOne (hclosed : ∀ a b, within a → LeadsTo deps a b → within b)
    {acc : Bool × RestartPass} (hacc : Within deps within acc.2) (service : String) :
    Within deps within (restartOne env lookup acc service).2 := by
  unfold RestartPass.restartOne
  split
  · exact hacc
  · split
    · exact hacc
    · next hskip =>
        have hqueued : acc.2.sm.queued service = true := by
          by_contra hnot
          exact hskip (by simp [hnot])
        have hnext : Within deps within (acc.2.attemptServiceRestart env lookup service).2 :=
          hacc.attemptServiceRestart hclosed hqueued
        dsimp only
        split
        · exact ⟨hnext.dependencies, hnext.queued, hnext.attempted⟩
        · exact hnext

theorem Within.processRestartRound (hclosed : ∀ a b, within a → LeadsTo deps a b → within b)
    (hp : Within deps within p) :
    Within deps within (p.processRestartRound env lookup).2 := by
  unfold RestartPass.processRestartRound
  refine List.foldlRecOn (motive := fun acc : Bool × RestartPass => Within deps within acc.2)
    _ _ hp ?_
  intro acc hacc service _
  exact hacc.restartOne hclosed service

/-- **The run lemma**: a pass that starts within a set of services that is closed under
`DEPENDS` stays within it. -/
theorem Within.passOf {sm : ServiceManager}
    (hclosed : ∀ a b, within a → LeadsTo deps a b → within b) (hdeps : sm.dependencies = deps)
    (hqueued : ∀ service, sm.queued service = true → within service)
    (hp : PassOf env lookup sm p) : Within deps within p := by
  induction hp with
  | start => exact ⟨hdeps, hqueued, by simp⟩
  | goesOn _ hturn ih =>
    have hround : Within deps within (RestartPass.processRestartRound env lookup _).2 :=
      ih.processRestartRound hclosed
    unfold turn at hturn
    split at hturn
    · cases hturn
    · dsimp only at hturn
      split at hturn
      · cases hturn
      · split at hturn
        · cases hturn
          exact ⟨hround.dependencies, hround.queued, hround.attempted⟩
        · cases hturn
  | returns _ hturn ih =>
    have hround : Within deps within (RestartPass.processRestartRound env lookup _).2 :=
      ih.processRestartRound hclosed
    unfold turn at hturn
    split at hturn
    · cases hturn
      exact ih
    · dsimp only at hturn
      split at hturn
      · cases hturn
        exact hround
      · split at hturn
        · cases hturn
        · cases hturn
          exact hround
  | disabled =>
    refine ⟨hdeps, ?_, by simp⟩
    intro service hservice
    simp [ServiceManager.queued, ServiceManager.clearRestarts] at hservice

end Within

end RestartPass

/-! ## The two together -/

/-- The mail server and `amavis` depend on each other, under mixed letter case. -/
def mutualDependencies : StrMap (List String) :=
  Std.ExtTreeMap.ofList [("mta", ["Amavis", "OpenDKIM"]), ("amavis", ["MTA"])] compare

def mailServerQueued : ServiceManager where
  restartQueue := ({} : StrMap Bool).insert "mta" true
  dependencies := mutualDependencies

/-- **The closure and the passes.**  `DependencyClosure` always returns; its answer is sorted, has
no service twice, and is what the roots lead to, the roots apart.  No state of a pass that starts
with the roots queued, returned or not, has an attempt at another service. -/
theorem dependencyClosure_spec (deps : StrMap (List String)) (roots : List String) :
    ClosureEnds deps roots ∧
      (dependencyClosure deps roots).Pairwise (· < ·) ∧
      (∀ service, service ∈ dependencyClosure deps roots ↔
        service ∉ roots ∧ ∃ root ∈ roots, TransGen (LeadsTo deps) root service) ∧
      ∀ (sm : ServiceManager) (env : RestartEnv) (lookup : String → String),
        sm.dependencies = deps → (∀ service, sm.queued service = true ↔ service ∈ roots) →
        (∀ fuel result p, sm.processRestarts env (some lookup) fuel = some (result, p) →
          PassOf env (some lookup) sm p) ∧
        ∀ p, PassOf env (some lookup) sm p → ∀ a ∈ p.attempts,
          a.service ∈ roots ∨ a.service ∈ dependencyClosure deps roots := by
  refine ⟨closure_ends deps roots, sorted_dependencyClosure deps roots,
    fun _ => mem_dependencyClosure deps roots, ?_⟩
  intro sm env lookup hdeps hqueue
  refine ⟨fun _ _ _ hreturns => passOf_processRestarts hreturns, ?_⟩
  intro p hp
  have hreach := mem_dependencyClosure_iff deps roots
  refine (RestartPass.Within.passOf (fun service dependent hservice hleads => ?_) hdeps
    (fun service hqueued => Or.inl ((hqueue service).mp hqueued)) hp).attempted
  obtain ⟨root, hroot, hchain⟩ := (hreach service).mp hservice
  exact (hreach dependent).mpr ⟨root, hroot, hchain.tail hleads⟩

/-- With everything enabled and every restart successful the pass never returns; it comes to
the mail server and the two services of its closure only. -/
theorem dependencyClosure_spec_mutual :
    dependencyClosure mutualDependencies ["mta"] = ["amavis", "opendkim"] ∧
      ∀ p, PassOf RestartPass.allSucceed (some fun _ => "enabled") mailServerQueued p →
        ∀ a ∈ p.attempts, a.service ∈ ["mta"] ∨
          a.service ∈ dependencyClosure mutualDependencies ["mta"] := by
  have hqueue : ∀ service, mailServerQueued.queued service = true ↔ service ∈ ["mta"] := by
    intro service
    rw [ServiceManager.queued, mailServerQueued, OrdMap.getElem?_insert_iff, List.mem_singleton]
    by_cases heq : "mta" = service
    · simp [heq]
    · simp [heq, Ne.symm heq]
  have hspec := (dependencyClosure_spec mutualDependencies ["mta"]).2.2.2 mailServerQueued
    RestartPass.allSucceed (fun _ => "enabled") rfl hqueue
  exact ⟨by decide +kernel, hspec.2⟩

end Configd
