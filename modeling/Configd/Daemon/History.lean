import Configd.Daemon.Cycle

/-!
# The plans of a run

`History` is a run of the daemon with the successful plans it has made, newest
first.  Three things the daemon remembers are functions of that list
(`History.Inv`): the snapshot it compares the next one with is that of the newest
plan, the tracked services are those that were enabled in a plan of the first
run, and the first run is over only once there is a plan.
-/

namespace Configd

open Lib

/-- A successful plan, with what it was computed from. -/
structure Planned where
  input : Input
  plan : Plan

/-- The successful plan an event makes, if any. -/
def Daemon.planned (d : Daemon) : Event → List Planned
  | .plan env =>
    match d.phase with
    | .idle => (compute (d.input env)).toList.map fun pl => ⟨d.input env, pl⟩
    | _ => []
  | _ => []

/-- A run, with the successful plans it has made, newest first. -/
structure History where
  daemon : Daemon := {}
  plans : List Planned := []

namespace History

def next (h : History) (e : Event) : History where
  daemon := h.daemon.step e
  plans := h.daemon.planned e ++ h.plans

def run (events : List Event) : History :=
  events.foldl next {}

theorem run_append (before after : List Event) :
    run (before ++ after) = after.foldl next (run before) :=
  List.foldl_append

theorem foldl_next_daemon (h : History) (events : List Event) :
    (events.foldl next h).daemon = h.daemon.run events := by
  induction events generalizing h with
  | nil => rfl
  | cons e rest ih => exact ih (h.next e)

@[simp] theorem run_daemon (events : List Event) :
    (run events).daemon = Daemon.run {} events :=
  foldl_next_daemon {} events

/-- **What an event adds to a history**: nothing, or the plan it made. -/
theorem next_cases (h : History) (e : Event) :
    ((h.next e).plans = h.plans ∧ (h.next e).daemon.prev = h.daemon.prev ∧
        (h.next e).daemon.tracked = h.daemon.tracked ∧
        (h.next e).daemon.forced = h.daemon.forced ∧
        (h.daemon.phase = .idle → (h.next e).daemon.phase = .idle ∧
          (h.next e).daemon.firstRun = h.daemon.firstRun)) ∨
      ∃ env pl, e = .plan env ∧ h.daemon.phase = .idle ∧
        compute (h.daemon.input env) = some pl ∧
        (h.next e).plans = ⟨h.daemon.input env, pl⟩ :: h.plans ∧
        (h.next e).daemon = h.daemon.adopt env pl := by
  by_cases hmade : ∃ env pl, e = .plan env ∧ h.daemon.phase = .idle ∧
      compute (h.daemon.input env) = some pl
  · obtain ⟨env, pl, rfl, hidle, hpl⟩ := hmade
    refine Or.inr ⟨env, pl, rfl, hidle, hpl, ?_, ?_⟩
    · simp [next, Daemon.planned, hidle, hpl]
    · simp [next, Daemon.step, Daemon.plan, hidle, hpl]
  · left
    have hplans : h.daemon.planned e = [] := by
      cases e with
      | plan env =>
        cases hphase : h.daemon.phase with
        | idle =>
          cases hpl : compute (h.daemon.input env) with
          | none => simp [Daemon.planned, hphase, hpl]
          | some pl => exact absurd ⟨env, pl, rfl, hphase, hpl⟩ hmade
        | planned pl => simp [Daemon.planned, hphase]
        | executed pl => simp [Daemon.planned, hphase]
        | completed => simp [Daemon.planned, hphase]
      | load | parse | request | execute | applyRestarts | finish => rfl
    refine ⟨by simp [next, hplans], ?_⟩
    change (h.daemon.step e).prev = _ ∧ (h.daemon.step e).tracked = _ ∧
      (h.daemon.step e).forced = _ ∧ (_ → (h.daemon.step e).phase = _ ∧
        (h.daemon.step e).firstRun = _)
    rcases h.daemon.step_cases e with heq | ⟨_, -, heq⟩ | ⟨_, -, hidle, heq⟩ |
      ⟨_, _, -, hidle, heq⟩ |
      ⟨env, he, hidle, heq⟩ | ⟨env, pl, -, hphase, heq⟩ | ⟨settings, env, pl, -, hphase, heq⟩ |
      ⟨-, hphase, heq⟩
    · rw [heq]
      exact ⟨rfl, rfl, rfl, fun h => ⟨h, rfl⟩⟩
    · rw [heq]
      exact ⟨rfl, rfl, rfl, fun h => ⟨h, rfl⟩⟩
    · rw [heq]
      exact ⟨rfl, rfl, rfl, fun h => ⟨h, rfl⟩⟩
    · rw [heq]
      exact ⟨rfl, rfl, rfl, fun h => ⟨h, rfl⟩⟩
    · rcases h.daemon.plan_cases env with ⟨-, hplan⟩ | ⟨pl, hpl, -⟩
      · rw [heq, hplan]
        exact ⟨rfl, rfl, rfl, fun h => ⟨h, rfl⟩⟩
      · exact absurd ⟨env, pl, he, hidle, hpl⟩ hmade
    · rw [heq]
      exact ⟨rfl, rfl, rfl, fun h => by simp [h] at hphase⟩
    · rw [heq]
      exact ⟨rfl, rfl, rfl, fun h => by simp [h] at hphase⟩
    · rw [heq]
      exact ⟨rfl, rfl, rfl, fun h => by simp [h] at hphase⟩

/-- What the daemon remembers of its plans. -/
structure Inv (h : History) : Prop where
  forced : h.daemon.forced = ∅
  prev : ∀ last older, h.plans = last :: older → h.daemon.prev = last.input.cur
  start : h.plans = [] → h.daemon.firstRun = true ∧ h.daemon.phase = .idle
  observes : ∀ p ∈ h.plans, ∃ fs base, p.input.cur = observe fs base p.input.conf
  tracked : ∀ service, service ∈ h.daemon.tracked ↔
    ∃ p ∈ h.plans, p.input.firstRun = true ∧ p.input.cur.serviceEnabled service = true

theorem inv_next {h : History} (hinv : h.Inv) (e : Event) : (h.next e).Inv := by
  rcases h.next_cases e with ⟨hplans, hprev, htracked, hforced, hstart⟩ |
    ⟨env, pl, -, hidle, hpl, hplans, hdaemon⟩
  · refine ⟨hforced.trans hinv.forced, ?_, ?_, hplans ▸ hinv.observes, ?_⟩
    · intro last older hnew
      rw [hprev]
      exact hinv.prev last older (hplans.symm.trans hnew)
    · intro hnil
      obtain ⟨hfirst, hidle⟩ := hinv.start (hplans.symm.trans hnil)
      obtain ⟨hidle', hfirst'⟩ := hstart hidle
      exact ⟨hfirst'.trans hfirst, hidle'⟩
    · intro service
      rw [htracked, hplans]
      exact hinv.tracked service
  · refine ⟨?_, ?_, ?_, ?_, ?_⟩
    · rw [hdaemon]
      exact hinv.forced
    · intro last older hnew
      rw [hplans, List.cons.injEq] at hnew
      rw [hdaemon, ← hnew.1]
      rfl
    · intro hnil
      simp [hplans] at hnil
    · rw [hplans, List.forall_mem_cons]
      exact ⟨⟨env.files, h.daemon.snap, rfl⟩, hinv.observes⟩
    · intro service
      have htracked : (h.next e).daemon.tracked = trackedAfter (h.daemon.input env) := by
        rw [hdaemon, ← plan_tracked hpl rfl]
        rfl
      rw [htracked, mem_trackedAfter, hplans, List.exists_mem_cons_iff, ← hinv.tracked]
      exact or_comm

theorem inv_run (events : List Event) : (run events).Inv := by
  have hinit : Inv {} := ⟨rfl, by simp, fun _ => ⟨rfl, rfl⟩, by simp, by simp⟩
  unfold run
  exact List.foldlRecOn _ _ hinit fun h hinv e _ => inv_next hinv e

end History
end Configd
