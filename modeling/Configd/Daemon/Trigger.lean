import Configd.Daemon.Cycle

/-!
# The clients of the main loop

`MainLoopActionTrigger` connects the `REWRITE` clients with the main loop.  A client asks for the
rewrite of some sections and waits on a channel of its own, registered in `waiting`; the loop
moves the waiting clients to `inflight` just before it plans, and closes their channels when the
rewrite phase is over.  A cycle that does not get that far hands them back.

The methods of the trigger run under its lock, so each is one step.  A call of `TriggerRewrite`
is not: it checks the restarting sections, queues its sections, counts the event, registers and
wakes the loop, and others can run between any two of these.
-/

namespace Configd

open Lib

/-- The part of `MainLoopActionTrigger` that its lock protects, and the event
counter.  Clients are numbered. -/
structure Trigger where
  waiting : List Nat := []
  inflight : List Nat := []
  /-- The sections of the cycle that is applying its restarts. -/
  restarting : List String := []
  eventCounter : Nat := 0

namespace Trigger

/-- `forget`: drop a client that gave up. -/
def forget (t : Trigger) (c : Nat) : Trigger :=
  { t with
    waiting := t.waiting.filter (· ≠ c)
    inflight := t.inflight.filter (· ≠ c) }

def claimWaiters (t : Trigger) : Trigger :=
  { t with inflight := t.inflight ++ t.waiting, waiting := [] }

def requeueWaiters (t : Trigger) : Trigger :=
  { t with waiting := t.inflight ++ t.waiting, inflight := [] }

def beginRestarts (t : Trigger) (sections : List Section) : Trigger :=
  { t with restarting := sections.map Section.name }

def endRestarts (t : Trigger) : Trigger :=
  { t with restarting := [] }

def rewrittenByRestartingCycle (t : Trigger) (configs : List String) : Bool :=
  if t.restarting.isEmpty || configs.isEmpty then false
  else configs.all fun cfg => t.restarting.contains cfg

theorem mem_restarting_of_rewritten {t : Trigger} {configs : List String}
    (hrewritten : t.rewrittenByRestartingCycle configs = true) :
    t.restarting ≠ [] ∧ ∀ cfg ∈ configs, cfg ∈ t.restarting := by
  unfold rewrittenByRestartingCycle at hrewritten
  split at hrewritten
  · cases hrewritten
  · rename_i hnonempty
    refine ⟨by rintro h; simp [h] at hnonempty, ?_⟩
    simpa using hrewritten

end Trigger

inductive Stage
  | idle
  /-- The restarting cycle had not rewritten its sections. -/
  | checked
  /-- Its sections are queued. -/
  | queued
  | counted
  | registered
  | returned
  /-- The restarting cycle had rewritten its sections: answered at once. -/
  | answered
  deriving DecidableEq

structure Client where
  stage : Stage := .idle
  sections : List String := []
  /-- How many calls of `Plan` had taken their requests when it queued its
  sections. -/
  queuedAt : Nat := 0
  /-- How often its channel was closed. -/
  closed : Nat := 0
  /-- It gave up (`Cancel`). -/
  cancelled : Bool := false

namespace Client

/-- The sections are queued. -/
def HasQueued (c : Client) : Prop :=
  c.stage ∈ [Stage.queued, .counted, .registered, .returned]

def IsRegistered (c : Client) : Prop :=
  c.stage ∈ [Stage.registered, .returned]

/-- The client has queued its sections and not yet woken the loop. -/
def IsWaking (c : Client) : Prop :=
  c.stage ∈ [Stage.queued, .counted, .registered]

instance (c : Client) : Decidable c.HasQueued := inferInstanceAs (Decidable (_ ∈ _))
instance (c : Client) : Decidable c.IsRegistered := inferInstanceAs (Decidable (_ ∈ _))
instance (c : Client) : Decidable c.IsWaking := inferInstanceAs (Decidable (_ ∈ _))

end Client

/-- `completeWaiters`, on the clients: close the channel of each. -/
def closeAll (clients : Nat → Client) (inflight : List Nat) : Nat → Client :=
  inflight.foldl (fun clients c =>
    Function.update clients c { clients c with closed := (clients c).closed + 1 }) clients

@[simp] theorem closeAll_stage (clients : Nat → Client) (inflight : List Nat) (c : Nat) :
    (closeAll clients inflight c).stage = (clients c).stage := by
  unfold closeAll
  refine List.foldlRecOn (motive := fun next : Nat → Client => (next c).stage = (clients c).stage)
    inflight _ rfl ?_
  intro next hnext x _
  by_cases heq : c = x
  · rw [heq] at hnext ⊢
    simpa using hnext
  · simpa [heq] using hnext

theorem closeAll_apply (clients : Nat → Client) {inflight : List Nat} (hnodup : inflight.Nodup)
    (c : Nat) :
    closeAll clients inflight c =
      if c ∈ inflight then { clients c with closed := (clients c).closed + 1 } else clients c := by
  induction inflight generalizing clients with
  | nil => rfl
  | cons first rest ih =>
    obtain ⟨hfirst, hrest⟩ := List.nodup_cons.mp hnodup
    show closeAll (Function.update clients first _) rest c = _
    rw [ih _ hrest]
    by_cases heq : c = first
    · subst heq
      simp [hfirst]
    · simp [heq]

end Configd
