import Configd.Daemon.Taken
import Configd.Lib.Runs

/-!
# Panics of the main loop

`runLoopIterationSafe` recovers a panic of an iteration, sleeps and lets the loop go on.  Nothing
is rolled back, and the clients it had claimed stay in flight until a later iteration claims the
waiting ones and releases both.

`Guarded` adds the panics, with what systemd is told about reloads, to the system of the main
loop.  `LosesNothing` says what a recovered panic must not lose: the changes a plan consumed, the
sections it took, the clients, and a reload.  Two kinds of panics lose something: between
`TakeRequestedConfigs` and the end of `Execute` the sections are no longer queued, and the
baseline may be the new snapshot, for a plan that is never executed; and the sleep after a panic
takes the signal from the reload channel and does not note it.

`losesNothing_of_run` says that these are all.  A client that a panic left in flight is as good
as waiting, so the invariant of the clients holds of the system in which it waits (`settle`).
-/

namespace Configd

open Lib

/-! ## The state a panic leaves -/

/-- How far the loop had come in the step it was at when it panicked, where that
makes a difference. -/
inductive Reached
  /-- It had not begun. -/
  | start
  /-- `runLoadAndParse` had published its load. -/
  | loaded (load : StagedLoad)
  /-- `Plan` had published the observed snapshot, and not taken the sections. -/
  | observed (env : PlanEnv)
  /-- `Plan` had made its snapshot the baseline; it had held these restarts. -/
  | adopted (deferred : List Restart)
  /-- The clients of the cycle had been handed back, or released. -/
  | waiters
  /-- `ApplyRestarts` had brought the restart policy into this state. -/
  | applied (policy : Policy)
  /-- `finalizeIteration` had cleared the first-run flag. -/
  | finished

namespace System

/-- What the step had done by then. -/
def reach (s : System) (reached : Reached) : System :=
  match s.pc, reached with
  | .loading, .loaded load => { s with daemon := s.daemon.step (.load load) }
  | .taking, .observed env => { s with daemon.snap := (s.daemon.input env).cur }
  | .computing env held, .adopted deferred =>
    match Configd.compute (s.heldInput env held) with
    | none => { s with daemon.snap := (s.daemon.input env).cur }
    | some pl =>
      { s with
        daemon.snap := (s.daemon.input env).cur
        daemon.prev := (s.daemon.input env).cur
        daemon.tracked := pl.tracked
        daemon.deferred := deferred
        log.planned := (s.log.current, pl.sections.map Section.name) :: s.log.planned }
  -- The observed snapshot was published before the sections were taken.
  | .computing env _, _ => { s with daemon.snap := (s.daemon.input env).cur }
  | .requeuing, .waiters => { s with trigger := s.trigger.requeueWaiters }
  | .completing, .waiters =>
    { s with clients := closeAll s.clients s.trigger.inflight, trigger.inflight := [] }
  | .applying, .applied policy => { s with daemon.policy := policy }
  | .finalizing, .finished => { s with daemon.firstRun := false }
  | _, _ => s

/-- The iteration ends.  `runRestartsPhase` defers `endRestarts`. -/
def unwind (s : System) : System :=
  { s with
    daemon.phase := .idle
    trigger := match s.pc with
      | .applying => s.trigger.endRestarts
      | .ending => s.trigger.endRestarts
      | _ => s.trigger
    pc := .sleeping }

/-- A panic of the iteration, up to the sleep that follows it. -/
def panic (s : System) (reached : Reached) : System :=
  (s.reach reached).unwind

/-! ## What systemd is told -/

/-- The step takes a signal from the reload channel. -/
def receives (s : System) (a : Act) : Bool :=
  match s.pc, a with
  | .top, .consume => s.token
  | .sleeping, .sleepEnds interrupted => interrupted && s.token
  | _, _ => false

/-- The step calls `signalReady`: in `backOff`, after a failed load, plan or
execution, or in `finalizeIteration`. -/
def signals (s : System) (a : Act) : Bool :=
  match s.pc, a with
  | .loading, .loadFails _ => true
  | .requeuing, .requeue => true
  | .completing, .complete => s.daemon.phase.plan.isNone
  | .finalizing, .finalize => true
  | _, _ => false

/-- The step starts the listener (`maybeStartListener`). -/
def starts (s : System) (a : Act) : Bool :=
  match s.pc, a with
  | .ending, .endRestarts => s.daemon.firstRun
  | _, _ => false

end System

/-- The sleep of the loop ends. -/
def Act.wakes : Act → Bool
  | .sleepEnds _ => true
  | _ => false

/-- The system under `runLoopIterationSafe`. -/
structure Guarded where
  sys : System := {}
  /-- The loop sleeps after a panic. -/
  recovering : Bool := false
  /-- The listener runs. -/
  server : Bool := false
  /-- `READY=1` was sent. -/
  ready : Bool := false
  /-- A signal was taken from the reload channel and `READY=1` not sent since.
  This is not part of the daemon. -/
  unacknowledged : Bool := false

inductive GuardedAct
  | act (a : Act)
  | panic (reached : Reached)

namespace Guarded

/-- `signalReady` sends `READY=1`. -/
def signalReady (g : Guarded) : Bool :=
  !g.ready && g.server || g.ready && g.sys.reloadSignaled

/-- The step sends `READY=1`. -/
def sends (g : Guarded) (a : Act) : Bool :=
  g.sys.signals a && g.signalReady

/-- A step of the system.  The sleep after a panic does not note that it was
interrupted by a reload. -/
def act (g : Guarded) (a : Act) : Guarded where
  sys :=
    if g.recovering then { g.sys.step a with reloadSignaled := g.sys.reloadSignaled }
    else g.sys.step a
  recovering := g.recovering && !a.wakes
  server := g.server || g.sys.starts a
  ready := g.ready || g.sends a
  unacknowledged := (g.unacknowledged || g.sys.receives a) && !g.sends a

/-- One step.  A loop that sleeps after a panic is outside the iteration. -/
def step (g : Guarded) : GuardedAct → Guarded
  | .act a => g.act a
  | .panic reached =>
    if g.recovering then g else { g with sys := g.sys.panic reached, recovering := true }

end Guarded

/-! ## The system in which the clients left in flight wait -/

/-- The loop is between `claimWaiters` and the end of the rewrite phase. -/
def Pc.rewriting : Pc → Bool
  | taking => true
  | computing _ _ => true
  | requeuing => true
  | executing => true
  | completing => true
  | _ => false

namespace System

/-- Outside the rewrite phase a client in flight was left there by a panic.  The
next `claimWaiters` treats it as one that waits before all others. -/
def settle (s : System) : System :=
  if s.pc.rewriting then s else { s with trigger := s.trigger.requeueWaiters }

theorem settle_of_rewriting {s : System} (h : s.pc.rewriting = true) : s.settle = s :=
  if_pos h

theorem settle_of_not_rewriting {s : System} (h : s.pc.rewriting = false) :
    s.settle = { s with trigger := s.trigger.requeueWaiters } :=
  if_neg (by simp [h])

@[simp] theorem settle_pc (s : System) : s.settle.pc = s.pc := by
  unfold settle
  split <;> rfl

@[simp] theorem settle_daemon (s : System) : s.settle.daemon = s.daemon := by
  unfold settle
  split <;> rfl

@[simp] theorem settle_log (s : System) : s.settle.log = s.log := by
  unfold settle
  split <;> rfl

@[simp] theorem settle_clients (s : System) : s.settle.clients = s.clients := by
  unfold settle
  split <;> rfl

theorem settle_comm {s s' : System} {f : System → System} (hs : f s = s')
    (hpc : s'.pc.rewriting = s.pc.rewriting)
    (hf : f { s with trigger := s.trigger.requeueWaiters } =
      { s' with trigger := s'.trigger.requeueWaiters }) : s'.settle = f s.settle := by
  cases h : s.pc.rewriting with
  | true => rw [settle_of_rewriting (hpc.trans h), settle_of_rewriting h, hs]
  | false => rw [settle_of_not_rewriting (hpc.trans h), settle_of_not_rewriting h, hf]

/-- **A step of the system is one of the settled system.** -/
theorem settle_moves {s s' : System} {a : Act} (hmoves : Moves s a s') :
    Moves s.settle a s'.settle := by
  cases hmoves with
  | @check c sections h =>
    rw [settle_comm (f := fun s => s.check c sections) rfl rfl rfl]
    exact .check sections (by rwa [settle_clients])
  | @queue c h =>
    rw [settle_comm (f := fun s => s.queue c) rfl rfl rfl]
    exact .queue (by rwa [settle_clients])
  | @count c h =>
    rw [settle_comm (f := fun s => s.count c) rfl rfl rfl]
    exact .count (by rwa [settle_clients])
  | @register c h =>
    -- It comes last on the list, also when the clients in flight are before it.
    rw [settle_comm (f := fun s => s.register c) rfl rfl
      (by simp [register, setClient, Trigger.requeueWaiters])]
    exact .register (by rwa [settle_clients])
  | @wake c h =>
    rw [settle_comm (f := fun s => s.wake c) rfl rfl rfl]
    exact .wake (by rwa [settle_clients])
  | @forget c h =>
    rw [settle_comm (f := fun s => s.forget c) rfl rfl
      (by simp [forget, setClient, Trigger.forget, Trigger.requeueWaiters])]
    exact .forget (by rwa [settle_clients])
  | reload =>
    rw [settle_comm (f := fun s => { s with token := true }) rfl rfl rfl]
    exact .reload
  | consume h =>
    rw [settle_comm (f := consume) rfl (by simp [consume, h, Pc.rewriting]) rfl]
    exact .consume (by rwa [settle_pc])
  | poll skip h =>
    have hpc : (s.poll skip).pc.rewriting = s.pc.rewriting := by
      unfold poll
      cases s.isIdlePoll skip <;> simp [h, Pc.rewriting]
    rw [settle_comm (f := fun s => s.poll skip) rfl hpc rfl]
    exact .poll skip (by rwa [settle_pc])
  | recount h =>
    rw [settle_comm (f := recount) rfl (by simp [recount, h, Pc.rewriting]) rfl]
    exact .recount (by rwa [settle_pc])
  | loadAndParse load fs raw h =>
    rw [settle_comm (f := fun s => s.loadAndParse load fs raw) rfl
      (by simp [loadAndParse, h, Pc.rewriting]) rfl]
    exact .loadAndParse load fs raw (by rwa [settle_pc])
  | loadFails load h =>
    rw [settle_comm (f := fun s => s.loadFails load) rfl
      (by simp [loadFails, h, Pc.rewriting]) rfl]
    exact .loadFails load (by rwa [settle_pc])
  | claim h =>
    -- The clients left in flight and the waiting ones are claimed together.
    have hclaim : s.claim.settle = s.settle.claim := by
      rw [settle_of_not_rewriting (s := s) (by simp [h, Pc.rewriting]), settle_of_rewriting rfl]
      simp [claim, Trigger.claimWaiters, Trigger.requeueWaiters]
    rw [hclaim]
    exact .claim (by rwa [settle_pc])
  | take env h =>
    rw [settle_of_rewriting (s := s) (by simp [h, Pc.rewriting]), settle_of_rewriting rfl]
    exact .take env h
  | @compute env held h =>
    have hpc : (s.compute env held).pc.rewriting = true := by
      cases hphase : (s.daemon.planTaken held env).phase <;>
        simp [compute, hphase, Pc.rewriting]
    rw [settle_of_rewriting (s := s) (by simp [h, Pc.rewriting]), settle_of_rewriting hpc]
    exact .compute h
  | requeue h =>
    rw [settle_of_rewriting (s := s) (by simp [h, Pc.rewriting]), settle_of_not_rewriting rfl]
    exact .requeue h
  | execute env h =>
    rw [settle_of_rewriting (s := s) (by simp [h, Pc.rewriting]), settle_of_rewriting rfl]
    exact .execute env h
  | complete h =>
    have hpc : s.complete.pc.rewriting = false := by
      unfold complete
      cases s.daemon.phase.plan.isSome <;> rfl
    rw [settle_of_rewriting (s := s) (by simp [h, Pc.rewriting]), settle_of_not_rewriting hpc]
    exact .complete h
  | begin h =>
    rw [settle_comm (f := begin) rfl (by simp [begin, h, Pc.rewriting]) rfl]
    exact .begin (by rwa [settle_pc])
  | apply settings env h =>
    rw [settle_comm (f := fun s => s.apply settings env) rfl
      (by simp [apply, h, Pc.rewriting]) rfl]
    exact .apply settings env (by rwa [settle_pc])
  | endRestarts h =>
    rw [settle_comm (f := endRestarts) rfl (by simp [endRestarts, h, Pc.rewriting]) rfl]
    exact .endRestarts (by rwa [settle_pc])
  | finalize h =>
    rw [settle_comm (f := finalize) rfl (by simp [finalize, h, Pc.rewriting]) rfl]
    exact .finalize (by rwa [settle_pc])
  | sleepEnds interrupted h =>
    rw [settle_comm (f := fun s => s.sleepEnds interrupted) rfl
      (by simp [sleepEnds, h, Pc.rewriting]) rfl]
    exact .sleepEnds interrupted (by rwa [settle_pc])

/-! ## The panics that lose nothing -/

/-- The panic comes before `Plan` took a requested section or made its snapshot the
baseline, or after `Execute` recorded what is left to do. -/
def spares (s : System) (reached : Reached) : Bool :=
  match s.pc, reached with
  | .computing _ _, .adopted _ => false
  | .computing _ held, _ => held.isEmpty
  | .executing, _ => false
  | _, _ => true

theorem spares_pc {s : System} {reached : Reached} (hspares : s.spares reached = true) :
    s.pc ≠ .executing ∧ ∀ held ∈ s.pc.held, held = ∅ := by
  unfold spares at hspares
  cases hpc : s.pc with
  | computing env held =>
    rw [hpc] at hspares
    refine ⟨by simp, ?_⟩
    intro held' hheld
    cases hheld
    cases reached with
    | adopted deferred => cases hspares
    | _ => exact Std.ExtTreeMap.isEmpty_iff.mp hspares
  | executing => simp [hpc] at hspares
  | _ => simp [Pc.held]

/-- **What such a panic leaves of the step it was in**: changes of the daemon that
no client sees, or the clients of the cycle handed back or released. -/
theorem reach_cases {s : System} {reached : Reached} (hspares : s.spares reached = true) :
    (∃ d : Daemon, s.reach reached = { s with daemon := d } ∧ d.phase = s.daemon.phase ∧
        d.requested = s.daemon.requested ∧ d.forced = s.daemon.forced ∧
        (d.firstRun = s.daemon.firstRun ∨ s.pc = .finalizing)) ∨
      (s.pc = .requeuing ∧ s.reach reached = { s with trigger := s.trigger.requeueWaiters }) ∨
      (s.pc = .completing ∧ s.reach reached =
        { s with clients := closeAll s.clients s.trigger.inflight, trigger.inflight := [] }) := by
  unfold reach
  split
  · rename_i load hpc
    refine Or.inl ⟨_, rfl, ?_⟩
    cases hphase : s.daemon.phase <;> simp [Daemon.step, hphase]
  · exact Or.inl ⟨_, rfl, rfl, rfl, rfl, Or.inl rfl⟩
  · rename_i hpc
    simp [spares, hpc] at hspares
  · exact Or.inl ⟨_, rfl, rfl, rfl, rfl, Or.inl rfl⟩
  · rename_i hpc
    exact Or.inr (Or.inl ⟨hpc, rfl⟩)
  · rename_i hpc
    exact Or.inr (Or.inr ⟨hpc, rfl⟩)
  · exact Or.inl ⟨_, rfl, rfl, rfl, rfl, Or.inl rfl⟩
  · rename_i hpc
    exact Or.inl ⟨_, rfl, rfl, rfl, rfl, Or.inr hpc⟩
  · exact Or.inl ⟨_, rfl, rfl, rfl, rfl, Or.inl rfl⟩

/-- What a panic that loses nothing leaves as it was. -/
structure Recovers (s s' : System) : Prop where
  log : s'.log = s.log
  requested : s'.daemon.requested = s.daemon.requested
  forced : s'.daemon.forced = s.daemon.forced
  signaled : s'.reloadSignaled = s.reloadSignaled
  firstRun : s'.daemon.firstRun = s.daemon.firstRun ∨ s.pc = .finalizing
  clients : s'.clients = s.clients ∨ s'.clients = closeAll s.clients s.trigger.inflight

theorem recovers_panic {s : System} {reached : Reached} (hspares : s.spares reached = true) :
    s.Recovers (s.panic reached) := by
  unfold panic
  rcases reach_cases hspares with ⟨d, hreach, -, hrequested, hforced, hfirst⟩ | ⟨-, hreach⟩ |
    ⟨-, hreach⟩
  · rw [hreach]
    exact ⟨rfl, hrequested, hforced, rfl, hfirst, Or.inl rfl⟩
  · rw [hreach]
    exact ⟨rfl, rfl, rfl, rfl, Or.inl rfl, Or.inl rfl⟩
  · rw [hreach]
    exact ⟨rfl, rfl, rfl, rfl, Or.inl rfl, Or.inr rfl⟩

theorem settle_panic (s : System) (reached : Reached) :
    (s.settle.panic reached).settle = (s.panic reached).settle := by
  cases h : s.pc.rewriting with
  | true => rw [settle_of_rewriting h]
  | false =>
    rw [settle_of_not_rewriting h]
    obtain ⟨daemon, trigger, token, pc, lastEventCount, reloadSignaled, clients, log⟩ := s
    cases pc <;> cases reached <;> first | rfl | cases h

theorem Inv.withDaemon {s : System} (h : s.Inv) {d : Daemon} (hphase : d.phase = s.daemon.phase)
    (hrequested : d.requested = s.daemon.requested) : ({ s with daemon := d } : System).Inv where
  phase := by
    have hfits := h.phase
    unfold PhaseFits at hfits ⊢
    simpa only [hphase] using hfits
  log := ⟨h.log.queuedAt, h.log.held, by simpa only [hphase] using h.log.plan, h.log.executed⟩
  listed := h.listed
  claimed := h.claimed
  covered := by
    intro c hqueued
    rcases h.covered c hqueued with hin | hrest
    · exact Or.inl (by simpa only [hrequested] using hin)
    · exact Or.inr hrest
  awaited := h.awaited
  finished := h.finished
  restarting := h.restarting

theorem inv_unwind {s : System} (h : s.Inv) (hpc : s.pc ≠ .executing)
    (hheld : ∀ held ∈ s.pc.held, held = ∅) : s.unwind.settle.Inv := by
  have hrestarting : s.unwind.settle.trigger.restarting = [] := by
    show s.unwind.trigger.restarting = []
    unfold unwind
    cases hs : s.pc with
    | applying => rfl
    | ending => rfl
    | _ => exact h.no_restarting (by simp [hs])
  have hlists : s.unwind.trigger.waiting = s.trigger.waiting ∧
      s.unwind.trigger.inflight = s.trigger.inflight := by
    unfold unwind
    cases s.pc <;> exact ⟨rfl, rfl⟩
  refine ⟨rfl, ⟨h.log.queuedAt, ?_, ?_, ?_⟩, ?_, fun hne => absurd rfl hne, ?_, ?_, h.finished,
    fun hne => absurd hrestarting hne⟩
  · intro held hmem
    cases hmem
  · intro pl hpl
    cases hpl
  · exact fun n hn => Or.inl (h.executed hpc n hn)
  · show Listed s.clients (s.unwind.trigger.inflight ++ s.unwind.trigger.waiting) []
    rw [hlists.1, hlists.2]
    exact h.listed.perm (by simpa using List.perm_append_comm)
  · intro c hqueued
    rcases h.covered c hqueued with hin | ⟨held, hmem, hin, -⟩ | hserved
    · exact Or.inl hin
    · -- What an empty call of `Plan` holds of a client is nothing.
      rw [hheld held hmem] at hin
      exact Or.inl fun name hname => absurd (hin name hname) (by simp)
    · exact Or.inr (Or.inr hserved)
  · intro c hc
    cases hc

/-- **A panic that loses nothing keeps the invariant of the clients.** -/
theorem inv_panic {s : System} (h : s.settle.Inv) {reached : Reached}
    (hspares : s.spares reached = true) : (s.panic reached).settle.Inv := by
  rw [← settle_panic]
  have hsettled : s.settle.spares reached = true := by
    unfold spares at hspares ⊢
    rwa [settle_pc]
  obtain ⟨hpc, hheld⟩ := spares_pc hsettled
  generalize s.settle = t at h hsettled hpc hheld
  unfold panic
  rcases reach_cases hsettled with ⟨d, hreach, hphase, hrequested, -⟩ | ⟨hat, hreach⟩ |
    ⟨hat, hreach⟩
  · rw [hreach]
    exact inv_unwind (h.withDaemon hphase hrequested) hpc hheld
  · have heq : (t.reach reached).unwind = t.requeue.unwind := by
      rw [hreach]
      simp [unwind, requeue, hat]
    rw [heq]
    exact inv_unwind (inv_moves h (.requeue hat)) (by simp [requeue]) (by simp [requeue, Pc.held])
  · have hend : t.complete.pc = .beginning ∨ t.complete.pc = .sleeping := by
      unfold complete
      cases t.daemon.phase.plan.isSome <;> simp
    have heq : (t.reach reached).unwind = t.complete.unwind := by
      rw [hreach]
      unfold complete unwind
      cases t.daemon.phase.plan.isSome <;> simp [hat]
    rw [heq]
    rcases hend with hbeginning | hsleeping
    · exact inv_unwind (inv_moves h (.complete hat)) (by simp [hbeginning])
        (by simp [hbeginning, Pc.held])
    · exact inv_unwind (inv_moves h (.complete hat)) (by simp [hsleeping])
        (by simp [hsleeping, Pc.held])

theorem accounted_panic {s : System} (h : s.Accounted) {reached : Reached}
    (hspares : s.spares reached = true) : (s.panic reached).Accounted := by
  have hrecovers := recovers_panic hspares
  refine h.outside (by rw [hrecovers.log]) (by rw [hrecovers.log]) ?_ ?_
  · rw [hrecovers.requested]
    exact fun _ hname => hname
  · exact fun held hmem => Or.inl ((spares_pc hspares).2 held hmem)

end System

/-! ## What a recovered panic must not lose -/

namespace Guarded

structure LosesNothing (g : Guarded) : Prop where
  /-- A plan includes every section it considers that was requested or changed. -/
  included : ∀ env held pl sn sec, g.sys.pc = .computing env held →
    Configd.compute (g.sys.heldInput env held) = some pl →
    g.sys.daemon.conf.sections[sn]? = some sec →
    isConsidered (g.sys.heldInput env held) sn = true →
    sn ∈ held ∨ diffSection (g.sys.heldInput env held) sn sec ≠ [] →
    sn ∈ pl.sections.map Section.name
  /-- A call of `Plan` that made its snapshot the baseline has its plan executed. -/
  baseline : ∀ n, g.sys.log.Succeeded n →
    n ∈ g.sys.log.executed ∨ g.sys.pc = .executing ∧ n = g.sys.log.current
  /-- A section that a call of `Plan` took is queued again, held by a call, or was
  taken by one that succeeded. -/
  requests : ∀ n requested, (n, requested) ∈ g.sys.log.taken → ∀ name ∈ requested,
    g.sys.Placed n name
  /-- A client is released after the execution of a plan that took its sections. -/
  clients : ∀ c, (g.sys.clients c).closed ≠ 0 →
    ∃ n, g.sys.log.Took (g.sys.clients c) n ∧ g.sys.log.Succeeded n ∧ n ∈ g.sys.log.executed
  /-- No poll is idle while a reload is to be acknowledged. -/
  polls : g.unacknowledged = true → ∀ skipIdlePolls, g.sys.isIdlePoll skipIdlePolls = false
  /-- It is acknowledged when the daemon is ready, or the cycle completes. -/
  reloads : g.unacknowledged = true → g.ready = true ∨ g.sys.pc = .finalizing →
    g.signalReady = true

/-- The step is not one of those that lose something: the panic spares what the
iteration took, and the sleep after a panic is not interrupted by a reload, unless
one is being handled. -/
def Spared (g : Guarded) : GuardedAct → Prop
  | .act a => g.recovering = true → g.sys.receives a = true → g.sys.reloadSignaled = true
  | .panic reached => g.recovering = false → g.sys.spares reached = true

instance (g : Guarded) : ∀ e, Decidable (g.Spared e)
  | .act _ => inferInstanceAs (Decidable (_ → _ → _))
  | .panic _ => inferInstanceAs (Decidable (_ → _))

structure Kept (g : Guarded) : Prop where
  clients : g.sys.settle.Inv
  accounted : g.sys.Accounted
  forced : g.sys.daemon.forced = ∅

/-- **The invariant of the system under `runLoopIterationSafe`.** -/
structure Inv (g : Guarded) : Prop extends g.Kept where
  recovering : g.recovering = true → g.sys.pc = .sleeping
  /-- A reload that is to be acknowledged is noted. -/
  noted : g.unacknowledged = true → g.sys.reloadSignaled = true
  /-- The listener runs from the first completed cycle on. -/
  listens : g.sys.daemon.firstRun = false ∨ g.sys.pc = .finalizing → g.server = true

end Guarded

namespace System

theorem Inv.withReload {s : System} (h : s.settle.Inv) (signaled : Bool) :
    ({ s with reloadSignaled := signaled } : System).settle.Inv := by
  have hsettle : ({ s with reloadSignaled := signaled } : System).settle =
      { s.settle with reloadSignaled := signaled } :=
    settle_comm (s := s) (f := fun s => { s with reloadSignaled := signaled }) rfl rfl rfl
  rw [hsettle]
  exact ⟨h.phase, ⟨h.log.queuedAt, h.log.held, h.log.plan, h.log.executed⟩, h.listed, h.claimed,
    h.covered, h.awaited, h.finished, h.restarting⟩

theorem signaled_of_receives {s : System} {a : Act} (hreceives : s.receives a = true) :
    (s.step a).reloadSignaled = true := by
  unfold receives at hreceives
  split at hreceives
  · rename_i hpc
    simp [step, hpc, consume, hreceives]
  · rename_i interrupted hpc
    simp [step, hpc, sleepEnds, hreceives]
  · cases hreceives

theorem signaled_step {s : System} {a : Act} (hsignaled : s.reloadSignaled = true) :
    (s.step a).reloadSignaled = true ∨ a = .finalize ∧ s.pc = .finalizing := by
  rcases s.step_cases a with heq | hmoves
  · exact Or.inl (by rw [heq, hsignaled])
  · by_cases hfinalize : a = .finalize
    · subst hfinalize
      generalize s.step .finalize = s' at hmoves
      cases hmoves with
      | finalize hpc => exact Or.inr ⟨rfl, hpc⟩
    · exact Or.inl (reloadSignaled_moves hmoves hfinalize hsignaled)

theorem sleeping_step {s : System} {a : Act} (hpc : s.pc = .sleeping) (hwakes : a.wakes = false) :
    (s.step a).pc = .sleeping := by
  rcases s.step_cases a with heq | hmoves
  · rw [heq, hpc]
  · generalize s.step a = s' at hmoves
    cases hmoves with
    | sleepEnds interrupted h => cases hwakes
    | check sections h => exact hpc
    | queue h => exact hpc
    | count h => exact hpc
    | register h => exact hpc
    | wake h => exact hpc
    | forget h => exact hpc
    | reload => exact hpc
    | _ =>
      rename_i h
      simp [hpc] at h

theorem starts_of_completes {s : System} {a : Act}
    (hcompletes : (s.step a).daemon.firstRun = false ∨ (s.step a).pc = .finalizing) :
    (s.daemon.firstRun = false ∨ s.pc = .finalizing) ∨ s.starts a = true := by
  rcases s.step_cases a with heq | hmoves
  · exact Or.inl (by rwa [heq] at hcompletes)
  · by_cases hfinalize : a = .finalize
    · subst hfinalize
      generalize s.step .finalize = s' at hmoves
      cases hmoves with
      | finalize hpc => exact Or.inl (Or.inr hpc)
    · have hfirst := firstRun_moves hmoves hfinalize
      rw [hfirst] at hcompletes
      rcases hcompletes with hdone | hpc
      · exact Or.inl (Or.inl hdone)
      · generalize s.step a = s' at hmoves hpc
        cases hmoves with
        | check sections h => exact Or.inl (Or.inr hpc)
        | queue h => exact Or.inl (Or.inr hpc)
        | count h => exact Or.inl (Or.inr hpc)
        | register h => exact Or.inl (Or.inr hpc)
        | wake h => exact Or.inl (Or.inr hpc)
        | forget h => exact Or.inl (Or.inr hpc)
        | reload => exact Or.inl (Or.inr hpc)
        | endRestarts h =>
          cases hrun : s.daemon.firstRun with
          | false => exact Or.inl (Or.inl rfl)
          | true => exact Or.inr (by simp [starts, h, hrun])
        | poll skip h =>
          unfold poll at hpc
          cases hidle : s.isIdlePoll skip <;> simp [hidle] at hpc
        | @compute env held h =>
          cases hphase : (s.daemon.planTaken held env).phase <;> simp [compute, hphase] at hpc
        | complete h =>
          unfold complete at hpc
          cases hplan : s.daemon.phase.plan.isSome <;> simp [hplan] at hpc
        | _ => cases hpc

end System

namespace Guarded

theorem act_sys (g : Guarded) (a : Act) :
    ∃ signaled, (g.act a).sys = { g.sys.step a with reloadSignaled := signaled } := by
  cases h : g.recovering with
  | true => exact ⟨g.sys.reloadSignaled, by simp [act, h]⟩
  | false => exact ⟨(g.sys.step a).reloadSignaled, by simp [act, h]⟩

theorem Kept.plan {g : Guarded} (h : g.Kept) :
    g.sys.PhaseFits ∧ ∀ held ∈ g.sys.pc.held, (g.sys.log.current, held.keys) ∈ g.sys.log.taken := by
  have hfits := h.clients.phase
  have hheld := h.clients.log.held
  unfold System.PhaseFits at hfits
  rw [System.settle_pc, System.settle_daemon] at hfits
  rw [System.settle_pc, System.settle_log] at hheld
  exact ⟨hfits, hheld⟩

theorem kept_act {g : Guarded} (h : g.Kept) (a : Act) : (g.act a).Kept := by
  obtain ⟨signaled, hsys⟩ := g.act_sys a
  -- What a step does to the clients, the sections and the queue.
  have hmoved : (g.sys.step a).settle.Inv ∧ (g.sys.step a).Accounted ∧
      (g.sys.step a).daemon.forced = ∅ := by
    rcases g.sys.step_cases a with heq | hmoves
    · rw [heq]
      exact ⟨h.clients, h.accounted, h.forced⟩
    · exact ⟨System.inv_moves h.clients (System.settle_moves hmoves),
        System.accounted_moves h.accounted h.plan.1 h.plan.2 hmoves,
        (System.forced_moves hmoves).trans h.forced⟩
  refine ⟨?_, ?_, ?_⟩
  · rw [hsys]
    exact hmoved.1.withReload signaled
  · rw [hsys]
    exact ⟨hmoved.2.1.numbered, hmoved.2.1.sections⟩
  · rw [hsys]
    exact hmoved.2.2

theorem kept_panic {g : Guarded} (h : g.Kept) {reached : Reached}
    (hspares : g.sys.spares reached = true) :
    ({ g with sys := g.sys.panic reached, recovering := true } : Guarded).Kept := by
  exact ⟨System.inv_panic h.clients hspares, System.accounted_panic h.accounted hspares,
    (System.recovers_panic hspares).forced.trans h.forced⟩

/-- **Every step keeps the main loop and its clients**, when its panics spare what
the iteration took. -/
theorem kept_step {g : Guarded} {e : GuardedAct} (h : g.Kept)
    (hspares : ∀ reached, e = .panic reached → g.recovering = false →
      g.sys.spares reached = true) : (g.step e).Kept := by
  cases e with
  | act a => exact kept_act h a
  | panic reached =>
    cases hrecovering : g.recovering with
    | true => simpa [step, hrecovering] using h
    | false =>
      have hpanic := kept_panic h (hspares reached rfl hrecovering)
      simpa [step, hrecovering] using hpanic

theorem Inv.signalReady {g : Guarded} (h : g.Inv) (hnoted : g.sys.reloadSignaled = true)
    (hends : g.ready = true ∨ g.sys.pc = .finalizing) : g.signalReady = true := by
  unfold Guarded.signalReady
  cases hready : g.ready with
  | true => simp [hnoted]
  | false =>
    rcases hends with hset | hpc
    · rw [hready] at hset
      cases hset
    · simp [h.listens (Or.inr hpc)]

theorem Inv.noted_act {g : Guarded} (h : g.Inv) {a : Act} (hspared : g.Spared (.act a))
    (hunacknowledged : (g.act a).unacknowledged = true) :
    (g.act a).sys.reloadSignaled = true := by
  have hboth : (g.unacknowledged || g.sys.receives a) = true ∧ (!g.sends a) = true :=
    Bool.and_eq_true_iff.mp hunacknowledged
  obtain ⟨hor, hnot⟩ := hboth
  rw [Bool.or_eq_true] at hor
  cases hrecovering : g.recovering with
  | true =>
    have hsys : (g.act a).sys.reloadSignaled = g.sys.reloadSignaled := by
      simp [act, hrecovering]
    rw [hsys]
    rcases hor with hold | hnew
    · exact h.noted hold
    · exact hspared hrecovering hnew
  | false =>
    have hsys : (g.act a).sys = g.sys.step a := by simp [act, hrecovering]
    rw [hsys]
    rcases hor with hold | hnew
    · rcases System.signaled_step (a := a) (h.noted hold) with hkept | ⟨rfl, hpc⟩
      · exact hkept
      · -- The cycle completes, so that the reload is acknowledged.
        have hsends : g.sends .finalize = true := by
          rw [sends, h.signalReady (h.noted hold) (Or.inr hpc)]
          simp [System.signals, hpc]
        rw [hsends] at hnot
        cases hnot
    · exact System.signaled_of_receives hnew

theorem inv_act {g : Guarded} (h : g.Inv) {a : Act} (hspared : g.Spared (.act a)) :
    (g.act a).Inv := by
  obtain ⟨signaled, hsys⟩ := g.act_sys a
  refine ⟨kept_act h.toKept a, ?_, h.noted_act hspared, ?_⟩
  · intro hstill
    have hboth : g.recovering = true ∧ (!a.wakes) = true := Bool.and_eq_true_iff.mp hstill
    rw [hsys]
    exact System.sleeping_step (h.recovering hboth.1) (by simpa using hboth.2)
  · intro hcompletes
    rw [hsys] at hcompletes
    show (g.server || g.sys.starts a) = true
    rcases System.starts_of_completes hcompletes with hbefore | hstarts
    · simp [h.listens hbefore]
    · simp [hstarts]

theorem inv_panic {g : Guarded} (h : g.Inv) {reached : Reached}
    (hspares : g.sys.spares reached = true) :
    ({ g with sys := g.sys.panic reached, recovering := true } : Guarded).Inv := by
  have hrecovers := System.recovers_panic hspares
  refine ⟨kept_panic h.toKept hspares, fun _ => rfl,
    fun hset => hrecovers.signaled.trans (h.noted hset), ?_⟩
  intro hcompletes
  rcases hcompletes with hdone | hpc
  · rcases hrecovers.firstRun with hsame | hpc
    · exact h.listens (Or.inl (hsame.symm.trans hdone))
    · exact h.listens (Or.inr hpc)
  · cases hpc

theorem inv_step {g : Guarded} {e : GuardedAct} (h : g.Inv) (hspared : g.Spared e) :
    (g.step e).Inv := by
  cases e with
  | act a => exact inv_act h hspared
  | panic reached =>
    cases hrecovering : g.recovering with
    | true => simpa [step, hrecovering] using h
    | false =>
      have hpanic := inv_panic h (hspared hrecovering)
      simpa [step, hrecovering] using hpanic

theorem kept_init : ({} : Guarded).Kept where
  clients := System.inv_start
  accounted := ⟨⟨by simp, by simp, by simp⟩, by simp⟩
  forced := rfl

theorem inv_init : ({} : Guarded).Inv where
  toKept := kept_init
  recovering := by simp
  noted := by simp
  listens := by simp

theorem Inv.losesNothing {g : Guarded} (h : g.Inv) : g.LosesNothing where
  included := fun _ _ _ _ _ _ hpl hsec hconsidered hconsumed =>
    System.mem_sections_of_consumed h.forced hpl hsec hconsidered hconsumed
  baseline := by
    have hexecuted := h.clients.log.executed
    rw [System.settle_log, System.settle_pc] at hexecuted
    exact hexecuted
  requests := fun n requested htaken => h.accounted.sections (n, requested) htaken
  clients := by
    have hfinished := h.clients.finished
    rw [System.settle_clients, System.settle_log] at hfinished
    exact hfinished
  polls := by
    intro hset skipIdlePolls
    simp [System.isIdlePoll, h.noted hset]
  reloads := fun hset => h.signalReady (h.noted hset)

/-! ### Runs with a panic

A first iteration completes; then a client asks for the rewrite of a section while
a variable of it changes, and the iteration that plans both panics. -/

def firstIteration : List Act :=
  System.untilPlan "a" ++ System.planAndExecute ++
    [System.applyAccepted true, .endRestarts, .finalize]

def rewriteMta : List Act :=
  [.check 0 ["mta"], .queue 0, .count 0, .register 0, .wake 0]

def rewriteIteration : List Act :=
  .sleepEnds false :: rewriteMta ++ System.untilPlan "b" ++ [.compute]

def nextIteration : List Act :=
  .sleepEnds false :: System.untilPlan "b" ++ [.compute, .execute .allOk, .complete]

def panicsAfter (before : List Act) : List GuardedAct :=
  (firstIteration ++ rewriteIteration ++ before).map .act ++ .panic .start ::
    nextIteration.map .act

/-- A reload arrives while the loop sleeps after a panic at the end of the first
iteration. -/
def reloadWhileRecovering : List GuardedAct :=
  firstIteration.map .act ++ .panic .start ::
    ([.reload, .sleepEnds true, .consume] : List Act).map .act

/-! ### The result -/

/-- **What a recovered panic does not lose.**  In every run, with any number of
panics, whose panics come before `Plan` took a section or made its snapshot the
baseline, or after `Execute`, and whose sleeps after a panic are not interrupted by
a reload that is not being handled already, nothing is lost. -/
theorem losesNothing_of_run (acts : List GuardedAct) (hspared : Along step Spared {} acts) :
    (run step {} acts).LosesNothing :=
  Inv.losesNothing (run_invariant_along inv_init (fun _ _ h hcond => inv_step h hcond) hspared)

/-- A panic right after the execution: the plan of the `REWRITE` was executed, and the
client is released by the next iteration. -/
theorem losesNothing_after_execution :
    Along step Spared {} (panicsAfter [.execute .allOk]) ∧
      (run step {} (panicsAfter [.execute .allOk])).sys.log.executed = [2, 1, 0] ∧
      ((run step {} (panicsAfter [.execute .allOk])).sys.clients 0).closed = 1 ∧
      (run step {} (panicsAfter [.execute .allOk])).LosesNothing := by
  have hspared : Along step Spared {} (panicsAfter [.execute .allOk]) := by decide +kernel
  exact ⟨hspared, by decide +kernel, by decide +kernel, losesNothing_of_run _ hspared⟩

/-- A panic before the execution loses the changes of the section and its request:
the next plan has no sections, and the client is released by it.  A reload that
interrupts the sleep after a panic is forgotten: the next poll is idle. -/
theorem panic_loses :
    ((run step {} (panicsAfter [])).sys.log.planned = [(2, []), (1, ["mta"]), (0, ["mta"])] ∧
        (run step {} (panicsAfter [])).sys.log.executed = [2, 0] ∧
        ((run step {} (panicsAfter [])).sys.clients 0).closed = 1 ∧
        ¬ (run step {} (panicsAfter [])).LosesNothing) ∧
      ((run step {} reloadWhileRecovering).sys.pc matches .polling) = true ∧
        (run step {} reloadWhileRecovering).unacknowledged = true ∧
        (run step {} reloadWhileRecovering).sys.isIdlePoll true = true ∧
        ¬ (run step {} reloadWhileRecovering).LosesNothing := by
  have hplanned : (run step {} (panicsAfter [])).sys.log.planned =
      [(2, []), (1, ["mta"]), (0, ["mta"])] := by decide +kernel
  have hexecuted : (run step {} (panicsAfter [])).sys.log.executed = [2, 0] := by decide +kernel
  have hcurrent : (run step {} (panicsAfter [])).sys.log.current = 2 := by decide +kernel
  have hset : (run step {} reloadWhileRecovering).unacknowledged = true := by decide +kernel
  have hidle : (run step {} reloadWhileRecovering).sys.isIdlePoll true = true := by decide +kernel
  refine ⟨⟨hplanned, hexecuted, by decide +kernel, ?_⟩, by decide +kernel, hset, hidle, ?_⟩
  · intro hnothing
    -- The second call of `Plan` succeeded, and its plan was not executed.
    rcases hnothing.baseline 1 ⟨["mta"], by rw [hplanned]; simp⟩ with hdone | ⟨-, hlast⟩
    · rw [hexecuted] at hdone
      simp at hdone
    · rw [hcurrent] at hlast
      omega
  · intro hnothing
    rw [hnothing.polls hset true] at hidle
    cases hidle

end Guarded
end Configd
