import Configd.Daemon.Clients

/-!
# Idle polls

With `zmconfigd_skip_idle_polls` the main loop skips an iteration when it is not the first, no
reload was signaled and no event was counted since the last one.

The loop is *alert* (`Alert`) when it will not skip the next iteration, or a wake-up is on its
way: a signal on the reload channel, or a client that has queued its sections and not yet sent
its signal.  An iteration starts alert and stays so until it has completed; one that fails leaves
the loop alert.  What a completed one leaves undone was asked for by clients whose wake-up is
still on its way.  Restarts are different: disabled, debounced, deferred or refused ones are
kept without the loop being alert.
-/

namespace Configd

open Lib

/-! ## The restarts of a completed cycle -/

theorem dispatch_accepted {env : HostEnv} (haccepts : ∀ i, env.outcome i = .ok) (s : Session)
    (service : String) (action : Action) (reasons kinds : List String) :
    (dispatch env s service action reasons kinds).1 ≠ .retry ∧
      (dispatch env s service action reasons kinds).2.pending = s.pending := by
  unfold dispatch
  cases hostCall env.systemd service action <;>
    simp [queueLegacy, applySystemd, haccepts]

theorem queue_accepted {env : HostEnv} (haccepts : ∀ i, env.outcome i = .ok) (s : Session)
    (restarts : List Restart) :
    (queue env s restarts).2 = [] ∧ (queue env s restarts).1.pending = s.pending := by
  unfold queue
  refine List.foldlRecOn (motive := fun state : Session × List Restart =>
    state.2 = [] ∧ state.1.pending = s.pending) restarts _ ⟨rfl, rfl⟩ ?_
  rintro state ⟨hcarry, hpending⟩ e -
  obtain ⟨hdone, hsame⟩ := dispatch_accepted haccepts state.1 e.service e.action
    (reasonTexts e.reasons) (reasonKinds e.reasons)
  simp [queueOne, hdone, hcarry, hsame, hpending]

theorem flushOne_accepted {env : HostEnv} (haccepts : ∀ i, env.outcome i = .ok) (s : Session)
    (first name : String) :
    (flushOne env (fun _ => true) s first).pending[name]? =
      if first = name then none else s.pending[name]? := by
  unfold flushOne
  cases hr : s.pending[first]? with
  | none =>
    by_cases hfirst : first = name
    · subst hfirst
      simpa using hr
    · simp [hfirst]
  | some r =>
    obtain ⟨hdone, hsame⟩ := dispatch_accepted haccepts s first r.action r.reasons r.kinds
    simp [hdone, hsame, OrdMap.getElem?_erase_iff]

theorem foldl_flushOne_accepted {env : HostEnv} (haccepts : ∀ i, env.outcome i = .ok)
    (names : List String) (s : Session) (name : String) :
    (names.foldl (flushOne env fun _ => true) s).pending[name]? =
      if name ∈ names then none else s.pending[name]? := by
  induction names generalizing s with
  | nil => simp
  | cons first rest ih =>
    rw [List.foldl_cons, ih, flushOne_accepted haccepts]
    by_cases hfirst : first = name
    · simp [hfirst]
    · simp [hfirst, Ne.symm hfirst]

theorem flush_accepted {env : HostEnv} (haccepts : ∀ i, env.outcome i = .ok) (s : Session) :
    (flush env (fun _ => true) s).pending = ∅ := by
  apply Std.ExtTreeMap.ext_getElem?
  intro name
  unfold flush
  rw [foldl_flushOne_accepted haccepts]
  by_cases hmem : name ∈ s.pending.keys
  · simp [hmem]
  · rw [if_neg hmem]
    rw [Std.ExtTreeMap.mem_keys, ← OrdMap.getElem?_eq_none_iff] at hmem
    simpa using hmem

theorem apply_accepted (p : Policy) (restarts : List Restart) {settings : Settings}
    (hon : settings.enabled = true) (hnow : settings.debounce ≤ 0) {env : HostEnv}
    (haccepts : ∀ i, env.outcome i = .ok) :
    (p.apply restarts settings env).carry = [] ∧
      (p.apply restarts settings env).policy.pending = ∅ := by
  obtain ⟨hcarry, hsame⟩ :=
    queue_accepted haccepts (flush env (fun _ => true) { toPolicy := p }) restarts
  simp only [Policy.apply, hon, hnow, Bool.not_true, Bool.false_eq_true, if_false, if_true]
  exact ⟨hcarry, hsame.trans (flush_accepted haccepts _)⟩

namespace System

/-! ## Alertness -/

/-- A wake-up is on its way to the main loop. -/
def WakeInFlight (s : System) : Prop :=
  s.token = true ∨ ∃ c, (s.clients c).IsWaking

/-- The loop will not skip its next iteration, or is about to be woken. -/
def Alert (s : System) : Prop :=
  s.daemon.firstRun = true ∨ s.reloadSignaled = true ∨ s.WakeInFlight

theorem wakeInFlight_update {s s' : System} {c : Nat} {client : Client}
    (hclients : s'.clients = Function.update s.clients c client) (htoken : s'.token = s.token)
    (hclient : ¬ (s.clients c).IsWaking) (hwake : s.WakeInFlight) : s'.WakeInFlight := by
  rcases hwake with hset | ⟨x, hx⟩
  · exact Or.inl (htoken.trans hset)
  · have hne : x ≠ c := fun heq => hclient (heq ▸ hx)
    exact Or.inr ⟨x, by rwa [hclients, Function.update_of_ne hne]⟩

end System

theorem Daemon.firstRun_step (d : Daemon) {e : Event} (he : e ≠ .finish) :
    (d.step e).firstRun = d.firstRun := by
  rcases d.step_cases e with heq | ⟨sections, -, heq⟩ | ⟨load, -, -, heq⟩ | ⟨fs, raw, -, -, heq⟩ |
    ⟨env, -, -, heq⟩ | ⟨env, pl, -, -, heq⟩ | ⟨settings, env, pl, -, -, heq⟩ | ⟨hfinish, -, -⟩
  · rw [heq]
  · rw [heq]
  · rw [heq]
  · rw [heq]
  · rw [heq]
    rcases d.plan_cases env with ⟨-, hplan⟩ | ⟨pl, -, hplan⟩
    · rw [hplan]
    · rw [hplan]
      rfl
  · rw [heq]
    rfl
  · rw [heq]
    rfl
  · exact absurd hfinish he

theorem Daemon.planTaken_frame (d : Daemon) (held : StrMap String) (env : PlanEnv) :
    (d.planTaken held env).firstRun = d.firstRun ∧ (d.planTaken held env).carry = d.carry ∧
      (d.planTaken held env).policy = d.policy := by
  rcases System.planTaken_cases d held env with ⟨-, hplan⟩ | ⟨pl, -, hplan⟩
  · rw [hplan]
    exact ⟨rfl, rfl, rfl⟩
  · rw [hplan]
    exact ⟨rfl, rfl, rfl⟩

namespace System

theorem compute_frame (s : System) (env : PlanEnv) (held : StrMap String) :
    (s.compute env held).daemon = s.daemon.planTaken held env ∧
      (s.compute env held).trigger = s.trigger ∧ (s.compute env held).token = s.token ∧
      (s.compute env held).reloadSignaled = s.reloadSignaled ∧
      (s.compute env held).lastEventCount = s.lastEventCount ∧
      (s.compute env held).clients = s.clients := by
  cases hphase : (s.daemon.planTaken held env).phase <;> simp [compute, hphase]

/-- **Only the loop takes a wake-up**, at the start of an iteration or in its
sleep, and it remembers it. -/
theorem wakeInFlight_moves {s s' : System} {a : Act} (hmoves : Moves s a s')
    (hwake : s.WakeInFlight) :
    s'.WakeInFlight ∨ s'.reloadSignaled = true ∧ (s.pc = .top ∨ s.pc = .sleeping) := by
  cases hmoves with
  | check sections h =>
    exact Or.inl (wakeInFlight_update rfl rfl (by simp [Client.IsWaking, h]) hwake)
  | @queue c h => exact Or.inl (Or.inr ⟨c, by simp [queue, setClient, Client.IsWaking]⟩)
  | @count c h => exact Or.inl (Or.inr ⟨c, by simp [count, setClient, Client.IsWaking]⟩)
  | @register c h => exact Or.inl (Or.inr ⟨c, by simp [register, setClient, Client.IsWaking]⟩)
  | wake h => exact Or.inl (Or.inl rfl)
  | forget h => exact Or.inl (wakeInFlight_update rfl rfl (by simp [Client.IsWaking, h]) hwake)
  | reload => exact Or.inl (Or.inl rfl)
  | consume h =>
    rcases hwake with hset | hwaking
    · exact Or.inr ⟨by simp [consume, hset], Or.inl h⟩
    · exact Or.inl (Or.inr hwaking)
  | @compute env held h =>
    obtain ⟨-, -, htoken, -, -, hclients⟩ := s.compute_frame env held
    rcases hwake with hset | ⟨c, hc⟩
    · exact Or.inl (Or.inl (htoken.trans hset))
    · exact Or.inl (Or.inr ⟨c, by rwa [hclients]⟩)
  | complete h =>
    rcases hwake with hset | ⟨c, hc⟩
    · exact Or.inl (Or.inl hset)
    · exact Or.inl (Or.inr ⟨c, by simpa [complete, Client.IsWaking] using hc⟩)
  | sleepEnds interrupted h =>
    rcases hwake with hset | hwaking
    · cases interrupted with
      | true => exact Or.inr ⟨by simp [sleepEnds, hset], Or.inr h⟩
      | false => exact Or.inl (Or.inl (by simp [sleepEnds, hset]))
    · exact Or.inl (Or.inr hwaking)
  | _ => exact Or.inl hwake

theorem firstRun_moves {s s' : System} {a : Act} (hmoves : Moves s a s')
    (hne : a ≠ .finalize) : s'.daemon.firstRun = s.daemon.firstRun := by
  cases hmoves with
  | @compute env held h =>
    rw [(s.compute_frame env held).1]
    exact (Daemon.planTaken_frame _ _ _).1
  | queue h => exact Daemon.firstRun_step _ (by simp)
  | loadAndParse load fs raw h =>
    exact (Daemon.firstRun_step _ (by simp)).trans (Daemon.firstRun_step _ (by simp))
  | loadFails load h =>
    cases load with
    | none => rfl
    | some load => exact s.daemon.firstRun_step (e := .load load) (by simp)
  | execute env h => exact Daemon.firstRun_step _ (by simp)
  | apply settings env h => exact Daemon.firstRun_step _ (by simp)
  | finalize h => exact absurd rfl hne
  | _ => rfl

theorem reloadSignaled_moves {s s' : System} {a : Act} (hmoves : Moves s a s')
    (hne : a ≠ .finalize) (hreload : s.reloadSignaled = true) :
    s'.reloadSignaled = true := by
  cases hmoves with
  | @compute env held h => exact (s.compute_frame env held).2.2.2.1.trans hreload
  | consume h => simp [consume, hreload]
  | sleepEnds interrupted h => simp [sleepEnds, hreload]
  | finalize h => exact absurd rfl hne
  | _ => exact hreload

/-- **Only the end of a completed iteration can make the loop less alert.** -/
theorem alert_moves {s s' : System} {a : Act} (hmoves : Moves s a s') (hne : a ≠ .finalize)
    (halert : s.Alert) : s'.Alert := by
  rcases halert with hfirst | hreload | hwake
  · exact Or.inl ((firstRun_moves hmoves hne).trans hfirst)
  · exact Or.inr (Or.inl (reloadSignaled_moves hmoves hne hreload))
  · rcases wakeInFlight_moves hmoves hwake with hstill | ⟨hreload, -⟩
    · exact Or.inr (Or.inr hstill)
    · exact Or.inr (Or.inl hreload)

end System

/-! ## What an iteration leaves undone -/

/-- The loop runs an iteration that it did not skip. -/
def Pc.inCycle : Pc → Bool
  | top => false
  | polling => false
  | sleeping => false
  | _ => true

/-- The iteration has noted the event count. -/
def Pc.counted : Pc → Bool
  | counting => false
  | pc => pc.inCycle

/-- The iteration has claimed the waiting clients. -/
def Pc.claimed : Pc → Bool
  | loading => false
  | claiming => false
  | requeuing => false
  | pc => pc.counted

/-- The plan of the iteration has taken the requested sections, and not put them
back. -/
def Pc.taken : Pc → Bool
  | taking => false
  | pc => pc.claimed

/-- The step is one of a daemon that skips idle polls and is not shut down. -/
def Act.Regular : Act → Prop
  | .poll skipIdlePolls => skipIdlePolls = true
  | .execute env => env.NeverCancelled
  | _ => True

namespace System

/-- Something other than a restart is to be done. -/
def HasWork (s : System) : Prop :=
  s.trigger.waiting ≠ [] ∨ s.daemon.requested ≠ ∅ ∨ ¬ s.daemon.carry.OnlyRestarts

/-- The plan of the cycle was executed without an error. -/
def Rewritten (s : System) : Prop :=
  s.daemon.phase = .completed ∨ ∃ pl, s.daemon.phase = .executed pl

/-- **The invariant of a loop that skips idle polls.** -/
structure Attended (s : System) : Prop where
  /-- An event that the loop has not noted comes with a wake-up. -/
  events : s.trigger.eventCounter ≠ s.lastEventCount →
    s.WakeInFlight ∨ s.pc.counted = false ∧ s.reloadSignaled = true
  cycle : s.pc.inCycle = true → s.Alert
  waiting : s.pc.claimed = true → s.trigger.waiting ≠ [] → s.WakeInFlight
  requested : s.pc.taken = true → s.daemon.requested ≠ ∅ → s.WakeInFlight
  rewritten : s.Rewritten → s.daemon.carry.OnlyRestarts
  between : s.pc.inCycle = false → s.HasWork → s.Alert

theorem Attended.of_wake {s : System} (hwake : s.WakeInFlight)
    (hrewritten : s.Rewritten → s.daemon.carry.OnlyRestarts) : s.Attended where
  events := fun _ => Or.inl hwake
  cycle := fun _ => Or.inr (Or.inr hwake)
  waiting := fun _ _ => hwake
  requested := fun _ _ => hwake
  rewritten := hrewritten
  between := fun _ _ => Or.inr (Or.inr hwake)

theorem Attended.client {s s' : System} (h : s.Attended)
    (hwake : s.WakeInFlight → s'.WakeInFlight) (hdaemon : s'.daemon = s.daemon)
    (hpc : s'.pc = s.pc) (hreload : s'.reloadSignaled = s.reloadSignaled)
    (hevents : s'.trigger.eventCounter = s.trigger.eventCounter)
    (hlast : s'.lastEventCount = s.lastEventCount)
    (hwaiting : s'.trigger.waiting ≠ [] → s.trigger.waiting ≠ []) : s'.Attended := by
  have halert : s.Alert → s'.Alert := by
    rintro (hfirst | hset | hin)
    · exact Or.inl (by rwa [hdaemon])
    · exact Or.inr (Or.inl (hreload.trans hset))
    · exact Or.inr (Or.inr (hwake hin))
  refine ⟨?_, ?_, ?_, ?_, ?_, ?_⟩
  · rw [hevents, hlast, hpc, hreload]
    exact fun hne => (h.events hne).imp_left hwake
  · rw [hpc]
    exact fun hin => halert (h.cycle hin)
  · rw [hpc]
    exact fun hclaimed hne => hwake (h.waiting hclaimed (hwaiting hne))
  · rw [hpc, hdaemon]
    exact fun htaken hne => hwake (h.requested htaken hne)
  · unfold Rewritten
    rw [hdaemon]
    exact h.rewritten
  · unfold HasWork
    rw [hpc, hdaemon]
    exact fun hout hwork => halert (h.between hout (hwork.imp_left hwaiting))

theorem Attended.takes_wake {s s' : System} {a : Act} (h : s.Attended) (hmoves : Moves s a s')
    (hfinalize : a ≠ .finalize) (hpc : s.pc.inCycle = false) (hpc' : s'.pc.inCycle = false)
    (hdaemon : s'.daemon = s.daemon) (htrigger : s'.trigger = s.trigger)
    (hlast : s'.lastEventCount = s.lastEventCount) : s'.Attended := by
  have hcounted : s'.pc.counted = false := by
    cases hnew : s'.pc <;> simp_all [Pc.counted, Pc.inCycle]
  have hclaimed : s'.pc.claimed = false := by
    cases hnew : s'.pc <;> simp_all [Pc.claimed, Pc.counted, Pc.inCycle]
  have htaken : s'.pc.taken = false := by
    cases hnew : s'.pc <;> simp_all [Pc.taken, Pc.claimed, Pc.counted, Pc.inCycle]
  refine ⟨?_, ?_, ?_, ?_, ?_, ?_⟩
  · rw [htrigger, hlast]
    intro hne
    rcases h.events hne with hwake | ⟨-, hreload⟩
    · exact (wakeInFlight_moves hmoves hwake).imp_right fun hset => ⟨hcounted, hset.1⟩
    · exact Or.inr ⟨hcounted, reloadSignaled_moves hmoves hfinalize hreload⟩
  · simp [hpc']
  · simp [hclaimed]
  · simp [htaken]
  · unfold Rewritten
    rw [hdaemon]
    exact h.rewritten
  · unfold HasWork
    rw [hdaemon, htrigger]
    exact fun _ hwork => alert_moves hmoves hfinalize (h.between hpc hwork)

theorem Attended.fails {s s' : System} {a : Act} (h : s.Attended) (hmoves : Moves s a s')
    (hfinalize : a ≠ .finalize) (hpc : s.pc.inCycle = true) (hpc' : s'.pc = .sleeping)
    (hcounter : s'.trigger.eventCounter = s.trigger.eventCounter)
    (hlast : s'.lastEventCount = s.lastEventCount) (hphase : ¬ s'.Rewritten) : s'.Attended := by
  have halert := alert_moves hmoves hfinalize (h.cycle hpc)
  refine ⟨?_, ?_, ?_, ?_, fun hdone => absurd hdone hphase, fun _ _ => halert⟩
  · rw [hcounter, hlast, hpc']
    intro hne
    rcases h.events hne with hwake | ⟨-, hreload⟩
    · exact (wakeInFlight_moves hmoves hwake).imp_right fun hset => ⟨rfl, hset.1⟩
    · exact Or.inr ⟨rfl, reloadSignaled_moves hmoves hfinalize hreload⟩
  · simp [hpc', Pc.inCycle]
  · simp [hpc', Pc.claimed, Pc.counted, Pc.inCycle]
  · simp [hpc', Pc.taken, Pc.claimed, Pc.counted, Pc.inCycle]

theorem Attended.inside {s s' : System} {a : Act} (h : s.Attended) (hmoves : Moves s a s')
    (hfinalize : a ≠ .finalize) (hpc : s.pc.counted = true) (hpc' : s'.pc.counted = true)
    (hcounter : s'.trigger.eventCounter = s.trigger.eventCounter)
    (hlast : s'.lastEventCount = s.lastEventCount)
    (hwaiting : s'.pc.claimed = true → s'.trigger.waiting ≠ [] → s.WakeInFlight)
    (hrequested : s'.pc.taken = true → s'.daemon.requested ≠ ∅ → s.WakeInFlight)
    (hrewritten : s'.Rewritten → s'.daemon.carry.OnlyRestarts) : s'.Attended := by
  have hin : s.pc.inCycle = true := by
    cases hold : s.pc <;> simp_all [Pc.counted, Pc.inCycle]
  have hin' : s'.pc.inCycle = true := by
    cases hnew : s'.pc <;> simp_all [Pc.counted, Pc.inCycle]
  -- The loop takes wake-ups only outside an iteration.
  have hwake : s.WakeInFlight → s'.WakeInFlight := by
    intro hwake
    rcases wakeInFlight_moves hmoves hwake with hstill | ⟨-, htop | hsleeping⟩
    · exact hstill
    · simp [htop, Pc.inCycle] at hin
    · simp [hsleeping, Pc.inCycle] at hin
  refine ⟨?_, ?_, ?_, ?_, hrewritten, ?_⟩
  · rw [hcounter, hlast]
    intro hne
    rcases h.events hne with hin | ⟨hcounted, -⟩
    · exact Or.inl (hwake hin)
    · simp [hpc] at hcounted
  · exact fun _ => alert_moves hmoves hfinalize (h.cycle hin)
  · exact fun hclaimed hne => hwake (hwaiting hclaimed hne)
  · exact fun htaken hne => hwake (hrequested htaken hne)
  · simp [hin']

theorem attended_poll {s : System} (h : s.Attended) (hpc : s.pc = .polling) :
    (s.poll true).Attended := by
  have hmoves : Moves s (.poll true) (s.poll true) := .poll true hpc
  cases hidle : s.isIdlePoll true with
  | true =>
    have heq : s.poll true = { s with pc := .sleeping } := by simp [poll, hidle]
    rw [heq] at hmoves ⊢
    exact h.takes_wake hmoves (by simp) (by rw [hpc]; rfl) rfl rfl rfl rfl
  | false =>
    have heq : s.poll true = { s with pc := .counting } := by simp [poll, hidle]
    rw [heq]
    have hevents : s.trigger.eventCounter ≠ s.lastEventCount →
        s.WakeInFlight ∨ s.reloadSignaled = true :=
      fun hne => (h.events hne).imp_right And.right
    refine ⟨fun hne => (hevents hne).imp_right fun hset => ⟨rfl, hset⟩, fun _ => ?_, ?_, ?_,
      h.rewritten, ?_⟩
    · -- The poll is not idle: one of the reasons of the loop is there.
      show s.daemon.firstRun = true ∨ s.reloadSignaled = true ∨ s.WakeInFlight
      by_cases hcounter : s.trigger.eventCounter = s.lastEventCount
      · simp only [isIdlePoll, hcounter, decide_true, Bool.true_and, Bool.and_true] at hidle
        cases hfirst : s.daemon.firstRun <;> simp_all
      · rcases hevents hcounter with hwake | hreload
        · exact Or.inr (Or.inr hwake)
        · exact Or.inr (Or.inl hreload)
    · simp [Pc.claimed, Pc.counted]
    · simp [Pc.taken, Pc.claimed, Pc.counted]
    · simp [Pc.inCycle]

theorem attended_finalize {s : System} (h : s.Attended) (hfits : s.PhaseFits)
    (hpc : s.pc = .finalizing) : s.finalize.Attended := by
  have hphase : s.daemon.phase = .completed :=
    hfits.at_pc hpc
  have hfinish : s.daemon.step .finish = { s.daemon with firstRun := false, phase := .idle } := by
    simp [Daemon.step, hphase]
  have honly := h.rewritten (Or.inl hphase)
  have hwaiting := h.waiting (by rw [hpc]; rfl)
  have hrequested := h.requested (by rw [hpc]; rfl)
  -- What the iteration leaves undone was asked for while it ran.
  have hwork : s.finalize.HasWork → s.WakeInFlight := by
    unfold HasWork finalize
    rw [hfinish]
    rintro (hne | hne | hnot)
    · exact hwaiting hne
    · exact hrequested hne
    · exact absurd honly hnot
  refine ⟨?_, ?_, ?_, ?_, ?_, fun _ hleft => Or.inr (Or.inr (hwork hleft))⟩
  · intro hne
    rcases h.events hne with hwake | ⟨hcounted, -⟩
    · exact Or.inl hwake
    · simp [hpc, Pc.counted, Pc.inCycle] at hcounted
  · simp [finalize, Pc.inCycle]
  · simp [finalize, Pc.claimed, Pc.counted, Pc.inCycle]
  · simp [finalize, Pc.taken, Pc.claimed, Pc.counted, Pc.inCycle]
  · simp [Rewritten, finalize, hfinish]

theorem attended_execute {s : System} (h : s.Attended) (hfits : s.PhaseFits)
    (hpc : s.pc = .executing) {env : ExecEnv} (hcancel : env.NeverCancelled) :
    (s.execute env).Attended := by
  obtain ⟨pl, hpl⟩ : ∃ pl, s.daemon.phase = .planned pl :=
    hfits.at_pc hpc
  have hstep : s.daemon.step (.execute env) = s.daemon.executePlan env pl := by
    simp [Daemon.step, hpl]
  refine h.inside (.execute env hpc) (by simp) (by rw [hpc]; rfl) rfl rfl rfl
    (fun _ => h.waiting (by rw [hpc]; rfl)) (fun _ => ?_) ?_
  · show (s.daemon.step (.execute env)).requested ≠ ∅ → _
    rw [hstep]
    exact h.requested (by rw [hpc]; rfl)
  · unfold Rewritten execute
    rw [hstep]
    cases hfailed : (Configd.execute env pl).failed with
    | true => simp [Daemon.executePlan, hfailed]
    | false => exact fun _ => onlyRestarts_of_not_failed hcancel hfailed

theorem attended_complete {s : System} (h : s.Attended) (hfits : s.PhaseFits)
    (hpc : s.pc = .completing) : s.complete.Attended := by
  have hmoves : Moves s .complete s.complete := .complete hpc
  have hphase : s.daemon.phase = .idle ∨ ∃ pl, s.daemon.phase = .executed pl :=
    hfits.at_pc hpc
  rcases hphase with hidle | ⟨pl, hpl⟩
  · exact h.fails hmoves (by simp) (by rw [hpc]; rfl) (by simp [complete, hidle, Phase.plan]) rfl
      rfl (by simp [Rewritten, complete, hidle])
  · have hnew : s.complete.pc = .beginning := by simp [complete, hpl, Phase.plan]
    exact h.inside hmoves (by simp) (by rw [hpc]; rfl) (by rw [hnew]; rfl) rfl rfl
      (fun _ => h.waiting (by rw [hpc]; rfl)) (fun _ => h.requested (by rw [hpc]; rfl)) h.rewritten

theorem attended_apply {s : System} (h : s.Attended) (hfits : s.PhaseFits)
    (hpc : s.pc = .applying) (settings : Settings) (env : HostEnv) :
    (s.apply settings env).Attended := by
  obtain ⟨pl, hpl⟩ : ∃ pl, s.daemon.phase = .executed pl :=
    hfits.at_pc hpc
  have hstep : s.daemon.step (.applyRestarts settings env) =
      s.daemon.applyRestarts settings env pl := by
    simp [Daemon.step, hpl]
  refine h.inside (.apply settings env hpc) (by simp) (by rw [hpc]; rfl) rfl rfl rfl
    (fun _ => h.waiting (by rw [hpc]; rfl)) (fun _ => ?_) ?_
  · show (s.daemon.step (.applyRestarts settings env)).requested ≠ ∅ → _
    rw [hstep]
    exact h.requested (by rw [hpc]; rfl)
  · -- The policy decides about the restarts only.
    have honly := h.rewritten (Or.inr ⟨pl, hpl⟩)
    show _ → (s.daemon.step (.applyRestarts settings env)).carry.OnlyRestarts
    rw [hstep]
    exact fun _ => ⟨honly.rewrites, honly.postconf, honly.postconfd, honly.ldap, honly.proxygen⟩

theorem attended_compute {s : System} (h : s.Attended) (hfits : s.PhaseFits) {env : PlanEnv}
    {held : StrMap String} (hpc : s.pc = .computing env held) :
    (s.compute env held).Attended := by
  have hidle : s.daemon.phase = .idle :=
    hfits.at_pc hpc
  have hmoves : Moves s .compute (s.compute env held) := .compute hpc
  rcases compute_cases hidle env held with ⟨hphase, -, heq⟩ | ⟨pl, hphase, hsame, heq⟩
  · rw [heq] at hmoves ⊢
    refine h.inside hmoves (by simp) (by rw [hpc]; rfl) rfl rfl rfl ?_ ?_ ?_
    · simp [Pc.claimed]
    · simp [Pc.taken, Pc.claimed]
    · simp [Rewritten, hphase]
  · rw [heq] at hmoves ⊢
    refine h.inside hmoves (by simp) (by rw [hpc]; rfl) rfl rfl rfl
      (fun _ => h.waiting (by rw [hpc]; rfl)) (fun _ => ?_) ?_
    · show (s.daemon.planTaken held env).requested ≠ ∅ → _
      rw [hsame]
      exact h.requested (by rw [hpc]; rfl)
    · simp [Rewritten, hphase]

theorem attended_load {s s' : System} {a : Act} (h : s.Attended) (hfits : s.PhaseFits)
    (hmoves : Moves s a s') (hpc : s.pc = .loading) (hfinalize : a ≠ .finalize)
    (hpc' : s'.pc = .claiming ∨ s'.pc = .sleeping)
    (hcounter : s'.trigger.eventCounter = s.trigger.eventCounter)
    (hlast : s'.lastEventCount = s.lastEventCount)
    (hphase : s'.daemon.phase = s.daemon.phase) : s'.Attended := by
  have hidle : s.daemon.phase = .idle :=
    hfits.at_pc hpc
  have hnot : ¬ s'.Rewritten := by simp [Rewritten, hphase, hidle]
  rcases hpc' with hnext | hnext
  · exact h.inside hmoves hfinalize (by rw [hpc]; rfl) (by rw [hnext]; rfl) hcounter hlast
      (by simp [hnext, Pc.claimed]) (by simp [hnext, Pc.taken, Pc.claimed])
      fun hdone => absurd hdone hnot
  · exact h.fails hmoves hfinalize (by rw [hpc]; rfl) hnext hcounter hlast hnot

theorem attended_moves {s s' : System} {a : Act} (h : s.Attended) (hfits : s.PhaseFits)
    (hregular : a.Regular) (hmoves : Moves s a s') : s'.Attended := by
  cases hmoves with
  | check sections hc =>
    exact h.client (wakeInFlight_update rfl rfl (by simp [Client.IsWaking, hc])) rfl rfl rfl rfl
      rfl id
  | @queue c hc =>
    exact .of_wake (Or.inr ⟨c, by simp [queue, setClient, Client.IsWaking]⟩) h.rewritten
  | @count c hc =>
    exact .of_wake (Or.inr ⟨c, by simp [count, setClient, Client.IsWaking]⟩) h.rewritten
  | @register c hc =>
    exact .of_wake (Or.inr ⟨c, by simp [register, setClient, Client.IsWaking]⟩) h.rewritten
  | wake hc => exact .of_wake (Or.inl rfl) h.rewritten
  | @forget c hc =>
    refine h.client (wakeInFlight_update rfl rfl (by simp [Client.IsWaking, hc])) rfl rfl rfl rfl
      rfl ?_
    intro hne hnil
    exact hne (by simp [forget, setClient, Trigger.forget, hnil])
  | reload => exact .of_wake (Or.inl rfl) h.rewritten
  | consume hpc => exact h.takes_wake (.consume hpc) (by simp) (by rw [hpc]; rfl) rfl rfl rfl rfl
  | poll skip hpc =>
    have hskip : skip = true := hregular
    subst hskip
    exact attended_poll h hpc
  | recount hpc =>
    exact ⟨fun hne => absurd rfl hne, fun _ => h.cycle (by rw [hpc]; rfl),
      by simp [recount, Pc.claimed], by simp [recount, Pc.taken, Pc.claimed], h.rewritten,
      by simp [recount, Pc.inCycle]⟩
  | loadAndParse load fs raw hpc =>
    have hidle : s.daemon.phase = .idle := hfits.at_pc hpc
    exact attended_load h hfits (.loadAndParse load fs raw hpc) hpc (by simp) (Or.inl rfl) rfl rfl
      (by simp [loadAndParse, Daemon.step, hidle])
  | loadFails load hpc =>
    have hidle : s.daemon.phase = .idle := hfits.at_pc hpc
    exact attended_load h hfits (.loadFails load hpc) hpc (by simp) (Or.inr rfl) rfl rfl
      (by cases load <;> simp [loadFails, Daemon.step, hidle])
  | claim hpc =>
    exact h.inside (.claim hpc) (by simp) (by rw [hpc]; rfl) rfl rfl rfl
      (by simp [claim, Trigger.claimWaiters]) (by simp [claim, Pc.taken]) h.rewritten
  | take env hpc =>
    exact h.inside (.take env hpc) (by simp) (by rw [hpc]; rfl) rfl rfl rfl
      (fun _ => h.waiting (by rw [hpc]; rfl)) (fun _ hne => absurd rfl hne) h.rewritten
  | compute hpc => exact attended_compute h hfits hpc
  | requeue hpc =>
    have hidle : s.daemon.phase = .idle := hfits.at_pc hpc
    exact h.fails (.requeue hpc) (by simp) (by rw [hpc]; rfl) rfl rfl rfl
      (by simp [Rewritten, requeue, hidle])
  | execute env hpc => exact attended_execute h hfits hpc hregular
  | complete hpc => exact attended_complete h hfits hpc
  | begin hpc =>
    exact h.inside (.begin hpc) (by simp) (by rw [hpc]; rfl) rfl rfl rfl
      (fun _ => h.waiting (by rw [hpc]; rfl)) (fun _ => h.requested (by rw [hpc]; rfl)) h.rewritten
  | apply settings env hpc => exact attended_apply h hfits hpc settings env
  | endRestarts hpc =>
    exact h.inside (.endRestarts hpc) (by simp) (by rw [hpc]; rfl) rfl rfl rfl
      (fun _ => h.waiting (by rw [hpc]; rfl)) (fun _ => h.requested (by rw [hpc]; rfl)) h.rewritten
  | finalize hpc => exact attended_finalize h hfits hpc
  | sleepEnds interrupted hpc =>
    exact h.takes_wake (.sleepEnds interrupted hpc) (by simp) (by rw [hpc]; rfl) rfl rfl rfl rfl

theorem attended_init : ({} : System).Attended where
  events := fun hne => absurd rfl hne
  cycle := by simp [Pc.inCycle]
  waiting := by simp
  requested := fun _ hne => absurd rfl hne
  rewritten := by simp [Rewritten]
  between := fun _ _ => Or.inl rfl

theorem attended_run {acts : List Act} (hregular : ∀ a ∈ acts, a.Regular) :
    (run {} acts).Attended := by
  have hrun := run_induction_along (motive := fun s => s.PhaseFits ∧ s.Attended) (s := {})
    ⟨rfl, attended_init⟩
    (fun s a s' h (hcond : a.Regular) hmoves =>
      ⟨phaseFits_moves h.1 hmoves, attended_moves h.2 h.1 hcond hmoves⟩)
    (along_of_forall (fun a ha _ => hregular a ha) {})
  exact hrun.2

end System

/-! ## What an iteration leaves of the restarts -/

/-- Nothing keeps the policy from carrying out a restart in this call. -/
structure Unhindered (settings : Settings) (env : HostEnv) : Prop where
  enabled : settings.enabled = true
  immediate : settings.debounce ≤ 0
  accepted : ∀ i, env.outcome i = .ok

namespace System

/-- The step is the restart phase of an iteration. -/
def Applies (s : System) (a : Act) : Prop :=
  s.pc = .applying ∧ ∃ settings env, a = .apply settings env

/-- The step is a restart phase that carries out every restart. -/
def Settles (s : System) (a : Act) : Prop :=
  s.pc = .applying ∧ ∃ settings env, a = .apply settings env ∧ Unhindered settings env

/-- What holds after a restart phase that carried out every restart, up to the
next restart phase. -/
structure RestartsDone (s : System) : Prop where
  completed : s.daemon.phase = .completed → s.daemon.carry.restarts = []
  between : s.pc.inCycle = false → s.daemon.carry.restarts ≠ [] → s.Alert
  pending : s.daemon.policy.pending = ∅

theorem restartsDone_of_settles {s : System} {a : Act} (hfits : s.PhaseFits)
    (hsettles : s.Settles a) : (s.step a).RestartsDone := by
  obtain ⟨hpc, settings, env, rfl, hfree⟩ := hsettles
  obtain ⟨pl, hpl⟩ : ∃ pl, s.daemon.phase = .executed pl := hfits.at_pc hpc
  have hstep : s.step (.apply settings env) =
      { s with daemon := s.daemon.applyRestarts settings env pl, pc := .ending } := by
    simp [step, hpc, apply, Daemon.step, hpl]
  obtain ⟨hcarry, hpending⟩ := apply_accepted s.daemon.policy pl.restarts hfree.enabled
    hfree.immediate hfree.accepted
  rw [hstep]
  exact ⟨fun _ => hcarry, by simp [Pc.inCycle], hpending⟩

theorem RestartsDone.frame {s s' : System} {a : Act} (h : s.RestartsDone) (hattended : s.Attended)
    (hmoves : Moves s a s') (hfinalize : a ≠ .finalize)
    (hcarry : s'.daemon.carry = s.daemon.carry) (hpolicy : s'.daemon.policy = s.daemon.policy)
    (hphase : s'.daemon.phase = .completed → s.daemon.phase = .completed) : s'.RestartsDone := by
  refine ⟨?_, ?_, ?_⟩
  · rw [hcarry]
    exact fun hdone => h.completed (hphase hdone)
  · rw [hcarry]
    intro _ hne
    refine alert_moves hmoves hfinalize ?_
    cases hin : s.pc.inCycle with
    | true => exact hattended.cycle hin
    | false => exact h.between hin hne
  · rw [hpolicy]
    exact h.pending

theorem restartsDone_moves {s s' : System} {a : Act} (h : s.RestartsDone) (hattended : s.Attended)
    (hfits : s.PhaseFits) (happlies : ¬ s.Applies a) (hmoves : Moves s a s') :
    s'.RestartsDone := by
  have hframe := fun hfinalize hcarry hpolicy hphase =>
    h.frame hattended hmoves hfinalize hcarry hpolicy hphase
  cases hmoves with
  | loadAndParse load fs raw hpc =>
    have hidle : s.daemon.phase = .idle := hfits.at_pc hpc
    refine hframe (by simp) ?_ ?_ ?_ <;> simp [loadAndParse, Daemon.step, hidle]
  | loadFails load hpc =>
    have hidle : s.daemon.phase = .idle := hfits.at_pc hpc
    refine hframe (by simp) ?_ ?_ ?_ <;> cases load <;> simp [loadFails, Daemon.step, hidle]
  | @compute env held hpc =>
    have hidle : s.daemon.phase = .idle := hfits.at_pc hpc
    obtain ⟨-, hcarry, hpolicy⟩ := s.daemon.planTaken_frame held env
    have hdaemon := (s.compute_frame env held).1
    refine hframe (by simp) (by rw [hdaemon, hcarry]) (by rw [hdaemon, hpolicy]) ?_
    rw [hdaemon]
    rcases compute_cases hidle env held with ⟨hphase, -, -⟩ | ⟨pl, hphase, -, -⟩ <;> simp [hphase]
  | execute env hpc =>
    obtain ⟨pl, hpl⟩ : ∃ pl, s.daemon.phase = .planned pl := hfits.at_pc hpc
    have hstep : s.daemon.step (.execute env) = s.daemon.executePlan env pl := by
      simp [Daemon.step, hpl]
    refine ⟨?_, by simp [execute, Pc.inCycle], ?_⟩
    · show (s.daemon.step (.execute env)).phase = .completed → _
      rw [hstep, Daemon.executePlan]
      cases (Configd.execute env pl).failed <;> simp
    · show (s.daemon.step (.execute env)).policy.pending = ∅
      rw [hstep]
      exact h.pending
  | apply settings env hpc => exact absurd ⟨hpc, settings, env, rfl⟩ happlies
  | finalize hpc =>
    have hdone : s.daemon.phase = .completed := hfits.at_pc hpc
    have hnone := h.completed hdone
    have hfinish : s.daemon.step .finish =
        { s.daemon with firstRun := false, phase := .idle } := by
      simp [Daemon.step, hdone]
    refine ⟨?_, ?_, ?_⟩
    · simp [finalize, hfinish]
    · simp [finalize, hfinish, hnone]
    · show (s.daemon.step .finish).policy.pending = ∅
      rw [hfinish]
      exact h.pending
  | _ => exact hframe (by simp) rfl rfl id

/-- What the daemon plans from when it holds the sections it took. -/
def heldInput (s : System) (env : PlanEnv) (held : StrMap String) : Input :=
  ({ s.daemon with requested := held } : Daemon).input env

/-- The step is a plan without requested sections after the first completed
iteration: it releases the restarts that are held. -/
def Releases (s : System) (a : Act) : Prop :=
  a = .compute ∧ ∃ env held, s.pc = .computing env held ∧
    (Configd.compute (s.heldInput env held)).isSome ∧
    ({ s.daemon with requested := held } : Daemon).releases = true

/-- The step is not a plan that defers a restart. -/
def DefersNothing (s : System) (a : Act) : Prop :=
  a = .compute → ∀ env held pl, s.pc = .computing env held →
    Configd.compute (s.heldInput env held) = some pl → pl.deferredRestarts = []

theorem holdDeferred_release (deferred : List Restart) (pl : Plan) (systemd : Bool) :
    (Daemon.holdDeferred deferred pl true systemd).1 = [] := by
  simp only [Daemon.holdDeferred, Bool.not_true, Bool.false_or]
  split
  · rename_i hnone
    exact List.isEmpty_iff.mp hnone
  · rfl

theorem deferred_of_releases {s : System} {a : Act} (hreleases : s.Releases a) :
    (s.step a).daemon.deferred = [] := by
  obtain ⟨rfl, env, held, hpc, hsome, hrelease⟩ := hreleases
  have hstep : (s.step .compute).daemon = s.daemon.planTaken held env := by
    simp only [step, hpc]
    exact (s.compute_frame env held).1
  rw [hstep]
  rcases planTaken_cases s.daemon held env with ⟨hnone, -⟩ | ⟨pl, -, hplan⟩
  · simp [heldInput, hnone] at hsome
  · rw [hplan]
    simp only [Daemon.adopt, hrelease]
    exact holdDeferred_release _ _ _

theorem deferred_moves {s s' : System} {a : Act} (hfits : s.PhaseFits)
    (hnone : s.daemon.deferred = []) (hdefers : s.DefersNothing a) (hmoves : Moves s a s') :
    s'.daemon.deferred = [] := by
  cases hmoves with
  | loadAndParse load fs raw hpc =>
    have hidle : s.daemon.phase = .idle := hfits.at_pc hpc
    simp [loadAndParse, Daemon.step, hidle, hnone]
  | loadFails load hpc =>
    have hidle : s.daemon.phase = .idle := hfits.at_pc hpc
    cases load <;> simp [loadFails, Daemon.step, hidle, hnone]
  | @compute env held hpc =>
    rw [(s.compute_frame env held).1]
    rcases planTaken_cases s.daemon held env with ⟨-, hplan⟩ | ⟨pl, hpl, hplan⟩
    · rw [hplan]
      exact hnone
    · rw [hplan]
      simp [Daemon.adopt, hnone, Daemon.holdDeferred, Daemon.hold, hdefers rfl env held pl hpc hpl]
  | execute env hpc =>
    obtain ⟨pl, hpl⟩ : ∃ pl, s.daemon.phase = .planned pl := hfits.at_pc hpc
    simp [execute, Daemon.step, hpl, Daemon.executePlan, hnone]
  | apply settings env hpc =>
    obtain ⟨pl, hpl⟩ : ∃ pl, s.daemon.phase = .executed pl := hfits.at_pc hpc
    simp [apply, Daemon.step, hpl, Daemon.applyRestarts, hnone]
  | finalize hpc =>
    have hdone : s.daemon.phase = .completed := hfits.at_pc hpc
    simp [finalize, Daemon.step, hdone, hnone]
  | _ => exact hnone

/-! ## Idle polls -/

/-- Nothing is left to do but restarts. -/
structure Drained (s : System) : Prop where
  waiting : s.trigger.waiting = []
  inflight : s.trigger.inflight = []
  requested : s.daemon.requested = ∅
  carry : s.daemon.carry.OnlyRestarts

theorem wakeInFlight_of_idle {s : System} (hidle : s.isIdlePoll true = true) (halert : s.Alert) :
    s.WakeInFlight := by
  simp only [isIdlePoll, Bool.true_and, Bool.and_eq_true, Bool.not_eq_true'] at hidle
  rcases halert with hfirst | hreload | hwake
  · simp [hfirst] at hidle
  · simp [hreload] at hidle
  · exact hwake

theorem drained_of_idle {s : System} (hattended : s.Attended) (hclients : s.Inv)
    (hpc : s.pc = .polling) (hidle : s.isIdlePoll true = true) (hwake : ¬ s.WakeInFlight) :
    s.Drained := by
  have hnowork : ¬ s.HasWork := fun hwork =>
    hwake (wakeInFlight_of_idle hidle (hattended.between (by rw [hpc]; rfl) hwork))
  unfold HasWork at hnowork
  push Not at hnowork
  obtain ⟨hwaiting, hrequested, honly⟩ := hnowork
  refine ⟨hwaiting, ?_, hrequested, honly⟩
  by_contra hne
  have hclaimed := hclients.claimed hne
  simp [Claimed, hpc] at hclaimed

theorem since_induction {motive : System → Prop} {start keep : System → Act → Prop}
    {acts : List Act} (hregular : ∀ a ∈ acts, a.Regular)
    (hstart : ∀ s a, s.PhaseFits → start s a → motive (s.step a))
    (hstep : ∀ s a s', s.PhaseFits → s.Attended → motive s → keep s a → Moves s a s' → motive s')
    (hsince : Since start keep {} acts) : motive (run {} acts) := by
  obtain ⟨before, a, after, rfl, hfirst, halong⟩ := hsince
  rw [run_append]
  have hbefore : ∀ x ∈ before ++ [a], x.Regular := fun x hx => hregular x (by
    rcases List.mem_append.mp hx with hmem | hmem <;> simp_all)
  have hbegin : ((run {} before).step a).PhaseFits ∧ ((run {} before).step a).Attended := by
    have heq : (run {} before).step a = run {} (before ++ [a]) := by
      rw [run_append]
      rfl
    rw [heq]
    exact ⟨phaseFits_run _, attended_run hbefore⟩
  have hafter : Along (fun _ a => a.Regular) ((run {} before).step a) after :=
    along_of_forall (fun x hx _ => hregular x (by simp [hx])) _
  have hrun := run_induction_along
    (motive := fun s => (s.PhaseFits ∧ s.Attended) ∧ motive s)
    (s := (run {} before).step a)
    ⟨hbegin, hstart _ a (phaseFits_run before) hfirst⟩
    (fun s a s' h hcond hmoves =>
      ⟨⟨phaseFits_moves h.1.1 hmoves, attended_moves h.1.2 h.1.1 hcond.2 hmoves⟩,
        hstep s a s' h.1.1 h.1.2 h.2 hcond.1 hmoves⟩)
    (along_and halong hafter)
  exact hrun.2

/-! ### A reload with a changed hostname

Two iterations of the loop: the first one of the daemon, and one for a reload
after which a variable has another value and `imapd` is to be restarted. -/

def restartingSection : MtaConfigSection where
  requiredVars := Std.ExtTreeMap.ofList [("zimbraMtaMyHostname", .var)] compare
  restarts := Std.ExtTreeMap.ofList [("imapd", true)] compare

def loadHostname (value : String) : Act :=
  .loadAndParse (.ofServer [("zimbraMtaMyHostname", value)] ["mta", "imapd"]) noFiles
    { sections := Std.ExtTreeMap.ofList [("mta", restartingSection)] compare }

def untilPlan (value : String) : List Act :=
  [.consume, .poll true, .recount, loadHostname value, .claim, .take { files := noFiles }]

def planAndExecute : List Act :=
  [.compute, .execute .allOk, .complete, .begin]

/-- The restart phase, on a host that accepts every restart. -/
def applyAccepted (enabled : Bool) : Act :=
  .apply ⟨enabled, 0⟩ ⟨false, 0, fun _ => .ok⟩

def afterRestarts : List Act :=
  [.endRestarts, .finalize, .sleepEnds false]

def untilReload (enabled : Bool) : List Act :=
  untilPlan "a" ++ planAndExecute ++ applyAccepted enabled :: afterRestarts ++
    .reload :: untilPlan "b"

def hostnameReloaded (enabled : Bool) : List Act :=
  untilReload enabled ++ planAndExecute ++ applyAccepted enabled :: afterRestarts ++ [.consume]

theorem hostnameReloaded_regular (enabled : Bool) :
    ∀ a ∈ hostnameReloaded enabled, a.Regular := by
  have hexecute : ExecEnv.allOk.NeverCancelled :=
    ⟨fun _ => rfl, fun _ => rfl, fun _ => rfl, fun _ => rfl⟩
  simp [hostnameReloaded, untilReload, untilPlan, planAndExecute, applyAccepted, afterRestarts,
    loadHostname, Act.Regular, hexecute]

theorem clients_idle_of_no_rewrite {acts : List Act}
    (hnone : ∀ a ∈ acts, ∀ c sections, a ≠ .check c sections) (c : Nat) :
    ((run {} acts).clients c).stage = .idle := by
  refine run_induction_along (motive := fun s => ∀ c, (s.clients c).stage = .idle) (s := {})
    (fun _ => rfl) ?_ (along_of_forall (fun a ha _ => hnone a ha) {}) c
  intro s a s' hidle hcond hmoves
  cases hmoves with
  | @check c sections h => exact absurd rfl (hcond c sections)
  | @queue c h => simp [hidle c] at h
  | @count c h => simp [hidle c] at h
  | @register c h => simp [hidle c] at h
  | @wake c h => simp [hidle c] at h
  | @forget c h => simp [hidle c] at h
  | @compute env held h =>
    rw [(s.compute_frame env held).2.2.2.2.2]
    exact hidle
  | complete h => exact fun c => (closeAll_stage _ _ c).trans (hidle c)
  | _ => exact hidle

theorem hostnameReloaded_wake (enabled : Bool) :
    ¬ (run {} (hostnameReloaded enabled)).WakeInFlight := by
  have htoken : ∀ enabled, (run {} (hostnameReloaded enabled)).token = false := by decide +kernel
  have hclients : ∀ c, ((run {} (hostnameReloaded enabled)).clients c).stage = .idle :=
    clients_idle_of_no_rewrite (by
      simp [hostnameReloaded, untilReload, untilPlan, planAndExecute, applyAccepted,
        afterRestarts, loadHostname])
  rintro (hset | ⟨c, hc⟩)
  · simp [htoken] at hset
  · simp [Client.IsWaking, hclients c] at hc

/-! ### The result -/

/-- **What an idle poll leaves undone.**  With idle polls skipped, in every run of
the system, an iteration that is skipped while no wake-up is on its way to the
loop leaves nothing undone but restarts.  No restart is carried or debounced
either when the last restart phase was not hindered, and none is deferred when no
plan deferred one since the held ones were last released. -/
theorem nothing_outstanding_at_idle_poll (acts : List Act) (hregular : ∀ a ∈ acts, a.Regular)
    (hpc : (run {} acts).pc = .polling) (hidle : (run {} acts).isIdlePoll true = true)
    (hwake : ¬ (run {} acts).WakeInFlight) :
    (run {} acts).Drained ∧
      (Since Settles (fun s a => ¬ s.Applies a) {} acts →
        (run {} acts).daemon.carry.isEmpty = true ∧ (run {} acts).daemon.policy.pending = ∅) ∧
      (Along DefersNothing {} acts ∨ Since Releases DefersNothing {} acts →
        (run {} acts).daemon.deferred = []) := by
  have hdrained := drained_of_idle (attended_run hregular) (inv_run acts) hpc hidle hwake
  refine ⟨hdrained, ?_, ?_⟩
  · intro hsettled
    have hdone := since_induction (motive := RestartsDone) hregular
      (fun s a hfits => restartsDone_of_settles hfits)
      (fun s a s' hfits hattended h hkeep => restartsDone_moves h hattended hfits hkeep) hsettled
    have hnone : (run {} acts).daemon.carry.restarts = [] := by
      by_contra hne
      exact hwake (wakeInFlight_of_idle hidle (hdone.between (by rw [hpc]; rfl) hne))
    exact ⟨hdrained.carry.isEmpty hnone, hdone.pending⟩
  · rintro (hnever | hsince)
    · have hrun := run_induction_along
        (motive := fun s => s.PhaseFits ∧ s.daemon.deferred = []) (s := {}) ⟨rfl, rfl⟩
        (fun s a s' h hkeep hmoves =>
          ⟨phaseFits_moves h.1 hmoves, deferred_moves h.1 h.2 hkeep hmoves⟩) hnever
      exact hrun.2
    · exact since_induction (motive := fun s => s.daemon.deferred = []) hregular
        (fun s a _ => deferred_of_releases)
        (fun s a s' hfits _ h hkeep => deferred_moves hfits h hkeep) hsince

/-- The loop is at `isIdlePoll`. -/
def isPolling (s : System) : Bool :=
  match s.pc with
  | .polling => true
  | _ => false

/-- The loop is about to apply restarts. -/
def isApplying (s : System) : Bool :=
  match s.pc with
  | .applying => true
  | _ => false

/-- The loop computes a plan that releases the held restarts. -/
def isReleasing (s : System) : Bool :=
  match s.pc with
  | .computing env held =>
    (Configd.compute (s.heldInput env held)).isSome &&
      ({ s.daemon with requested := held } : Daemon).releases
  | _ => false

/-- After the reload, with config restarts enabled, nothing is outstanding. -/
theorem nothing_outstanding_after_reload :
    (run {} (hostnameReloaded true)).isIdlePoll true = true ∧
      (run {} (hostnameReloaded true)).Drained ∧
      (run {} (hostnameReloaded true)).daemon.carry.isEmpty = true ∧
      (run {} (hostnameReloaded true)).daemon.policy.pending = ∅ ∧
      (run {} (hostnameReloaded true)).daemon.deferred = [] := by
  have hidle : (run {} (hostnameReloaded true)).isIdlePoll true = true := by decide +kernel
  have hpc : (run {} (hostnameReloaded true)).pc = .polling := by
    have hmatches : (run {} (hostnameReloaded true)).isPolling = true := by decide +kernel
    cases hpc : (run {} (hostnameReloaded true)).pc <;> simp_all [isPolling]
  obtain ⟨hdrained, hrestarts, hdeferred⟩ := nothing_outstanding_at_idle_poll
    (hostnameReloaded true) (hostnameReloaded_regular true) hpc hidle (hostnameReloaded_wake true)
  have hsettled : Since Settles (fun s a => ¬ s.Applies a) {} (hostnameReloaded true) := by
    refine ⟨untilReload true ++ planAndExecute, applyAccepted true, afterRestarts ++ [.consume],
      by simp [hostnameReloaded], ⟨?_, _, _, rfl, rfl, le_refl 0, fun _ => rfl⟩, ?_⟩
    · have hmatches : (run {} (untilReload true ++ planAndExecute)).isApplying = true := by
        decide +kernel
      cases hpc : (run {} (untilReload true ++ planAndExecute)).pc <;> simp_all [isApplying]
    · exact along_of_forall (by simp [afterRestarts, Applies]) _
  have hreleased : Since Releases DefersNothing {} (hostnameReloaded true) := by
    refine ⟨untilReload true, .compute, [.execute .allOk, .complete, .begin] ++
      applyAccepted true :: afterRestarts ++ [.consume],
      by simp [hostnameReloaded, planAndExecute], ⟨rfl, ?_⟩, ?_⟩
    · have hcheck : (run {} (untilReload true)).isReleasing = true := by decide +kernel
      rw [isReleasing] at hcheck
      cases hpc : (run {} (untilReload true)).pc with
      | computing env held =>
        rw [hpc] at hcheck
        exact ⟨env, held, rfl, (Bool.and_eq_true_iff.mp hcheck).1,
          (Bool.and_eq_true_iff.mp hcheck).2⟩
      | _ => simp [hpc] at hcheck
    · exact along_of_forall (by simp [afterRestarts, applyAccepted, DefersNothing]) _
  exact ⟨hidle, hdrained, (hrestarts hsettled).1, (hrestarts hsettled).2,
    hdeferred (Or.inr hreleased)⟩

/-- With config restarts disabled the restart of the reload is carried, and the
loop skips the next iteration. -/
theorem restart_carried_at_idle_poll :
    (∀ a ∈ hostnameReloaded false, a.Regular) ∧
      ¬ (run {} (hostnameReloaded false)).WakeInFlight ∧
      ((run {} (hostnameReloaded false)).pc matches .polling) = true ∧
      (run {} (hostnameReloaded false)).isIdlePoll true = true ∧
      (run {} (hostnameReloaded false)).daemon.carry.restarts.map Restart.service = ["imapd"] := by
  refine ⟨hostnameReloaded_regular false, hostnameReloaded_wake false, ?_, ?_, ?_⟩ <;>
    decide +kernel

end System
end Configd
