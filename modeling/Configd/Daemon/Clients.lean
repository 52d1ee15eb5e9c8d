import Configd.Daemon.MainLoop

/-!
# The service of the clients

What holds for every interleaving of clients with the main loop (`rewrite_clients_served`):

* a registered client is waiting, in flight, released or forgotten, and only one of these;
* its channel is closed at most once, after a call of `Plan` took all its sections, later than
  it queued them, succeeded, and its plan was executed;
* a section it asked for is queued, held by a call of `Plan`, or was taken by one that succeeded
  later;
* a client that is answered at once asked for sections whose restarts are being applied.

`Listed` is about the lists of the trigger, `Covered` about where the sections of a client are;
between `take` and `complete` those of the clients in flight may no longer be queued, which is
`Awaited`.
-/

namespace Configd

open Lib

/-! ## The lists of the trigger -/

/-- The client is on one of the lists: registered, and neither released nor
forgotten. -/
def Client.IsListed (c : Client) : Prop :=
  c.IsRegistered ∧ c.closed = 0 ∧ c.cancelled = false

/-- What holds of a client at any time: its channel is closed at most once, and
only a client whose call has returned gives up. -/
structure Client.Sane (c : Client) : Prop where
  once : c.closed ≤ 1
  released : c.closed ≠ 0 → c.IsRegistered
  forgotten : c.cancelled = true → c.stage = .returned

theorem Client.Sane.of_not_registered {c : Client} (hsane : c.Sane) (hnot : ¬ c.IsRegistered) :
    c.closed = 0 ∧ c.cancelled = false := by
  constructor
  · by_contra hne
    exact hnot (hsane.released hne)
  · by_contra hne
    exact hnot (by simp [IsRegistered, hsane.forgotten (by simpa using hne)])

theorem Client.sane_of_open {c : Client} (hclosed : c.closed = 0)
    (hcancelled : c.cancelled = false) :
    c.Sane :=
  ⟨by simp [hclosed], by simp [hclosed], by simp [hcancelled]⟩

/-- The lists hold each client that waits, once. -/
structure Listed (clients : Nat → Client) (waiting inflight : List Nat) : Prop where
  nodup : (waiting ++ inflight).Nodup
  mem_iff : ∀ c, c ∈ waiting ++ inflight ↔ (clients c).IsListed
  sane : ∀ c, (clients c).Sane

namespace Listed

variable {clients : Nat → Client} {waiting inflight : List Nat}

theorem sane_update (h : Listed clients waiting inflight) {c : Nat} {client : Client}
    (hsane : client.Sane) (x : Nat) : (Function.update clients c client x).Sane :=
  (Function.forall_update_iff clients fun _ client => client.Sane).mpr
    ⟨hsane, fun x _ => h.sane x⟩ x

theorem update (h : Listed clients waiting inflight) {c : Nat} {client : Client}
    (hlisted : client.IsListed ↔ (clients c).IsListed) (hsane : client.Sane) :
    Listed (Function.update clients c client) waiting inflight where
  nodup := h.nodup
  mem_iff := by
    intro x
    rw [h.mem_iff]
    by_cases heq : x = c
    · rw [heq, Function.update_self, hlisted]
    · rw [Function.update_of_ne heq]
  sane := h.sane_update hsane

theorem register (h : Listed clients waiting inflight) {c : Nat}
    (hstage : (clients c).stage = .counted) :
    Listed (Function.update clients c { clients c with stage := .registered })
      (waiting ++ [c]) inflight := by
  have hnot : ¬ (clients c).IsRegistered := by simp [Client.IsRegistered, hstage]
  obtain ⟨hclosed, hcancelled⟩ := (h.sane c).of_not_registered hnot
  have hoff : c ∉ waiting ++ inflight := fun hmem => hnot ((h.mem_iff c).mp hmem).1
  have hmoved : (waiting ++ [c] ++ inflight).Perm (c :: (waiting ++ inflight)) := by
    rw [List.append_assoc]
    exact List.perm_middle
  refine ⟨?_, ?_, h.sane_update (Client.sane_of_open hclosed hcancelled)⟩
  · rw [hmoved.nodup_iff]
    exact List.nodup_cons.mpr ⟨hoff, h.nodup⟩
  · intro x
    rw [hmoved.mem_iff, List.mem_cons, h.mem_iff]
    by_cases heq : x = c
    · simp [heq, Client.IsListed, Client.IsRegistered, hclosed, hcancelled]
    · simp [heq]

theorem forget (h : Listed clients waiting inflight) {c : Nat}
    (hstage : (clients c).stage = .returned) :
    Listed (Function.update clients c { clients c with cancelled := true })
      (waiting.filter (· ≠ c)) (inflight.filter (· ≠ c)) := by
  refine ⟨?_, ?_, h.sane_update ⟨(h.sane c).once, (h.sane c).released, fun _ => hstage⟩⟩
  · rw [← List.filter_append]
    exact h.nodup.filter _
  · intro x
    rw [← List.filter_append, List.mem_filter, h.mem_iff]
    by_cases heq : x = c
    · simp [heq, Client.IsListed]
    · simp [heq]

theorem perm (h : Listed clients waiting inflight) {waiting' inflight' : List Nat}
    (hperm : (waiting' ++ inflight').Perm (waiting ++ inflight)) :
    Listed clients waiting' inflight' where
  nodup := hperm.nodup_iff.mpr h.nodup
  mem_iff := fun c => by rw [hperm.mem_iff, h.mem_iff]
  sane := h.sane

theorem complete (h : Listed clients waiting inflight) :
    Listed (closeAll clients inflight) waiting [] := by
  obtain ⟨hwaiting, hinflight, hdisjoint⟩ := List.nodup_append.mp h.nodup
  have happly := closeAll_apply clients hinflight
  have hlisted : ∀ c ∈ inflight, (clients c).IsListed :=
    fun c hc => (h.mem_iff c).mp (List.mem_append_right _ hc)
  refine ⟨by simpa using hwaiting, ?_, ?_⟩
  · intro c
    rw [List.append_nil, happly]
    by_cases hc : c ∈ inflight
    · have hnot : c ∉ waiting := fun hmem => hdisjoint c hmem c hc rfl
      simp [hc, hnot, Client.IsListed]
    · simp [hc, ← h.mem_iff]
  · intro c
    rw [happly]
    split
    · rename_i hc
      obtain ⟨hregistered, hclosed, -⟩ := hlisted c hc
      exact ⟨by simp [hclosed], fun _ => hregistered, (h.sane c).forgotten⟩
    · exact h.sane c

end Listed

/-! ## The sections of a client -/

/-- The call of `Plan` with this number took all sections of the client, after it
had queued them. -/
def PlanLog.Took (log : PlanLog) (client : Client) (n : Nat) : Prop :=
  client.queuedAt ≤ n ∧ ∃ requested, (n, requested) ∈ log.taken ∧
    ∀ name ∈ client.sections, name ∈ requested

def PlanLog.Succeeded (log : PlanLog) (n : Nat) : Prop :=
  ∃ sections, (n, sections) ∈ log.planned

/-- A call of `Plan` that took all sections of the client succeeded. -/
def PlanLog.Served (log : PlanLog) (client : Client) : Prop :=
  ∃ n, log.Took client n ∧ log.Succeeded n

theorem PlanLog.Took.mono {log log' : PlanLog} {client : Client} {n : Nat}
    (h : log.Took client n) (htaken : ∀ entry ∈ log.taken, entry ∈ log'.taken) :
    log'.Took client n := by
  obtain ⟨hqueuedAt, requested, hmem, hsections⟩ := h
  exact ⟨hqueuedAt, requested, htaken _ hmem, hsections⟩

theorem PlanLog.Served.mono {log log' : PlanLog} {client : Client} (h : log.Served client)
    (htaken : ∀ entry ∈ log.taken, entry ∈ log'.taken)
    (hplanned : ∀ entry ∈ log.planned, entry ∈ log'.planned) : log'.Served client := by
  obtain ⟨n, htook, sections, hmem⟩ := h
  exact ⟨n, htook.mono htaken, sections, hplanned _ hmem⟩

/-- The sections that a call of `Plan` holds. -/
def Pc.held : Pc → Option (StrMap String)
  | computing _ held => some held
  | _ => none

namespace System

/-- A call of `Plan` in progress took all sections of the client. -/
def Holds (s : System) (client : Client) : Prop :=
  ∃ held ∈ s.pc.held, (∀ name ∈ client.sections, name ∈ held) ∧ s.log.Took client s.log.current

/-- Where the sections of a client are. -/
def Covered (s : System) (client : Client) : Prop :=
  (∀ name ∈ client.sections, name ∈ s.daemon.requested) ∨ s.Holds client ∨ s.log.Served client

/-- What a client in flight waits for: the plan that has its sections, once the
cycle has taken the requested ones. -/
def Awaited (s : System) (client : Client) : Prop :=
  match s.pc with
  | .computing _ _ => s.Holds client ∨ s.log.Served client
  | .executing => s.log.Served client
  | .completing => s.log.Served client
  | _ => True

/-- The loop is between `claimWaiters` and the end of the rewrite phase. -/
def Claimed (s : System) : Prop :=
  match s.pc with
  | .taking => True
  | .computing _ _ => True
  | .requeuing => True
  | .executing => True
  | .completing => True
  | _ => False

/-- What the log says about the call of `Plan` the loop is at. -/
structure LogFits (s : System) : Prop where
  queuedAt : ∀ c, (s.clients c).queuedAt ≤ s.log.taken.length
  held : ∀ held ∈ s.pc.held, (s.log.current, held.keys) ∈ s.log.taken
  plan : ∀ pl ∈ s.daemon.phase.plan,
    (s.log.current, pl.sections.map Section.name) ∈ s.log.planned
  executed : ∀ n, s.log.Succeeded n →
    n ∈ s.log.executed ∨ s.pc = .executing ∧ n = s.log.current

/-- The sections of the restarting cycle are those of its executed plan. -/
def Restarting (s : System) : Prop :=
  s.trigger.restarting ≠ [] → (s.pc = .applying ∨ s.pc = .ending) ∧
    ∃ sections, (s.log.current, sections) ∈ s.log.planned ∧ s.log.current ∈ s.log.executed ∧
      ∀ name ∈ s.trigger.restarting, name ∈ sections

/-- **The invariant of the clients.** -/
structure Inv (s : System) : Prop where
  phase : s.PhaseFits
  log : s.LogFits
  listed : Listed s.clients s.trigger.waiting s.trigger.inflight
  claimed : s.trigger.inflight ≠ [] → s.Claimed
  covered : ∀ c, (s.clients c).HasQueued → s.Covered (s.clients c)
  awaited : ∀ c ∈ s.trigger.inflight, s.Awaited (s.clients c)
  finished : ∀ c, (s.clients c).closed ≠ 0 →
    ∃ n, s.log.Took (s.clients c) n ∧ s.log.Succeeded n ∧ n ∈ s.log.executed
  restarting : s.Restarting

/-! ## The steps of a client -/

theorem Inv.client {s s' : System} (h : s.Inv) {c : Nat} {client : Client}
    (hphase : s'.PhaseFits) (hclients : s'.clients = Function.update s.clients c client)
    (hpc : s'.pc = s.pc) (hlog : s'.log = s.log) (hplan : s'.daemon.phase = s.daemon.phase)
    (hrestarting : s'.trigger.restarting = s.trigger.restarting)
    (hrequested : ∀ name ∈ s.daemon.requested, name ∈ s'.daemon.requested)
    (hlisted : Listed s'.clients s'.trigger.waiting s'.trigger.inflight)
    (hinflight : ∀ x ∈ s'.trigger.inflight, x ∈ s.trigger.inflight)
    (hqueuedAt : client.queuedAt ≤ s.log.taken.length)
    (hcovered : client.HasQueued → s'.Covered client)
    (hawaited : c ∈ s'.trigger.inflight → s.Awaited client)
    (hfinished : client.closed ≠ 0 →
      ∃ n, s.log.Took client n ∧ s.log.Succeeded n ∧ n ∈ s.log.executed) : s'.Inv := by
  refine ⟨hphase, ⟨?_, ?_, ?_, ?_⟩, hlisted, ?_, ?_, ?_, ?_, ?_⟩
  · rw [hclients, hlog]
    exact (Function.forall_update_iff s.clients fun _ client =>
      client.queuedAt ≤ s.log.taken.length).mpr ⟨hqueuedAt, fun x _ => h.log.queuedAt x⟩
  · rw [hpc, hlog]
    exact h.log.held
  · rw [hplan, hlog]
    exact h.log.plan
  · rw [hpc, hlog]
    exact h.log.executed
  · intro hne
    obtain ⟨x, hx⟩ := List.exists_mem_of_ne_nil _ hne
    unfold Claimed
    rw [hpc]
    exact h.claimed (List.ne_nil_of_mem (hinflight x hx))
  · rw [hclients]
    refine (Function.forall_update_iff s.clients fun _ client =>
      client.HasQueued → s'.Covered client).mpr ⟨hcovered, ?_⟩
    intro x _ hqueued
    unfold Covered Holds
    rw [hpc, hlog]
    rcases h.covered x hqueued with hin | hrest
    · exact Or.inl fun name hname => hrequested name (hin name hname)
    · exact Or.inr hrest
  · intro x hx
    unfold Awaited Holds
    rw [hpc, hlog, hclients]
    by_cases heq : x = c
    · rw [heq, Function.update_self]
      rw [heq] at hx
      exact hawaited hx
    · rw [Function.update_of_ne heq]
      exact h.awaited x (hinflight x hx)
  · rw [hclients, hlog]
    exact (Function.forall_update_iff s.clients fun _ client => client.closed ≠ 0 →
      ∃ n, s.log.Took client n ∧ s.log.Succeeded n ∧ n ∈ s.log.executed).mpr
      ⟨hfinished, fun x _ => h.finished x⟩
  · unfold Restarting
    rw [hrestarting, hpc, hlog]
    exact h.restarting

theorem Inv.client_goes_on {s s' : System} (h : s.Inv) {c : Nat} {stage : Stage} {cancelled : Bool}
    (hphase : s'.PhaseFits)
    (hclients : s'.clients = Function.update s.clients c
      { s.clients c with stage := stage, cancelled := cancelled })
    (hpc : s'.pc = s.pc) (hlog : s'.log = s.log) (hdaemon : s'.daemon = s.daemon)
    (hrestarting : s'.trigger.restarting = s.trigger.restarting)
    (hlisted : Listed s'.clients s'.trigger.waiting s'.trigger.inflight)
    (hinflight : ∀ x ∈ s'.trigger.inflight, x ∈ s.trigger.inflight)
    (hqueued : (s.clients c).HasQueued) : s'.Inv := by
  refine h.client hphase hclients hpc hlog (by rw [hdaemon]) hrestarting
    (fun name hname => by rwa [hdaemon]) hlisted hinflight (h.log.queuedAt c) ?_ ?_ (h.finished c)
  · intro _
    unfold Covered Holds
    rw [hdaemon, hpc, hlog]
    exact h.covered c hqueued
  · intro hmem
    exact h.awaited c (hinflight c hmem)

theorem inv_check {s : System} (h : s.Inv) {c : Nat} (hstage : (s.clients c).stage = .idle)
    (sections : List String) (hphase : (s.check c sections).PhaseFits) :
    (s.check c sections).Inv := by
  have hnot : ¬ (s.clients c).IsListed := by
    rintro ⟨hregistered, -⟩
    simp [Client.IsRegistered, hstage] at hregistered
  have hoff : c ∉ s.trigger.inflight := fun hmem =>
    hnot ((h.listed.mem_iff c).mp (List.mem_append_right _ hmem))
  -- The new client has neither queued nor registered, whatever the check says.
  have hfresh : ∀ stage : Stage, stage = .answered ∨ stage = .checked →
      ¬ ({ stage := stage, sections := sections } : Client).HasQueued ∧
        ¬ ({ stage := stage, sections := sections } : Client).IsListed := by
    rintro stage (rfl | rfl)
    · simp [Client.HasQueued, Client.IsListed, Client.IsRegistered]
    · simp [Client.HasQueued, Client.IsListed, Client.IsRegistered]
  obtain ⟨hunqueued, hunlisted⟩ := hfresh
    (if s.trigger.rewrittenByRestartingCycle sections then .answered else .checked)
    (by cases s.trigger.rewrittenByRestartingCycle sections <;> simp)
  exact h.client hphase rfl rfl rfl rfl rfl (fun _ hname => hname)
    (h.listed.update (by simp [hunlisted, hnot]) (Client.sane_of_open rfl rfl)) (fun _ hx => hx)
    (Nat.zero_le _)
    (fun hqueued => absurd hqueued hunqueued) (fun hmem => absurd hmem hoff) (by simp)

theorem inv_queue {s : System} (h : s.Inv) {c : Nat} (hstage : (s.clients c).stage = .checked)
    (hphase : (s.queue c).PhaseFits) : (s.queue c).Inv := by
  have hnot : ¬ (s.clients c).IsRegistered := by simp [Client.IsRegistered, hstage]
  obtain ⟨hclosed, hcancelled⟩ := (h.listed.sane c).of_not_registered hnot
  have hoff : c ∉ s.trigger.inflight := fun hmem =>
    hnot ((h.listed.mem_iff c).mp (List.mem_append_right _ hmem)).1
  refine h.client hphase rfl rfl rfl rfl rfl ?_ (h.listed.update ?_ ?_) (fun _ hx => hx) le_rfl ?_
    (fun hmem => absurd hmem hoff) (by simp [hclosed])
  · intro name hname
    exact (mem_addRequestedConfigs _ _ _).mpr (Or.inr hname)
  · simp [Client.IsListed, Client.IsRegistered, hstage]
  · exact Client.sane_of_open hclosed hcancelled
  · intro _
    exact Or.inl fun name hname => (mem_addRequestedConfigs _ _ _).mpr (Or.inl hname)

/-! ## The steps of the main loop -/

theorem Inv.executed {s : System} (h : s.Inv) (hpc : s.pc ≠ .executing) :
    ∀ n, s.log.Succeeded n → n ∈ s.log.executed := by
  intro n hn
  rcases h.log.executed n hn with hexecuted | ⟨hexecuting, -⟩
  · exact hexecuted
  · exact absurd hexecuting hpc

theorem Inv.covered_of_not_held {s : System} (h : s.Inv) (hheld : s.pc.held = none) {c : Nat}
    (hqueued : (s.clients c).HasQueued) :
    (∀ name ∈ (s.clients c).sections, name ∈ s.daemon.requested) ∨
      s.log.Served (s.clients c) := by
  rcases h.covered c hqueued with hin | ⟨held, hmem, -⟩ | hserved
  · exact Or.inl hin
  · rw [hheld] at hmem
    cases hmem
  · exact Or.inr hserved

theorem Inv.unclaimed {s s' : System} (h : s.Inv) (hphase : s'.PhaseFits)
    (hclients : s'.clients = s.clients) (hlog : s'.log = s.log)
    (hrequested : s'.daemon.requested = s.daemon.requested)
    (hwaiting : s'.trigger.waiting = s.trigger.waiting)
    (hinflight : s'.trigger.inflight = s.trigger.inflight)
    (hheld : s.pc.held = none) (hheld' : s'.pc.held = none) (hpc : s.pc ≠ .executing)
    (hplan : ∀ pl ∈ s'.daemon.phase.plan, pl ∈ s.daemon.phase.plan) (hunclaimed : ¬ s.Claimed)
    (hrestarting : s'.Restarting) : s'.Inv := by
  have hnil : s.trigger.inflight = [] := by
    by_contra hne
    exact hunclaimed (h.claimed hne)
  refine ⟨hphase, ⟨?_, ?_, ?_, ?_⟩, ?_, ?_, ?_, ?_, ?_, hrestarting⟩
  · rw [hclients, hlog]
    exact h.log.queuedAt
  · simp [hheld']
  · rw [hlog]
    exact fun pl hpl => h.log.plan pl (hplan pl hpl)
  · rw [hlog]
    exact fun n hn => Or.inl (h.executed hpc n hn)
  · rw [hclients, hwaiting, hinflight]
    exact h.listed
  · rw [hinflight, hnil]
    exact fun hne => absurd rfl hne
  · intro c hqueued
    rw [hclients] at hqueued ⊢
    rcases h.covered_of_not_held hheld hqueued with hin | hserved
    · exact Or.inl (by rwa [hrequested])
    · exact Or.inr (Or.inr (by rwa [hlog]))
  · intro c hc
    rw [hinflight, hnil] at hc
    cases hc
  · rw [hclients, hlog]
    exact h.finished

theorem Inv.no_restarting {s : System} (h : s.Inv)
    (hpc : ¬(s.pc = .applying ∨ s.pc = .ending)) : s.trigger.restarting = [] := by
  by_contra hne
  exact hpc (h.restarting hne).1

theorem inv_claim {s : System} (h : s.Inv) (hpc : s.pc = .claiming)
    (hphase : s.claim.PhaseFits) : s.claim.Inv := by
  have hrestarting := h.no_restarting (by simp [hpc])
  refine ⟨hphase, ⟨h.log.queuedAt, ?_, h.log.plan, ?_⟩, ?_, fun _ => trivial, ?_,
    fun _ _ => trivial, h.finished, fun hne => absurd hrestarting hne⟩
  · simp [claim, Pc.held]
  · exact fun n hn => Or.inl (h.executed (by simp [hpc]) n hn)
  · exact h.listed.perm (by simpa [claim, Trigger.claimWaiters] using List.perm_append_comm)
  · intro c hqueued
    rcases h.covered_of_not_held (by simp [hpc, Pc.held]) hqueued with hin | hserved
    · exact Or.inl hin
    · exact Or.inr (Or.inr hserved)

theorem inv_take {s : System} (h : s.Inv) (hpc : s.pc = .taking) (env : PlanEnv)
    (hphase : (s.take env).PhaseFits) : (s.take env).Inv := by
  have hidle : s.daemon.phase = .idle := h.phase.at_pc hpc
  have hrestarting := h.no_restarting (by simp [hpc])
  have htaken : ∀ entry ∈ s.log.taken, entry ∈ (s.take env).log.taken :=
    fun _ hmem => List.mem_cons_of_mem _ hmem
  have hcurrent : (s.take env).log.current = s.log.taken.length := rfl
  -- What was queued is what the call holds now.
  have hcovered : ∀ c, (s.clients c).HasQueued →
      (s.take env).Holds (s.clients c) ∨ (s.take env).log.Served (s.clients c) := by
    intro c hqueued
    rcases h.covered_of_not_held (by simp [hpc, Pc.held]) hqueued with hin | hserved
    · refine Or.inl ⟨s.daemon.requested, rfl, hin, ?_, s.daemon.requested.keys, ?_, ?_⟩
      · rw [hcurrent]
        exact h.log.queuedAt c
      · exact List.mem_cons_self
      · exact fun name hname => Std.ExtTreeMap.mem_keys.mpr (hin name hname)
    · exact Or.inr (hserved.mono htaken fun _ hmem => hmem)
  refine ⟨hphase, ⟨?_, ?_, ?_, ?_⟩, h.listed, fun _ => trivial, ?_, ?_, ?_,
    fun hne => absurd hrestarting hne⟩
  · intro c
    exact le_trans (h.log.queuedAt c) (Nat.le_succ _)
  · intro held hheld
    cases hheld
    exact List.mem_cons_self
  · intro pl hpl
    have hnone : (s.take env).daemon.phase.plan = none := by
      show s.daemon.phase.plan = none
      rw [hidle]
      rfl
    rw [hnone] at hpl
    cases hpl
  · exact fun n hn => Or.inl (h.executed (by simp [hpc]) n hn)
  · exact fun c hqueued => Or.inr (hcovered c hqueued)
  · intro c hc
    have hlisted := (h.listed.mem_iff c).mp (List.mem_append_right _ hc)
    exact hcovered c (by
      have hregistered := hlisted.1
      simp only [Client.IsRegistered, Client.HasQueued, List.mem_cons] at hregistered ⊢
      tauto)
  · intro c hclosed
    obtain ⟨n, htook, hrest⟩ := h.finished c hclosed
    exact ⟨n, htook.mono htaken, hrest⟩

theorem inv_compute {s : System} (h : s.Inv) {env : PlanEnv} {held : StrMap String}
    (hpc : s.pc = .computing env held) (hphase : (s.compute env held).PhaseFits) :
    (s.compute env held).Inv := by
  have hidle : s.daemon.phase = .idle := h.phase.at_pc hpc
  have hrestarting := h.no_restarting (by simp [hpc])
  have hexecuted := h.executed (by simp [hpc])
  rcases compute_cases hidle env held with ⟨hidle', hrequested, heq⟩ | ⟨pl, hpl, hrequested, heq⟩
  · -- The plan was rejected: what it held is queued again.
    rw [heq] at hphase ⊢
    refine ⟨hphase, ⟨h.log.queuedAt, by simp [Pc.held], ?_, fun n hn => Or.inl (hexecuted n hn)⟩,
      h.listed, fun _ => trivial, ?_, fun _ _ => trivial, h.finished,
      fun hne => absurd hrestarting hne⟩
    · simp [hidle', Phase.plan]
    · intro c hqueued
      rcases h.covered c hqueued with hin | ⟨held', hmem, hin, -⟩ | hserved
      · refine Or.inl fun name hname => ?_
        show name ∈ (s.daemon.planTaken held env).requested
        rw [hrequested, mem_addRequestedConfigs]
        exact Or.inr (hin name hname)
      · refine Or.inl fun name hname => ?_
        rw [hpc] at hmem
        cases hmem
        show name ∈ (s.daemon.planTaken held env).requested
        rw [hrequested, mem_addRequestedConfigs]
        exact Or.inl (Std.ExtTreeMap.mem_keys.mpr (hin name hname))
      · exact Or.inr (Or.inr hserved)
  · -- The plan succeeded: what it held is served.
    rw [heq] at hphase ⊢
    have hserved : ∀ client : Client, s.Holds client ∨ s.log.Served client →
        ({ s.log with planned :=
          (s.log.current, pl.sections.map Section.name) :: s.log.planned } : PlanLog).Served
            client := by
      rintro client (⟨-, -, -, htook⟩ | hserved)
      · exact ⟨s.log.current, htook.mono fun _ hmem => hmem, _, List.mem_cons_self⟩
      · exact hserved.mono (fun _ hmem => hmem) fun _ hmem => List.mem_cons_of_mem _ hmem
    refine ⟨hphase, ⟨h.log.queuedAt, by simp [Pc.held], ?_, ?_⟩, h.listed, fun _ => trivial, ?_, ?_,
      ?_, fun hne => absurd hrestarting hne⟩
    · intro pl' hpl'
      simp only [hpl, Phase.plan, Option.mem_some_iff] at hpl'
      rw [← hpl']
      exact List.mem_cons_self
    · rintro n ⟨sections, hmem⟩
      rcases List.mem_cons.mp hmem with hnew | hold
      · exact Or.inr ⟨rfl, congrArg Prod.fst hnew⟩
      · exact Or.inl (hexecuted n ⟨sections, hold⟩)
    · intro c hqueued
      rcases h.covered c hqueued with hin | hrest
      · refine Or.inl fun name hname => ?_
        show name ∈ (s.daemon.planTaken held env).requested
        rw [hrequested]
        exact hin name hname
      · exact Or.inr (Or.inr (hserved _ hrest))
    · intro c hc
      have hawaited := h.awaited c hc
      rw [Awaited, hpc] at hawaited
      exact hserved _ hawaited
    · intro c hclosed
      obtain ⟨n, htook, ⟨sections, hmem⟩, hdone⟩ := h.finished c hclosed
      exact ⟨n, htook.mono fun _ hmem => hmem, ⟨sections, List.mem_cons_of_mem _ hmem⟩, hdone⟩

theorem inv_requeue {s : System} (h : s.Inv) (hpc : s.pc = .requeuing)
    (hphase : s.requeue.PhaseFits) : s.requeue.Inv := by
  have hrestarting := h.no_restarting (by simp [hpc])
  refine ⟨hphase, ⟨h.log.queuedAt, ?_, h.log.plan, ?_⟩, ?_, fun hne => absurd rfl hne, ?_, ?_,
    h.finished, fun hne => absurd hrestarting hne⟩
  · simp [requeue, Pc.held]
  · exact fun n hn => Or.inl (h.executed (by simp [hpc]) n hn)
  · exact h.listed.perm (by simpa [requeue, Trigger.requeueWaiters] using List.perm_append_comm)
  · intro c hqueued
    rcases h.covered_of_not_held (by simp [hpc, Pc.held]) hqueued with hin | hserved
    · exact Or.inl hin
    · exact Or.inr (Or.inr hserved)
  · intro c hc
    cases hc

theorem inv_execute {s : System} (h : s.Inv) (hpc : s.pc = .executing) (env : ExecEnv)
    (hphase : (s.execute env).PhaseFits) : (s.execute env).Inv := by
  have hrestarting := h.no_restarting (by simp [hpc])
  obtain ⟨pl, hpl⟩ : ∃ pl, s.daemon.phase = .planned pl := h.phase.at_pc hpc
  have hdaemon : (s.execute env).daemon = s.daemon.executePlan env pl := by
    simp [execute, Daemon.step, hpl]
  refine ⟨hphase, ⟨h.log.queuedAt, ?_, ?_, ?_⟩, h.listed, fun _ => trivial, ?_, ?_, ?_,
    fun hne => absurd hrestarting hne⟩
  · simp [execute, Pc.held]
  · intro pl' hpl'
    apply h.log.plan pl'
    rw [hdaemon, Daemon.executePlan] at hpl'
    cases hfailed : (Configd.execute env pl).failed with
    | true => simp [hfailed, Phase.plan] at hpl'
    | false => simpa [hfailed, Phase.plan, hpl] using hpl'
  · intro n hn
    rcases h.log.executed n hn with hexecuted | ⟨-, heq⟩
    · exact Or.inl (List.mem_cons_of_mem _ hexecuted)
    · exact Or.inl (List.mem_cons.mpr (Or.inl heq))
  · intro c hqueued
    rcases h.covered_of_not_held (by simp [hpc, Pc.held]) hqueued with hin | hserved
    · refine Or.inl fun name hname => ?_
      rw [hdaemon]
      exact hin name hname
    · exact Or.inr (Or.inr hserved)
  · intro c hc
    have hawaited := h.awaited c hc
    rw [Awaited, hpc] at hawaited
    exact hawaited
  · intro c hclosed
    obtain ⟨n, htook, hsucceeded, hdone⟩ := h.finished c hclosed
    exact ⟨n, htook, hsucceeded, List.mem_cons_of_mem _ hdone⟩

theorem inv_complete {s : System} (h : s.Inv) (hpc : s.pc = .completing)
    (hphase : s.complete.PhaseFits) : s.complete.Inv := by
  have hrestarting := h.no_restarting (by simp [hpc])
  have happly := closeAll_apply s.clients (List.nodup_append.mp h.listed.nodup).2.1
  have hheld : s.complete.pc.held = none := by
    unfold complete
    cases s.daemon.phase.plan.isSome <;> rfl
  have hexecuted := h.executed (by simp [hpc])
  refine ⟨hphase, ⟨?_, by simp [hheld], h.log.plan, fun n hn => Or.inl (hexecuted n hn)⟩,
    h.listed.complete, fun hne => absurd rfl hne, ?_, ?_, ?_, fun hne => absurd hrestarting hne⟩
  · intro c
    show (closeAll s.clients s.trigger.inflight c).queuedAt ≤ _
    rw [happly]
    split <;> exact h.log.queuedAt c
  · intro c hqueued
    -- The request of a client does not change when its channel is closed.
    have hsame := h.covered_of_not_held (by simp [hpc, Pc.held]) (c := c) (by
      change (closeAll s.clients s.trigger.inflight c).HasQueued at hqueued
      rw [happly] at hqueued
      split at hqueued <;> exact hqueued)
    show s.complete.Covered (closeAll s.clients s.trigger.inflight c)
    rw [happly]
    rcases hsame with hin | hserved
    · split <;> exact Or.inl hin
    · split <;> exact Or.inr (Or.inr hserved)
  · intro c hc
    cases hc
  · intro c
    show (closeAll s.clients s.trigger.inflight c).closed ≠ 0 →
      ∃ n, s.log.Took (closeAll s.clients s.trigger.inflight c) n ∧ s.log.Succeeded n ∧
        n ∈ s.log.executed
    rw [happly]
    split
    · rename_i hc
      intro _
      have hawaited := h.awaited c hc
      rw [Awaited, hpc] at hawaited
      obtain ⟨n, htook, hsucceeded⟩ := hawaited
      exact ⟨n, htook, hsucceeded, hexecuted n hsucceeded⟩
    · exact h.finished c

theorem inv_begin {s : System} (h : s.Inv) (hpc : s.pc = .beginning)
    (hphase : s.begin.PhaseFits) : s.begin.Inv := by
  obtain ⟨pl, hpl⟩ : ∃ pl, s.daemon.phase = .executed pl := h.phase.at_pc hpc
  have hplanned := h.log.plan pl (by simp [hpl, Phase.plan])
  have hexecuted := h.executed (by simp [hpc]) _ ⟨_, hplanned⟩
  refine h.unclaimed hphase rfl rfl rfl rfl rfl (by simp [hpc, Pc.held]) rfl (by simp [hpc])
    (fun _ hmem => hmem) (by simp [Claimed, hpc]) ?_
  intro _
  refine ⟨Or.inl rfl, _, hplanned, hexecuted, ?_⟩
  simp [begin, Trigger.beginRestarts, Daemon.planSections, hpl, Phase.plan]

/-- **Every step keeps the invariant.** -/
theorem inv_moves {s s' : System} {a : Act} (h : s.Inv) (hmoves : Moves s a s') : s'.Inv := by
  have hphase := phaseFits_moves h.phase hmoves
  cases hmoves with
  | check sections hstage => exact inv_check h hstage sections hphase
  | queue hstage => exact inv_queue h hstage hphase
  | @count c hstage =>
    obtain ⟨hclosed, hcancelled⟩ := (h.listed.sane c).of_not_registered
      (by simp [Client.IsRegistered, hstage])
    exact h.client_goes_on hphase rfl rfl rfl rfl rfl
      (h.listed.update (by simp [Client.IsListed, Client.IsRegistered, hstage])
        (Client.sane_of_open hclosed hcancelled))
      (fun _ hx => hx) (by simp [Client.HasQueued, hstage])
  | register hstage =>
    exact h.client_goes_on hphase rfl rfl rfl rfl rfl (h.listed.register hstage)
      (fun _ hx => hx) (by simp [Client.HasQueued, hstage])
  | wake hstage =>
    exact h.client_goes_on hphase rfl rfl rfl rfl rfl
      (h.listed.update (by simp [Client.IsListed, Client.IsRegistered, hstage])
        ⟨(h.listed.sane _).once, by simp [Client.IsRegistered], fun _ => rfl⟩)
      (fun _ hx => hx) (by simp [Client.HasQueued, hstage])
  | forget hstage =>
    exact h.client_goes_on hphase rfl rfl rfl rfl rfl (h.listed.forget hstage)
      (fun _ hx => (List.mem_filter.mp hx).1) (by simp [Client.HasQueued, hstage])
  | reload =>
    exact ⟨hphase, ⟨h.log.queuedAt, h.log.held, h.log.plan, h.log.executed⟩, h.listed, h.claimed,
      h.covered, h.awaited, h.finished, h.restarting⟩
  | consume hpc =>
    have hrestarting := h.no_restarting (by simp [hpc])
    exact h.unclaimed hphase rfl rfl rfl rfl rfl (by simp [hpc, Pc.held]) rfl (by simp [hpc])
      (fun _ hmem => hmem) (by simp [Claimed, hpc]) fun hne => absurd hrestarting hne
  | poll skip hpc =>
    have hrestarting := h.no_restarting (by simp [hpc])
    have hheld : (s.poll skip).pc.held = none := by
      unfold poll
      cases s.isIdlePoll skip <;> rfl
    exact h.unclaimed hphase rfl rfl rfl rfl rfl (by simp [hpc, Pc.held]) hheld (by simp [hpc])
      (fun _ hmem => hmem) (by simp [Claimed, hpc]) fun hne => absurd hrestarting hne
  | recount hpc =>
    have hrestarting := h.no_restarting (by simp [hpc])
    exact h.unclaimed hphase rfl rfl rfl rfl rfl (by simp [hpc, Pc.held]) rfl (by simp [hpc])
      (fun _ hmem => hmem) (by simp [Claimed, hpc]) fun hne => absurd hrestarting hne
  | loadAndParse load fs raw hpc =>
    have hrestarting := h.no_restarting (by simp [hpc])
    have hidle : s.daemon.phase = .idle := h.phase.at_pc hpc
    exact h.unclaimed hphase rfl rfl (by simp [loadAndParse, Daemon.step, hidle]) rfl rfl
      (by simp [hpc, Pc.held]) rfl (by simp [hpc])
      (by simp [loadAndParse, Daemon.step, hidle]) (by simp [Claimed, hpc])
      fun hne => absurd hrestarting hne
  | loadFails load hpc =>
    have hrestarting := h.no_restarting (by simp [hpc])
    have hidle : s.daemon.phase = .idle := h.phase.at_pc hpc
    exact h.unclaimed hphase rfl rfl (by cases load <;> simp [loadFails, Daemon.step, hidle])
      rfl rfl (by simp [hpc, Pc.held]) rfl (by simp [hpc])
      (by cases load <;> simp [loadFails, Daemon.step, hidle]) (by simp [Claimed, hpc])
      fun hne => absurd hrestarting hne
  | claim hpc => exact inv_claim h hpc hphase
  | take env hpc => exact inv_take h hpc env hphase
  | compute hpc => exact inv_compute h hpc hphase
  | requeue hpc => exact inv_requeue h hpc hphase
  | execute env hpc => exact inv_execute h hpc env hphase
  | complete hpc => exact inv_complete h hpc hphase
  | begin hpc => exact inv_begin h hpc hphase
  | apply settings env hpc =>
    obtain ⟨pl, hpl⟩ : ∃ pl, s.daemon.phase = .executed pl := h.phase.at_pc hpc
    refine h.unclaimed hphase rfl rfl (by simp [apply, Daemon.step, hpl, Daemon.applyRestarts])
      rfl rfl (by simp [hpc, Pc.held]) rfl (by simp [hpc])
      (by simp [apply, Daemon.step, hpl, Daemon.applyRestarts, Phase.plan])
      (by simp [Claimed, hpc]) ?_
    exact fun hne => ⟨Or.inr rfl, (h.restarting hne).2⟩
  | endRestarts hpc =>
    exact h.unclaimed hphase rfl rfl rfl rfl rfl (by simp [hpc, Pc.held]) rfl (by simp [hpc])
      (fun _ hmem => hmem) (by simp [Claimed, hpc]) fun hne => absurd rfl hne
  | finalize hpc =>
    have hrestarting := h.no_restarting (by simp [hpc])
    have hcompleted : s.daemon.phase = .completed := h.phase.at_pc hpc
    exact h.unclaimed hphase rfl rfl (by simp [finalize, Daemon.step, hcompleted]) rfl rfl
      (by simp [hpc, Pc.held]) rfl (by simp [hpc])
      (by simp [finalize, Daemon.step, hcompleted, Phase.plan]) (by simp [Claimed, hpc])
      fun hne => absurd hrestarting hne
  | sleepEnds interrupted hpc =>
    have hrestarting := h.no_restarting (by simp [hpc])
    exact h.unclaimed hphase rfl rfl rfl rfl rfl (by simp [hpc, Pc.held]) rfl (by simp [hpc])
      (fun _ hmem => hmem) (by simp [Claimed, hpc]) fun hne => absurd hrestarting hne

theorem inv_start : ({} : System).Inv where
  phase := rfl
  log := ⟨fun _ => le_rfl, by simp [Pc.held], by simp [Phase.plan], by simp [PlanLog.Succeeded]⟩
  listed := ⟨by simp, by simp [Client.IsListed, Client.IsRegistered],
    fun _ => Client.sane_of_open rfl rfl⟩
  claimed := fun hne => absurd rfl hne
  covered := by simp [Client.HasQueued]
  awaited := by simp
  finished := by simp
  restarting := fun hne => absurd rfl hne

theorem inv_run (acts : List Act) : (run {} acts).Inv :=
  run_induction (motive := Inv) inv_start (fun _ _ _ h hmoves => inv_moves h hmoves) acts

/-! ## The result -/

/-- Where a registered client can be. -/
inductive Place
  | waiting
  | inflight
  | released
  | forgotten
  deriving DecidableEq

def IsAt (s : System) (c : Nat) : Place → Prop
  | .waiting => c ∈ s.trigger.waiting
  | .inflight => c ∈ s.trigger.inflight
  | .released => (s.clients c).closed ≠ 0
  | .forgotten => (s.clients c).cancelled = true ∧ (s.clients c).closed = 0

theorem existsUnique_place {s : System} (h : s.Inv) {c : Nat}
    (hregistered : (s.clients c).IsRegistered) : ∃! place, s.IsAt c place := by
  have hmem := h.listed.mem_iff c
  have hdisjoint := (List.nodup_append.mp h.listed.nodup).2.2
  rw [List.mem_append] at hmem
  by_cases hclosed : (s.clients c).closed = 0
  · cases hcancelled : (s.clients c).cancelled with
    | true =>
      -- Forgotten: it is on neither list.
      have hoff : c ∉ s.trigger.waiting ∧ c ∉ s.trigger.inflight := by
        rw [← not_or, hmem]
        simp [Client.IsListed, hcancelled]
      refine ⟨.forgotten, ⟨hcancelled, hclosed⟩, ?_⟩
      intro place hplace
      cases place <;> simp_all [IsAt]
    | false =>
      have hon := hmem.mpr ⟨hregistered, hclosed, hcancelled⟩
      rcases hon with hwaiting | hinflight
      · have hnot : c ∉ s.trigger.inflight := fun hin => hdisjoint c hwaiting c hin rfl
        refine ⟨.waiting, hwaiting, ?_⟩
        intro place hplace
        cases place <;> simp_all [IsAt]
      · have hnot : c ∉ s.trigger.waiting := fun hin => hdisjoint c hin c hinflight rfl
        refine ⟨.inflight, hinflight, ?_⟩
        intro place hplace
        cases place <;> simp_all [IsAt]
  · have hoff : c ∉ s.trigger.waiting ∧ c ∉ s.trigger.inflight := by
      rw [← not_or, hmem]
      simp [Client.IsListed, hclosed]
    refine ⟨.released, hclosed, ?_⟩
    intro place hplace
    cases place <;> simp_all [IsAt]

/-- What the clients of a system can rely on. -/
structure ServesClients (s : System) : Prop where
  /-- A registered client is waiting, in flight, released or forgotten. -/
  place : ∀ c, (s.clients c).IsRegistered → ∃! place, s.IsAt c place
  /-- No channel is closed twice. -/
  once : ∀ c, (s.clients c).closed ≤ 1
  /-- A client is released after the plan of its sections was executed. -/
  released : ∀ c, (s.clients c).closed ≠ 0 →
    ∃ n, s.log.Took (s.clients c) n ∧ s.log.Succeeded n ∧ n ∈ s.log.executed
  /-- A client that would be answered at once asks for sections of the plan whose
  restarts are being applied. -/
  answered : ∀ c sections, (s.clients c).stage = .idle →
    ((s.step (.check c sections)).clients c).stage = .answered →
      (s.pc = .applying ∨ s.pc = .ending) ∧
        ∃ planned, (s.log.current, planned) ∈ s.log.planned ∧ s.log.current ∈ s.log.executed ∧
          ∀ name ∈ sections, name ∈ planned
  /-- A requested section is queued, held by a call of `Plan`, or was taken, after
  it was queued, by one that succeeded. -/
  sections : ∀ c, (s.clients c).HasQueued → ∀ name ∈ (s.clients c).sections,
    name ∈ s.daemon.requested ∨ (∃ held ∈ s.pc.held, name ∈ held) ∨
      ∃ n requested, (s.clients c).queuedAt ≤ n ∧ (n, requested) ∈ s.log.taken ∧
        name ∈ requested ∧ s.log.Succeeded n

/-- **The clients are served**, in every interleaving of any number of them with
the main loop. -/
theorem rewrite_clients_served (acts : List Act) : (run {} acts).ServesClients := by
  have h := inv_run acts
  set s := run {} acts
  refine ⟨fun c => existsUnique_place h, fun c => (h.listed.sane c).once, h.finished, ?_, ?_⟩
  · intro c sections hidle hanswered
    have hrewritten : s.trigger.rewrittenByRestartingCycle sections = true := by
      by_contra hnot
      simp [step, hidle, check, setClient, hnot] at hanswered
    obtain ⟨hne, hsections⟩ := Trigger.mem_restarting_of_rewritten hrewritten
    obtain ⟨hpc, planned, hplanned, hexecuted, hall⟩ := h.restarting hne
    exact ⟨hpc, planned, hplanned, hexecuted, fun name hname => hall name (hsections name hname)⟩
  · intro c hqueued name hname
    rcases h.covered c hqueued with hin | ⟨held, hmem, hin, -⟩ | ⟨n, hserved, hsucceeded⟩
    · exact Or.inl (hin name hname)
    · exact Or.inr (Or.inl ⟨held, hmem, hin name hname⟩)
    · obtain ⟨hqueuedAt, requested, htaken, hall⟩ := hserved
      exact Or.inr (Or.inr ⟨n, requested, hqueuedAt, htaken, hall name hname, hsucceeded⟩)

end System
end Configd
