import Configd.Daemon.Panics

/-!
# The `REWRITE` requests of the listener

`ConfigdRequestHandler` drops the names of a `REWRITE` that are not sections of the last parse
(`filterKnown`), answers at once when none is left, and otherwise asks the trigger of the main
loop and waits for its channel, a timeout or the shutdown.

A request that is answered with success stands for a section that was written.  Two things can
go wrong, both with sections of disabled services, which the parser drops: a service that was
enabled since the last parse is unknown to `filterKnown`; and one that is disabled when a cycle
takes its request is not in the plan of that cycle, which answers all the same.
`written_before_reply` says that nothing else can go wrong, in any interleaving of requests,
iterations and panics that spare what they took.
-/

namespace Configd

open Lib

/-! ## The handler -/

/-- The replies to a `REWRITE`. -/
inductive Reply
  /-- `respRewritesComplete`. -/
  | complete
  /-- `errNoServicesListed`. -/
  | noServicesListed
  /-- `errRewriteTimeout`. -/
  | timeout
  /-- `errShuttingDown`. -/
  | shuttingDown
  deriving DecidableEq

def filterKnown (known names : List String) : List String :=
  names.filter fun name => known.contains name

/-- A `REWRITE` request.  The last three fields record what happened; they are not
part of the daemon. -/
structure Request where
  received : Bool := false
  /-- The names that `filterKnown` kept. -/
  sections : List String := []
  reply : Option Reply := none
  /-- The names as they were received. -/
  names : List String := []
  /-- How many calls of `Plan` had taken their requests when it was received. -/
  receivedAt : Nat := 0
  /-- The call of `Plan` whose restarts were being applied when the request was
  answered for it. -/
  restarting : Option Nat := none

structure Listener where
  guarded : Guarded := {}
  requests : Nat → Request := fun _ => {}

/-- A step of the handler of a request, or of the rest of the daemon. -/
inductive ListenerAct
  | receive (c : Nat) (names : List String)
  /-- `TriggerRewrite`, up to its check. -/
  | trigger (c : Nat)
  /-- The channel of the request is closed. -/
  | reply (c : Nat)
  /-- The timeout, or the shutdown. -/
  | giveUp (c : Nat) (shutdown : Bool)
  | other (e : GuardedAct)

/-- The step is made by the handler of a request. -/
def GuardedAct.ofHandler : GuardedAct → Bool
  | .act (.check _ _) => true
  | .act (.forget _) => true
  | _ => false

namespace Listener

variable (l : Listener)

/-- The main loop and its clients. -/
def sys : System :=
  l.guarded.sys

def setRequest (c : Nat) (request : Request) : Listener :=
  { l with requests := Function.update l.requests c request }

/-- `HandleRequest`, up to `filterKnown`.  `KnownSections` lists the sections of the
last parse. -/
def receive (c : Nat) (names : List String) : Listener :=
  let sections := filterKnown l.sys.daemon.conf.sections.keys names
  l.setRequest c
    { received := true
      names := names
      sections := sections
      receivedAt := l.sys.log.taken.length
      reply :=
        if names.isEmpty then some .noServicesListed
        else if sections.isEmpty then some .complete
        else none }

def trigger (c : Nat) : Listener :=
  { l with guarded := l.guarded.act (.check c (l.requests c).sections) }.setRequest c
    { l.requests c with
      restarting :=
        if l.sys.trigger.rewrittenByRestartingCycle (l.requests c).sections then
          some l.sys.log.current
        else none }

/-- The handler returns, and cancels its wait. -/
def answer (c : Nat) (reply : Reply) : Listener :=
  { l with guarded := l.guarded.act (.forget c) }.setRequest c
    { l.requests c with reply := some reply }

def isOpen (c : Nat) : Bool :=
  (l.requests c).received && (l.requests c).reply.isNone

/-- The channel of the request is closed: for the restarting cycle, or by the loop. -/
def isDone (c : Nat) : Bool :=
  (l.sys.clients c).stage = .answered ||
    (l.sys.clients c).stage = .returned && (l.sys.clients c).closed ≠ 0

def step (l : Listener) : ListenerAct → Listener
  | .receive c names =>
    if l.guarded.server && !(l.requests c).received then l.receive c names else l
  | .trigger c =>
    if l.isOpen c && (l.sys.clients c).stage = .idle then l.trigger c else l
  | .reply c => if l.isOpen c && l.isDone c then l.answer c .complete else l
  | .giveUp c shutdown =>
    if l.isOpen c && ((l.sys.clients c).stage = .answered || (l.sys.clients c).stage = .returned)
    then l.answer c (if shutdown then .shuttingDown else .timeout) else l
  | .other e => if e.ofHandler then l else { l with guarded := l.guarded.step e }

end Listener

/-! ## What the rest of the daemon does to a client -/

/-- What a step outside `TriggerRewrite`'s check can do to a client, when this many
calls of `Plan` have taken their requests. -/
structure Client.Follows (taken : Nat) (before after : Client) : Prop where
  sections : after.sections = before.sections
  idle : after.stage = .idle ↔ before.stage = .idle
  answered : after.stage = .answered ↔ before.stage = .answered
  queued : after.HasQueued → before.HasQueued ∧ after.queuedAt = before.queuedAt ∨
    after.queuedAt = taken
  closed : before.closed ≠ 0 → after.closed ≠ 0

theorem Client.Follows.refl (taken : Nat) (client : Client) : client.Follows taken client :=
  ⟨rfl, Iff.rfl, Iff.rfl, fun h => Or.inl ⟨h, rfl⟩, id⟩

theorem Client.Follows.goesOn {taken : Nat} {before after : Client} (hqueued : before.HasQueued)
    (hafter : after.HasQueued) (hsections : after.sections = before.sections)
    (hqueuedAt : after.queuedAt = before.queuedAt) (hclosed : before.closed ≤ after.closed) :
    before.Follows taken after := by
  refine ⟨hsections, ?_, ?_, fun _ => Or.inl ⟨hqueued, hqueuedAt⟩, fun h => by omega⟩
  · constructor
    · intro h
      simp [Client.HasQueued, h] at hafter
    · intro h
      simp [Client.HasQueued, h] at hqueued
  · constructor
    · intro h
      simp [Client.HasQueued, h] at hafter
    · intro h
      simp [Client.HasQueued, h] at hqueued

theorem follows_update {taken : Nat} {clients : Nat → Client} {x : Nat} {client : Client}
    (h : (clients x).Follows taken client) (c : Nat) :
    (clients c).Follows taken (Function.update clients x client c) := by
  by_cases heq : c = x
  · rw [heq, Function.update_self]
    exact h
  · rw [Function.update_of_ne heq]
    exact .refl taken (clients c)

theorem follows_closeAll (taken : Nat) (clients : Nat → Client) (inflight : List Nat) (c : Nat) :
    (clients c).Follows taken (closeAll clients inflight c) := by
  unfold closeAll
  refine List.foldlRecOn (motive := fun next : Nat → Client => (clients c).Follows taken (next c))
    inflight _ (.refl taken (clients c)) ?_
  intro next hnext x _
  by_cases heq : c = x
  · rw [heq] at hnext ⊢
    rw [Function.update_self]
    exact ⟨hnext.sections, hnext.idle, hnext.answered, hnext.queued, fun _ => by simp⟩
  · rw [Function.update_of_ne heq]
    exact hnext

namespace System

theorem follows_moves {s s' : System} {a : Act} (hmoves : Moves s a s')
    (hcheck : ∀ c sections, a ≠ .check c sections) (c : Nat) :
    (s.clients c).Follows s.log.taken.length (s'.clients c) := by
  cases hmoves with
  | @check x sections h => exact absurd rfl (hcheck x sections)
  | @queue x h =>
    refine follows_update ?_ c
    exact ⟨rfl, by simp [h], by simp [h], fun _ => Or.inr rfl, id⟩
  | @count x h =>
    refine follows_update ?_ c
    exact .goesOn (by simp [Client.HasQueued, h]) (by simp [Client.HasQueued]) rfl rfl le_rfl
  | @register x h =>
    refine follows_update ?_ c
    exact .goesOn (by simp [Client.HasQueued, h]) (by simp [Client.HasQueued]) rfl rfl le_rfl
  | @wake x h =>
    refine follows_update ?_ c
    exact .goesOn (by simp [Client.HasQueued, h]) (by simp [Client.HasQueued]) rfl rfl le_rfl
  | @forget x h =>
    refine follows_update ?_ c
    exact .goesOn (by simp [Client.HasQueued, h]) (by simp [Client.HasQueued, h]) rfl rfl le_rfl
  | @compute env held h =>
    rw [(s.compute_frame env held).2.2.2.2.2]
    exact .refl _ _
  | complete h => exact follows_closeAll _ _ _ c
  | _ => exact .refl _ _

end System

/-- What the log records stays recorded. -/
structure PlanLog.Extends (log log' : PlanLog) : Prop where
  taken : log.taken.length ≤ log'.taken.length
  planned : ∀ entry ∈ log.planned, entry ∈ log'.planned
  executed : ∀ n ∈ log.executed, n ∈ log'.executed

theorem PlanLog.Extends.refl (log : PlanLog) : log.Extends log :=
  ⟨le_rfl, fun _ hmem => hmem, fun _ hmem => hmem⟩

theorem System.extends_moves {s s' : System} {a : Act} (hfits : s.PhaseFits)
    (hmoves : Moves s a s') : s.log.Extends s'.log := by
  cases hmoves with
  | take env h => exact ⟨Nat.le_succ _, fun _ hmem => hmem, fun _ hmem => hmem⟩
  | @compute env held h =>
    have hidle : s.daemon.phase = .idle := hfits.at_pc h
    rcases compute_log hidle env held with hsame | ⟨pl, -, hlog⟩
    · rw [hsame]
      exact .refl _
    · rw [hlog]
      exact ⟨le_rfl, fun _ hmem => List.mem_cons_of_mem _ hmem, fun _ hmem => hmem⟩
  | execute env h =>
    exact ⟨le_rfl, fun _ hmem => hmem, fun _ hmem => List.mem_cons_of_mem _ hmem⟩
  | _ => exact .refl _

namespace Guarded

/-- **What a step of the daemon does to its clients and its log**, unless it is the
check of a request. -/
theorem step_follows {g : Guarded} (h : g.Kept) {e : GuardedAct}
    (hcheck : ∀ c sections, e ≠ .act (.check c sections))
    (hspares : ∀ reached, e = .panic reached → g.recovering = false →
      g.sys.spares reached = true) :
    (∀ c, (g.sys.clients c).Follows g.sys.log.taken.length ((g.step e).sys.clients c)) ∧
      g.sys.log.Extends (g.step e).sys.log := by
  cases e with
  | act a =>
    obtain ⟨signaled, hsys⟩ := g.act_sys a
    show (∀ c, Client.Follows _ _ ((g.act a).sys.clients c)) ∧ PlanLog.Extends _ (g.act a).sys.log
    rw [hsys]
    rcases g.sys.step_cases a with heq | hmoves
    · rw [heq]
      exact ⟨fun c => .refl _ _, .refl _⟩
    · have hextends := System.extends_moves h.plan.1 hmoves
      refine ⟨fun c => System.follows_moves hmoves ?_ c, hextends⟩
      intro c sections heq
      exact hcheck c sections (by rw [heq])
  | panic reached =>
    cases hrecovering : g.recovering with
    | true =>
      simp only [step, hrecovering, if_true]
      exact ⟨fun c => .refl _ _, .refl _⟩
    | false =>
      have hrecovers := System.recovers_panic (hspares reached rfl hrecovering)
      simp only [step, hrecovering, Bool.false_eq_true, if_false]
      rw [hrecovers.log]
      refine ⟨fun c => ?_, .refl _⟩
      rcases hrecovers.clients with hsame | hreleased
      · rw [hsame]
        exact .refl _ _
      · rw [hreleased]
        exact follows_closeAll _ _ _ c

variable {name : String}

/-- **A plan includes the section when its call took it**, in every step under the
condition. -/
theorem step_includes {g : Guarded} (h : g.Kept)
    (hincludes : g.sys.log.Includes name) {e : GuardedAct}
    (hconsiders : ∀ a, e = .act a → System.considersHeld name g.sys a = true)
    (hspares : ∀ reached, e = .panic reached → g.recovering = false →
      g.sys.spares reached = true) : (g.step e).sys.log.Includes name := by
  cases e with
  | act a =>
    obtain ⟨signaled, hsys⟩ := g.act_sys a
    show (g.act a).sys.log.Includes name
    rw [hsys]
    rcases g.sys.step_cases a with heq | hmoves
    · rwa [heq]
    · have hafter := System.includes_moves hincludes h.accounted.numbered h.plan.1 h.forced
        h.plan.2 (hconsiders a rfl) hmoves
      exact hafter
  | panic reached =>
    cases hrecovering : g.recovering with
    | true =>
      simp only [step, hrecovering, if_true]
      exact hincludes
    | false =>
      simp only [step, hrecovering, Bool.false_eq_true, if_false]
      rw [(System.recovers_panic (hspares reached rfl hrecovering)).log]
      exact hincludes

end Guarded

/-! ## The requests that are answered with success -/

namespace Listener

/-- The section was written for the request: it is listed in a plan that was
executed, whose call of `Plan` came after the request was received, or whose
restarts were being applied when it was answered. -/
def Written (l : Listener) (c : Nat) (name : String) : Prop :=
  ∃ n sections, (n, sections) ∈ l.sys.log.planned ∧ name ∈ sections ∧ n ∈ l.sys.log.executed ∧
    ((l.requests c).receivedAt ≤ n ∨ (l.requests c).restarting = some n)

/-- The step does not lose the section: it is known when a request for it is
received, a plan that took it considers it, and a panic spares what the iteration
took. -/
def Considers (name : String) (l : Listener) : ListenerAct → Prop
  | .receive _ names => name ∈ names → name ∈ l.sys.daemon.conf.sections
  | .other (.act a) => System.considersHeld name l.sys a = true
  | .other (.panic reached) => l.guarded.recovering = false → l.sys.spares reached = true
  | _ => True

instance (name : String) (l : Listener) : ∀ e, Decidable (Considers name l e)
  | .receive _ _ => inferInstanceAs (Decidable (_ → _))
  | .other (.act _) => inferInstanceAs (Decidable (_ = _))
  | .other (.panic _) => inferInstanceAs (Decidable (_ → _))
  | .trigger _ => inferInstanceAs (Decidable True)
  | .reply _ => inferInstanceAs (Decidable True)
  | .giveUp _ _ => inferInstanceAs (Decidable True)

structure Fits (name : String) (log : PlanLog) (request : Request) (client : Client) : Prop where
  unreceived : request.received = false → client.stage = .idle
  sections : client.stage ≠ .idle → client.sections = request.sections
  known : name ∈ request.names → name ∈ request.sections
  receivedAt : request.receivedAt ≤ log.taken.length
  queuedAt : client.HasQueued → request.receivedAt ≤ client.queuedAt
  /-- The restarting cycle had written the sections of a request it answers. -/
  answered : client.stage = .answered → ∃ n sections, request.restarting = some n ∧
    (n, sections) ∈ log.planned ∧ n ∈ log.executed ∧ ∀ name ∈ request.sections, name ∈ sections
  complete : request.reply = some .complete →
    request.sections = [] ∨ client.stage = .answered ∨ client.closed ≠ 0

/-- **The invariant of the requests**, for the requests of one section. -/
structure Inv (name : String) (l : Listener) : Prop where
  kept : l.guarded.Kept
  includes : l.sys.log.Includes name
  requests : ∀ c, Fits name l.sys.log (l.requests c) (l.sys.clients c)

theorem Fits.follows {log log' : PlanLog} {request : Request}
    {before after : Client} (h : Fits name log request before)
    (hfollows : before.Follows log.taken.length after) (hextends : log.Extends log') :
    Fits name log' request after where
  unreceived := fun hnot => hfollows.idle.mpr (h.unreceived hnot)
  sections := by
    intro hstage
    rw [hfollows.sections]
    exact h.sections fun hidle => hstage (hfollows.idle.mpr hidle)
  known := h.known
  receivedAt := le_trans h.receivedAt hextends.taken
  queuedAt := by
    intro hqueued
    rcases hfollows.queued hqueued with ⟨hbefore, hsame⟩ | hnow
    · rw [hsame]
      exact h.queuedAt hbefore
    · rw [hnow]
      exact h.receivedAt
  answered := by
    intro hstage
    obtain ⟨n, sections, hn, hplanned, hexecuted, hall⟩ := h.answered (hfollows.answered.mp hstage)
    exact ⟨n, sections, hn, hextends.planned _ hplanned, hextends.executed n hexecuted, hall⟩
  complete := by
    intro hreply
    rcases h.complete hreply with hnone | hstage | hclosed
    · exact Or.inl hnone
    · exact Or.inr (Or.inl (hfollows.answered.mpr hstage))
    · exact Or.inr (Or.inr (hfollows.closed hclosed))

variable {l : Listener}

theorem inv_other (h : l.Inv name) {e : GuardedAct}
    (hcheck : ∀ c sections, e ≠ .act (.check c sections))
    (hconsiders : Considers name l (.other e)) :
    ({ l with guarded := l.guarded.step e } : Listener).Inv name := by
  have hact : ∀ a, e = .act a → System.considersHeld name l.sys a = true := by
    intro a heq
    rw [heq] at hconsiders
    exact hconsiders
  have hspares : ∀ reached, e = .panic reached → l.guarded.recovering = false →
      l.sys.spares reached = true := by
    intro reached heq
    rw [heq] at hconsiders
    exact hconsiders
  obtain ⟨hfollows, hextends⟩ := Guarded.step_follows h.kept hcheck hspares
  exact ⟨Guarded.kept_step h.kept hspares, Guarded.step_includes h.kept h.includes hact hspares,
    fun c => (h.requests c).follows (hfollows c) hextends⟩

theorem Inv.setRequest (h : l.Inv name) {c : Nat}
    {request : Request} (hfits : Fits name l.sys.log request (l.sys.clients c)) :
    (l.setRequest c request).Inv name := by
  refine ⟨h.kept, h.includes, ?_⟩
  exact (Function.forall_update_iff l.requests fun c request =>
    Fits name l.sys.log request (l.sys.clients c)).mpr ⟨hfits, fun c _ => h.requests c⟩

theorem inv_receive (h : l.Inv name) {c : Nat}
    {names : List String} (hfresh : (l.requests c).received = false)
    (hknown : name ∈ names → name ∈ l.sys.daemon.conf.sections) :
    (l.receive c names).Inv name := by
  have hidle := (h.requests c).unreceived hfresh
  refine h.setRequest ⟨by simp, fun hstage => absurd hidle hstage, ?_, le_rfl, ?_, ?_, ?_⟩
  · intro hname
    simpa [filterKnown, hname] using hknown hname
  · intro hqueued
    simp [Client.HasQueued, hidle] at hqueued
  · intro hstage
    simp [hidle] at hstage
  · -- It is answered at once only when no name is left.
    intro hreply
    left
    by_contra hne
    have hsome : (filterKnown l.sys.daemon.conf.sections.keys names).isEmpty = false := by
      simpa using hne
    simp only [hsome, Bool.false_eq_true, if_false] at hreply
    split at hreply
    · cases hreply
    · cases hreply

theorem Inv.restarting (h : l.Inv name) {sections : List String}
    (hrewritten : l.sys.trigger.rewrittenByRestartingCycle sections = true) :
    ∃ planned, (l.sys.log.current, planned) ∈ l.sys.log.planned ∧
      l.sys.log.current ∈ l.sys.log.executed ∧ ∀ name ∈ sections, name ∈ planned := by
  obtain ⟨hne, hsections⟩ := Trigger.mem_restarting_of_rewritten hrewritten
  have hrestarting := h.kept.clients.restarting
  have hsame : l.sys.settle.trigger.restarting = l.sys.trigger.restarting := by
    unfold System.settle
    split <;> rfl
  unfold System.Restarting at hrestarting
  rw [System.settle_log] at hrestarting
  obtain ⟨-, planned, hplanned, hexecuted, hall⟩ := hrestarting (by
    show l.sys.settle.trigger.restarting ≠ []
    rwa [hsame])
  refine ⟨planned, hplanned, hexecuted, fun name hname => hall name ?_⟩
  show name ∈ l.sys.settle.trigger.restarting
  rw [hsame]
  exact hsections name hname

theorem inv_trigger (h : l.Inv name) {c : Nat}
    (hopen : l.isOpen c = true) (hidle : (l.sys.clients c).stage = .idle) :
    (l.trigger c).Inv name := by
  obtain ⟨hreceived, hnone⟩ : (l.requests c).received = true ∧ (l.requests c).reply.isNone = true :=
    Bool.and_eq_true_iff.mp hopen
  obtain ⟨signaled, hsys⟩ := l.guarded.act_sys (.check c (l.requests c).sections)
  have hstep : l.guarded.sys.step (.check c (l.requests c).sections) =
      l.guarded.sys.check c (l.requests c).sections := if_pos hidle
  rw [hstep] at hsys
  have hlog : (l.trigger c).sys.log = l.sys.log := by
    show (l.guarded.act _).sys.log = _
    rw [hsys]
    rfl
  have hclients : (l.trigger c).sys.clients = Function.update l.sys.clients c
      { stage := if l.sys.trigger.rewrittenByRestartingCycle (l.requests c).sections then
          .answered else .checked
        sections := (l.requests c).sections } := by
    show (l.guarded.act _).sys.clients = _
    rw [hsys]
    rfl
  refine ⟨Guarded.kept_act h.kept _, by rw [hlog]; exact h.includes, ?_⟩
  intro x
  rw [hlog, hclients]
  show Fits name l.sys.log (Function.update l.requests c _ x) _
  by_cases hx : x = c
  · subst hx
    rw [Function.update_self, Function.update_self]
    -- The client has neither queued its sections nor a reply.
    refine ⟨fun hnot => ?_, fun _ => rfl, (h.requests x).known, (h.requests x).receivedAt, ?_, ?_,
      fun hreply => ?_⟩
    · rw [hreceived] at hnot
      cases hnot
    · intro hqueued
      cases hrewritten : l.sys.trigger.rewrittenByRestartingCycle (l.requests x).sections <;>
        simp [Client.HasQueued, hrewritten] at hqueued
    · intro hstage
      cases hrewritten : l.sys.trigger.rewrittenByRestartingCycle (l.requests x).sections with
      | false => simp [hrewritten] at hstage
      | true =>
        obtain ⟨planned, hplanned, hexecuted, hall⟩ := h.restarting hrewritten
        exact ⟨l.sys.log.current, planned, by simp, hplanned, hexecuted, hall⟩
    · rw [Option.isNone_iff_eq_none] at hnone
      rw [hnone] at hreply
      cases hreply
  · rw [Function.update_of_ne hx, Function.update_of_ne hx]
    exact h.requests x

theorem inv_answer (h : l.Inv name) {c : Nat} {reply : Reply}
    (hreceived : (l.requests c).received = true)
    (hdone : reply = .complete →
      (l.sys.clients c).stage = .answered ∨ (l.sys.clients c).closed ≠ 0) :
    (l.answer c reply).Inv name := by
  have hconsiders : System.considersHeld name l.sys (.forget c) = true := by
    unfold System.considersHeld
    cases l.sys.pc <;> rfl
  have hspares : ∀ reached, GuardedAct.act (.forget c) = .panic reached →
      l.guarded.recovering = false → l.sys.spares reached = true := by
    intro reached heq
    cases heq
  have hother := inv_other (e := .act (.forget c)) h (by simp) hconsiders
  obtain ⟨hfollows, -⟩ := Guarded.step_follows (e := .act (.forget c)) h.kept (by simp) hspares
  have hfits := hother.requests c
  refine hother.setRequest ⟨fun hnot => ?_, hfits.sections, hfits.known, hfits.receivedAt,
    hfits.queuedAt, hfits.answered, fun hreply => ?_⟩
  · change (l.requests c).received = false at hnot
    rw [hreceived] at hnot
    cases hnot
  · rcases hdone (Option.some.inj hreply) with hstage | hclosed
    · exact Or.inr (Or.inl ((hfollows c).answered.mpr hstage))
    · exact Or.inr (Or.inr ((hfollows c).closed hclosed))

theorem inv_step {e : ListenerAct} (h : l.Inv name)
    (hconsiders : Considers name l e) : (l.step e).Inv name := by
  cases e with
  | receive c names =>
    simp only [step]
    split
    · rename_i hguard
      exact inv_receive h (by simpa using (Bool.and_eq_true_iff.mp hguard).2) hconsiders
    · exact h
  | trigger c =>
    simp only [step]
    split
    · rename_i hguard
      rw [Bool.and_eq_true] at hguard
      exact inv_trigger h hguard.1 (of_decide_eq_true hguard.2)
    · exact h
  | reply c =>
    simp only [step]
    split
    · rename_i hguard
      rw [Bool.and_eq_true] at hguard
      refine inv_answer h (Bool.and_eq_true_iff.mp hguard.1).1 fun _ => ?_
      have hdone := hguard.2
      unfold isDone at hdone
      rw [Bool.or_eq_true, Bool.and_eq_true] at hdone
      rcases hdone with hstage | ⟨-, hclosed⟩
      · exact Or.inl (of_decide_eq_true hstage)
      · exact Or.inr (of_decide_eq_true hclosed)
    · exact h
  | giveUp c shutdown =>
    simp only [step]
    split
    · rename_i hguard
      rw [Bool.and_eq_true] at hguard
      refine inv_answer h (Bool.and_eq_true_iff.mp hguard.1).1 fun hreply => ?_
      cases shutdown <;> cases hreply
    · exact h
  | other e =>
    simp only [step]
    split
    · exact h
    · rename_i hhandler
      refine inv_other h (fun c sections heq => ?_) hconsiders
      rw [heq] at hhandler
      exact hhandler rfl

theorem inv_init (name : String) : ({} : Listener).Inv name where
  kept := Guarded.kept_init
  includes := by
    intro n requested sections htaken
    cases htaken
  requests := fun c => ⟨fun _ => rfl, fun hstage => absurd rfl hstage, by simp, le_rfl,
    by simp [sys, Client.HasQueued], by simp [sys], by simp⟩

theorem Inv.written (h : l.Inv name) {c : Nat}
    (hreply : (l.requests c).reply = some .complete) (hname : name ∈ (l.requests c).names) :
    l.Written c name := by
  have hfits := h.requests c
  have hsection := hfits.known hname
  rcases hfits.complete hreply with hnone | hstage | hclosed
  · rw [hnone] at hsection
    cases hsection
  · obtain ⟨n, sections, hn, hplanned, hexecuted, hall⟩ := hfits.answered hstage
    exact ⟨n, sections, hplanned, hall name hsection, hexecuted, Or.inr hn⟩
  · -- It was released, after a plan that took its sections was executed.
    have hfinished := h.kept.clients.finished c
    have hsane := h.kept.clients.listed.sane c
    rw [System.settle_clients, System.settle_log] at hfinished
    rw [System.settle_clients] at hsane
    obtain ⟨n, ⟨hqueuedAt, requested, htaken, hall⟩, ⟨sections, hplanned⟩, hexecuted⟩ :=
      hfinished hclosed
    have hregistered : (l.sys.clients c).IsRegistered := hsane.released hclosed
    have hqueued : (l.sys.clients c).HasQueued := by
      simp only [Client.IsRegistered, Client.HasQueued, List.mem_cons] at hregistered ⊢
      tauto
    have hstage : (l.sys.clients c).stage ≠ .idle := by
      intro hidle
      simp [Client.HasQueued, hidle] at hqueued
    rw [← hfits.sections hstage] at hsection
    exact ⟨n, sections, hplanned, h.includes n requested sections htaken (hall name hsection)
      hplanned, hexecuted, Or.inl (le_trans (hfits.queuedAt hqueued) hqueuedAt)⟩

/-! ### Runs with a request

`zmconfigd.cf` has the sections `mta` and `proxy`; a client asks for `proxy` after a
first cycle. -/

def loadEnabled (services : List String) : Act :=
  .loadAndParse (.ofServer [] services) noFiles
    { sections := Std.ExtTreeMap.ofList [("mta", {}), ("proxy", {})] compare }

def begins : List Act :=
  [.reload, .consume, .poll true, .recount]

def cycles (services : List String) : List Act :=
  [loadEnabled services, .claim, .take { files := noFiles }, .compute, .execute .allOk, .complete,
    .begin, System.applyAccepted true, .endRestarts, .finalize, .sleepEnds false]

def others (acts : List Act) : List ListenerAct :=
  acts.map fun a => .other (.act a)

def asksForProxy : List ListenerAct :=
  [.receive 0 ["proxy"], .trigger 0] ++ others [.queue 0, .count 0, .register 0, .wake 0]

/-- The request comes while a cycle begins, and is answered after it. -/
def askedMeanwhile (services : List String) : List ListenerAct :=
  others (begins ++ cycles ["mta", "proxy"] ++ begins) ++ asksForProxy ++
    others (cycles services) ++ [.reply 0]

def nextLoad : List ListenerAct :=
  others (begins ++ [loadEnabled ["mta", "proxy"]])

/-- The request comes after `proxy` was enabled, before a cycle loads it. -/
def askedTooEarly : List ListenerAct :=
  others (begins ++ cycles ["mta"]) ++ [.receive 0 ["proxy"]]

/-! ### The result -/

/-- **A request is answered with success after its sections were written**, in every
interleaving of requests, iterations and panics, for every section that is known
when the request is received and that every plan considers that takes it. -/
theorem written_before_reply (name : String) (acts : List ListenerAct)
    (hconsiders : Along step (Considers name) {} acts) (c : Nat)
    (hreply : ((run step {} acts).requests c).reply = some .complete)
    (hname : name ∈ ((run step {} acts).requests c).names) :
    (run step {} acts).Written c name := by
  have hinv := run_invariant_along (motive := Inv name) (inv_init name)
    (fun l e h hcond => inv_step h hcond) hconsiders
  exact hinv.written hreply hname

/-- With `proxy` enabled throughout, its section is written for the request. -/
theorem written_before_reply_proxy :
    Along step (Considers "proxy") {} (askedMeanwhile ["mta", "proxy"]) ∧
      ((run step {} (askedMeanwhile ["mta", "proxy"])).requests 0).reply = some .complete ∧
      (run step {} (askedMeanwhile ["mta", "proxy"])).Written 0 "proxy" := by
  have hconsiders : Along step (Considers "proxy") {} (askedMeanwhile ["mta", "proxy"]) := by
    decide +kernel
  have hreply : ((run step {} (askedMeanwhile ["mta", "proxy"])).requests 0).reply =
      some .complete := by
    decide +kernel
  exact ⟨hconsiders, hreply, written_before_reply "proxy" _ hconsiders 0 hreply (by decide +kernel)⟩

/-- A request that comes right after `proxy` was enabled is answered with success, and
so is one whose cycle finds `proxy` disabled; in both runs the first cycle that
begins after the request loads `proxy` as enabled, and no plan has written its
section for the request. -/
theorem replied_before_written :
    (((run step {} askedTooEarly).requests 0).reply = some .complete ∧
        ¬ (run step {} (askedTooEarly ++ nextLoad)).Written 0 "proxy" ∧
        "proxy" ∈ (run step {} (askedTooEarly ++ nextLoad)).sys.daemon.conf.sections) ∧
      ((run step {} (askedMeanwhile ["mta"])).requests 0).reply = some .complete ∧
        ¬ (run step {} (askedMeanwhile ["mta"] ++ nextLoad)).Written 0 "proxy" ∧
        "proxy" ∈ (run step {} (askedMeanwhile ["mta"] ++ nextLoad)).sys.daemon.conf.sections := by
  have hearly : (run step {} (askedTooEarly ++ nextLoad)).sys.log.planned = [(0, ["mta"])] := by
    decide +kernel
  have hmeanwhile : (run step {} (askedMeanwhile ["mta"] ++ nextLoad)).sys.log.planned =
      [(1, []), (0, ["mta", "proxy"])] := by
    decide +kernel
  have hreceived : ((run step {} (askedMeanwhile ["mta"] ++ nextLoad)).requests 0).receivedAt = 1 ∧
      ((run step {} (askedMeanwhile ["mta"] ++ nextLoad)).requests 0).restarting = none := by
    decide +kernel
  refine ⟨⟨by decide +kernel, ?_, by decide +kernel⟩, by decide +kernel, ?_, by decide +kernel⟩
  · intro hwritten
    obtain ⟨n, sections, hplanned, hproxy, -⟩ := hwritten
    rw [hearly, List.mem_singleton, Prod.mk.injEq] at hplanned
    rw [hplanned.2] at hproxy
    simp at hproxy
  · intro hwritten
    obtain ⟨n, sections, hplanned, hproxy, -, hwhen⟩ := hwritten
    rw [hmeanwhile] at hplanned
    rw [hreceived.1, hreceived.2] at hwhen
    -- Only the plan of the first cycle has the section, and that came before the request.
    simp only [List.mem_cons, Prod.mk.injEq, List.not_mem_nil, or_false] at hplanned
    rcases hplanned with ⟨-, hsections⟩ | ⟨hn, -⟩
    · rw [hsections] at hproxy
      cases hproxy
    · rcases hwhen with hle | hnone
      · omega
      · cases hnone

end Listener
end Configd
