import Configd.Daemon.Trigger

/-!
# The main loop and its clients

The state of the whole daemon: the main loop (`runLoopIteration` and what it calls), the trigger
it shares with the `REWRITE` clients, the reload channel and any number of clients.
`System.step` is one atomic step of one of them, so a run is any interleaving.  An iteration:

`consume → poll → count → load → claim → take → compute → execute → complete →
begin → apply → end → finalize → sleep`.

It is cut short by an idle poll and by a failed load, plan or execution.  `Plan` is two steps:
clients can queue sections between the moment it takes the requested ones and the moment it puts
them back.  Panics are added in `Panics`.  `log` is not part of the daemon: it records what the
calls of `Plan` took, which of them succeeded and which plans were executed.

`exists_events`: what a run does to the daemon is a run of its cycles, so that the results about
cycles hold for the whole system.
-/

namespace Configd

open Lib

/-- Where the main loop stands: the step it makes next. -/
inductive Pc
  /-- `consumeReloadSignal`. -/
  | top
  /-- `isIdlePoll`. -/
  | polling
  | counting
  /-- `runLoadAndParse`. -/
  | loading
  /-- `claimWaiters`. -/
  | claiming
  /-- `Plan`, up to `TakeRequestedConfigs`. -/
  | taking
  /-- The rest of `Plan`, which holds the sections it took. -/
  | computing (env : PlanEnv) (held : StrMap String)
  /-- `requeueWaiters`. -/
  | requeuing
  /-- `Execute`. -/
  | executing
  /-- `completeWaiters`. -/
  | completing
  /-- `beginRestarts`. -/
  | beginning
  /-- `ApplyRestarts`. -/
  | applying
  /-- `endRestarts`. -/
  | ending
  /-- `finalizeIteration`, up to its sleep. -/
  | finalizing
  /-- `SleepWithContext`. -/
  | sleeping

/-- What the calls of `Plan` did, newest first.  They are numbered. -/
structure PlanLog where
  /-- The requested sections each call took. -/
  taken : List (Nat × List String) := []
  /-- The calls that succeeded, with the sections of their plans. -/
  planned : List (Nat × List String) := []
  /-- The calls whose plan was executed. -/
  executed : List Nat := []

/-- The number of the last call. -/
def PlanLog.current (log : PlanLog) : Nat :=
  log.taken.length - 1

structure System where
  daemon : Daemon := {}
  trigger : Trigger := {}
  /-- The reload channel, which holds one signal, is full. -/
  token : Bool := false
  pc : Pc := .top
  lastEventCount : Nat := 0
  reloadSignaled : Bool := false
  clients : Nat → Client := fun _ => {}
  log : PlanLog := {}

/-- `ConfigManager.Plan` when it holds the sections it took: a rejected plan puts
them back, to what was requested since. -/
def Daemon.planTaken (d : Daemon) (held : StrMap String) (env : PlanEnv) : Daemon :=
  let result := { d with requested := held }.plan env
  { result with requested := addRequestedConfigs result.requested.keys d.requested }

/-- The sections of the plan the daemon is at. -/
def Daemon.planSections (d : Daemon) : List Section :=
  d.phase.plan.elim [] Plan.sections

namespace System

/-! ## The steps of a client -/

def setClient (s : System) (c : Nat) (client : Client) : System :=
  { s with clients := Function.update s.clients c client }

/-- The check of `TriggerRewrite` for the restarting sections. -/
def check (s : System) (c : Nat) (sections : List String) : System :=
  s.setClient c
    { stage := if s.trigger.rewrittenByRestartingCycle sections then .answered else .checked
      sections := sections }

/-- `AddRequestedConfigs`. -/
def queue (s : System) (c : Nat) : System :=
  { s with daemon := s.daemon.step (.request (s.clients c).sections) }.setClient c
    { s.clients c with stage := .queued, queuedAt := s.log.taken.length }

def count (s : System) (c : Nat) : System :=
  { s with trigger.eventCounter := s.trigger.eventCounter + 1 }.setClient c
    { s.clients c with stage := .counted }

def register (s : System) (c : Nat) : System :=
  { s with trigger.waiting := s.trigger.waiting ++ [c] }.setClient c
    { s.clients c with stage := .registered }

/-- The signal on the reload channel, dropped when it is full. -/
def wake (s : System) (c : Nat) : System :=
  { s with token := true }.setClient c { s.clients c with stage := .returned }

def forget (s : System) (c : Nat) : System :=
  { s with trigger := s.trigger.forget c }.setClient c { s.clients c with cancelled := true }

/-! ## The steps of the main loop -/

/-- `consumeReloadSignal`. -/
def consume (s : System) : System :=
  { s with
    reloadSignaled := s.reloadSignaled || s.token
    token := false
    pc := .polling }

def isIdlePoll (s : System) (skipIdlePolls : Bool) : Bool :=
  skipIdlePolls && !s.daemon.firstRun && !s.reloadSignaled &&
    s.trigger.eventCounter = s.lastEventCount

def poll (s : System) (skipIdlePolls : Bool) : System :=
  { s with pc := if s.isIdlePoll skipIdlePolls then .sleeping else .counting }

def recount (s : System) : System :=
  { s with lastEventCount := s.trigger.eventCounter, pc := .loading }

def loadAndParse (s : System) (load : StagedLoad) (fs : Files) (raw : MtaConfig) : System :=
  { s with daemon := (s.daemon.step (.load load)).step (.parse fs raw), pc := .claiming }

/-- A load that fails delivers nothing; when the parser fails, the load is done. -/
def loadFails (s : System) (load : Option StagedLoad) : System :=
  { s with
    daemon := load.elim s.daemon fun load => s.daemon.step (.load load)
    pc := .sleeping }

def claim (s : System) : System :=
  { s with trigger := s.trigger.claimWaiters, pc := .taking }

/-- `TakeRequestedConfigs`. -/
def take (s : System) (env : PlanEnv) : System :=
  { s with
    daemon.requested := ∅
    pc := .computing env s.daemon.requested
    log.taken := (s.log.taken.length, s.daemon.requested.keys) :: s.log.taken }

def compute (s : System) (env : PlanEnv) (held : StrMap String) : System :=
  let daemon := s.daemon.planTaken held env
  match daemon.phase with
  | .planned pl =>
    { s with
      daemon := daemon
      pc := .executing
      log.planned := (s.log.current, pl.sections.map Section.name) :: s.log.planned }
  | _ => { s with daemon := daemon, pc := .requeuing }

def requeue (s : System) : System :=
  { s with trigger := s.trigger.requeueWaiters, pc := .sleeping }

def execute (s : System) (env : ExecEnv) : System :=
  { s with
    daemon := s.daemon.step (.execute env)
    pc := .completing
    log.executed := s.log.current :: s.log.executed }

/-- `completeWaiters`, and the end of the cycle when the execution failed. -/
def complete (s : System) : System :=
  { s with
    clients := closeAll s.clients s.trigger.inflight
    trigger.inflight := []
    pc := if s.daemon.phase.plan.isSome then .beginning else .sleeping }

def begin (s : System) : System :=
  { s with trigger := s.trigger.beginRestarts s.daemon.planSections, pc := .applying }

def apply (s : System) (settings : Settings) (env : HostEnv) : System :=
  { s with daemon := s.daemon.step (.applyRestarts settings env), pc := .ending }

def endRestarts (s : System) : System :=
  { s with trigger := s.trigger.endRestarts, pc := .finalizing }

def finalize (s : System) : System :=
  { s with daemon := s.daemon.step .finish, reloadSignaled := false, pc := .sleeping }

/-- The sleep ends: interrupted by the signal on the channel, or by the timer. -/
def sleepEnds (s : System) (interrupted : Bool) : System :=
  { s with
    reloadSignaled := s.reloadSignaled || interrupted && s.token
    token := s.token && !interrupted
    pc := .top }

end System

inductive Act
  | check (c : Nat) (sections : List String)
  | queue (c : Nat)
  | count (c : Nat)
  | register (c : Nat)
  | wake (c : Nat)
  | forget (c : Nat)
  /-- A signal on the reload channel from elsewhere: `SIGHUP`, an LDAP change. -/
  | reload
  | consume
  | poll (skipIdlePolls : Bool)
  | recount
  | loadAndParse (load : StagedLoad) (fs : Files) (raw : MtaConfig)
  | loadFails (load : Option StagedLoad)
  | claim
  | take (env : PlanEnv)
  | compute
  | requeue
  | execute (env : ExecEnv)
  | complete
  | begin
  | apply (settings : Settings) (env : HostEnv)
  | endRestarts
  | finalize
  | sleepEnds (interrupted : Bool)

namespace System

/-- One step.  A step that is not the next one of its client, or of the loop,
changes nothing. -/
def step (s : System) : Act → System
  | .check c sections => if (s.clients c).stage = .idle then s.check c sections else s
  | .queue c => if (s.clients c).stage = .checked then s.queue c else s
  | .count c => if (s.clients c).stage = .queued then s.count c else s
  | .register c => if (s.clients c).stage = .counted then s.register c else s
  | .wake c => if (s.clients c).stage = .registered then s.wake c else s
  | .forget c => if (s.clients c).stage = .returned then s.forget c else s
  | .reload => { s with token := true }
  | .consume => match s.pc with | .top => s.consume | _ => s
  | .poll skipIdlePolls => match s.pc with | .polling => s.poll skipIdlePolls | _ => s
  | .recount => match s.pc with | .counting => s.recount | _ => s
  | .loadAndParse load fs raw =>
    match s.pc with | .loading => s.loadAndParse load fs raw | _ => s
  | .loadFails load => match s.pc with | .loading => s.loadFails load | _ => s
  | .claim => match s.pc with | .claiming => s.claim | _ => s
  | .take env => match s.pc with | .taking => s.take env | _ => s
  | .compute => match s.pc with | .computing env held => s.compute env held | _ => s
  | .requeue => match s.pc with | .requeuing => s.requeue | _ => s
  | .execute env => match s.pc with | .executing => s.execute env | _ => s
  | .complete => match s.pc with | .completing => s.complete | _ => s
  | .begin => match s.pc with | .beginning => s.begin | _ => s
  | .apply settings env => match s.pc with | .applying => s.apply settings env | _ => s
  | .endRestarts => match s.pc with | .ending => s.endRestarts | _ => s
  | .finalize => match s.pc with | .finalizing => s.finalize | _ => s
  | .sleepEnds interrupted => match s.pc with | .sleeping => s.sleepEnds interrupted | _ => s

def run (s : System) (acts : List Act) : System :=
  acts.foldl step s

/-- The steps that change something, each where it is the next one. -/
inductive Moves (s : System) : Act → System → Prop
  | check {c : Nat} (sections : List String) (h : (s.clients c).stage = .idle) :
      Moves s (.check c sections) (s.check c sections)
  | queue {c : Nat} (h : (s.clients c).stage = .checked) : Moves s (.queue c) (s.queue c)
  | count {c : Nat} (h : (s.clients c).stage = .queued) : Moves s (.count c) (s.count c)
  | register {c : Nat} (h : (s.clients c).stage = .counted) : Moves s (.register c) (s.register c)
  | wake {c : Nat} (h : (s.clients c).stage = .registered) : Moves s (.wake c) (s.wake c)
  | forget {c : Nat} (h : (s.clients c).stage = .returned) : Moves s (.forget c) (s.forget c)
  | reload : Moves s .reload { s with token := true }
  | consume (h : s.pc = .top) : Moves s .consume s.consume
  | poll (skipIdlePolls : Bool) (h : s.pc = .polling) :
      Moves s (.poll skipIdlePolls) (s.poll skipIdlePolls)
  | recount (h : s.pc = .counting) : Moves s .recount s.recount
  | loadAndParse (load : StagedLoad) (fs : Files) (raw : MtaConfig) (h : s.pc = .loading) :
      Moves s (.loadAndParse load fs raw) (s.loadAndParse load fs raw)
  | loadFails (load : Option StagedLoad) (h : s.pc = .loading) :
      Moves s (.loadFails load) (s.loadFails load)
  | claim (h : s.pc = .claiming) : Moves s .claim s.claim
  | take (env : PlanEnv) (h : s.pc = .taking) : Moves s (.take env) (s.take env)
  | compute {env : PlanEnv} {held : StrMap String} (h : s.pc = .computing env held) :
      Moves s .compute (s.compute env held)
  | requeue (h : s.pc = .requeuing) : Moves s .requeue s.requeue
  | execute (env : ExecEnv) (h : s.pc = .executing) : Moves s (.execute env) (s.execute env)
  | complete (h : s.pc = .completing) : Moves s .complete s.complete
  | begin (h : s.pc = .beginning) : Moves s .begin s.begin
  | apply (settings : Settings) (env : HostEnv) (h : s.pc = .applying) :
      Moves s (.apply settings env) (s.apply settings env)
  | endRestarts (h : s.pc = .ending) : Moves s .endRestarts s.endRestarts
  | finalize (h : s.pc = .finalizing) : Moves s .finalize s.finalize
  | sleepEnds (interrupted : Bool) (h : s.pc = .sleeping) :
      Moves s (.sleepEnds interrupted) (s.sleepEnds interrupted)

/-- **What a step can do.** -/
theorem step_cases (s : System) (a : Act) : s.step a = s ∨ Moves s a (s.step a) := by
  cases a
  case reload => exact Or.inr .reload
  -- Every other step has one guard, which is the premise of its constructor.
  all_goals
    simp only [step]
    split
    · exact Or.inr (by constructor; assumption)
    · exact Or.inl rfl

/-- Every step of a run meets a condition, in the state in which it is made. -/
def Along (cond : System → Act → Prop) (s : System) : List Act → Prop
  | [] => True
  | a :: rest => cond s a ∧ Along cond (s.step a) rest

theorem run_induction_along {motive : System → Prop} {cond : System → Act → Prop} {s : System}
    {acts : List Act} (hs : motive s)
    (hstep : ∀ s a s', motive s → cond s a → Moves s a s' → motive s')
    (hacts : Along cond s acts) : motive (s.run acts) := by
  induction acts generalizing s with
  | nil => exact hs
  | cons a rest ih =>
    refine ih ?_ hacts.2
    rcases s.step_cases a with heq | hmoves
    · rwa [heq]
    · exact hstep s a _ hs hacts.1 hmoves

theorem along_of_forall {cond : System → Act → Prop} {acts : List Act}
    (hall : ∀ a ∈ acts, ∀ s, cond s a) (s : System) : Along cond s acts := by
  induction acts generalizing s with
  | nil => trivial
  | cons a rest ih =>
    exact ⟨hall a (by simp) s, ih (fun a ha => hall a (List.mem_cons_of_mem _ ha)) _⟩

theorem along_and {first second : System → Act → Prop} {s : System} {acts : List Act}
    (hfirst : Along first s acts) (hsecond : Along second s acts) :
    Along (fun s a => first s a ∧ second s a) s acts := by
  induction acts generalizing s with
  | nil => trivial
  | cons a rest ih => exact ⟨⟨hfirst.1, hsecond.1⟩, ih hfirst.2 hsecond.2⟩

theorem run_append (s : System) (before after : List Act) :
    s.run (before ++ after) = (s.run before).run after :=
  List.foldl_append

/-- A step of the run met `start`, and every step after it met `keep`. -/
def Since (start keep : System → Act → Prop) (s : System) (acts : List Act) : Prop :=
  ∃ before a after, acts = before ++ a :: after ∧ start (s.run before) a ∧
    Along keep ((s.run before).step a) after

theorem run_induction {motive : System → Prop} {s : System} (hs : motive s)
    (hstep : ∀ s a s', motive s → Moves s a s' → motive s') (acts : List Act) :
    motive (s.run acts) :=
  run_induction_along hs (fun s a s' h _ => hstep s a s' h)
    (along_of_forall (fun _ _ _ => trivial) s : Along (fun _ _ => True) s acts)

end System

/-! ## The request queue -/

theorem getElem?_addRequestedConfigs (sections : List String) (requested : StrMap String)
    (name : String) :
    (Daemon.addRequestedConfigs sections requested)[name]? =
      if name ∈ sections then some name else requested[name]? := by
  have hfold := OrdMap.getElem?_foldl_insert (fun name : String => name) (fun _ => true) sections
    requested name
  simpa [Daemon.addRequestedConfigs] using hfold

theorem mem_addRequestedConfigs (sections : List String) (requested : StrMap String)
    (name : String) :
    name ∈ Daemon.addRequestedConfigs sections requested ↔ name ∈ sections ∨ name ∈ requested := by
  rw [OrdMap.mem_iff_getElem?_isSome, OrdMap.mem_iff_getElem?_isSome,
    getElem?_addRequestedConfigs]
  by_cases hmem : name ∈ sections <;> simp [hmem]

theorem addRequestedConfigs_comm (first second : List String) (requested : StrMap String) :
    Daemon.addRequestedConfigs first (Daemon.addRequestedConfigs second requested) =
      Daemon.addRequestedConfigs second (Daemon.addRequestedConfigs first requested) := by
  apply Std.ExtTreeMap.ext_getElem?
  intro name
  simp only [getElem?_addRequestedConfigs]
  by_cases hfirst : name ∈ first <;> by_cases hsecond : name ∈ second <;> simp [hfirst, hsecond]

theorem addRequestedConfigs_keys_onto (sections : List String) (requested : StrMap String) :
    Daemon.addRequestedConfigs (Daemon.addRequestedConfigs sections ∅).keys requested =
      Daemon.addRequestedConfigs sections requested := by
  apply Std.ExtTreeMap.ext_getElem?
  intro name
  simp [getElem?_addRequestedConfigs, mem_addRequestedConfigs]

namespace System

/-! ## The cycles of the daemon -/

/-- The phase of the cycle at each point of the loop. -/
def PhaseFits (s : System) : Prop :=
  match s.pc with
  | .executing => ∃ pl, s.daemon.phase = .planned pl
  | .completing => s.daemon.phase = .idle ∨ ∃ pl, s.daemon.phase = .executed pl
  | .beginning => ∃ pl, s.daemon.phase = .executed pl
  | .applying => ∃ pl, s.daemon.phase = .executed pl
  | .ending => s.daemon.phase = .completed
  | .finalizing => s.daemon.phase = .completed
  | _ => s.daemon.phase = .idle

theorem PhaseFits.at_pc {s : System} {pc : Pc} (hfits : s.PhaseFits) (hpc : s.pc = pc) :
    ({ s with pc := pc } : System).PhaseFits := by
  subst hpc
  exact hfits

/-- **What the second half of a plan can do.** -/
theorem planTaken_cases (d : Daemon) (held : StrMap String) (env : PlanEnv) :
    (Configd.compute (({ d with requested := held } : Daemon).input env) = none ∧
        d.planTaken held env = { d with
          snap := (({ d with requested := held } : Daemon).input env).cur
          requested := Daemon.addRequestedConfigs held.keys d.requested }) ∨
      ∃ pl, Configd.compute (({ d with requested := held } : Daemon).input env) = some pl ∧
        d.planTaken held env =
          { ({ d with requested := held } : Daemon).adopt env pl with
            requested := d.requested } := by
  unfold Daemon.planTaken
  rcases Daemon.plan_cases { d with requested := held } env with ⟨hnone, hplan⟩ | ⟨pl, hpl, hplan⟩
  · refine Or.inl ⟨hnone, ?_⟩
    rw [hplan]
    simp only
    rw [addRequestedConfigs_keys_onto]
  · refine Or.inr ⟨pl, hpl, ?_⟩
    rw [hplan]
    rfl

/-- **What the step `compute` can do.** -/
theorem compute_cases {s : System} (hidle : s.daemon.phase = .idle) (env : PlanEnv)
    (held : StrMap String) :
    ((s.daemon.planTaken held env).phase = .idle ∧
        (s.daemon.planTaken held env).requested =
          Daemon.addRequestedConfigs held.keys s.daemon.requested ∧
        s.compute env held = { s with daemon := s.daemon.planTaken held env, pc := .requeuing }) ∨
      ∃ pl, (s.daemon.planTaken held env).phase = .planned pl ∧
        (s.daemon.planTaken held env).requested = s.daemon.requested ∧
        s.compute env held = { s with
          daemon := s.daemon.planTaken held env
          pc := .executing
          log.planned := (s.log.current, pl.sections.map Section.name) :: s.log.planned } := by
  rcases planTaken_cases s.daemon held env with ⟨-, hplan⟩ | ⟨pl, -, hplan⟩
  · have hphase : (s.daemon.planTaken held env).phase = .idle := by
      rw [hplan]
      exact hidle
    exact Or.inl ⟨hphase, by rw [hplan], by simp [compute, hphase]⟩
  · right
    have hphase : ∃ pl', (s.daemon.planTaken held env).phase = .planned pl' := by
      rw [hplan]
      exact ⟨_, rfl⟩
    obtain ⟨pl', hpl'⟩ := hphase
    exact ⟨pl', hpl', by rw [hplan], by simp [compute, hpl']⟩

theorem phaseFits_moves {s s' : System} {a : Act} (hs : s.PhaseFits) (hmoves : Moves s a s') :
    s'.PhaseFits := by
  unfold PhaseFits at hs
  cases hmoves with
  | check sections h => exact hs
  | queue h => exact hs
  | count h => exact hs
  | register h => exact hs
  | wake h => exact hs
  | forget h => exact hs
  | reload => exact hs
  | consume h =>
    rw [h] at hs
    exact hs
  | poll skip h =>
    rw [h] at hs
    unfold poll PhaseFits
    cases s.isIdlePoll skip <;> exact hs
  | recount h =>
    rw [h] at hs
    exact hs
  | loadAndParse load fs raw h =>
    rw [h] at hs
    have hidle : s.daemon.phase = .idle := hs
    simp [PhaseFits, loadAndParse, Daemon.step, hidle]
  | loadFails load h =>
    rw [h] at hs
    have hidle : s.daemon.phase = .idle := hs
    cases load <;> simp [PhaseFits, loadFails, Daemon.step, hidle]
  | claim h =>
    rw [h] at hs
    exact hs
  | take env h =>
    rw [h] at hs
    exact hs
  | @compute env held h =>
    rw [h] at hs
    rcases compute_cases hs env held with ⟨hidle, -, heq⟩ | ⟨pl, hpl, -, heq⟩
    · simp [PhaseFits, heq, hidle]
    · simp [PhaseFits, heq, hpl]
  | requeue h =>
    rw [h] at hs
    exact hs
  | execute env h =>
    rw [h] at hs
    obtain ⟨pl, hpl⟩ := hs
    simp only [PhaseFits, execute, Daemon.step, hpl, Daemon.executePlan]
    cases (Configd.execute env pl).failed <;> simp
  | complete h =>
    rw [h] at hs
    rcases hs with hidle | ⟨pl, hpl⟩
    · simp [PhaseFits, complete, hidle, Phase.plan]
    · simp [PhaseFits, complete, hpl, Phase.plan]
  | begin h =>
    rw [h] at hs
    exact hs
  | apply settings env h =>
    rw [h] at hs
    obtain ⟨pl, hpl⟩ := hs
    simp [PhaseFits, apply, Daemon.step, hpl, Daemon.applyRestarts]
  | endRestarts h =>
    rw [h] at hs
    exact hs
  | finalize h =>
    rw [h] at hs
    have hcompleted : s.daemon.phase = .completed := hs
    simp [PhaseFits, finalize, Daemon.step, hcompleted]
  | sleepEnds interrupted h =>
    rw [h] at hs
    exact hs

theorem phaseFits_run (acts : List Act) : (run {} acts).PhaseFits :=
  run_induction (motive := PhaseFits) (s := {}) rfl
    (fun _ _ _ hs hmoves => phaseFits_moves hs hmoves) acts

/-- The daemon as a cycle sees it: a call of `Plan` counts from the moment it took
the requested sections. -/
def cycles (s : System) : Daemon :=
  match s.pc with
  | .computing env held => s.daemon.planTaken held env
  | _ => s.daemon

theorem cycles_of_idle_pc {s : System} (h : ∀ env held, s.pc ≠ .computing env held) :
    s.cycles = s.daemon := by
  unfold cycles
  split
  · rename_i env held hpc
    exact absurd hpc (h env held)
  · rfl

theorem cycles_queue (s : System) (c : Nat) :
    (s.queue c).cycles = s.cycles.step (.request (s.clients c).sections) := by
  have hpc : (s.queue c).pc = s.pc := rfl
  have hdaemon : (s.queue c).daemon = s.daemon.step (.request (s.clients c).sections) := rfl
  rw [cycles, cycles, hpc, hdaemon]
  cases s.pc with
  | computing env held =>
    simp only [Daemon.planTaken, Daemon.step]
    rw [addRequestedConfigs_comm]
  | _ => rfl

theorem cycles_take {s : System} (hidle : s.daemon.phase = .idle) (env : PlanEnv) :
    (s.take env).cycles = s.daemon.step (.plan env) := by
  have hstep : s.daemon.step (.plan env) = s.daemon.plan env := by simp [Daemon.step, hidle]
  rw [hstep]
  show ({ s.daemon with requested := ∅ } : Daemon).planTaken s.daemon.requested env = _
  unfold Daemon.planTaken
  simp only
  rcases s.daemon.plan_cases env with ⟨-, hplan⟩ | ⟨pl, -, hplan⟩
  · rw [hplan, addRequestedConfigs_keys_onto]
  · rw [hplan]
    rfl

/-- **A step of the system is events of the cycle**, or none. -/
theorem cycles_moves {s s' : System} {a : Act} (hs : s.PhaseFits) (hmoves : Moves s a s') :
    ∃ events, s'.cycles = s.cycles.run events := by
  unfold PhaseFits at hs
  cases hmoves with
  | check sections h => exact ⟨[], rfl⟩
  | @queue c h => exact ⟨[.request (s.clients c).sections], cycles_queue s c⟩
  | count h => exact ⟨[], rfl⟩
  | register h => exact ⟨[], rfl⟩
  | wake h => exact ⟨[], rfl⟩
  | forget h => exact ⟨[], rfl⟩
  | reload => exact ⟨[], rfl⟩
  | consume h => exact ⟨[], by simp [cycles, consume, h]⟩
  | poll skip h =>
    refine ⟨[], ?_⟩
    unfold cycles poll
    cases s.isIdlePoll skip <;> simp [h]
  | recount h => exact ⟨[], by simp [cycles, recount, h]⟩
  | loadAndParse load fs raw h =>
    exact ⟨[.load load, .parse fs raw], by simp [cycles, loadAndParse, h]⟩
  | loadFails load h =>
    cases load with
    | none => exact ⟨[], by simp [cycles, loadFails, h]⟩
    | some load => exact ⟨[.load load], by simp [cycles, loadFails, h]⟩
  | claim h => exact ⟨[], by simp [cycles, claim, h]⟩
  | take env h =>
    rw [h] at hs
    refine ⟨[.plan env], ?_⟩
    rw [cycles_take hs, cycles_of_idle_pc (by simp [h])]
    rfl
  | @compute env held h =>
    refine ⟨[], ?_⟩
    have hbefore : s.cycles = s.daemon.planTaken held env := by simp [cycles, h]
    rw [Daemon.run_nil, hbefore]
    cases hphase : (s.daemon.planTaken held env).phase <;> simp [cycles, compute, hphase]
  | requeue h => exact ⟨[], by simp [cycles, requeue, h]⟩
  | execute env h => exact ⟨[.execute env], by simp [cycles, execute, h]⟩
  | complete h =>
    refine ⟨[], ?_⟩
    unfold cycles complete
    cases s.daemon.phase.plan.isSome <;> simp [h]
  | begin h => exact ⟨[], by simp [cycles, begin, h]⟩
  | apply settings env h =>
    exact ⟨[.applyRestarts settings env], by simp [cycles, apply, h]⟩
  | endRestarts h => exact ⟨[], by simp [cycles, endRestarts, h]⟩
  | finalize h => exact ⟨[.finish], by simp [cycles, finalize, h]⟩
  | sleepEnds interrupted h => exact ⟨[], by simp [cycles, sleepEnds, h]⟩

/-- **The system runs cycles**: whatever the clients do, the daemon is in a state
that a run of its cycles reaches. -/
theorem exists_events (acts : List Act) :
    ∃ events, (run {} acts).cycles = Daemon.run {} events := by
  have hrun : (run {} acts).PhaseFits ∧ ∃ events, (run {} acts).cycles = Daemon.run {} events := by
    refine run_induction (motive := fun s => s.PhaseFits ∧
      ∃ events, s.cycles = Daemon.run {} events) (s := {}) ⟨rfl, [], rfl⟩ ?_ acts
    rintro s a s' ⟨hfits, events, hevents⟩ hmoves
    obtain ⟨more, hmore⟩ := cycles_moves hfits hmoves
    exact ⟨phaseFits_moves hfits hmoves, events ++ more, by rw [hmore, hevents, Daemon.run_append]⟩
  exact hrun.2

end System
end Configd
