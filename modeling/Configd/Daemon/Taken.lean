import Configd.Daemon.IdlePolls

/-!
# The sections that plans take

A call of `Plan` empties the request queue and answers for the sections it took:
a rejected plan queues them again, and an accepted one includes those it considers.
Two results say so for whole runs, in terms of the log of the calls.

* `Accounted` — every section that a call took is queued again, held by a call, or
  was taken by a call that succeeded;
* `Includes` — a plan includes a section that its call took, when the cycle
  considers it.
-/

namespace Configd

open Lib

/-! ## The log of the calls -/

/-- The calls of `Plan` are numbered in order. -/
structure PlanLog.Numbered (log : PlanLog) : Prop where
  taken : ∀ entry ∈ log.taken, entry.1 < log.taken.length
  unique : ∀ n first second, (n, first) ∈ log.taken → (n, second) ∈ log.taken → first = second
  planned : ∀ entry ∈ log.planned, entry.1 < log.taken.length

theorem PlanLog.Numbered.take {log : PlanLog} (h : log.Numbered) (requested : List String) :
    ({ log with taken := (log.taken.length, requested) :: log.taken } : PlanLog).Numbered where
  taken := by
    intro entry hentry
    rw [List.length_cons]
    rcases List.mem_cons.mp hentry with hnew | hold
    · rw [hnew]
      show log.taken.length < log.taken.length + 1
      omega
    · have hlt := h.taken entry hold
      omega
  unique := by
    -- The new number is larger than all others.
    have hfresh : ∀ list, (log.taken.length, list) ∉ log.taken := by
      intro list hmem
      have hlt : log.taken.length < log.taken.length := h.taken _ hmem
      omega
    intro n first second hfirst hsecond
    rcases List.mem_cons.mp hfirst with hnew | hold <;>
      rcases List.mem_cons.mp hsecond with hnew' | hold'
    · rw [Prod.mk.injEq] at hnew hnew'
      rw [hnew.2, hnew'.2]
    · rw [Prod.mk.injEq] at hnew
      exact absurd (hnew.1 ▸ hold') (hfresh second)
    · rw [Prod.mk.injEq] at hnew'
      exact absurd (hnew'.1 ▸ hold) (hfresh first)
    · exact h.unique n first second hold hold'
  planned := by
    intro entry hentry
    have hlt := h.planned entry hentry
    rw [List.length_cons]
    omega

theorem PlanLog.Numbered.plan {log : PlanLog} (h : log.Numbered) {requested : List String}
    (htaken : (log.current, requested) ∈ log.taken) (sections : List String) :
    ({ log with planned := (log.current, sections) :: log.planned } : PlanLog).Numbered where
  taken := h.taken
  unique := h.unique
  planned := by
    intro entry hentry
    rcases List.mem_cons.mp hentry with hnew | hold
    · rw [hnew]
      exact h.taken (log.current, requested) htaken
    · exact h.planned entry hold

theorem PlanLog.Numbered.congr {log log' : PlanLog} (h : log.Numbered)
    (htaken : log'.taken = log.taken) (hplanned : log'.planned = log.planned) : log'.Numbered := by
  refine ⟨?_, ?_, ?_⟩
  · rw [htaken]
    exact h.taken
  · rw [htaken]
    exact h.unique
  · rw [htaken, hplanned]
    exact h.planned

/-- A call of `Plan`, this one or a later one, took the section and succeeded. -/
def PlanLog.Handled (log : PlanLog) (n : Nat) (name : String) : Prop :=
  ∃ m requested, n ≤ m ∧ (m, requested) ∈ log.taken ∧ name ∈ requested ∧ log.Succeeded m

theorem PlanLog.Handled.mono {log log' : PlanLog} {n : Nat} {name : String}
    (h : log.Handled n name) (htaken : ∀ entry ∈ log.taken, entry ∈ log'.taken)
    (hplanned : ∀ entry ∈ log.planned, entry ∈ log'.planned) : log'.Handled n name := by
  obtain ⟨m, requested, hle, hmem, hname, sections, hsections⟩ := h
  exact ⟨m, requested, hle, htaken _ hmem, hname, sections, hplanned _ hsections⟩

theorem Daemon.queue_step (d : Daemon) {e : Event} (hrequest : ∀ sections, e ≠ .request sections)
    (hplan : e.isPlan = false) :
    (d.step e).requested = d.requested ∧ (d.step e).forced = d.forced := by
  rcases d.step_cases e with heq | ⟨sections, he, -⟩ | ⟨load, -, -, heq⟩ | ⟨fs, raw, -, -, heq⟩ |
    ⟨env, he, -⟩ | ⟨env, pl, -, -, heq⟩ | ⟨settings, env, pl, -, -, heq⟩ | ⟨-, -, heq⟩
  · rw [heq]
    exact ⟨rfl, rfl⟩
  · exact absurd he (hrequest sections)
  · rw [heq]
    exact ⟨rfl, rfl⟩
  · rw [heq]
    exact ⟨rfl, rfl⟩
  · rw [he] at hplan
    cases hplan
  · rw [heq]
    exact ⟨rfl, rfl⟩
  · rw [heq]
    exact ⟨rfl, rfl⟩
  · rw [heq]
    exact ⟨rfl, rfl⟩

namespace System

/-- A section that the call of `Plan` took is queued again, held, or was taken by a
call that succeeded. -/
def Placed (s : System) (n : Nat) (name : String) : Prop :=
  name ∈ s.daemon.requested ∨ (∃ held ∈ s.pc.held, name ∈ held) ∨ s.log.Handled n name

/-- **Every section that a call of `Plan` took has a place.** -/
structure Accounted (s : System) : Prop where
  numbered : s.log.Numbered
  sections : ∀ entry ∈ s.log.taken, ∀ name ∈ entry.2, s.Placed entry.1 name

theorem Accounted.frame {s s' : System} (h : s.Accounted) (hlog : s'.log.taken = s.log.taken)
    (hnumbered : s'.log.Numbered)
    (hplaced : ∀ entry ∈ s.log.taken, ∀ name, s.Placed entry.1 name → s'.Placed entry.1 name) :
    s'.Accounted where
  numbered := hnumbered
  sections := by
    rw [hlog]
    exact fun entry hentry name hname =>
      hplaced entry hentry name (h.sections entry hentry name hname)

theorem Accounted.outside {s s' : System} (h : s.Accounted) (hlog : s'.log.taken = s.log.taken)
    (hplanned : s'.log.planned = s.log.planned)
    (hrequested : ∀ name ∈ s.daemon.requested, name ∈ s'.daemon.requested)
    (hheld : ∀ held ∈ s.pc.held, held = ∅ ∨ held ∈ s'.pc.held) : s'.Accounted := by
  refine h.frame hlog (h.numbered.congr hlog hplanned) fun entry _ name hplaced => ?_
  rcases hplaced with hin | ⟨held, hmem, hname⟩ | hhandled
  · exact Or.inl (hrequested name hin)
  · rcases hheld held hmem with hempty | hkept
    · simp [hempty] at hname
    · exact Or.inr (Or.inl ⟨held, hkept, hname⟩)
  · exact Or.inr (Or.inr (hhandled.mono (by simp [hlog]) (by simp [hplanned])))

theorem accounted_take {s : System} (h : s.Accounted) (hpc : s.pc = .taking) (env : PlanEnv) :
    (s.take env).Accounted := by
  refine ⟨h.numbered.take _, ?_⟩
  intro entry hentry name hname
  rcases List.mem_cons.mp hentry with hnew | hold
  · rw [hnew] at hname
    exact Or.inr (Or.inl ⟨s.daemon.requested, rfl, Std.ExtTreeMap.mem_keys.mp hname⟩)
  · rcases h.sections entry hold name hname with hin | ⟨held, hmem, -⟩ | hhandled
    · exact Or.inr (Or.inl ⟨s.daemon.requested, rfl, hin⟩)
    · rw [hpc] at hmem
      cases hmem
    · exact Or.inr (Or.inr (hhandled.mono (fun _ hmem => List.mem_cons_of_mem _ hmem)
        fun _ hmem => hmem))

theorem accounted_compute {s : System} (h : s.Accounted) {env : PlanEnv} {held : StrMap String}
    (hpc : s.pc = .computing env held) (hidle : s.daemon.phase = .idle)
    (htaken : (s.log.current, held.keys) ∈ s.log.taken) : (s.compute env held).Accounted := by
  rcases compute_cases hidle env held with ⟨-, hrequested, heq⟩ | ⟨pl, -, hrequested, heq⟩
  · -- Rejected: what was held is queued again.
    rw [heq]
    refine h.frame rfl h.numbered fun entry _ name hplaced => ?_
    rcases hplaced with hin | ⟨held', hmem, hname⟩ | hhandled
    · refine Or.inl ?_
      show name ∈ (s.daemon.planTaken held env).requested
      rw [hrequested, mem_addRequestedConfigs]
      exact Or.inr hin
    · rw [hpc] at hmem
      cases hmem
      refine Or.inl ?_
      show name ∈ (s.daemon.planTaken held env).requested
      rw [hrequested, mem_addRequestedConfigs]
      exact Or.inl (Std.ExtTreeMap.mem_keys.mpr hname)
    · exact Or.inr (Or.inr hhandled)
  · -- It succeeded, and it is the last of the calls.
    rw [heq]
    refine h.frame rfl (h.numbered.plan htaken _) fun entry hentry name hplaced => ?_
    rcases hplaced with hin | ⟨held', hmem, hname⟩ | hhandled
    · refine Or.inl ?_
      show name ∈ (s.daemon.planTaken held env).requested
      rwa [hrequested]
    · rw [hpc] at hmem
      cases hmem
      have hlt := h.numbered.taken entry hentry
      refine Or.inr (Or.inr ⟨s.log.current, held.keys, ?_, htaken,
        Std.ExtTreeMap.mem_keys.mpr hname, _, List.mem_cons_self⟩)
      unfold PlanLog.current
      omega
    · exact Or.inr (Or.inr (hhandled.mono (fun _ hmem => hmem)
        fun _ hmem => List.mem_cons_of_mem _ hmem))

/-- **Every step keeps account of the sections that were taken.** -/
theorem accounted_moves {s s' : System} {a : Act} (h : s.Accounted) (hfits : s.PhaseFits)
    (hheld : ∀ held ∈ s.pc.held, (s.log.current, held.keys) ∈ s.log.taken)
    (hmoves : Moves s a s') : s'.Accounted := by
  cases hmoves with
  | @queue c hstage =>
    exact h.outside rfl rfl
      (fun name hname => (mem_addRequestedConfigs _ _ _).mpr (Or.inr hname))
      fun held hmem => Or.inr hmem
  | take env hpc => exact accounted_take h hpc env
  | @compute env held hpc =>
    exact accounted_compute h hpc (hfits.at_pc hpc) (hheld held (by simp [hpc, Pc.held]))
  | loadAndParse load fs raw hpc =>
    refine h.outside rfl rfl (fun name hname => ?_) (by simp [hpc, Pc.held])
    show name ∈ ((s.daemon.step (.load load)).step (.parse fs raw)).requested
    rwa [(Daemon.queue_step _ (by simp) rfl).1, (Daemon.queue_step _ (by simp) rfl).1]
  | loadFails load hpc =>
    refine h.outside rfl rfl (fun name hname => ?_) (by simp [hpc, Pc.held])
    cases load with
    | none => exact hname
    | some load =>
      show name ∈ (s.daemon.step (.load load)).requested
      rwa [(Daemon.queue_step _ (by simp) rfl).1]
  | execute env hpc =>
    refine h.outside rfl rfl (fun name hname => ?_) (by simp [hpc, Pc.held])
    show name ∈ (s.daemon.step (.execute env)).requested
    rwa [(Daemon.queue_step _ (by simp) rfl).1]
  | apply settings env hpc =>
    refine h.outside rfl rfl (fun name hname => ?_) (by simp [hpc, Pc.held])
    show name ∈ (s.daemon.step (.applyRestarts settings env)).requested
    rwa [(Daemon.queue_step _ (by simp) rfl).1]
  | finalize hpc =>
    refine h.outside rfl rfl (fun name hname => ?_) (by simp [hpc, Pc.held])
    show name ∈ (s.daemon.step .finish).requested
    rwa [(Daemon.queue_step _ (by simp) rfl).1]
  | check sections hstage =>
    exact h.outside rfl rfl (fun _ hname => hname) fun _ hmem => Or.inr hmem
  | count hstage => exact h.outside rfl rfl (fun _ hname => hname) fun _ hmem => Or.inr hmem
  | register hstage => exact h.outside rfl rfl (fun _ hname => hname) fun _ hmem => Or.inr hmem
  | wake hstage => exact h.outside rfl rfl (fun _ hname => hname) fun _ hmem => Or.inr hmem
  | forget hstage => exact h.outside rfl rfl (fun _ hname => hname) fun _ hmem => Or.inr hmem
  | reload => exact h.outside rfl rfl (fun _ hname => hname) fun _ hmem => Or.inr hmem
  | consume hpc => exact h.outside rfl rfl (fun _ hname => hname) (by simp [hpc, Pc.held])
  | poll skip hpc => exact h.outside rfl rfl (fun _ hname => hname) (by simp [hpc, Pc.held])
  | recount hpc => exact h.outside rfl rfl (fun _ hname => hname) (by simp [hpc, Pc.held])
  | claim hpc => exact h.outside rfl rfl (fun _ hname => hname) (by simp [hpc, Pc.held])
  | requeue hpc => exact h.outside rfl rfl (fun _ hname => hname) (by simp [hpc, Pc.held])
  | complete hpc => exact h.outside rfl rfl (fun _ hname => hname) (by simp [hpc, Pc.held])
  | begin hpc => exact h.outside rfl rfl (fun _ hname => hname) (by simp [hpc, Pc.held])
  | endRestarts hpc => exact h.outside rfl rfl (fun _ hname => hname) (by simp [hpc, Pc.held])
  | sleepEnds interrupted hpc =>
    exact h.outside rfl rfl (fun _ hname => hname) (by simp [hpc, Pc.held])

/-! ## What a plan includes -/

theorem forced_moves {s s' : System} {a : Act} (hmoves : Moves s a s') :
    s'.daemon.forced = s.daemon.forced := by
  cases hmoves with
  | @compute env held h =>
    rw [(s.compute_frame env held).1]
    rcases planTaken_cases s.daemon held env with ⟨-, hplan⟩ | ⟨pl, -, hplan⟩
    · rw [hplan]
    · rw [hplan]
      rfl
  | loadAndParse load fs raw h =>
    exact (Daemon.queue_step _ (by simp) rfl).2.trans (Daemon.queue_step _ (by simp) rfl).2
  | loadFails load h =>
    cases load with
    | none => rfl
    | some load => exact (s.daemon.queue_step (e := .load load) (by simp) rfl).2
  | execute env h => exact (Daemon.queue_step _ (by simp) rfl).2
  | apply settings env h => exact (Daemon.queue_step _ (by simp) rfl).2
  | finalize h => exact (Daemon.queue_step _ (by simp) rfl).2
  | _ => rfl

/-- **A plan includes what it consumes**: every section it considers that was
requested or has a variable that changed since the baseline. -/
theorem mem_sections_of_consumed {s : System} (hforced : s.daemon.forced = ∅) {env : PlanEnv}
    {held : StrMap String} {pl : Plan} (hpl : Configd.compute (s.heldInput env held) = some pl)
    {sn : String} {sec : MtaConfigSection} (hsec : s.daemon.conf.sections[sn]? = some sec)
    (hconsidered : isConsidered (s.heldInput env held) sn = true)
    (hconsumed : sn ∈ held ∨ diffSection (s.heldInput env held) sn sec ≠ []) :
    sn ∈ pl.sections.map Section.name := by
  have hprocessed : isProcessed (s.heldInput env held) sn sec = true := by
    by_contra hnot
    obtain ⟨-, hrequested, -, hchanges, -⟩ :=
      (not_processed_iff hconsidered).mp (Bool.eq_false_iff.mpr hnot)
    have hcompared : isCompared (s.heldInput env held) sn = true := by
      simp [isCompared, heldInput, Daemon.input, hforced]
    rw [changesOf, if_pos hcompared] at hchanges
    rcases hconsumed with hmem | hdiff
    · exact hrequested (Std.ExtTreeMap.mem_keys.mpr hmem)
    · exact hdiff hchanges
  have hplanned := (mem_plan_sections hpl rfl ⟨sn, reasonsOf (s.heldInput env held) sn sec⟩).mpr
    ⟨sec, hsec, hprocessed, rfl⟩
  exact List.mem_map.mpr ⟨_, hplanned, rfl⟩

end System

/-- A plan includes the section if its call took it. -/
def PlanLog.Includes (log : PlanLog) (name : String) : Prop :=
  ∀ n requested sections, (n, requested) ∈ log.taken → name ∈ requested →
    (n, sections) ∈ log.planned → name ∈ sections

theorem PlanLog.Includes.congr {log log' : PlanLog} {name : String} (h : log.Includes name)
    (htaken : log'.taken = log.taken) (hplanned : log'.planned = log.planned) :
    log'.Includes name := by
  intro n requested sections
  rw [htaken, hplanned]
  exact h n requested sections

namespace System

theorem compute_log {s : System} (hidle : s.daemon.phase = .idle) (env : PlanEnv)
    (held : StrMap String) :
    (s.compute env held).log = s.log ∨
      ∃ pl, Configd.compute (s.heldInput env held) = some pl ∧
        (s.compute env held).log = { s.log with
          planned := (s.log.current, pl.sections.map Section.name) :: s.log.planned } := by
  rcases planTaken_cases s.daemon held env with ⟨-, hplan⟩ | ⟨pl, hpl, hplan⟩
  · have hphase : (s.daemon.planTaken held env).phase = .idle := by
      rw [hplan]
      exact hidle
    exact Or.inl (by simp [compute, hphase])
  · have hphase : (s.daemon.planTaken held env).phase = .planned (Daemon.holdDeferred
        s.daemon.deferred pl ({ s.daemon with requested := held } : Daemon).releases
        env.systemd).2 := by
      rw [hplan]
      rfl
    refine Or.inr ⟨pl, hpl, ?_⟩
    simp only [compute, hphase, Daemon.holdDeferred]
    split <;> rfl

/-- The step is not an accepted plan that took the section without considering it. -/
def considersHeld (name : String) (s : System) (a : Act) : Bool :=
  match s.pc, a with
  | .computing env held, .compute =>
    !(Configd.compute (s.heldInput env held)).isSome || !held.contains name ||
      s.daemon.conf.sections.contains name && isConsidered (s.heldInput env held) name
  | _, _ => true

theorem includes_compute {s : System} {name : String} (h : s.log.Includes name)
    (hnumbered : s.log.Numbered) (hidle : s.daemon.phase = .idle)
    (hforced : s.daemon.forced = ∅) {env : PlanEnv} {held : StrMap String}
    (hpc : s.pc = .computing env held)
    (htaken : (s.log.current, held.keys) ∈ s.log.taken)
    (hconsiders : considersHeld name s .compute = true) :
    (s.compute env held).log.Includes name := by
  rcases compute_log hidle env held with hsame | ⟨pl, hpl, hlog⟩
  · rwa [hsame]
  · rw [hlog]
    intro n requested sections hmem hname hplanned
    rcases List.mem_cons.mp hplanned with hnew | hold
    · -- The new plan: its call holds what it took.
      rw [Prod.mk.injEq] at hnew
      obtain ⟨rfl, rfl⟩ := hnew
      rw [hnumbered.unique _ _ _ hmem htaken] at hname
      have hheld : name ∈ held := Std.ExtTreeMap.mem_keys.mp hname
      have hcontains : held.contains name = true := Std.ExtTreeMap.contains_iff_mem.mpr hheld
      have hboth : name ∈ s.daemon.conf.sections ∧
          isConsidered (s.heldInput env held) name = true := by
        simpa [considersHeld, hpc, hpl, hcontains] using hconsiders
      obtain ⟨hparsed, hconsidered⟩ := hboth
      obtain ⟨sec, hsec⟩ := (OrdMap.mem_iff_getElem?_isSome _ _).mp hparsed
      exact mem_sections_of_consumed hforced hpl hsec hconsidered (Or.inl hheld)
    · exact h n requested sections hmem hname hold

/-- **A section that every cycle considers when its plan took it is included in every
such plan.** -/
theorem includes_moves {s s' : System} {a : Act} {name : String} (h : s.log.Includes name)
    (hnumbered : s.log.Numbered) (hfits : s.PhaseFits) (hforced : s.daemon.forced = ∅)
    (hheld : ∀ held ∈ s.pc.held, (s.log.current, held.keys) ∈ s.log.taken)
    (hconsiders : considersHeld name s a = true) (hmoves : Moves s a s') :
    s'.log.Includes name := by
  cases hmoves with
  | take env hpc =>
    intro n requested sections hmem hname hplanned
    rcases List.mem_cons.mp hmem with hnew | hold
    · -- No plan has the number of the new call yet.
      rw [Prod.mk.injEq] at hnew
      have hlt : n < s.log.taken.length := hnumbered.planned _ hplanned
      omega
    · exact h n requested sections hold hname hplanned
  | @compute env held hpc =>
    exact includes_compute h hnumbered (hfits.at_pc hpc) hforced hpc
      (hheld held (by simp [hpc, Pc.held])) hconsiders
  | _ => exact h.congr rfl rfl

end System
end Configd
