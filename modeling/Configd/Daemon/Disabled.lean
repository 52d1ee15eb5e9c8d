import Configd.Daemon.Owed

/-!
# Restarts of services that are disabled now

A section asks only for restarts of enabled services, but `opendkim` is restarted as long as the
MTA is enabled (`MayRestart`).  The other restarts of a plan are older: those of the carry and
those held since a `REWRITE` cycle were decided with the snapshot of their own cycle.

Such a restart gives way to a stop of the same service that the plan computes afresh: when the
service was enabled on the first run, or when a section that is processed now lists it
(`Overridden`).  `plan_restarts_enabled_iff` says that these are the only ways.
-/

namespace Configd

open Lib

/-! ## What a cycle asks of a disabled service -/

/-- The service is enabled, or it is `opendkim` on a host with an enabled MTA. -/
def MayRestart (cur : Snapshot) (service : String) : Prop :=
  cur.serviceEnabled service = true ∨ service = "opendkim" ∧ cur.serviceEnabled "mta" = true

instance (cur : Snapshot) (service : String) : Decidable (MayRestart cur service) :=
  inferInstanceAs (Decidable (_ ∨ _ ∧ _))

theorem sectionAction_of_not_mayRestart {cur : Snapshot} {service : String}
    (hnot : ¬ MayRestart cur service) :
    sectionAction cur service = if service = "archiving" then none else some .stop := by
  unfold MayRestart at hnot
  push Not at hnot
  obtain ⟨hdisabled, hopendkim⟩ := hnot
  rw [sectionAction, if_neg hdisabled]
  by_cases harchiving : service = "archiving"
  · rw [if_pos harchiving, if_pos harchiving]
  · rw [if_neg harchiving, if_neg harchiving, if_neg]
    simpa using hopendkim

/-- A fresh action replaces a stale restart of the service. -/
def Overridden (input : Input) (service : String) : Prop :=
  service ∈ input.tracked ∨
    service ≠ "archiving" ∧ input.conf.sections.toList.any (restartsNow input service) = true

instance (input : Input) (service : String) : Decidable (Overridden input service) :=
  inferInstanceAs (Decidable (_ ∨ _ ∧ _))

theorem restartAction_of_not_mayRestart {input : Input} {service : String}
    (hnot : ¬ MayRestart input.cur service) :
    restartAction input service =
      if Overridden input service then some .stop else carryAction input.carry service := by
  have hdisabled : input.cur.serviceEnabled service = false := by
    simpa using fun h => hnot (Or.inl h)
  have htoggle : toggleAction input service =
      if service ∈ input.tracked then some .stop else none := by
    simp [toggleAction, hdisabled]
  unfold restartAction Overridden
  rw [sectionAction_of_not_mayRestart hnot, htoggle]
  by_cases hsection : input.conf.sections.toList.any (restartsNow input service) = true
  · by_cases harchiving : service = "archiving"
    · -- The section is silent, so the toggle decides.
      subst harchiving
      by_cases htracked : "archiving" ∈ input.tracked <;> simp [htracked]
    · simp [hsection, harchiving]
  · by_cases htracked : service ∈ input.tracked <;> simp [hsection, htracked]

/-! ## The stale restarts of a plan -/

namespace Daemon

/-- The next plan has a restart of the service from the carry or, when the carry
has no entry of the service, from the held restarts it releases. -/
def StaleRestart (d : Daemon) (service : String) : Prop :=
  match carryAction d.carry service with
  | some action => action.IsRestart
  | none => d.releases = true ∧ Owes d.deferred service

theorem StaleRestart.mem_services {d : Daemon} {service : String} (h : d.StaleRestart service) :
    service ∈ (d.carry.restarts ++ d.deferred).map Restart.service := by
  unfold StaleRestart at h
  rw [List.map_append, List.mem_append]
  cases hcarry : carryAction d.carry service with
  | some action =>
    obtain ⟨r, hr, -⟩ := Option.map_eq_some_iff.mp hcarry
    have hservice : r.service = service := by simpa using List.find?_some hr
    exact Or.inl (List.mem_map.mpr ⟨r, List.mem_of_find?_eq_some hr, hservice⟩)
  | none =>
    rw [hcarry] at h
    obtain ⟨-, r, hr, hservice, -⟩ := h
    exact Or.inr (List.mem_map.mpr ⟨r, hr, hservice⟩)

theorem deferredRestarts_of_releases {d : Daemon} {env : PlanEnv} {pl : Plan}
    (hpl : compute (d.input env) = some pl) (hreleases : d.releases = true) :
    pl.deferredRestarts = [] := by
  rw [List.eq_nil_iff_forall_not_mem]
  intro r hr
  obtain ⟨action, haction, -⟩ :=
    (asks_plan_deferred hpl rfl r.service r.action).mp ⟨r, hr, rfl, rfl⟩
  have hnone : (d.input env).conf.sections.toList.any
      (restartsDeferred (d.input env) r.service) = false := by
    rw [List.any_eq_false]
    intro entry _
    simp only [releases, Bool.and_eq_true, List.isEmpty_iff] at hreleases
    simp [restartsDeferred, isAsked, input, hreleases.1.2, hreleases.2]
  simp [deferredAction, hnone] at haction

theorem owes_planned_iff {d : Daemon} {env : PlanEnv} {pl pl' : Plan}
    (hdistinct : (d.deferred.map Restart.service).Nodup)
    (hpl : compute (d.input env) = some pl) (hplanned : (d.adopt env pl).phase = .planned pl')
    (service : String) :
    Owes pl'.restarts service ↔
      Owes pl.restarts service ∨
        (∀ r ∈ pl.restarts, r.service ≠ service) ∧ d.releases = true ∧ Owes d.deferred service := by
  have hpl' : (holdDeferred d.deferred pl d.releases env.systemd).2 = pl' := by
    simpa [adopt] using hplanned
  rw [← hpl', holdDeferred]
  cases hreleases : d.releases with
  | false => simp
  | true =>
    rw [deferredRestarts_of_releases hpl hreleases]
    simp only [hold, List.isEmpty_nil, if_true, Bool.not_true, Bool.false_or, true_and]
    by_cases hempty : d.deferred.isEmpty = true
    · simp only [hempty, if_true]
      simp [List.isEmpty_iff.mp hempty]
    · simp only [hempty]
      exact owes_mergeRestarts_iff _ hdistinct (nodup_plan_restarts hpl rfl) service

/-- **What the plan restarts of the services that may not be restarted**: exactly
those with a stale restart that nothing overrides. -/
theorem owes_planned_iff_stale {d : Daemon} {env : PlanEnv} {pl pl' : Plan}
    (hdistinct : (d.deferred.map Restart.service).Nodup)
    (hpl : compute (d.input env) = some pl) (hplanned : (d.adopt env pl).phase = .planned pl')
    {service : String} (hnot : ¬ MayRestart d.snap service) :
    Owes pl'.restarts service ↔
      d.StaleRestart service ∧ ¬ Overridden (d.input env) service := by
  have hasks := asks_plan_restarts hpl rfl
  have haction : restartAction (d.input env) service = _ := restartAction_of_not_mayRestart hnot
  rw [owes_planned_iff hdistinct hpl hplanned, hasks.owes, hasks.forall_ne_iff, haction]
  unfold StaleRestart
  by_cases hover : Overridden (d.input env) service
  · simp [hover, Action.IsRestart]
  · have hsame : (d.input env).carry = d.carry := rfl
    simp only [hover, if_false, not_false_eq_true, and_true, hsame]
    cases carryAction d.carry service <;> simp

theorem nodup_deferred_step {d : Daemon} (h : (d.deferred.map Restart.service).Nodup) (e : Event) :
    ((d.step e).deferred.map Restart.service).Nodup := by
  rcases d.step_cases e with heq | ⟨_, -, heq⟩ | ⟨_, -, -, heq⟩ | ⟨_, _, -, -, heq⟩ |
    ⟨env, -, -, heq⟩ | ⟨_, _, -, -, heq⟩ | ⟨_, _, _, -, -, heq⟩ | ⟨-, -, heq⟩ <;> rw [heq] <;>
    try exact h
  rcases d.plan_cases env with ⟨-, hplan⟩ | ⟨pl, -, hplan⟩ <;> rw [hplan]
  · exact h
  · show ((holdDeferred d.deferred pl d.releases env.systemd).1.map Restart.service).Nodup
    have hheld : ((hold d.deferred pl.deferredRestarts env.systemd).map Restart.service).Nodup := by
      unfold hold
      split
      · exact h
      · exact nodup_mergeRestarts _ _ _
    unfold holdDeferred
    simp only
    split
    · exact hheld
    · simp

end Daemon

/-! ## The result -/

/-- A first cycle with the services `first`, a second one in which `imapd` is enabled
and a changed section restarts it, with config restarts disabled, and a third one
up to its plan, in which `imapd` is disabled. -/
def imapdDisabled (first : List String) : List Event :=
  hostnameChanges first ++ .plan { files := noFiles } :: executeAndCarry ++
    loadAndParse "b" ["mta"]

/-- **A plan restarts enabled services only**, `opendkim` on a host with an enabled
MTA apart, if and only if every stale restart of another service is overridden by
a fresh action. -/
theorem plan_restarts_enabled_iff (events : List Event) (env : PlanEnv) (pl : Plan)
    (hidle : (Daemon.run {} events).phase = .idle)
    (hplanned : (Daemon.run {} (events ++ [.plan env])).phase = .planned pl) :
    (∀ r ∈ pl.restarts, r.action.IsRestart → MayRestart (Daemon.run {} events).snap r.service) ↔
      ∀ service, (Daemon.run {} events).StaleRestart service →
        ¬ MayRestart (Daemon.run {} events).snap service →
        Overridden ((Daemon.run {} events).input env) service := by
  have hdistinct : ((Daemon.run {} events).deferred.map Restart.service).Nodup :=
    List.foldlRecOn (motive := fun d : Daemon => (d.deferred.map Restart.service).Nodup) _ _
      (by simp) fun d hd e _ => Daemon.nodup_deferred_step hd e
  rw [Daemon.run_append] at hplanned
  generalize Daemon.run {} events = d at *
  have hstep : d.run [.plan env] = d.plan env := by simp [Daemon.step, hidle]
  rw [hstep] at hplanned
  rcases d.plan_cases env with ⟨-, hplan⟩ | ⟨fresh, hfresh, hplan⟩ <;> rw [hplan] at hplanned
  · -- A rejected plan leaves the phase alone.
    simp [hidle] at hplanned
  · have howes : ∀ service, ¬ MayRestart d.snap service → (Owes pl.restarts service ↔ _) :=
      fun service hnot => Daemon.owes_planned_iff_stale hdistinct hfresh hplanned hnot
    constructor
    · intro hall service hstale hnot
      by_contra hover
      obtain ⟨r, hr, rfl, hrestart⟩ := (howes service hnot).mpr ⟨hstale, hover⟩
      exact hnot (hall r hr hrestart)
    · intro hall r hr hrestart
      by_contra hnot
      obtain ⟨hstale, hover⟩ := (howes r.service hnot).mp ⟨r, hr, rfl, hrestart⟩
      exact hover (hall r.service hstale hnot)

/-- The restart of a service that was enabled on the first run gives way to a stop. -/
theorem plan_restarts_enabled_tracked :
    ∃ pl, (Daemon.run {} (imapdDisabled ["mta", "imapd"] ++ [.plan { files := noFiles }])).phase =
        .planned pl ∧
      ∀ r ∈ pl.restarts, r.action.IsRestart →
        MayRestart (Daemon.run {} (imapdDisabled ["mta", "imapd"])).snap r.service := by
  obtain ⟨pl, -, hphase⟩ : ∃ pl ∈ (Daemon.run {} (imapdDisabled ["mta", "imapd"] ++
        [.plan { files := noFiles }])).phase.plan,
      (Daemon.run {} (imapdDisabled ["mta", "imapd"] ++ [.plan { files := noFiles }])).phase =
        .planned pl := by
    decide +kernel
  refine ⟨pl, hphase, (plan_restarts_enabled_iff _ _ pl (by decide +kernel) hphase).mpr ?_⟩
  intro service hstale _
  have htracked : ∀ name ∈ ((Daemon.run {} (imapdDisabled ["mta", "imapd"])).carry.restarts ++
      (Daemon.run {} (imapdDisabled ["mta", "imapd"])).deferred).map Restart.service,
      Overridden ((Daemon.run {} (imapdDisabled ["mta", "imapd"])).input { files := noFiles })
        name := by
    decide +kernel
  exact htracked service hstale.mem_services

/-- The restart of a service that was enabled after the first run stays in the carry
when the service is disabled, and the plan restarts it. -/
theorem disabled_service_restarted :
    (Daemon.run {} (imapdDisabled ["mta"])).firstRun = false ∧
      (Daemon.run {} (imapdDisabled ["mta"])).snap.serviceNames = ["mta"] ∧
      ∃ pl ∈ (Daemon.run {} (imapdDisabled ["mta"] ++ [.plan { files := noFiles }])).phase.plan,
        ∃ r ∈ pl.restarts, r.service = "imapd" ∧ r.action = .restart := by
  decide +kernel

end Configd
