import Configd.Daemon.Cycle

/-!
# Owed restarts

A section whose variables changed owes a restart to each of its enabled services.  The debt moves
between the restarts of the current plan, the carry, the restarts held back by a `REWRITE` cycle
and the debounced requests of the restart policy (`Outstanding`).

Wherever two of these meet, the later request of a service wins.  A debt is *secured* (`Secured`)
when no stop or start can replace it: the service is tracked, and none of the lists that are
still to be merged has anything but restarts for it.  `secured_step` keeps a debt secured until
it is dispatched, and `outstanding_of_owed` is the result for whole runs.
-/

namespace Configd

open Lib

/-! ## Owed restarts in the restart policy -/

/-- The policy holds back a restart of the service. -/
def Policy.Holds (p : Policy) (service : String) : Prop :=
  ∃ r, p.pending[service]? = some r ∧ r.action.IsRestart

instance (p : Policy) (service : String) : Decidable (p.Holds service) :=
  inferInstanceAs (Decidable (∃ r ∈ p.pending[service]?, r.action.IsRestart))

/-- None of the dispatches is a restart of the service. -/
def NoRestart (log : List Dispatch) (service : String) : Prop :=
  ∀ x ∈ log, x.service = service → ¬ x.action.IsRestart

instance (log : List Dispatch) (service : String) : Decidable (NoRestart log service) :=
  inferInstanceAs (Decidable (∀ x ∈ log, x.service = service → ¬ x.action.IsRestart))

theorem Dispatched.not_noRestart {env : HostEnv} {service : String} {action : Action}
    {result : DispatchResult} {old new : ServiceView}
    (hdisp : Dispatched env service action result old new) (haction : action.IsRestart) :
    ¬ NoRestart new.log service := by
  intro hnone
  obtain ⟨reasons, kinds, heq⟩ := hdisp.log
  exact hnone ⟨service, action, reasons, kinds, hostCall env.systemd service action, result⟩
    (by simp [heq]) rfl haction

theorem NoRestart.view {s : Session} {service : String} (hnone : NoRestart s.log service) :
    NoRestart (s.view service).log service :=
  fun x hx => hnone x (List.mem_of_mem_filter hx)

theorem holds_of_flushed {env : HostEnv} {due : PendingRestart → Bool} {service : String}
    {old new : ServiceView} (hflush : Flushed env due service old new)
    (hnone : NoRestart new.log service) {r : PendingRestart} (hr : old.pending = some r)
    (haction : r.action.IsRestart) : due r = false ∧ new = old := by
  rcases hflush.cases with ⟨hdue, hsame⟩ | ⟨r', result, mid, hr', -, hdisp, hnew⟩
  · exact ⟨hdue r hr, hsame⟩
  · have heq : r' = r := Option.some.inj (hr'.symm.trans hr)
    rw [heq] at hdisp
    rw [hnew] at hnone
    exact absurd hnone (hdisp.not_noRestart haction)

theorem mem_restarts_of_mem_queue (env : HostEnv) (s : Session) (restarts : List Restart)
    {x : Restart} (hx : x ∈ (queue env s restarts).2) : x ∈ restarts := by
  have hsub : ∀ (todo : List Restart) (state : Session × List Restart),
      (todo.foldl (queueOne env) state).2 ⊆ state.2 ++ todo := by
    intro todo
    induction todo with
    | nil => simp
    | cons e rest ih =>
      intro state y hy
      have hmem := ih _ hy
      simp only [queueOne, List.mem_append] at hmem
      split at hmem
      · simpa [or_assoc] using hmem
      · rcases hmem with hold | hrest
        · simp [hold]
        · simp [hrest]
  simpa using hsub restarts (s, []) hx

section Apply

variable {p : Policy} {restarts : List Restart} {settings : Settings} {env : HostEnv}
  {service : String}

theorem clean_apply_carry (hclean : Clean restarts service) :
    Clean (p.apply restarts settings env).carry service := by
  intro x hx
  apply hclean
  unfold Policy.apply at hx
  split at hx
  · exact hx
  · split at hx
    · exact mem_restarts_of_mem_queue env _ restarts hx
    · simp at hx

theorem not_noRestart_immediate (hnodup : (restarts.map Restart.service).Nodup)
    (hclean : Clean restarts service) (howed : Owes restarts service ∨ p.Holds service) :
    ¬ NoRestart (queue env (flush env (fun _ => true) { toPolicy := p }) restarts).1.log
      service := by
  intro hnone
  set s := flush env (fun _ => true) { toPolicy := p } with hs
  by_cases hmem : service ∈ restarts.map Restart.service
  · obtain ⟨e, he, rfl⟩ := List.mem_map.mp hmem
    obtain ⟨result, hdisp, -⟩ := queue_view_of_mem env s hnodup he
    exact hdisp.not_noRestart (hclean e he rfl) hnone.view
  · have hview := queue_view_of_not_mem env s hmem
    have hquiet : NoRestart (s.view service).log service := by
      have hsame : (queue env s restarts).1.view service = s.view service := congrArg Prod.fst hview
      rw [← hsame]
      exact hnone.view
    rcases howed with ⟨e, he, hservice, -⟩ | ⟨r, hr, haction⟩
    · exact hmem (List.mem_map.mpr ⟨e, he, hservice⟩)
    · have hflush := flush_view env (fun _ => true) { toPolicy := p } service
      simpa using (holds_of_flushed hflush hquiet hr haction).1

/-- **A call of the policy keeps a debt it does not dispatch.** -/
theorem owed_apply (hnodup : (restarts.map Restart.service).Nodup)
    (hclean : Clean restarts service) (howed : Owes restarts service ∨ p.Holds service)
    (hnone : NoRestart (p.apply restarts settings env).log service) :
    Owes (p.apply restarts settings env).carry service ∨
      (p.apply restarts settings env).policy.Holds service := by
  unfold Policy.apply at hnone ⊢
  by_cases hon : settings.enabled = true
  · by_cases hdebounce : settings.debounce ≤ 0
    · simp only [hon, hdebounce, Bool.not_true, Bool.false_eq_true, if_false, if_true] at hnone
      exact absurd hnone (not_noRestart_immediate hnodup hclean howed)
    · simp only [hon, hdebounce, Bool.not_true, Bool.false_eq_true, if_false] at hnone ⊢
      -- Recording leaves a restart of the service in the pending set.
      have hrecorded : ∃ r, (record env.now p.pending restarts)[service]? = some r ∧
          r.action.IsRestart := by
        by_cases hmem : service ∈ restarts.map Restart.service
        · obtain ⟨e, he, rfl⟩ := List.mem_map.mp hmem
          obtain ⟨r, hr, haction, -⟩ := record_of_mem env.now p.pending hnodup he
          exact ⟨r, hr, by rw [haction]; exact hclean e he rfl⟩
        · rw [record_of_not_mem env.now p.pending hmem]
          rcases howed with ⟨e, he, hservice, -⟩ | hholds
          · exact absurd (List.mem_map.mpr ⟨e, he, hservice⟩) hmem
          · exact hholds
      obtain ⟨r, hr, haction⟩ := hrecorded
      have hflush := flush_view env (fun r => decide (env.now - r.lastRequest ≥ settings.debounce))
        { pending := record env.now p.pending restarts, failures := p.failures } service
      have hkept := (holds_of_flushed hflush hnone.view hr haction).2
      exact Or.inr ⟨r, (congrArg ServiceView.pending hkept).trans hr, haction⟩
  · simpa [hon] using howed

end Apply

/-! ## Owed restarts in a plan -/

section Plan

variable {input : Input} {pl : Plan} {service : String} (hpl : compute input = some pl)
  (hhost : input.host = none) (henabled : input.cur.serviceEnabled service = true)

include henabled

theorem sectionAction_of_enabled : sectionAction input.cur service = some .restart := by
  simp [sectionAction, henabled]

include hpl hhost

theorem clean_plan_deferred : Clean pl.deferredRestarts service := by
  rw [(asks_plan_deferred hpl hhost).clean]
  intro action haction
  unfold deferredAction at haction
  split at haction
  · rw [sectionAction_of_enabled henabled] at haction
    cases haction
    trivial
  · cases haction

theorem clean_plan_restarts (htracked : service ∈ input.tracked)
    (hcarry : Clean input.carry.restarts service) : Clean pl.restarts service := by
  rw [(asks_plan_restarts hpl hhost).clean]
  intro action haction
  unfold restartAction at haction
  have hnone : toggleAction input service = none := by
    simp [toggleAction, henabled, Std.ExtTreeMap.mem_iff_contains.mp htracked]
  rw [hnone, sectionAction_of_enabled henabled, Option.or_none] at haction
  split at haction
  · cases haction
    trivial
  · rw [Option.none_or, carryAction, Option.map_eq_some_iff] at haction
    obtain ⟨r, hr, rfl⟩ := haction
    exact hcarry r (List.mem_of_find?_eq_some hr) (by simpa using List.find?_some hr)

theorem owes_plan_restarts (htracked : service ∈ input.tracked)
    (hcarry : Clean input.carry.restarts service) (howes : Owes input.carry.restarts service) :
    Owes pl.restarts service := by
  have hclean := clean_plan_restarts hpl hhost henabled htracked hcarry
  rw [(asks_plan_restarts hpl hhost).clean] at hclean
  rw [(asks_plan_restarts hpl hhost).owes]
  obtain ⟨r, hr, hservice, -⟩ := howes
  have hsome : (carryAction input.carry service).isSome = true := by
    rw [carryAction, Option.isSome_map, List.find?_isSome]
    exact ⟨r, hr, by simpa using hservice⟩
  obtain ⟨action, haction⟩ : ∃ action, restartAction input service = some action := by
    rw [← Option.isSome_iff_exists, restartAction, Option.isSome_or, hsome, Bool.or_true]
  exact ⟨action, haction, hclean action haction⟩

end Plan

theorem hold_keeps {deferred fresh : List Restart} (systemd : Bool) {service : String}
    (hfresh : Clean fresh service) (hstale : Clean deferred service ∨ Owes fresh service) :
    Clean (Daemon.hold deferred fresh systemd) service ∧
      (Owes deferred service ∨ Owes fresh service →
        Owes (Daemon.hold deferred fresh systemd) service) := by
  unfold Daemon.hold
  by_cases hempty : fresh.isEmpty = true
  · have hnone : ¬ Owes fresh service := by simp [List.isEmpty_iff.mp hempty]
    rw [if_pos hempty]
    exact ⟨hstale.resolve_right hnone, fun h => h.resolve_right hnone⟩
  · rw [if_neg hempty]
    rcases hstale with hstale | howes
    · refine ⟨clean_mergeRestarts systemd hstale hfresh, ?_⟩
      rintro (h | h)
      · exact (owes_mergeRestarts systemd hfresh (Or.inl ⟨h, hstale⟩)).1
      · exact (owes_mergeRestarts systemd hfresh (Or.inr h)).1
    · have hmerged := @owes_mergeRestarts deferred fresh service systemd hfresh (Or.inr howes)
      exact ⟨hmerged.2, fun _ => hmerged.1⟩

theorem holdDeferred_keeps {deferred : List Restart} {pl : Plan} (release systemd : Bool)
    {service : String} {elsewhere : Prop} (hplan : Clean pl.restarts service)
    (hfresh : Clean pl.deferredRestarts service)
    (hstale : Clean deferred service ∨ Owes pl.deferredRestarts service)
    (howed : Owes pl.restarts service ∨
      (Owes deferred service ∨ Owes pl.deferredRestarts service) ∨ elsewhere) :
    Clean (Daemon.holdDeferred deferred pl release systemd).2.restarts service ∧
      Clean (Daemon.holdDeferred deferred pl release systemd).1 service ∧
      (Owes (Daemon.holdDeferred deferred pl release systemd).2.restarts service ∨
        Owes (Daemon.holdDeferred deferred pl release systemd).1 service ∨ elsewhere) := by
  obtain ⟨hclean, howes⟩ := hold_keeps systemd hfresh hstale
  have hdebt := howed.imp_right (Or.imp_left howes)
  unfold Daemon.holdDeferred
  by_cases hkeep :
      (!release || (Daemon.hold deferred pl.deferredRestarts systemd).isEmpty) = true
  · simp only [hkeep, if_true]
    exact ⟨hplan, hclean, hdebt⟩
  · simp only [hkeep]
    refine ⟨clean_mergeRestarts systemd hclean hplan, clean_nil service, ?_⟩
    rcases hdebt with h | h | h
    · exact Or.inl (owes_mergeRestarts systemd hplan (Or.inr h)).1
    · exact Or.inl (owes_mergeRestarts systemd hplan (Or.inl ⟨h, hclean⟩)).1
    · exact Or.inr (Or.inr h)

theorem holdDeferred_releases (deferred : List Restart) {pl : Plan} (systemd : Bool)
    {service : String} (hplan : Clean pl.restarts service) (howes : Owes pl.restarts service) :
    Clean (Daemon.holdDeferred deferred pl true systemd).2.restarts service ∧
      Clean (Daemon.holdDeferred deferred pl true systemd).1 service ∧
      Owes (Daemon.holdDeferred deferred pl true systemd).2.restarts service := by
  unfold Daemon.holdDeferred
  cases hheld : Daemon.hold deferred pl.deferredRestarts systemd with
  | nil => simpa using ⟨hplan, howes⟩
  | cons r rest =>
    have hmerged := @owes_mergeRestarts (r :: rest) pl.restarts service systemd hplan
      (Or.inr howes)
    simpa using ⟨hmerged.2, hmerged.1⟩

theorem nodup_holdDeferred {deferred : List Restart} {pl : Plan} (release systemd : Bool)
    (hplan : (pl.restarts.map Restart.service).Nodup) :
    ((Daemon.holdDeferred deferred pl release systemd).2.restarts.map Restart.service).Nodup := by
  unfold Daemon.holdDeferred
  by_cases hkeep :
      (!release || (Daemon.hold deferred pl.deferredRestarts systemd).isEmpty) = true
  · simpa only [hkeep, if_true] using hplan
  · simp only [hkeep]
    exact nodup_mergeRestarts _ _ _

/-! ## Secured debts -/

/-- The restarts the cycle works on: those of its plan or, between two plans,
those the last one left in the carry. -/
def Daemon.restarts (d : Daemon) : List Restart :=
  match d.phase.plan with
  | some pl => pl.restarts
  | none => d.carry.restarts

/-- A restart of the service is in one of the four places. -/
def Outstanding (d : Daemon) (service : String) : Prop :=
  (∃ pl, d.phase.plan = some pl ∧ Owes pl.restarts service) ∨
    Owes d.carry.restarts service ∨ Owes d.deferred service ∨ d.policy.Holds service

instance (d : Daemon) (service : String) : Decidable (Outstanding d service) :=
  inferInstanceAs (Decidable ((∃ pl ∈ d.phase.plan, Owes pl.restarts service) ∨
    Owes d.carry.restarts service ∨ Owes d.deferred service ∨ d.policy.Holds service))

/-- A restart of the service is owed, and nothing that is still to be merged with
it can replace it. -/
structure Secured (d : Daemon) (service : String) : Prop where
  tracked : service ∈ d.tracked
  restarts : Clean d.restarts service
  deferred : Clean d.deferred service
  owed : Owes d.restarts service ∨ Owes d.deferred service ∨ d.policy.Holds service
  distinct : ∀ pl, d.phase.plan = some pl → (pl.restarts.map Restart.service).Nodup

theorem Secured.outstanding {d : Daemon} {service : String} (hsec : Secured d service) :
    Outstanding d service := by
  have howed := hsec.owed
  unfold Daemon.restarts at howed
  unfold Outstanding
  cases hplan : d.phase.plan with
  | none =>
    rw [hplan] at howed
    exact Or.inr howed
  | some pl =>
    rw [hplan] at howed
    rcases howed with h | h
    · exact Or.inl ⟨pl, rfl, h⟩
    · exact Or.inr (Or.inr h)

theorem secured_plan {d : Daemon} {service : String} (hsec : Secured d service)
    (hidle : d.phase = .idle) (henabled : d.snap.serviceEnabled service = true)
    (env : PlanEnv) : Secured (d.plan env) service := by
  have hrestarts : d.restarts = d.carry.restarts := by simp [Daemon.restarts, hidle, Phase.plan]
  rcases d.plan_cases env with ⟨-, heq⟩ | ⟨pl, hpl, heq⟩
  · rw [heq]
    exact ⟨hsec.tracked, hsec.restarts, hsec.deferred, hsec.owed, hsec.distinct⟩
  · rw [heq]
    have hcarry : Clean (d.input env).carry.restarts service := hrestarts ▸ hsec.restarts
    have hplan := clean_plan_restarts hpl rfl henabled hsec.tracked hcarry
    have howed : Owes pl.restarts service ∨
        (Owes d.deferred service ∨ Owes pl.deferredRestarts service) ∨
        d.policy.Holds service := by
      rcases hsec.owed with h | h | h
      · rw [hrestarts] at h
        exact Or.inl (owes_plan_restarts hpl rfl henabled hsec.tracked hcarry h)
      · exact Or.inr (Or.inl (Or.inl h))
      · exact Or.inr (Or.inr h)
    obtain ⟨hclean, hheld, hdebt⟩ := holdDeferred_keeps d.releases env.systemd hplan
      (clean_plan_deferred hpl rfl henabled) (Or.inl hsec.deferred) howed
    refine ⟨?_, hclean, hheld, hdebt, ?_⟩
    · change service ∈ pl.tracked
      rw [plan_tracked hpl rfl, mem_trackedAfter]
      exact Or.inl hsec.tracked
    · intro pl' hpl'
      cases hpl'
      exact nodup_holdDeferred _ _ (nodup_plan_restarts hpl rfl)

theorem secured_execute {d : Daemon} {service : String} (hsec : Secured d service) {pl : Plan}
    (hphase : d.phase = .planned pl) (env : ExecEnv) : Secured (d.executePlan env pl) service := by
  have hold : d.restarts = pl.restarts := by simp [Daemon.restarts, hphase, Phase.plan]
  have hcarry : (execute env pl).carry.restarts = pl.restarts := rfl
  have hnew : (d.executePlan env pl).restarts = pl.restarts := by
    by_cases hfailed : (execute env pl).failed = true
    · simp [Daemon.executePlan, Daemon.restarts, hfailed, Phase.plan, hcarry]
    · simp [Daemon.executePlan, Daemon.restarts, hfailed, Phase.plan]
  refine ⟨hsec.tracked, ?_, hsec.deferred, ?_, ?_⟩
  · rw [hnew, ← hold]
    exact hsec.restarts
  · rw [hnew, ← hold]
    exact hsec.owed
  · intro pl' hpl'
    have hsame : pl' = pl := by
      by_cases hfailed : (execute env pl).failed = true
      · simp [Daemon.executePlan, hfailed, Phase.plan] at hpl'
      · simpa [Daemon.executePlan, hfailed, Phase.plan, eq_comm] using hpl'
    rw [hsame]
    exact hsec.distinct pl (by simp [hphase, Phase.plan])

theorem secured_applyRestarts {d : Daemon} {service : String} (hsec : Secured d service)
    {pl : Plan} (hphase : d.phase = .executed pl) (settings : Settings) (env : HostEnv)
    (hnone : NoRestart (d.policy.apply pl.restarts settings env).log service) :
    Secured (d.applyRestarts settings env pl) service := by
  have hold : d.restarts = pl.restarts := by simp [Daemon.restarts, hphase, Phase.plan]
  have hclean : Clean pl.restarts service := hold ▸ hsec.restarts
  have hnodup := hsec.distinct pl (by simp [hphase, Phase.plan])
  refine ⟨hsec.tracked, clean_apply_carry hclean, hsec.deferred, ?_, ?_⟩
  · rcases hsec.owed with h | h | h
    · rw [hold] at h
      exact (owed_apply hnodup hclean (Or.inl h) hnone).imp_right Or.inr
    · exact Or.inr (Or.inl h)
    · exact (owed_apply hnodup hclean (Or.inr h) hnone).imp_right Or.inr
  · intro pl' hpl'
    cases hpl'

/-- An event that neither dispatches a restart of the service nor plans a cycle
in which it is not enabled. -/
def Daemon.Spares (d : Daemon) (e : Event) (service : String) : Prop :=
  NoRestart (d.dispatched e) service ∧
    (e.isPlan = true → d.phase = .idle → d.snap.serviceEnabled service = true)

instance (d : Daemon) (e : Event) (service : String) : Decidable (d.Spares e service) :=
  inferInstanceAs (Decidable (_ ∧ (_ → _ → _)))

/-- **A debt stays secured** in every event that spares it. -/
theorem secured_step {d : Daemon} {service : String} (hsec : Secured d service) {e : Event}
    (hspares : d.Spares e service) : Secured (d.step e) service := by
  obtain ⟨hnone, henabled⟩ := hspares
  rcases d.step_cases e with heq | ⟨sections, -, heq⟩ | ⟨load, -, -, heq⟩ | ⟨fs, raw, -, -, heq⟩ |
    ⟨env, he, hidle, heq⟩ | ⟨env, pl, -, hphase, heq⟩ | ⟨settings, env, pl, he, hphase, heq⟩ |
    ⟨-, hphase, heq⟩
  · rwa [heq]
  · rw [heq]
    exact ⟨hsec.tracked, hsec.restarts, hsec.deferred, hsec.owed, hsec.distinct⟩
  · rw [heq]
    exact ⟨hsec.tracked, hsec.restarts, hsec.deferred, hsec.owed, hsec.distinct⟩
  · rw [heq]
    exact ⟨hsec.tracked, hsec.restarts, hsec.deferred, hsec.owed, hsec.distinct⟩
  · rw [heq]
    exact secured_plan hsec hidle (henabled (by rw [he]; rfl) hidle) env
  · rw [heq]
    exact secured_execute hsec hphase env
  · rw [heq]
    apply secured_applyRestarts hsec hphase
    simpa [he, Daemon.dispatched, hphase] using hnone
  · -- Finishing a cycle changes neither the carry nor the held restarts.
    have hsame : d.restarts = d.carry.restarts := by
      simp [Daemon.restarts, hphase, Phase.plan]
    have hclean := hsec.restarts
    have howed := hsec.owed
    rw [hsame] at hclean howed
    rw [heq]
    refine ⟨hsec.tracked, hclean, hsec.deferred, howed, ?_⟩
    intro pl hpl
    cases hpl

/-- Every event of a run spares the service. -/
def Daemon.SparesAll (d : Daemon) : List Event → String → Prop
  | [], _ => True
  | e :: rest, service => d.Spares e service ∧ (d.step e).SparesAll rest service

instance Daemon.decidableSparesAll (d : Daemon) :
    ∀ (events : List Event) (service : String), Decidable (d.SparesAll events service)
  | [], _ => inferInstanceAs (Decidable True)
  | e :: rest, service =>
    haveI := (d.step e).decidableSparesAll rest service
    inferInstanceAs (Decidable (d.Spares e service ∧ (d.step e).SparesAll rest service))

theorem secured_run {d : Daemon} {service : String} (hsec : Secured d service)
    {events : List Event} (hspares : d.SparesAll events service) :
    Secured (d.run events) service := by
  induction events generalizing d with
  | nil => exact hsec
  | cons e rest ih => exact ih (secured_step hsec hspares.1) hspares.2

/-! ## The plan in which the debt arises -/

/-- The plan the daemon is about to make has a section with a changed variable,
and the service is an enabled service which that section restarts. -/
structure OwesRestart (d : Daemon) (env : PlanEnv) (sn service : String) : Prop where
  idle : d.phase = .idle
  changed : ∃ pl ∈ compute (d.input env), ∃ x ∈ pl.sections, x.name = sn ∧
    ∃ r ∈ x.reasons, r.kind = .varChanged
  restarts : ∃ sec ∈ d.conf.sections[sn]?, service ∈ restartServices sec
  enabled : d.snap.serviceEnabled service = true

/-- Nothing that is merged with the debt replaces it: the service is tracked, so
that no later cycle starts it; in a `REWRITE` of the section the carry, and in a
`REWRITE` of other sections the held list, has no stop or start of it. -/
structure NotReplaced (d : Daemon) (env : PlanEnv) (sn service : String) : Prop where
  tracked : service ∈ d.tracked
  carry : isAsked (d.input env) sn = true → Clean d.carry.restarts service
  deferred : isAsked (d.input env) sn = false → d.releases = false → Clean d.deferred service

theorem owes_plan_of_owesRestart {d : Daemon} {env : PlanEnv} {sn service : String} {pl : Plan}
    (howes : OwesRestart d env sn service) (hpl : compute (d.input env) = some pl) :
    if isAsked (d.input env) sn then Owes pl.deferredRestarts service
    else Owes pl.restarts service ∧ Clean pl.restarts service := by
  obtain ⟨pl', hpl', x, hx, rfl, r, hr, hkind⟩ := howes.changed
  cases hpl.symm.trans (Option.mem_def.mp hpl')
  obtain ⟨sec, hsec, hproc, hreasons⟩ := (mem_plan_sections hpl rfl x).mp hx
  obtain ⟨sec', hsec', hservice⟩ := howes.restarts
  cases hsec.symm.trans (Option.mem_def.mp hsec')
  have hmem : (x.name, sec) ∈ (d.input env).conf.sections.toList :=
    Std.ExtTreeMap.mem_toList_iff_getElem?_eq_some.mpr hsec
  have haction : sectionAction (d.input env).cur service = some .restart :=
    sectionAction_of_enabled howes.enabled
  have hfirst : (d.input env).firstRun = false := by
    rw [hreasons] at hr
    exact (varChanged_mem_sectionReasons hr hkind).1
  split
  · rename_i hasked
    have hchanges : (varChanges (reasonsOf (d.input env) x.name sec)).isEmpty = false := by
      rw [List.isEmpty_eq_false_iff_exists_mem]
      exact ⟨r, by simpa [varChanges, hkind, ← hreasons] using hr⟩
    have hany : (d.input env).conf.sections.toList.any
        (restartsDeferred (d.input env) service) = true :=
      List.any_eq_true.mpr ⟨_, hmem, by
        simp [restartsDeferred, hproc, hfirst, hasked, hchanges, hservice]⟩
    rw [(asks_plan_deferred hpl rfl).owes]
    exact ⟨.restart, by rw [deferredAction, if_pos hany, haction], trivial⟩
  · rename_i hasked
    have hany : (d.input env).conf.sections.toList.any (restartsNow (d.input env) service) = true :=
      List.any_eq_true.mpr ⟨_, hmem, by simp [restartsNow, hproc, hfirst, hasked, hservice]⟩
    have hrestart : restartAction (d.input env) service = some .restart := by
      simp [restartAction, hany, haction]
    rw [(asks_plan_restarts hpl rfl).owes, (asks_plan_restarts hpl rfl).clean, hrestart]
    refine ⟨⟨_, rfl, trivial⟩, ?_⟩
    intro action h
    cases h
    trivial

theorem secured_of_owesRestart {d : Daemon} {env : PlanEnv} {sn service : String}
    (howes : OwesRestart d env sn service) (hkept : NotReplaced d env sn service) :
    Secured (d.plan env) service := by
  obtain ⟨pl, hmem, -⟩ := howes.changed
  have hpl : compute (d.input env) = some pl := Option.mem_def.mp hmem
  have hplan : d.plan env = d.adopt env pl := by
    rcases d.plan_cases env with ⟨hnone, -⟩ | ⟨pl', hpl', heq⟩
    · simp [hnone] at hpl
    · cases hpl.symm.trans hpl'
      exact heq
  have henabled : (d.input env).cur.serviceEnabled service = true := howes.enabled
  have hfresh := clean_plan_deferred hpl rfl henabled
  have hdebt := owes_plan_of_owesRestart howes hpl
  have hlists : Clean (d.adopt env pl).restarts service ∧ Clean (d.adopt env pl).deferred service ∧
      (Owes (d.adopt env pl).restarts service ∨ Owes (d.adopt env pl).deferred service ∨
        d.policy.Holds service) := by
    cases hasked : isAsked (d.input env) sn with
    | true =>
      rw [hasked] at hdebt
      exact holdDeferred_keeps d.releases env.systemd
        (clean_plan_restarts hpl rfl henabled hkept.tracked (hkept.carry hasked)) hfresh
        (Or.inr hdebt) (Or.inr (Or.inl (Or.inr hdebt)))
    | false =>
      rw [hasked] at hdebt
      obtain ⟨howed, hclean⟩ := hdebt
      cases hrelease : d.releases with
      | true =>
        have hreleased := holdDeferred_releases d.deferred env.systemd hclean howed
        rw [← hrelease] at hreleased
        exact ⟨hreleased.1, hreleased.2.1, Or.inl hreleased.2.2⟩
      | false =>
        exact holdDeferred_keeps d.releases env.systemd hclean hfresh
          (Or.inl (hkept.deferred hasked hrelease)) (Or.inl howed)
  rw [hplan]
  refine ⟨?_, hlists.1, hlists.2.1, hlists.2.2, ?_⟩
  · change service ∈ pl.tracked
    rw [plan_tracked hpl rfl, mem_trackedAfter]
    exact Or.inl hkept.tracked
  · intro pl' hpl'
    cases hpl'
    exact nodup_holdDeferred _ _ (nodup_plan_restarts hpl rfl)

/-! ## Two runs

Both change a variable of a section that restarts `imapd`, with config restarts
disabled. -/

def imapdSection : MtaConfigSection where
  requiredVars := Std.ExtTreeMap.ofList [("zimbraMtaMyHostname", .var)] compare
  restarts := Std.ExtTreeMap.ofList [("imapd", true)] compare

/-- The events up to the plan of a cycle: the variable has the given value and
the given services are enabled. -/
def loadAndParse (value : String) (services : List String) : List Event :=
  [.load (.ofServer [("zimbraMtaMyHostname", value)] services),
    .parse noFiles { sections := Std.ExtTreeMap.ofList [("mta", imapdSection)] compare }]

def executeAndCarry : List Event :=
  [.execute .allOk, .applyRestarts ⟨false, 0⟩ ⟨false, 0, fun _ => .ok⟩, .finish]

/-- A first cycle with the services `first`, and a second one up to its plan, in
which the variable has another value and both services are enabled. -/
def hostnameChanges (first : List String) : List Event :=
  loadAndParse "a" first ++ .plan { files := noFiles } :: executeAndCarry ++
    loadAndParse "b" ["mta", "imapd"]

/-- The rest of the second cycle, and a third one in which nothing changes, up to
the execution of its plan. -/
def nextCycle : List Event :=
  executeAndCarry ++ loadAndParse "b" ["mta", "imapd"] ++
    [.plan { files := noFiles }, .execute .allOk]

/-! ## The result for runs -/

/-- **An owed restart is never lost.**  In every run of the daemon, a restart
that is owed for a changed variable and that nothing replaces when it arises is
outstanding from then on, until it is dispatched or a cycle no longer enables
the service. -/
theorem outstanding_of_owed (before after : List Event) (env : PlanEnv) (sn service : String)
    (howes : OwesRestart (Daemon.run {} before) env sn service)
    (hkept : NotReplaced (Daemon.run {} before) env sn service)
    (hspares : (Daemon.run {} (before ++ [.plan env])).SparesAll after service) :
    Outstanding (Daemon.run {} (before ++ .plan env :: after)) service := by
  have hplan : Daemon.run {} (before ++ [.plan env]) = (Daemon.run {} before).plan env := by
    simp [Daemon.run_append, Daemon.step, howes.idle]
  have hrun : Daemon.run {} (before ++ .plan env :: after) =
      (Daemon.run {} (before ++ [.plan env])).run after := by
    simp [Daemon.run_append]
  rw [hrun]
  apply Secured.outstanding
  refine secured_run ?_ hspares
  rw [hplan]
  exact secured_of_owesRestart howes hkept

/-- A service that is enabled from the first run on is tracked, and its restart is
carried through cycles with restarts disabled. -/
theorem outstanding_of_owed_tracked :
    Outstanding (Daemon.run {} (hostnameChanges ["mta", "imapd"] ++
      .plan { files := noFiles } :: nextCycle)) "imapd" := by
  refine outstanding_of_owed (hostnameChanges ["mta", "imapd"]) nextCycle { files := noFiles }
    "mta" "imapd" ⟨?_, ?_, ?_, ?_⟩ ⟨?_, ?_, ?_⟩ ?_ <;> decide +kernel

/-- A service that was enabled after the first run is started by every later
plan, and the start replaces the restart in the carry. -/
theorem owed_restart_lost :
    OwesRestart (Daemon.run {} (hostnameChanges ["mta"])) { files := noFiles } "mta" "imapd" ∧
      (Daemon.run {} (hostnameChanges ["mta"] ++ [.plan { files := noFiles }])).SparesAll
        nextCycle "imapd" ∧
      ¬ Outstanding (Daemon.run {} (hostnameChanges ["mta"] ++
        .plan { files := noFiles } :: nextCycle)) "imapd" := by
  refine ⟨⟨?_, ?_, ?_, ?_⟩, ?_, ?_⟩ <;> decide +kernel

end Configd
