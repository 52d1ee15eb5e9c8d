import Configd.Daemon.History

/-!
# Cycles in which nothing changed

The daemon starts and stops services whose enablement differs from the *tracked*
ones, and it tracks exactly the services that were enabled in a plan of the first
run (`History.Inv.tracked`).  Tracking does not follow later changes, so a service
that was enabled after the first run is started again by every later plan, and
one that was disabled is stopped by every later plan.

`unchanged_plan` says what a cycle in which nothing changed still does: it has no
action on any file or parameter, and its restarts are exactly these starts and
stops.
-/

namespace Configd

open Lib

/-! ## Plans without a processed section -/

/-- The plan does nothing to the configuration. -/
structure Plan.Inactive (pl : Plan) : Prop where
  sections : pl.sections = []
  mapfiles : pl.mapfiles = []
  rewrites : pl.rewrites = []
  postconf : pl.postconf = []
  postconfd : pl.postconfd = []
  ldap : pl.ldap = []
  proxygen : pl.proxygen = none

def NoneProcessed (input : Input) : Prop :=
  ∀ sn sec, input.conf.sections[sn]? = some sec → isProcessed input sn sec = false

theorem processSections_of_noneProcessed {input : Input} (hnone : NoneProcessed input) :
    ∃ heal, processSections input {} = { heal := heal } := by
  unfold processSections
  refine List.foldlRecOn (motive := fun b : Builder => ∃ heal, b = { heal := heal }) _ _
    ⟨∅, rfl⟩ ?_
  rintro b ⟨heal, rfl⟩ ⟨sn, sec⟩ hmem
  have hnot := hnone sn sec (Std.ExtTreeMap.mem_toList_iff_getElem?_eq_some.mp hmem)
  rw [processSection_of_not_processed _ hnot]
  split
  · exact ⟨_, rfl⟩
  · exact ⟨heal, rfl⟩

theorem inactive_of_noneProcessed {input : Input} {pl : Plan} (hpl : compute input = some pl)
    (hhost : input.host = none) (hcarry : input.carry = {}) (hnone : NoneProcessed input) :
    pl.Inactive ∧ pl.deferredRestarts = [] := by
  obtain ⟨heal, hprocess⟩ := processSections_of_noneProcessed hnone
  obtain ⟨-, rfl⟩ := compute_eq_some hpl
  rw [build_of_no_host hhost, hcarry, hprocess]
  exact ⟨⟨rfl, rfl, rfl, rfl, rfl, rfl, rfl⟩, rfl⟩

theorem restartAction_of_noneProcessed {input : Input} (hcarry : input.carry = {})
    (hnone : NoneProcessed input) : restartAction input = toggleAction input := by
  funext service
  have hany : input.conf.sections.toList.any (restartsNow input service) = false := by
    rw [List.any_eq_false]
    rintro ⟨sn, sec⟩ hmem
    have hnot := hnone sn sec (Std.ExtTreeMap.mem_toList_iff_getElem?_eq_some.mp hmem)
    simp [restartsNow, hnot]
  simp [restartAction, hany, carryAction, hcarry]

/-! ## Unchanged cycles -/

/-- Nothing the plan depends on changed since the last one, nothing is requested,
and nothing is left of earlier cycles. -/
structure Unchanged (d : Daemon) (env : PlanEnv) : Prop where
  idle : d.phase = .idle
  firstRun : d.firstRun = false
  observed : ∀ type key, d.prev.observedValue type key =
    (d.input env).cur.observedValue type key
  requested : d.requested = ∅
  carry : d.carry = {}
  deferred : d.deferred = []

/-- The service was enabled in a successful plan of the first run. -/
def EnabledOnFirstRun (events : List Event) (service : String) : Prop :=
  ∃ p ∈ (History.run events).plans,
    p.input.firstRun = true ∧ p.input.cur.serviceEnabled service = true

theorem noneProcessed_of_unchanged {d : Daemon} {env : PlanEnv} (hunchanged : Unchanged d env)
    (hforced : d.forced = ∅) : NoneProcessed (d.input env) := by
  intro sn sec _
  by_contra hproc
  have hyes : isProcessed (d.input env) sn sec = true := by simpa using hproc
  have hcons : isConsidered (d.input env) sn = true := by
    rw [isProcessed, Bool.and_eq_true] at hyes
    exact hyes.1
  apply hproc
  have hchanges : changesOf (d.input env) sn sec = [] := by
    rw [changesOf, if_pos (by simp [isCompared, Daemon.input, hforced]), diffSection_eq_nil_iff]
    intro type key _
    exact not_not.mpr (hunchanged.observed type key)
  exact (not_processed_iff hcons).mpr ⟨by simp [Daemon.input, hforced],
    by simp [Daemon.input, hunchanged.requested], hunchanged.firstRun, hchanges, rfl⟩

theorem asks_toggles_iff {input : Input} {list : List Restart}
    (hasks : Asks list input.systemd (toggleAction input)) (hfirst : input.firstRun = false)
    (service : String) (action : Action) :
    (∃ r ∈ list, r.service = service ∧ r.action = action) ↔
      (action = .stop ∧ service ∈ input.tracked ∧ input.cur.serviceEnabled service = false) ∨
        (action = .start ∧ service ∉ input.tracked ∧ input.cur.serviceEnabled service = true) := by
  have hstop : classify .stop service input.systemd = .stop := by simp [classify]
  have hstart : classify .start service input.systemd = .start := by simp [classify]
  rw [hasks service action]
  unfold toggleAction
  by_cases henabled : input.cur.serviceEnabled service = true <;>
    by_cases htracked : service ∈ input.tracked <;>
    simp [henabled, htracked, hfirst, hstop, hstart]

theorem eq_nil_iff_of_toggles {list : List Restart} {on : String → Prop} {wanted : String → Bool}
    (htoggles : ∀ service action, (∃ r ∈ list, r.service = service ∧ r.action = action) ↔
      (action = .stop ∧ on service ∧ wanted service = false) ∨
        (action = .start ∧ ¬ on service ∧ wanted service = true)) :
    list = [] ↔ ∀ service, on service ↔ wanted service = true := by
  constructor
  · intro hnil service
    have hstop := (htoggles service .stop).not.mp (by simp [hnil])
    have hstart := (htoggles service .start).not.mp (by simp [hnil])
    by_cases hwanted : wanted service = true
    · simpa [hwanted] using hstart
    · simpa [hwanted] using hstop
  · intro hsame
    rw [List.eq_nil_iff_forall_not_mem]
    intro r hr
    rcases (htoggles r.service r.action).mp ⟨r, hr, rfl, rfl⟩ with ⟨-, hon, hoff⟩ | ⟨-, hoff, hon⟩
    · rw [hsame, hoff] at hon
      cases hon
    · exact hoff ((hsame r.service).mpr hon)

/-- The start of a cycle with the given services, and nothing in `zmconfigd.cf`. -/
def loadServices (services : List String) : List Event :=
  [.load (.ofServer [] services), .parse noFiles {}]

def servicesCycle (services : List String) : List Event :=
  loadServices services ++ [.plan { files := noFiles }, .execute .allOk,
    .applyRestarts ⟨true, 0⟩ ⟨false, 0, fun _ => .ok⟩, .finish]

/-- A first run with the services `first`, and two more cycles with both services,
the second of them up to its plan. -/
def imapdEnabled (first : List String) : List Event :=
  servicesCycle first ++ servicesCycle ["mta", "imapd"] ++ loadServices ["mta", "imapd"]

theorem observed_of_no_sections {events : List Event} {env : PlanEnv}
    (hlast : (History.run events).plans.head?.map (fun p => p.input.conf) = some {})
    (hconf : (Daemon.run {} events).conf = {}) (type : LookupType) (key : String) :
    (Daemon.run {} events).prev.observedValue type key =
      ((Daemon.run {} events).input env).cur.observedValue type key := by
  have hinv := History.inv_run events
  obtain ⟨last, hhead, hnothing⟩ := Option.map_eq_some_iff.mp hlast
  obtain ⟨older, hplans⟩ := List.head?_eq_some_iff.mp hhead
  have hprev : (Daemon.run {} events).prev = last.input.cur := by
    rw [← History.run_daemon]
    exact hinv.prev last older hplans
  obtain ⟨fs, base, hcur⟩ := hinv.observes last (by simp [hplans])
  rw [hprev, hcur, observe_of_no_sections hnothing]
  exact (observe_of_no_sections hconf _ _ _ _).symm

/-- **What a cycle without changes does.**  It touches no file and no parameter; it stops the
services that were enabled on the first run and are not any more, and starts those that have been
enabled since, each once: nothing exactly when the enabled services are those of the first run. -/
theorem unchanged_plan (events : List Event) (env : PlanEnv) (pl : Plan)
    (hunchanged : Unchanged (Daemon.run {} events) env)
    (hpl : compute ((Daemon.run {} events).input env) = some pl) :
    ((Daemon.run {} events).step (.plan env)).phase = .planned pl ∧ pl.Inactive ∧
      (∀ service action, (∃ r ∈ pl.restarts, r.service = service ∧ r.action = action) ↔
        (action = .stop ∧ EnabledOnFirstRun events service ∧
            (Daemon.run {} events).snap.serviceEnabled service = false) ∨
          (action = .start ∧ ¬ EnabledOnFirstRun events service ∧
            (Daemon.run {} events).snap.serviceEnabled service = true)) ∧
      (pl.restarts = [] ↔ ∀ service, EnabledOnFirstRun events service ↔
        (Daemon.run {} events).snap.serviceEnabled service = true) ∧
      (pl.restarts.map Restart.service).Nodup := by
  have hinv := History.inv_run events
  have hforced := hinv.forced
  have htracked := hinv.tracked
  rw [History.run_daemon] at hforced htracked
  set d := Daemon.run {} events with hd
  have hnone := noneProcessed_of_unchanged hunchanged hforced
  obtain ⟨hinactive, hdeferred⟩ := inactive_of_noneProcessed hpl rfl hunchanged.carry hnone
  have hphase : (d.step (.plan env)).phase = .planned pl := by
    simp [Daemon.step, hunchanged.idle, Daemon.plan, hpl, Daemon.adopt, Daemon.holdDeferred,
      Daemon.hold, hdeferred, hunchanged.deferred]
  have hasks := asks_plan_restarts hpl rfl
  rw [restartAction_of_noneProcessed hunchanged.carry hnone] at hasks
  have htoggles : ∀ service action,
      (∃ r ∈ pl.restarts, r.service = service ∧ r.action = action) ↔
        (action = .stop ∧ EnabledOnFirstRun events service ∧
            d.snap.serviceEnabled service = false) ∨
          (action = .start ∧ ¬ EnabledOnFirstRun events service ∧
            d.snap.serviceEnabled service = true) := by
    intro service action
    rw [asks_toggles_iff hasks hunchanged.firstRun]
    change _ ∧ service ∈ d.tracked ∧ _ ∨ _ ∧ service ∉ d.tracked ∧ _ ↔ _
    rw [htracked service]
    rfl
  exact ⟨hphase, hinactive, htoggles, eq_nil_iff_of_toggles htoggles, nodup_plan_restarts hpl rfl⟩

theorem unchanged_plan_same_services :
    ∃ pl ∈ compute ((Daemon.run {} (imapdEnabled ["mta", "imapd"])).input { files := noFiles }),
      pl.Inactive := by
  obtain ⟨pl, hpl⟩ : ∃ pl, compute ((Daemon.run {} (imapdEnabled ["mta", "imapd"])).input
      { files := noFiles }) = some pl := by
    rw [← Option.isSome_iff_exists]
    decide +kernel
  have hunchanged : Unchanged (Daemon.run {} (imapdEnabled ["mta", "imapd"]))
      { files := noFiles } := by
    refine ⟨?_, ?_, observed_of_no_sections ?_ ?_, ?_, ?_, ?_⟩ <;> decide +kernel
  have hplan := unchanged_plan (imapdEnabled ["mta", "imapd"]) { files := noFiles } pl hunchanged
    hpl
  exact ⟨pl, hpl, hplan.2.1⟩

/-- A service enabled after the first run is started again in a cycle in which
nothing changed. -/
theorem started_again_when_unchanged :
    Unchanged (Daemon.run {} (imapdEnabled ["mta"])) { files := noFiles } ∧
      (Daemon.run {} (imapdEnabled ["mta"])).prev.serviceNames = ["imapd", "mta"] ∧
      (Daemon.run {} (imapdEnabled ["mta"])).snap.serviceNames = ["imapd", "mta"] ∧
      (History.run (imapdEnabled ["mta"])).plans.head?.map (fun p => p.input.conf) = some {} ∧
      (Daemon.run {} (imapdEnabled ["mta"])).conf = {} ∧
      (Daemon.run {} (imapdEnabled ["mta"])).policy.pending = ∅ ∧
      ∃ pl ∈ compute ((Daemon.run {} (imapdEnabled ["mta"])).input { files := noFiles }),
        ∃ r ∈ pl.restarts, r.service = "imapd" ∧ r.action = .start := by
  have hunchanged : Unchanged (Daemon.run {} (imapdEnabled ["mta"])) { files := noFiles } := by
    refine ⟨?_, ?_, observed_of_no_sections ?_ ?_, ?_, ?_, ?_⟩ <;> decide +kernel
  refine ⟨hunchanged, ?_, ?_, ?_, ?_, ?_, ?_⟩ <;> decide +kernel

end Configd
