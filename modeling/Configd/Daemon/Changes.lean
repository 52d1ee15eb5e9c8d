import Configd.Daemon.History

/-!
# Change detection over runs

A cycle compares the values it observes with those of the last successful plan, and nothing
older.

* What does a lookup that could not be performed count as?  The load has dropped the observed
  values, so it counts as empty: `not_reportsChange_iff_of_failed`.
* Is every section written with the current values?  A section whose service was disabled takes
  no part in the comparison, while another section can keep observing a variable of both:
  `upToDate_of_continues`.
-/

namespace Configd

open Lib

/-! ## The start of a cycle -/

/-- The start of a cycle: a load that delivers something, the parsed text of
`zmconfigd.cf`, and the sections requested until the plan. -/
structure CycleStart where
  load : StagedLoad
  delivers : load.Delivers
  files : Files
  raw : MtaConfig
  requests : List String := []

def CycleStart.events (c : CycleStart) : List Event :=
  [.load c.load, .parse c.files c.raw, .request c.requests]

/-- The daemon at the plan of the cycle. -/
def Daemon.begin (d : Daemon) (c : CycleStart) : Daemon :=
  d.run c.events

theorem Daemon.begin_eq {d : Daemon} (hidle : d.phase = .idle) (c : CycleStart) :
    d.begin c = { d with
      snap := c.load.apply d.snap
      conf := parseMtaConfig c.files (c.load.apply d.snap) c.raw
      requested := addRequestedConfigs c.requests d.requested } := by
  simp [Daemon.begin, CycleStart.events, Daemon.step, hidle]

/-! ## Lookups that could not be performed -/

/-- The plan has a reason that says the lookup changed. -/
def ReportsChange (pl : Plan) (type : LookupType) (key : String) : Prop :=
  ∃ x ∈ pl.sections, ∃ r ∈ x.reasons,
    r.kind = .varChanged ∧ r.type = some type ∧ r.key = key

instance (pl : Plan) (type : LookupType) (key : String) :
    Decidable (ReportsChange pl type key) :=
  inferInstanceAs (Decidable (∃ x ∈ pl.sections, ∃ r ∈ x.reasons, _ ∧ _ ∧ _))

/-- A considered section requires the lookup. -/
def ConsideredRequires (input : Input) (type : LookupType) (key : String) : Prop :=
  ∃ sn sec, input.conf.sections[sn]? = some sec ∧ isConsidered input sn = true ∧
    sec.Requires type key

/-- **What a plan reports as changed** are the lookups with another value that a
considered section requires. -/
theorem reportsChange_iff {input : Input} {pl : Plan} (hpl : compute input = some pl)
    (hhost : input.host = none) (hforced : input.forced = []) (hfirst : input.firstRun = false)
    (type : LookupType) (key : String) :
    ReportsChange pl type key ↔ ConsideredRequires input type key ∧ Changed input type key := by
  have hcompared : ∀ sn, isCompared input sn = true := by simp [isCompared, hforced]
  constructor
  · rintro ⟨x, hx, r, hr, hkind, htype, hkey⟩
    obtain ⟨sec, hsec, hproc, hreasons⟩ := (mem_plan_sections hpl hhost x).mp hx
    rw [hreasons] at hr
    have hchange := (varChanged_mem_sectionReasons hr hkind).2
    rw [changesOf, if_pos (hcompared _)] at hchange
    obtain ⟨type', key', hreq, hchanged, rfl⟩ := (mem_diffSection_iff input x.name sec r).mp hchange
    cases htype
    cases hkey
    have hcons : isConsidered input x.name = true := by
      rw [isProcessed, Bool.and_eq_true] at hproc
      exact hproc.1
    exact ⟨⟨x.name, sec, hsec, hcons, hreq⟩, hchanged⟩
  · rintro ⟨⟨sn, sec, hsec, hcons, hreq⟩, hchanged⟩
    have hchange := (mem_diffSection_iff input sn sec _).mpr ⟨type, key, hreq, hchanged, rfl⟩
    have hmem : varChanged sn type key (input.prev.observedValue type key)
        (input.cur.observedValue type key) ∈ reasonsOf input sn sec := by
      simp [reasonsOf, sectionReasons, changesOf, hcompared, hfirst, hchange]
    have hproc : isProcessed input sn sec = true := by
      rw [isProcessed, hcons, Bool.true_and, Bool.not_eq_true',
        List.isEmpty_eq_false_iff_exists_mem]
      exact ⟨_, hmem⟩
    exact ⟨⟨sn, reasonsOf input sn sec⟩, (mem_plan_sections hpl hhost _).mpr
      ⟨sec, hsec, hproc, rfl⟩, _, hmem, rfl, rfl, rfl⟩

theorem observedValue_of_failed {d : Daemon} (hidle : d.phase = .idle) (c : CycleStart)
    {env : PlanEnv} {type : LookupType} {key : String} (htype : type ≠ .mapfile)
    (hfailed : lookUpConfig env.files (d.begin c).snap type key = .error .failed)
    (hreq : ConsideredRequires ((d.begin c).input env) type key) :
    ((d.begin c).input env).cur.observedValue type key = "" := by
  obtain ⟨sn, sec, hsec, -, hreq⟩ := hreq
  have hobserved := observe_of_requires hsec hreq env.files (d.begin c).snap
  have hdropped : (d.begin c).snap.observedValue type key = "" := by
    simp [Daemon.begin_eq hidle, Snapshot.observedValue, StagedLoad.apply, c.delivers]
  exact hobserved.trans (by simp [observeOne, htype, hfailed, hdropped])

def fileSection : MtaConfigSection where
  requiredVars := Std.ExtTreeMap.ofList [("postfix_header_checks", .file)] compare

/-- The MTA is the only enabled service, and `fileSection` its section. -/
def mtaOnly : CycleStart where
  load := .ofServer [] ["mta"]
  delivers := StagedLoad.ofServer_delivers _ _
  files := noFiles
  raw := { sections := Std.ExtTreeMap.ofList [("mta", fileSection)] compare }

def fileCycle (answer : Except LookupError String) : List Event :=
  mtaOnly.events ++ [.plan { files := { noFiles with file := fun _ => answer } },
    .execute .allOk, .applyRestarts ⟨true, 0⟩ ⟨false, 0, fun _ => .ok⟩, .finish]

def fileFails : PlanEnv where
  files := { noFiles with file := fun _ => .error .failed }

/-- **When a lookup that could not be performed is not reported as a change.**
It is reported whenever the last plan observed a value and a considered section
requires it. -/
theorem not_reportsChange_iff_of_failed (before : List Event) (c : CycleStart) (env : PlanEnv)
    (pl : Plan) (type : LookupType) (key : String)
    (hidle : (Daemon.run {} before).phase = .idle)
    (hfirst : (Daemon.run {} before).firstRun = false)
    (hpl : compute (((Daemon.run {} before).begin c).input env) = some pl)
    (htype : type ≠ .mapfile)
    (hfailed : lookUpConfig env.files ((Daemon.run {} before).begin c).snap type key =
      .error .failed) :
    ¬ ReportsChange pl type key ↔
      (Daemon.run {} before).prev.observedValue type key = "" ∨
        ¬ ConsideredRequires (((Daemon.run {} before).begin c).input env) type key := by
  set d := Daemon.run {} before with hd
  have hforced : d.forced = ∅ := by
    rw [hd, ← History.run_daemon]
    exact (History.inv_run before).forced
  have hbegin := Daemon.begin_eq hidle c
  have hreport := reportsChange_iff hpl rfl (by simp [Daemon.input, hbegin, hforced])
    (by simp [Daemon.input, hbegin, hfirst]) type key
  have hprev : ((d.begin c).input env).prev = d.prev := by simp [Daemon.input, hbegin]
  rw [hreport]
  by_cases hreq : ConsideredRequires ((d.begin c).input env) type key
  · have hcur := observedValue_of_failed hidle c htype hfailed hreq
    simp [hreq, Changed, hcur, hprev]
  · simp [hreq]

/-- A file that was missing in the first cycle and cannot be read in the second is
not reported. -/
theorem not_reportsChange_of_missing :
    ∃ pl ∈ compute (((Daemon.run {} (fileCycle (.error .missing))).begin mtaOnly).input fileFails),
      ¬ ReportsChange pl .file "postfix_header_checks" := by
  obtain ⟨pl, hpl⟩ : ∃ pl, compute (((Daemon.run {} (fileCycle (.error .missing))).begin
      mtaOnly).input fileFails) = some pl := by
    rw [← Option.isSome_iff_exists]
    decide +kernel
  refine ⟨pl, hpl, (not_reportsChange_iff_of_failed (fileCycle (.error .missing)) mtaOnly
    fileFails pl .file "postfix_header_checks" ?_ ?_ hpl ?_ ?_).mpr (Or.inl ?_)⟩ <;>
    decide +kernel

/-- A file that was read in the first cycle and cannot be read in the second is
reported as changed. -/
theorem reportsChange_of_failed :
    (Daemon.run {} (fileCycle (.ok "a"))).phase = .idle ∧
      (Daemon.run {} (fileCycle (.ok "a"))).firstRun = false ∧
      lookUpConfig fileFails.files ((Daemon.run {} (fileCycle (.ok "a"))).begin mtaOnly).snap
        .file "postfix_header_checks" = .error .failed ∧
      ∃ pl ∈ compute (((Daemon.run {} (fileCycle (.ok "a"))).begin mtaOnly).input fileFails),
        ReportsChange pl .file "postfix_header_checks" := by
  refine ⟨?_, ?_, ?_, ?_⟩ <;> decide +kernel

/-! ## Sections and the values they were written with -/

def Planned.processes (p : Planned) (sn : String) : Bool :=
  p.plan.sections.any fun x => x.name = sn

def lastProcessed (plans : List Planned) (sn : String) : Option Planned :=
  plans.find? fun p => p.processes sn

/-- The last plan that processed the section observed the same value of each of
its required lookups as `last`. -/
def WrittenAs (plans : List Planned) (last : Planned) (sn : String) (sec : MtaConfigSection) :
    Prop :=
  ∃ p, lastProcessed plans sn = some p ∧ ∀ type key, sec.Requires type key →
    p.input.cur.observedValue type key = last.input.cur.observedValue type key

/-- After the newest plan, every considered section is written with its values. -/
def UpToDate (plans : List Planned) : Prop :=
  ∀ last ∈ plans.head?, ∀ sn sec, last.input.conf.sections[sn]? = some sec →
    isConsidered last.input sn = true → WrittenAs plans last sn sec

/-- A considered section that is not asked for and whose lookups did not change
was considered in the plan before, and required the same lookups there. -/
def Continues (new last : Planned) : Prop :=
  ∀ sn sec, new.input.conf.sections[sn]? = some sec → isConsidered new.input sn = true →
    new.input.firstRun = false → sn ∉ new.input.requested →
    (∀ type key, sec.Requires type key → ¬ Changed new.input type key) →
      ∃ sec', last.input.conf.sections[sn]? = some sec' ∧ isConsidered last.input sn = true ∧
        ∀ type key, sec.Requires type key → sec'.Requires type key

theorem processes_iff {p : Planned} (hpl : compute p.input = some p.plan)
    (hhost : p.input.host = none) {sn : String} {sec : MtaConfigSection}
    (hsec : p.input.conf.sections[sn]? = some sec) :
    p.processes sn = isProcessed p.input sn sec := by
  rw [Bool.eq_iff_iff, Planned.processes, List.any_eq_true]
  constructor
  · rintro ⟨x, hx, hname⟩
    obtain ⟨sec', hsec', hproc, -⟩ := (mem_plan_sections hpl hhost x).mp hx
    have hsame : x.name = sn := by simpa using hname
    rw [hsame] at hsec' hproc
    cases hsec.symm.trans hsec'
    exact hproc
  · intro hproc
    exact ⟨⟨sn, reasonsOf p.input sn sec⟩,
      (mem_plan_sections hpl hhost _).mpr ⟨sec, hsec, hproc, rfl⟩, by simp⟩

theorem upToDate_cons {h : History} (hinv : h.Inv) (holder : UpToDate h.plans) {env : PlanEnv}
    {pl : Plan} (hpl : compute (h.daemon.input env) = some pl)
    (hcont : ∀ last ∈ h.plans.head?, Continues ⟨h.daemon.input env, pl⟩ last) :
    UpToDate (⟨h.daemon.input env, pl⟩ :: h.plans) := by
  rintro last hlast sn sec hsec hcons
  cases hlast
  have hprocesses := processes_iff (p := ⟨h.daemon.input env, pl⟩) hpl rfl hsec
  cases hproc : isProcessed (h.daemon.input env) sn sec with
  | true =>
    -- Written in this very cycle.
    refine ⟨⟨h.daemon.input env, pl⟩, ?_, fun _ _ _ => rfl⟩
    simp [lastProcessed, hprocesses, hproc]
  | false =>
    obtain ⟨-, hrequested, hfirst, hchanges, -⟩ := (not_processed_iff hcons).mp hproc
    have hcompared : isCompared (h.daemon.input env) sn = true := by
      simp [isCompared, Daemon.input, hinv.forced]
    rw [changesOf, if_pos hcompared, diffSection_eq_nil_iff] at hchanges
    cases hplans : h.plans with
    | nil =>
      have hstart := (hinv.start hplans).1
      rw [Daemon.input] at hfirst
      rw [hstart] at hfirst
      cases hfirst
    | cons last older =>
      have hhead : last ∈ h.plans.head? := by simp [hplans]
      obtain ⟨sec', hsec', hcons', hsub⟩ := hcont last hhead sn sec hsec hcons hfirst
        hrequested hchanges
      obtain ⟨p, hp, hvalues⟩ := holder last hhead sn sec' hsec' hcons'
      refine ⟨p, ?_, ?_⟩
      · rw [← hplans]
        simpa [lastProcessed, hprocesses, hproc] using hp
      · intro type key hreq
        -- Without a change the values are those of the plan before.
        have hsame : h.daemon.prev.observedValue type key =
            (h.daemon.input env).cur.observedValue type key :=
          not_not.mp (hchanges type key hreq)
        rw [hvalues type key (hsub type key hreq), ← hsame, hinv.prev last older hplans]

theorem upToDate_run (events : List Event)
    (hcont : (History.run events).plans.IsChain Continues) :
    UpToDate (History.run events).plans := by
  have hrun : (History.run events).Inv ∧
      ((History.run events).plans.IsChain Continues → UpToDate (History.run events).plans) := by
    refine List.foldlRecOn (motive := fun h : History => h.Inv ∧
      (h.plans.IsChain Continues → UpToDate h.plans)) events History.next ?_ ?_
    · exact ⟨History.inv_run [], fun _ => by simp [UpToDate]⟩
    · rintro h ⟨hinv, hupToDate⟩ e -
      refine ⟨History.inv_next hinv e, ?_⟩
      rcases h.next_cases e with ⟨hplans, -⟩ | ⟨env, pl, -, -, hpl, hplans, -⟩
      · rwa [hplans]
      · rw [hplans]
        intro hchain
        apply upToDate_cons hinv (hupToDate hchain.tail) hpl
        intro last hlast
        exact (List.isChain_cons.mp hchain).1 last hlast
  exact hrun.2 hcont

structure DaemonCycle extends CycleStart where
  env : PlanEnv
  exec : ExecEnv
  settings : Settings
  host : HostEnv

def DaemonCycle.events (c : DaemonCycle) : List Event :=
  c.toCycleStart.events ++
    [.plan c.env, .execute c.exec, .applyRestarts c.settings c.host, .finish]

theorem idle_run_cycle {d : Daemon} (hidle : d.phase = .idle) (c : DaemonCycle) :
    (d.run c.events).phase = .idle := by
  have hbegin : (d.begin c.toCycleStart).phase = .idle := by
    rw [Daemon.begin_eq hidle]
    exact hidle
  rw [DaemonCycle.events, Daemon.run_append]
  change ((d.begin c.toCycleStart).run _).phase = _
  generalize d.begin c.toCycleStart = d' at hbegin
  simp only [Daemon.run_cons, Daemon.run_nil]
  rcases d'.plan_cases c.env with ⟨-, hplan⟩ | ⟨pl, -, hplan⟩
  · simp [Daemon.step, hbegin, hplan]
  · by_cases hfailed : (execute c.exec
        (Daemon.holdDeferred d'.deferred pl d'.releases c.env.systemd).2).failed = true
    · simp [Daemon.step, hbegin, hplan, Daemon.adopt, Daemon.executePlan, hfailed]
    · simp [Daemon.step, hbegin, hplan, Daemon.adopt, Daemon.executePlan, hfailed,
        Daemon.applyRestarts]

theorem idle_run_cycles (cycles : List DaemonCycle) :
    (Daemon.run {} (cycles.flatMap DaemonCycle.events)).phase = .idle := by
  induction cycles using List.reverseRecOn with
  | nil => rfl
  | append_singleton cycles c ih =>
    rw [List.flatMap_append, Daemon.run_append, List.flatMap_singleton]
    exact idle_run_cycle ih c

/-- The daemon at the plan of a cycle that starts with `c` after the given ones. -/
def atPlan (cycles : List DaemonCycle) (c : CycleStart) : Daemon :=
  (Daemon.run {} (cycles.flatMap DaemonCycle.events)).begin c

/-- The plans up to and including that of a cycle which starts with `c`. -/
def plansAfter (cycles : List DaemonCycle) (c : CycleStart) (env : PlanEnv) : List Planned :=
  (History.run (cycles.flatMap DaemonCycle.events ++ c.events ++ [.plan env])).plans

theorem plansAfter_eq {cycles : List DaemonCycle} {c : CycleStart} {env : PlanEnv} {pl : Plan}
    (hpl : compute ((atPlan cycles c).input env) = some pl) :
    plansAfter cycles c env = ⟨(atPlan cycles c).input env, pl⟩ ::
      (History.run (cycles.flatMap DaemonCycle.events)).plans := by
  have hidle := idle_run_cycles cycles
  set h := History.run (cycles.flatMap DaemonCycle.events) with hh
  have hbegin : (c.events.foldl History.next h).daemon = atPlan cycles c := by
    rw [History.foldl_next_daemon, hh, History.run_daemon]
    rfl
  have hphase : (atPlan cycles c).phase = .idle := by
    rw [atPlan, Daemon.begin_eq hidle]
    exact hidle
  have hplans : (c.events.foldl History.next h).plans = h.plans := rfl
  rw [plansAfter, History.run_append, History.run_append, ← hh]
  change (History.next _ _).plans = _
  simp [History.next, Daemon.planned, hbegin, hphase, hpl, hplans]

/-- The same sections in two plans, all of them considered in the first. -/
def SameSections (new last : Planned) : Prop :=
  new.input.conf = last.input.conf ∧
    ∀ entry ∈ last.input.conf.sections.toList, isConsidered last.input entry.1 = true

instance (new last : Planned) : Decidable (SameSections new last) :=
  inferInstanceAs (Decidable (_ ∧ _))

theorem continues_of_sameSections {new last : Planned} (h : SameSections new last) :
    Continues new last := by
  intro sn sec hsec _ _ _ _
  rw [h.1] at hsec
  have hmem := Std.ExtTreeMap.mem_toList_iff_getElem?_eq_some.mpr hsec
  exact ⟨sec, hsec, h.2 _ hmem, fun _ _ hrequires => hrequires⟩

def hostnameSection : MtaConfigSection where
  requiredVars := Std.ExtTreeMap.ofList [("zimbraServiceHostname", .var)] compare

def sharedConf : MtaConfig where
  sections := Std.ExtTreeMap.ofList [("mta", hostnameSection), ("proxy", hostnameSection)] compare

/-- The start of a cycle with a value of the variable and the enabled services. -/
def sharedStart (value : String) (services : List String) : CycleStart where
  load := .ofServer [("zimbraServiceHostname", value)] services
  delivers := StagedLoad.ofServer_delivers _ _
  files := noFiles
  raw := sharedConf

def sharedCycle (value : String) (services : List String) : DaemonCycle where
  toCycleStart := sharedStart value services
  env := { files := noFiles }
  exec := .allOk
  settings := ⟨true, 0⟩
  host := ⟨false, 0, fun _ => .ok⟩

/-- **Every section is written with the current values**, in every cycle of a run
whose plans continue one another. -/
theorem upToDate_of_continues (cycles : List DaemonCycle) (c : CycleStart) (env : PlanEnv)
    (pl : Plan) (hpl : compute ((atPlan cycles c).input env) = some pl)
    (hcont : (plansAfter cycles c env).IsChain Continues) (sn : String)
    (hraw : c.raw.sections[sn]?.isSome = true)
    (henabled : sectionEnabled sn (atPlan cycles c).snap.serviceEnabled = true)
    (hscope : inScope ((atPlan cycles c).input env) sn = true) :
    ∃ sec, (atPlan cycles c).conf.sections[sn]? = some sec ∧
      WrittenAs (plansAfter cycles c env) ⟨(atPlan cycles c).input env, pl⟩ sn sec := by
  have hparsed : (atPlan cycles c).conf.sections[sn]?.isSome = true := by
    rw [atPlan, Daemon.begin_eq (idle_run_cycles cycles)] at henabled ⊢
    exact (parse_sections_isSome_iff _ _ _ _).mpr ⟨hraw, henabled⟩
  obtain ⟨sec, hsec⟩ := Option.isSome_iff_exists.mp hparsed
  have hcons : isConsidered ((atPlan cycles c).input env) sn = true := by
    rw [isConsidered, hscope, Bool.true_and]
    exact henabled
  have hnewest : ⟨(atPlan cycles c).input env, pl⟩ ∈ (plansAfter cycles c env).head? := by
    rw [plansAfter_eq hpl]
    rfl
  exact ⟨sec, hsec, upToDate_run _ hcont _ hnewest sn sec hsec hcons⟩

/-- The variable changes between two cycles with the same services. -/
def proxyKept : List DaemonCycle :=
  [sharedCycle "a" ["mta", "proxy"], sharedCycle "b" ["mta", "proxy"]]

/-- The start of a further cycle with both services. -/
def bothEnabled : CycleStart :=
  sharedStart "b" ["mta", "proxy"]

/-- In a third cycle that changes nothing, the proxy is up to date since the second. -/
theorem upToDate_of_continues_same_services :
    ∃ pl ∈ compute ((atPlan proxyKept bothEnabled).input { files := noFiles }),
      ∃ sec ∈ (atPlan proxyKept bothEnabled).conf.sections["proxy"]?,
        diffSection ((atPlan proxyKept bothEnabled).input { files := noFiles }) "proxy" sec = [] ∧
        WrittenAs (plansAfter proxyKept bothEnabled { files := noFiles })
          ⟨(atPlan proxyKept bothEnabled).input { files := noFiles }, pl⟩ "proxy" sec := by
  obtain ⟨pl, hpl⟩ : ∃ pl, compute ((atPlan proxyKept bothEnabled).input
      { files := noFiles }) = some pl := by
    rw [← Option.isSome_iff_exists]
    decide +kernel
  have hsame : (plansAfter proxyKept bothEnabled { files := noFiles }).IsChain SameSections := by
    decide +kernel
  have hsections : (atPlan proxyKept bothEnabled).conf.sections["proxy"]? =
      some hostnameSection := by decide +kernel
  obtain ⟨sec, hsec, hwritten⟩ := upToDate_of_continues proxyKept bothEnabled
    { files := noFiles } pl hpl (hsame.imp fun _ _ => continues_of_sameSections) "proxy"
    (by decide +kernel) (by decide +kernel) (by decide +kernel)
  cases hsections.symm.trans hsec
  exact ⟨pl, hpl, hostnameSection, hsec, by decide +kernel, hwritten⟩

/-- The cycles before the proxy is enabled again: it was disabled while the
variable changed. -/
def proxyDisabled : List DaemonCycle :=
  [sharedCycle "a" ["mta", "proxy"], sharedCycle "b" ["mta"]]

/-- The proxy is not written when it is enabled again: the MTA has kept observing
the variable. -/
theorem not_writtenAs_of_reenabled :
    ∃ pl ∈ compute ((atPlan proxyDisabled bothEnabled).input { files := noFiles }),
      ∃ sec ∈ (atPlan proxyDisabled bothEnabled).conf.sections["proxy"]?,
        ¬ WrittenAs (plansAfter proxyDisabled bothEnabled { files := noFiles })
          ⟨(atPlan proxyDisabled bothEnabled).input { files := noFiles }, pl⟩ "proxy" sec := by
  obtain ⟨pl, hpl⟩ : ∃ pl, compute ((atPlan proxyDisabled bothEnabled).input
      { files := noFiles }) = some pl := by
    rw [← Option.isSome_iff_exists]
    decide +kernel
  have hsec : (atPlan proxyDisabled bothEnabled).conf.sections["proxy"]? =
      some hostnameSection := by decide +kernel
  refine ⟨pl, hpl, hostnameSection, hsec, ?_⟩
  rintro ⟨p, hp, hvalues⟩
  have hold : (lastProcessed (plansAfter proxyDisabled bothEnabled { files := noFiles })
      "proxy").map (fun p => p.input.cur.observedValue .var "zimbraServiceHostname") =
        some "a" := by decide +kernel
  rw [hp, Option.map_some, Option.some.injEq,
    hvalues .var "zimbraServiceHostname" ⟨"zimbraServiceHostname", by decide, by decide⟩] at hold
  have hcur : ((atPlan proxyDisabled bothEnabled).input
      { files := noFiles }).cur.observedValue .var "zimbraServiceHostname" = "b" := by
    decide +kernel
  exact absurd (hcur.symm.trans hold) (by decide)

end Configd
