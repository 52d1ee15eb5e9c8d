import Configd.ConfigMgr.Conditions
import Configd.Daemon.History
import Configd.Lib.Runs

/-!
# Set and delete directives of one parameter

A plan sets Postfix parameters (`Postconf`) and deletes others (`Postconfd`), and `Execute` runs
the two steps concurrently.  A configuration whose active directives never do both to one
parameter (`MtaConfig.Consistent`) is compiled to disjoint lists, but `mergeCarry` keeps a
carried action of the opposite kind.  `plans_apart_iff` says for which runs all plans are
conflict-free: those in which no `Plan` meets a carried directive that a processed section now
contradicts.
-/

namespace Configd

open Lib

/-! ## The active directives -/

def MtaConfigSection.sets (sec : MtaConfigSection) (snap : Snapshot) (key : String) : Bool :=
  sec.postconf.contains key ||
    sec.conditionals.any fun cond => conditionHolds snap cond && cond.postconf.contains key

def MtaConfigSection.deletes (sec : MtaConfigSection) (snap : Snapshot) (key : String) : Bool :=
  sec.postconfd.contains key ||
    sec.conditionals.any fun cond => conditionHolds snap cond && cond.postconfd.contains key

/-- An enabled section of the configuration, among those with the property. -/
def MtaConfig.Enables (conf : MtaConfig) (snap : Snapshot) (test : MtaConfigSection → Bool) :
    Prop :=
  ∃ sn sec, conf.sections[sn]? = some sec ∧ sectionEnabled sn snap.serviceEnabled = true ∧
    test sec = true

/-- In no snapshot do the active directives both set and delete a parameter. -/
def MtaConfig.Consistent (conf : MtaConfig) : Prop :=
  ∀ snap key, ¬ (conf.Enables snap (·.sets snap key) ∧ conf.Enables snap (·.deletes snap key))

/-- The plan does not both set and delete a parameter. -/
def Plan.Apart (pl : Plan) : Prop :=
  ∀ key, ¬ (key ∈ pl.postconf.map Directive.key ∧ key ∈ pl.postconfd.map Directive.key)

/-- The execution does not both set and delete a parameter. -/
def ExecutesApart (env : ExecEnv) (pl : Plan) : Prop :=
  ∀ key, ¬ (key ∈ (doPostconf env pl.postconf).applied.map Directive.key ∧
    key ∈ (doPostconfd env pl.postconfd).applied.map Directive.key)

/-! ## What a section compiles to -/

theorem mem_foldl_of_step {S E : Type} (view : S → Prop) (step : S → E → S) (adds : E → Bool)
    (hstep : ∀ state item, view (step state item) ↔ adds item = true ∨ view state)
    (items : List E) (state : S) :
    view (items.foldl step state) ↔ items.any adds = true ∨ view state := by
  have hloop := foldl_of_idempotent view step adds (fun _ => True) (fun _ => rfl)
    (fun state item => by
      rw [hstep]
      cases adds item <;> simp) items state
  rw [hloop]
  cases items.any adds <;> simp

theorem mem_foldl_setDirective (source : StrMap String) (sn : String) (reasons : List Reason)
    (map : StrMap Directive) (key : String) :
    key ∈ source.toList.foldl (fun map entry =>
        setDirective entry.1 (Strings.replaceChar entry.2 '\n' ' ') sn reasons map) map ↔
      source.contains key = true ∨ key ∈ map := by
  rw [mem_foldl_of_step (key ∈ ·) _ (fun entry => entry.1 = key)
    fun map entry => by simp [setDirective, OrdMap.upsert, Std.ExtTreeMap.mem_insert]]
  refine or_congr_left ?_
  rw [List.any_eq_true, ← Std.ExtTreeMap.mem_iff_contains, OrdMap.mem_iff_getElem?_isSome]
  constructor
  · rintro ⟨entry, hentry, hkey⟩
    rw [← of_decide_eq_true hkey]
    exact ⟨entry.2, Std.ExtTreeMap.mem_toList_iff_getElem?_eq_some.mp hentry⟩
  · rintro ⟨value, hvalue⟩
    exact ⟨(key, value), Std.ExtTreeMap.mem_toList_iff_getElem?_eq_some.mpr hvalue, by simp⟩

theorem mem_foldl_blocks (cur : Snapshot) (sn : String) (reasons : List Reason)
    (own : StrMap String) (ofBlock : Conditional → StrMap String) (blocks : List Conditional)
    (map : StrMap Directive) (key : String) :
    key ∈ blocks.foldl (fun map cond =>
        if conditionHolds cur cond then
          (ofBlock cond).toList.foldl (fun map entry =>
            setDirective entry.1 (Strings.replaceChar entry.2 '\n' ' ') sn reasons map) map
        else map)
        (own.toList.foldl (fun map entry =>
          setDirective entry.1 (Strings.replaceChar entry.2 '\n' ' ') sn reasons map) map) ↔
      (own.contains key ||
        blocks.any fun cond => conditionHolds cur cond && (ofBlock cond).contains key) = true ∨
        key ∈ map := by
  rw [mem_foldl_of_step (key ∈ ·) _
    (fun cond => conditionHolds cur cond && (ofBlock cond).contains key), mem_foldl_setDirective,
    Bool.or_eq_true, or_left_comm, or_assoc]
  intro map cond
  cases conditionHolds cur cond with
  | false => simp
  | true => simpa using mem_foldl_setDirective (ofBlock cond) sn reasons map key

def processes (input : Input) (test : MtaConfigSection → Bool) : Bool :=
  input.conf.sections.toList.any fun entry => isProcessed input entry.1 entry.2 && test entry.2

theorem mem_processSections (input : Input) (view : Builder → StrMap Directive) (key : String)
    (adds : MtaConfigSection → Bool) (hempty : key ∉ view {})
    (hcompile : ∀ b sn sec reasons, key ∈ view (compileSection input b sn sec reasons) ↔
      adds sec = true ∨ key ∈ view b)
    (hframe : ∀ (b : Builder) heal sections mapfiles,
      view { b with heal := heal, sections := sections, mapfiles := mapfiles } = view b) :
    key ∈ view (processSections input {}) ↔ processes input adds = true := by
  unfold processSections processes
  rw [mem_foldl_of_step (fun b => key ∈ view b) _
    (fun entry => isProcessed input entry.1 entry.2 && adds entry.2)]
  · simp [hempty]
  · intro b entry
    cases hproc : isProcessed input entry.1 entry.2 with
    | true => rw [processSection_of_processed b hproc, hcompile, hframe, Bool.true_and]
    | false =>
      rw [processSection_of_not_processed b hproc, Bool.false_and]
      have hheal := hframe b (healMapfiles entry.1 entry.2 (isCompared input entry.1) b.heal)
        b.sections b.mapfiles
      split <;> simp [hheal]

/-! ## The plan -/

theorem mem_carryItems (items : List Directive) (dst : StrMap Directive) (key : String) :
    key ∈ carryItems Directive.key Directive.mapReasons items dst ↔
      key ∈ items.map Directive.key ∨ key ∈ dst := by
  unfold carryItems
  rw [mem_foldl_of_step (key ∈ ·) _ (fun it : Directive => it.key = key)
    fun dst it => by simp [Std.ExtTreeMap.mem_insert]]
  simp

section Plan

variable {input : Input} {pl : Plan} (hpl : compute input = some pl) (hhost : input.host = none)

include hpl hhost

/-- **The parameters a plan sets**: those carried over and those a processed section
sets. -/
theorem mem_plan_postconf (key : String) :
    key ∈ pl.postconf.map Directive.key ↔
      key ∈ input.carry.postconf.map Directive.key ∨
        processes input (·.sets input.cur key) = true := by
  have hkeyed := keyed_carryItems directiveRef input.carry.postconf
    (keyed_processSections input).postconf
  rw [plan_postconf hpl hhost, hkeyed.map_valuesList, Std.ExtTreeMap.mem_keys, mem_carryItems,
    mem_processSections input Builder.postconf key (·.sets input.cur key) (by simp)
      (fun b sn sec reasons => mem_foldl_blocks input.cur sn reasons sec.postconf
        Conditional.postconf sec.conditionals b.postconf key) (fun _ _ _ _ => rfl)]

/-- **The parameters a plan deletes**: those carried over and those a processed
section deletes. -/
theorem mem_plan_postconfd (key : String) :
    key ∈ pl.postconfd.map Directive.key ↔
      key ∈ input.carry.postconfd.map Directive.key ∨
        processes input (·.deletes input.cur key) = true := by
  have hkeyed := keyed_carryItems directiveRef input.carry.postconfd
    (keyed_processSections input).postconfd
  rw [plan_postconfd hpl hhost, hkeyed.map_valuesList, Std.ExtTreeMap.mem_keys, mem_carryItems,
    mem_processSections input Builder.postconfd key (·.deletes input.cur key) (by simp)
      (fun b sn sec reasons => mem_foldl_blocks input.cur sn reasons sec.postconfd
        Conditional.postconfd sec.conditionals b.postconfd key) (fun _ _ _ _ => rfl)]

end Plan

/-- No carried directive is contradicted by a section that is processed. -/
def carryApart (input : Input) : Bool :=
  input.carry.postconf.all (fun d => !processes input (·.deletes input.cur d.key)) &&
    input.carry.postconfd.all (fun d => !processes input (·.sets input.cur d.key))

/-- The carried directives do not both set and delete a parameter. -/
def Carry.Apart (c : Carry) : Prop :=
  ∀ key, ¬ (key ∈ c.postconf.map Directive.key ∧ key ∈ c.postconfd.map Directive.key)

theorem enables_of_processes {input : Input} {test : MtaConfigSection → Bool}
    (hproc : processes input test = true) : input.conf.Enables input.cur test := by
  obtain ⟨⟨sn, sec⟩, hmem, hboth⟩ := List.any_eq_true.mp hproc
  rw [Bool.and_eq_true, isProcessed, Bool.and_eq_true, isConsidered, Bool.and_eq_true] at hboth
  exact ⟨sn, sec, Std.ExtTreeMap.mem_toList_iff_getElem?_eq_some.mp hmem, hboth.1.1.2, hboth.2⟩

/-- **When a plan is conflict-free**, for a consistent configuration and a carry that
is so. -/
theorem plan_apart_iff {input : Input} {pl : Plan} (hpl : compute input = some pl)
    (hhost : input.host = none) (hconf : input.conf.Consistent) (hcarry : input.carry.Apart) :
    pl.Apart ↔ carryApart input = true := by
  simp only [Plan.Apart, mem_plan_postconf hpl hhost, mem_plan_postconfd hpl hhost, carryApart,
    Bool.and_eq_true, List.all_eq_true, Bool.not_eq_true', ← Bool.not_eq_true]
  constructor
  · intro hapart
    refine ⟨fun d hd hdeletes => hapart d.key ⟨Or.inl ?_, Or.inr hdeletes⟩,
      fun d hd hsets => hapart d.key ⟨Or.inr hsets, Or.inl ?_⟩⟩
    · exact List.mem_map_of_mem hd
    · exact List.mem_map_of_mem hd
  · rintro ⟨hpostconf, hpostconfd⟩ key ⟨hset | hsets, hdeleted | hdeletes⟩
    · exact hcarry key ⟨hset, hdeleted⟩
    · obtain ⟨d, hd, rfl⟩ := List.mem_map.mp hset
      exact hpostconf d hd hdeletes
    · obtain ⟨d, hd, rfl⟩ := List.mem_map.mp hdeleted
      exact hpostconfd d hd hsets
    · exact hconf input.cur key ⟨enables_of_processes hsets, enables_of_processes hdeletes⟩

/-! ## The execution -/

theorem doPostconf_applied_sublist (env : ExecEnv) (entries : List Directive) :
    (doPostconf env entries).applied.Sublist entries := by
  set resolved := runLoop env.postconfCancelled env.resolvePostconf 0 entries with hresolved
  have hops : (executePostconfOps env resolved.applied).applied.Sublist entries := by
    refine List.Sublist.trans ?_ (applied_sublist env.postconfCancelled env.resolvePostconf 0
      entries)
    unfold executePostconfOps
    split
    · simp
    · cases env.postconfBatch with
      | ok => exact List.Sublist.refl _
      | panicked => simp
      | failed => exact applied_sublist _ _ _ _
  unfold doPostconf
  simp only [← hresolved]
  cases resolved.ending with
  | panicked => simp
  | cancelled rest => simp
  | finished => cases (executePostconfOps env resolved.applied).ending <;> exact hops

theorem doPostconf_carried_subset (env : ExecEnv) (entries : List Directive) :
    (doPostconf env entries).carried ⊆ entries := by
  set resolved := runLoop env.postconfCancelled env.resolvePostconf 0 entries with hresolved
  unfold doPostconf StepRun.carried
  simp only [← hresolved]
  cases resolved.ending with
  | panicked => simp
  | cancelled rest => simp
  | finished =>
    cases (executePostconfOps env resolved.applied).ending <;>
      simp [retried]

theorem doPostconfd_subset (env : ExecEnv) (entries : List Directive) :
    (doPostconfd env entries).applied ⊆ entries ∧ (doPostconfd env entries).carried ⊆ entries := by
  unfold doPostconfd
  split
  · simp [StepRun.carried]
  · cases (runLoop env.postconfdCancelled (fun _ => .ok) 0 entries).ending with
    | cancelled rest => simp [StepRun.carried]
    | finished => cases env.postconfdBatch <;> simp [StepRun.carried]
    | panicked => cases env.postconfdBatch <;> simp [StepRun.carried]

theorem apart_of_subset {sets sets' deletes deletes' : List Directive}
    (hapart : ∀ key, ¬ (key ∈ sets.map Directive.key ∧ key ∈ deletes.map Directive.key))
    (hsets : sets' ⊆ sets) (hdeletes : deletes' ⊆ deletes) (key : String) :
    ¬ (key ∈ sets'.map Directive.key ∧ key ∈ deletes'.map Directive.key) :=
  fun hboth => hapart key
    ⟨List.map_subset _ hsets hboth.1, List.map_subset _ hdeletes hboth.2⟩

/-! ## Runs -/

theorem consistent_parse {raw : MtaConfig} (hraw : raw.Consistent) (fs : Files)
    (base : Snapshot) : (parseMtaConfig fs base raw).Consistent := by
  have hkept : ∀ snap (test : MtaConfigSection → Bool),
      (∀ sec, test (parsedSection fs base sec) = test sec) →
      (parseMtaConfig fs base raw).Enables snap test → raw.Enables snap test := by
    rintro snap test hsame ⟨sn, sec, hsec, henabled, htest⟩
    simp only [parseMtaConfig, Std.ExtTreeMap.getElem?_filterMap', Option.bind_eq_some_iff,
      Option.ite_none_right_eq_some, Option.some.injEq] at hsec
    obtain ⟨rawSec, hrawSec, -, rfl⟩ := hsec
    exact ⟨sn, rawSec, hrawSec, henabled, (hsame rawSec).symm.trans htest⟩
  intro snap key hboth
  exact hraw snap key ⟨hkept snap _ (fun _ => rfl) hboth.1, hkept snap _ (fun _ => rfl) hboth.2⟩

namespace Daemon

/-- A call of `Plan` that makes a plan meets no carried directive that a processed
section contradicts. -/
def plansApart (d : Daemon) : Event → Bool
  | .plan env =>
    match d.phase with
    | .idle => !guardAllDisabled (d.input env) || carryApart (d.input env)
    | _ => true
  | _ => true

/-- Nothing the daemon holds both sets and deletes a parameter. -/
structure Apart (d : Daemon) : Prop where
  conf : d.conf.Consistent
  carry : d.carry.Apart
  plan : ∀ pl, d.phase.plan = some pl → pl.Apart

/-- **A plan of such a daemon** is conflict-free exactly if the condition holds. -/
theorem Apart.planned_iff {d : Daemon} (hd : d.Apart) (e : Event) :
    (∀ p ∈ d.planned e, p.plan.Apart) ↔ d.plansApart e = true := by
  cases e with
  | plan env =>
    cases hphase : d.phase with
    | idle =>
      cases hpl : compute (d.input env) with
      | none =>
        have hguard : guardAllDisabled (d.input env) = false := by
          simpa [compute] using hpl
        simp [planned, plansApart, hphase, hpl, hguard]
      | some pl =>
        simp [planned, plansApart, hphase, hpl, (compute_eq_some hpl).1,
          plan_apart_iff hpl rfl hd.conf hd.carry]
    | planned pl | executed pl | completed => simp [planned, plansApart, hphase]
  | load | parse | request | execute | applyRestarts | finish => simp [planned, plansApart]

theorem holdDeferred_apart {pl : Plan} (hpl : pl.Apart) (deferred : List Restart)
    (release systemd : Bool) : (holdDeferred deferred pl release systemd).2.Apart := by
  unfold holdDeferred
  simp only
  split
  · exact hpl
  · exact hpl

theorem Apart.step {d : Daemon} (hd : d.Apart) {e : Event}
    (hparse : ∀ fs raw, e = .parse fs raw → raw.Consistent) (happly : d.plansApart e = true) :
    (d.step e).Apart := by
  rcases d.step_cases e with heq | ⟨_, -, heq⟩ | ⟨_, -, -, heq⟩ | ⟨fs, raw, he, hidle, heq⟩ |
    ⟨env, he, hidle, heq⟩ | ⟨env, pl, -, hphase, heq⟩ | ⟨settings, env, pl, -, hphase, heq⟩ |
    ⟨-, hphase, heq⟩
  · rw [heq]
    exact hd
  · rw [heq]
    exact ⟨hd.conf, hd.carry, hd.plan⟩
  · rw [heq]
    exact ⟨hd.conf, hd.carry, hd.plan⟩
  · rw [heq]
    exact ⟨consistent_parse (hparse fs raw he) fs d.snap, hd.carry, hd.plan⟩
  · rw [heq]
    rcases d.plan_cases env with ⟨-, hplan⟩ | ⟨pl, hpl, hplan⟩
    · rw [hplan]
      exact ⟨hd.conf, hd.carry, hd.plan⟩
    · have hapart : pl.Apart := by
        refine (hd.planned_iff e).mpr happly ⟨d.input env, pl⟩ ?_
        simp [planned, he, hidle, hpl]
      rw [hplan]
      refine ⟨hd.conf, hd.carry, ?_⟩
      intro pl' hpl'
      rw [← Option.some.inj hpl']
      exact holdDeferred_apart hapart _ _ _
  · have hapart := hd.plan pl (by simp [hphase, Phase.plan])
    rw [heq]
    refine ⟨hd.conf, apart_of_subset hapart (doPostconf_carried_subset env pl.postconf)
      (doPostconfd_subset env pl.postconfd).2, ?_⟩
    intro pl' hpl'
    simp only [executePlan] at hpl'
    split at hpl'
    · simp [Phase.plan] at hpl'
    · rw [← Option.some.inj hpl']
      exact hapart
  · rw [heq]
    exact ⟨hd.conf, hd.carry, by simp [applyRestarts, Phase.plan]⟩
  · rw [heq]
    exact ⟨hd.conf, hd.carry, by simp [Phase.plan]⟩

theorem apart_init : Apart {} where
  conf := by
    rintro snap key ⟨⟨sn, sec, hsec, -⟩, -⟩
    simp at hsec
  carry := by simp [Carry.Apart]
  plan := by simp [Phase.plan]

end Daemon

theorem History.plans_subset_foldl (h : History) (events : List Event) :
    h.plans ⊆ (events.foldl next h).plans := by
  induction events generalizing h with
  | nil => exact List.Subset.refl _
  | cons e rest ih => exact List.Subset.trans (List.subset_append_right _ _) (ih (h.next e))

/-- **A run from a daemon that holds no conflict.**  The plans of the run are
conflict-free exactly if each call of `Plan` meets the condition: the first one that
does not makes a plan with a conflict. -/
theorem History.plans_apart_from {h : History} (hh : h.daemon.Apart) {events : List Event}
    (hparse : ∀ fs raw, Event.parse fs raw ∈ events → raw.Consistent) :
    (∀ p ∈ (events.foldl next h).plans, p.plan.Apart) ↔
      (∀ p ∈ h.plans, p.plan.Apart) ∧
        Along Daemon.step (fun d e => d.plansApart e = true) h.daemon events := by
  induction events generalizing h with
  | nil => simp [Along]
  | cons e rest ih =>
    have hrest : ∀ fs raw, Event.parse fs raw ∈ rest → raw.Consistent :=
      fun fs raw hmem => hparse fs raw (List.mem_cons_of_mem e hmem)
    have hnext : (∀ p ∈ (h.next e).plans, p.plan.Apart) ↔
        (∀ p ∈ h.plans, p.plan.Apart) ∧ h.daemon.plansApart e = true := by
      rw [← hh.planned_iff e, and_comm]
      simp [next, or_imp, forall_and]
    rw [List.foldl_cons, Along]
    by_cases hmeets : h.daemon.plansApart e = true
    · have hstep : (h.next e).daemon.Apart := by
        refine hh.step (fun fs raw he => hparse fs raw ?_) hmeets
        simp [he]
      rw [ih hstep hrest, hnext, and_assoc]
      rfl
    · constructor
      · intro hall
        have hhead := hnext.mp fun p hp => hall p (plans_subset_foldl (h.next e) rest hp)
        exact absurd hhead.2 hmeets
      · rintro ⟨-, hmeets', -⟩
        exact absurd hmeets' hmeets

/-! ## The result -/

def toggleBlock (negated : Bool) (postconf postconfd : List (String × String)) : Conditional where
  type := .var
  key := "zimbraMtaEnable"
  negated := negated
  postconf := Std.ExtTreeMap.ofList postconf compare
  postconfd := Std.ExtTreeMap.ofList postconfd compare
  requiredVars := ∅

/-- The parameter is set while the flag is true and deleted while it is false. -/
def toggleSection : MtaConfigSection where
  requiredVars := Std.ExtTreeMap.ofList [("zimbraMtaEnable", .var)] compare
  conditionals :=
    [toggleBlock false [("smtpd_milters", "inet:localhost:7026")] [],
      toggleBlock true [] [("smtpd_milters", "")]]

def toggleConf : MtaConfig where
  sections := Std.ExtTreeMap.ofList [("mta", toggleSection)] compare

/-- A cycle with a value of the flag, whose `postconf` calls end as `env` says. -/
def toggleCycle (flag : String) (env : ExecEnv) : List Event :=
  [.load (.ofServer [("zimbraMtaEnable", flag)] ["mta"]), .parse noFiles toggleConf,
    .plan { files := noFiles }, .execute env]

def postconfBroken : ExecEnv :=
  { ExecEnv.allOk with postconfBatch := .failed, postconf := fun _ => .failed }

theorem toggleConf_consistent : toggleConf.Consistent := by
  have hsection : ∀ snap (test : MtaConfigSection → Bool), toggleConf.Enables snap test →
      test toggleSection = true := by
    rintro snap test ⟨sn, sec, hsec, -, htest⟩
    rw [toggleConf, Std.ExtTreeMap.ofList_singleton, OrdMap.getElem?_insert_iff] at hsec
    split at hsec
    · rwa [Option.some.inj hsec]
    · simp at hsec
  rintro snap key ⟨hsets, hdeletes⟩
  have hset := hsection snap _ hsets
  have hdelete := hsection snap _ hdeletes
  have hblocks : conditionHolds snap (toggleBlock true [] [("smtpd_milters", "")]) =
      !conditionHolds snap (toggleBlock false [("smtpd_milters", "inet:localhost:7026")] []) := rfl
  have hnoSet : (toggleBlock true [] [("smtpd_milters", "")]).postconf = ∅ := rfl
  have hnoDelete :
      (toggleBlock false [("smtpd_milters", "inet:localhost:7026")] []).postconfd = ∅ := rfl
  cases hholds : conditionHolds snap
    (toggleBlock false [("smtpd_milters", "inet:localhost:7026")] []) with
  | true => simp [MtaConfigSection.deletes, toggleSection, hblocks, hholds, hnoDelete] at hdelete
  | false => simp [MtaConfigSection.sets, toggleSection, hholds, hnoSet] at hset

/-- **The plans of a run are conflict-free** exactly if no call of `Plan` meets a
carried directive that a processed section contradicts.  The executions of such
plans never both set and delete a parameter. -/
theorem plans_apart_iff (events : List Event)
    (hparse : ∀ fs raw, Event.parse fs raw ∈ events → raw.Consistent) :
    (∀ p ∈ (History.run events).plans, p.plan.Apart ∧ ∀ env, ExecutesApart env p.plan) ↔
      Along Daemon.step (fun d e => d.plansApart e = true) {} events := by
  have hruns := History.plans_apart_from (h := {}) Daemon.apart_init hparse
  have hboth : ∀ p : Planned,
      (p.plan.Apart ∧ ∀ env, ExecutesApart env p.plan) ↔ p.plan.Apart :=
    fun p => ⟨And.left, fun hapart => ⟨hapart, fun env => apart_of_subset hapart
      (doPostconf_applied_sublist env _).subset (doPostconfd_subset env _).1⟩⟩
  simp only [hboth]
  exact hruns.trans (and_iff_right (by simp))

theorem plans_apart_of_repeated :
    toggleConf.Consistent ∧
      ∀ p ∈ (History.run (toggleCycle "TRUE" postconfBroken ++
        toggleCycle "TRUE" ExecEnv.allOk)).plans,
        p.plan.Apart ∧ ∀ env, ExecutesApart env p.plan := by
  refine ⟨toggleConf_consistent, (plans_apart_iff _ ?_).mpr (by decide +kernel)⟩
  intro fs raw hmem
  simp only [toggleCycle, List.cons_append, List.nil_append, List.mem_cons, List.not_mem_nil,
    reduceCtorEq, Event.parse.injEq, false_or, or_false] at hmem
  rcases hmem with ⟨-, rfl⟩ | ⟨-, rfl⟩ <;> exact toggleConf_consistent

/-- The parameter could not be set; in the next cycle the flag is false, and the plan
sets the parameter and deletes it. -/
theorem plan_not_apart_after_flip :
    toggleConf.Consistent ∧
      ∃ p ∈ (History.run (toggleCycle "TRUE" postconfBroken ++
          toggleCycle "FALSE" ExecEnv.allOk)).plans,
        p.plan.postconf.map Directive.key = ["smtpd_milters"] ∧
          p.plan.postconfd.map Directive.key = ["smtpd_milters"] ∧
          (doPostconf ExecEnv.allOk p.plan.postconf).applied.map Directive.key =
            ["smtpd_milters"] ∧
          (doPostconfd ExecEnv.allOk p.plan.postconfd).applied.map Directive.key =
            ["smtpd_milters"] := by
  refine ⟨toggleConf_consistent, ?_⟩
  have hrun : (History.run (toggleCycle "TRUE" postconfBroken ++
      toggleCycle "FALSE" ExecEnv.allOk)).plans.any (fun p =>
        p.plan.postconf.map Directive.key = ["smtpd_milters"] ∧
          p.plan.postconfd.map Directive.key = ["smtpd_milters"] ∧
          (doPostconf ExecEnv.allOk p.plan.postconf).applied.map Directive.key =
            ["smtpd_milters"] ∧
          (doPostconfd ExecEnv.allOk p.plan.postconfd).applied.map Directive.key =
            ["smtpd_milters"]) = true := by decide +kernel
  obtain ⟨p, hp, hboth⟩ := List.any_eq_true.mp hrun
  exact ⟨p, hp, of_decide_eq_true hboth⟩

end Configd
