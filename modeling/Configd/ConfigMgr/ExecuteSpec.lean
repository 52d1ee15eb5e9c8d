import Configd.ConfigMgr.Execute

/-!
# What an execution carries

`StepSpec` is the contract of one step: unless it panics it carries exactly the
entries it did not apply, when it panics it lost one, and it reports an error
for every entry that neither was applied nor fell to a cancellation.  Each of the
five steps meets it.

`ExecuteMeets` is the contract of a whole execution, up to the next plan:
everything that was not applied is carried, and every plan computed from that
carry contains it.  `execute_meets_iff` says that an execution meets it exactly
when none of its steps panics (a panic of `Execute` itself is one of the main loop).
-/

namespace Configd

open Lib

variable {T : Type} [DecidableEq T]

/-- The entries of a step that it did not apply. -/
def unapplied (entries : List T) (run : StepRun T) : List T :=
  entries.filter fun e => decide (e ∉ run.applied)

structure StepSpec (entries : List T) (run : StepRun T) : Prop where
  exact : run.ending ≠ .panicked → run.carried = unapplied entries run
  lost : run.ending = .panicked → unapplied entries run ≠ []
  reports : ∀ e ∈ unapplied entries run, e ∉ run.left → run.reported = true

variable {entries : List T}

theorem mem_unapplied {run : StepRun T} {e : T} :
    e ∈ unapplied entries run ↔ e ∈ entries ∧ e ∉ run.applied := by
  simp [unapplied]

theorem StepSpec.carried_iff {run : StepRun T} (hspec : StepSpec entries run) :
    run.carried = unapplied entries run ↔ run.ending ≠ .panicked := by
  constructor
  · intro hcarried hpanicked
    apply hspec.lost hpanicked
    rw [← hcarried, StepRun.carried, hpanicked]
  · exact hspec.exact

theorem StepSpec.panicked {applied : List T} {e : T} (he : e ∈ entries)
    (hnot : e ∉ applied) : StepSpec entries ⟨applied, .panicked⟩ where
  exact := fun h => absurd rfl h
  lost := fun _ => List.ne_nil_of_mem (mem_unapplied.mpr ⟨he, hnot⟩)
  reports := fun _ _ _ => rfl

theorem StepSpec.returned {applied pending errs left : List T}
    (hpending : pending = entries.filter fun e => decide (e ∉ applied))
    (herrs : ∀ e ∈ entries, e ∉ applied → e ∉ left → e ∈ errs) :
    StepSpec entries ⟨applied, .returned pending errs left⟩ where
  exact := fun _ => hpending
  lost := fun h => by cases h
  reports := by
    intro e he hleft
    obtain ⟨hentry, hnot⟩ := mem_unapplied.mp he
    simpa [StepRun.reported] using List.ne_nil_of_mem (herrs e hentry hnot hleft)

omit [DecidableEq T] in
theorem mem_map_key_iff {key : T → String} {some : List T}
    (hkeys : (entries.map key).Nodup) (hsub : ∀ e ∈ some, e ∈ entries) {e : T}
    (he : e ∈ entries) : key e ∈ some.map key ↔ e ∈ some := by
  constructor
  · intro hmem
    obtain ⟨e', he', hsame⟩ := List.mem_map.mp hmem
    rw [← List.inj_on_of_nodup_map hkeys (hsub e' he') he hsame]
    exact he'
  · exact List.mem_map_of_mem

theorem doRewrites_spec (env : ExecEnv) {entries : List Rewrite}
    (hkeys : (entries.map Rewrite.source).Nodup) : StepSpec entries (doRewrites env entries) := by
  set run := runLoop env.rewriteCancelled (fun e => (env.rewrite e).recovered) 0 entries with hrun
  have hnopanic : run.ending ≠ .panicked := by
    intro hpanic
    obtain ⟨processed, rest, -, -, -, -, hleaves⟩ := runLoop_spec env.rewriteCancelled
      (fun e => (env.rewrite e).recovered) 0 entries
    rw [← hrun, hpanic] at hleaves
    obtain ⟨e, tail, -, he⟩ := hleaves
    cases hop : env.rewrite e <;> simp [hop, HostOutcome.recovered] at he
  have hsplit := filter_not_applied (List.Nodup.of_map _ hkeys) hnopanic
  refine StepSpec.returned (List.filter_congr fun e he => ?_) ?_
  · simp [mem_map_key_iff hkeys (fun _ h => (applied_sublist _ _ _ _).subset h) he]
  intro e he hnot hleft
  have hmem : e ∈ run.failed ++ run.rest := by
    rw [← hsplit]
    exact List.mem_filter.mpr ⟨he, by simpa using hnot⟩
  exact (List.mem_append.mp hmem).resolve_right hleft

theorem doLdap_spec (env : ExecEnv) {entries : List Directive} (hnodup : entries.Nodup) :
    StepSpec entries (doLdap env entries) := by
  set run := runLoop env.ldapCancelled
    (fun e => (env.resolveLdap e).andThen (env.ldapWrite e)) 0 entries with hrun
  by_cases hpanic : run.ending = .panicked
  · have hstep : doLdap env entries = ⟨run.applied, .panicked⟩ := by
      simp [doLdap, ← hrun, hpanic]
    obtain ⟨e, he, hnot⟩ := exists_not_applied_of_panicked hpanic
    rw [hstep]
    exact .panicked he hnot
  · have hstep : doLdap env entries =
        ⟨run.applied, .returned (run.failed ++ run.rest) run.failed run.rest⟩ := by
      simp only [doLdap, ← hrun]
    have hsplit := filter_not_applied hnodup hpanic
    rw [hstep]
    refine .returned hsplit.symm ?_
    intro e he hnot hleft
    have hmem : e ∈ run.failed ++ run.rest := by
      rw [← hsplit]
      exact List.mem_filter.mpr ⟨he, by simpa using hnot⟩
    exact (List.mem_append.mp hmem).resolve_right hleft

theorem doPostconfd_spec (env : ExecEnv) (entries : List Directive) :
    StepSpec entries (doPostconfd env entries) := by
  unfold doPostconfd
  by_cases hempty : entries.isEmpty = true
  · have hnil : entries = [] := List.isEmpty_iff.mp hempty
    simp only [hempty, if_true]
    exact .returned (by simp [hnil]) (by simp [hnil])
  · have hne : entries ≠ [] := fun h => hempty (List.isEmpty_iff.mpr h)
    simp only [hempty, Bool.false_eq_true, if_false]
    split
    · exact .returned (by simp) fun e he _ hleft => absurd he hleft
    · cases env.postconfdBatch with
      | ok => exact .returned (by simp) fun e he hnot _ => absurd he hnot
      | failed => exact .returned (by simp) fun e he _ _ => he
      | panicked =>
        obtain ⟨e, he⟩ := List.exists_mem_of_ne_nil entries hne
        exact .panicked he (by simp)

theorem runProxygen_spec (env : ExecEnv) (req : Option Proxygen) :
    StepSpec req.toList (runProxygen env req) := by
  cases req with
  | none => exact .returned (by simp) (by simp)
  | some p =>
    unfold runProxygen
    cases env.proxygen with
    | ok => exact .returned (by simp) (by simp)
    | failed => exact .returned (by simp) (by simp)
    | panicked => exact .panicked (e := p) (by simp) (by simp)

theorem executePostconfOps_spec (env : ExecEnv) {ops : List Directive} (hnodup : ops.Nodup) :
    (executePostconfOps env ops).applied.Sublist ops ∧
      ((executePostconfOps env ops).ending = .panicked →
        ∃ e ∈ ops, e ∉ (executePostconfOps env ops).applied) ∧
      ((executePostconfOps env ops).ending ≠ .panicked →
        ops.filter (fun e => decide (e ∉ (executePostconfOps env ops).applied)) =
          (executePostconfOps env ops).failed) := by
  unfold executePostconfOps
  by_cases hempty : ops.isEmpty = true
  · have hnil : ops = [] := List.isEmpty_iff.mp hempty
    simp [hnil]
  · obtain ⟨e, tail, hops⟩ := List.exists_cons_of_ne_nil
      (fun h : ops = [] => hempty (List.isEmpty_iff.mpr h))
    simp only [hempty, Bool.false_eq_true, if_false]
    cases env.postconfBatch with
    | ok => exact ⟨List.Sublist.refl ops, by simp, by simp⟩
    | panicked => exact ⟨by simp, fun _ => ⟨e, by simp [hops], by simp⟩, by simp⟩
    | failed =>
      refine ⟨applied_sublist _ _ _ _, exists_not_applied_of_panicked, ?_⟩
      intro hending
      have hrest : (runLoop (fun _ => false) env.postconf 0 ops).rest = [] := by
        unfold LoopRun.rest
        split
        · rename_i rest hcancelled
          exact absurd hcancelled (ending_ne_cancelled_of_never env.postconf 0 ops rest)
        · rfl
      have hsplit := filter_not_applied hnodup hending
      simpa [hrest] using hsplit

theorem mem_failed_iff {first second firstFailed secondFailed : List T}
    (hsecond : second.Sublist first)
    (hfirstFailed : firstFailed = entries.filter (fun e => decide (e ∉ first)))
    (hsecondFailed : secondFailed = first.filter (fun e => decide (e ∉ second))) :
    ∀ e ∈ entries, e ∈ firstFailed ++ secondFailed ↔ e ∉ second := by
  intro e he
  rw [List.mem_append, hfirstFailed, hsecondFailed]
  by_cases hfirst : e ∈ first
  · simp [hfirst]
  · have hnot : e ∉ second := fun h => hfirst (hsecond.subset h)
    simp [he, hfirst, hnot]

theorem doPostconf_spec_of_finished (env : ExecEnv) {entries : List Directive}
    (hkeys : (entries.map Directive.key).Nodup)
    (hending : (runLoop env.postconfCancelled env.resolvePostconf 0 entries).ending = .finished) :
    StepSpec entries (doPostconf env entries) := by
  have hnodup : entries.Nodup := List.Nodup.of_map _ hkeys
  set resolved := runLoop env.postconfCancelled env.resolvePostconf 0 entries with hresolved
  have hsub : resolved.applied.Sublist entries := applied_sublist _ _ _ _
  obtain ⟨hops, hlost, hleft⟩ := executePostconfOps_spec env (hnodup.sublist hsub)
  set run := executePostconfOps env resolved.applied with hrun
  by_cases hpanic : run.ending = .panicked
  · have hstep : doPostconf env entries = ⟨run.applied, .panicked⟩ := by
      simp [doPostconf, ← hresolved, hending, ← hrun, hpanic]
    obtain ⟨e, he, hnot⟩ := hlost hpanic
    rw [hstep]
    exact .panicked (hsub.subset he) hnot
  · have hstep : doPostconf env entries = ⟨run.applied,
        .returned (retried entries (resolved.failed ++ run.failed))
          (resolved.failed ++ run.failed) []⟩ := by
      simp only [doPostconf, ← hresolved, hending, ← hrun]
    have hrest : resolved.rest = [] := by simp [LoopRun.rest, hending]
    have hsplit : resolved.failed = entries.filter (fun e => decide (e ∉ resolved.applied)) := by
      rw [← List.append_nil resolved.failed, ← hrest]
      exact (filter_not_applied hnodup (show resolved.ending ≠ .panicked by simp [hending])).symm
    have hmem := mem_failed_iff hops hsplit (hleft hpanic).symm
    have hfailed : ∀ e ∈ resolved.failed ++ run.failed, e ∈ entries := by
      intro e he
      rw [hsplit, ← hleft hpanic, List.mem_append, List.mem_filter, List.mem_filter] at he
      exact he.elim And.left fun h => hsub.subset h.1
    rw [hstep]
    refine .returned ?_ fun e he hnot _ => (hmem e he).mpr hnot
    apply List.filter_congr
    intro e he
    simp only [mem_map_key_iff hkeys hfailed he, hmem e he]

theorem doPostconf_spec (env : ExecEnv) {entries : List Directive}
    (hkeys : (entries.map Directive.key).Nodup) : StepSpec entries (doPostconf env entries) := by
  set resolved := runLoop env.postconfCancelled env.resolvePostconf 0 entries with hresolved
  cases hending : resolved.ending with
  | panicked =>
    obtain ⟨e, he, -⟩ := exists_not_applied_of_panicked hending
    have hstep : doPostconf env entries = ⟨[], .panicked⟩ := by
      simp [doPostconf, ← hresolved, hending]
    rw [hstep]
    exact .panicked he (by simp)
  | cancelled rest =>
    have hstep : doPostconf env entries = ⟨[], .returned entries resolved.failed
        (entries.filter fun e => decide (e ∉ resolved.failed))⟩ := by
      simp [doPostconf, ← hresolved, hending]
    rw [hstep]
    refine .returned (by simp) fun e he _ hleft => ?_
    by_contra hnot
    exact hleft (List.mem_filter.mpr ⟨he, by simpa using hnot⟩)
  | finished => exact doPostconf_spec_of_finished env hkeys hending

/-! ## The whole execution -/

/-- The entries of a plan have distinct keys. -/
structure Plan.Distinct (pl : Plan) : Prop where
  rewrites : (pl.rewrites.map Rewrite.source).Nodup
  postconf : (pl.postconf.map Directive.key).Nodup
  postconfd : (pl.postconfd.map Directive.key).Nodup
  ldap : (pl.ldap.map Directive.key).Nodup

/-- A Postfix step panics: while resolving a value, in the call for all parameters,
or in a call for one of them. -/
def PostconfPanics (env : ExecEnv) (entries : List Directive) : Prop :=
  PanicReached env.postconfCancelled env.resolvePostconf entries ∨
    (Uncancelled env.postconfCancelled entries ∧
      (∀ e ∈ entries, env.resolvePostconf e ≠ .panicked) ∧
      ∃ e ∈ entries, env.resolvePostconf e = .ok ∧
        (env.postconfBatch = .panicked ∨
          env.postconfBatch = .failed ∧ env.postconf e = .panicked))

/-- An operation of the execution outside the rewrite workers panics. -/
def Panics (env : ExecEnv) (pl : Plan) : Prop :=
  (pl.proxygen ≠ none ∧ env.proxygen = .panicked) ∨
    PostconfPanics env pl.postconf ∨
    (pl.postconfd ≠ [] ∧ Uncancelled env.postconfdCancelled pl.postconfd ∧
      env.postconfdBatch = .panicked) ∨
    PanicReached env.ldapCancelled (fun e => (env.resolveLdap e).andThen (env.ldapWrite e)) pl.ldap

theorem runProxygen_panicked_iff (env : ExecEnv) (req : Option Proxygen) :
    (runProxygen env req).ending = .panicked ↔ req ≠ none ∧ env.proxygen = .panicked := by
  cases req <;> cases hout : env.proxygen <;> simp [runProxygen, hout]

theorem doLdap_panicked_iff (env : ExecEnv) (entries : List Directive) :
    (doLdap env entries).ending = .panicked ↔
      PanicReached env.ldapCancelled (fun e => (env.resolveLdap e).andThen (env.ldapWrite e))
        entries := by
  have hiff := ending_panicked_iff env.ldapCancelled
    (fun e => (env.resolveLdap e).andThen (env.ldapWrite e)) 0 entries
  simp only [Nat.zero_add] at hiff
  rw [← hiff, doLdap]
  cases hending : (runLoop env.ldapCancelled
    (fun e => (env.resolveLdap e).andThen (env.ldapWrite e)) 0 entries).ending <;> simp

theorem doPostconfd_panicked_iff (env : ExecEnv) (entries : List Directive) :
    (doPostconfd env entries).ending = .panicked ↔
      entries ≠ [] ∧ Uncancelled env.postconfdCancelled entries ∧
        env.postconfdBatch = .panicked := by
  have hiff := ending_finished_iff env.postconfdCancelled (fun _ : Directive => .ok) 0 entries
  have hnopanic := ending_panicked_iff env.postconfdCancelled (fun _ : Directive => .ok) 0 entries
  simp only [Nat.zero_add] at hiff hnopanic
  unfold doPostconfd
  by_cases hempty : entries = []
  · simp [hempty]
  · cases hending : (runLoop env.postconfdCancelled (fun _ => .ok) 0 entries).ending with
    | finished =>
      have huncancelled := (hiff.mp hending).1
      cases hbatch : env.postconfdBatch <;> simp [hempty, huncancelled]
    | cancelled rest =>
      have hcancelled : ¬ Uncancelled env.postconfdCancelled entries := by
        intro h
        rw [hiff.mpr ⟨h, by simp⟩] at hending
        cases hending
      simp [hempty, hcancelled]
    | panicked =>
      obtain ⟨k, e, -, hpanic, -⟩ := hnopanic.mp hending
      cases hpanic

theorem executePostconfOps_panicked_iff (env : ExecEnv) (ops : List Directive) :
    (executePostconfOps env ops).ending = .panicked ↔
      ∃ e ∈ ops, env.postconfBatch = .panicked ∨
        env.postconfBatch = .failed ∧ env.postconf e = .panicked := by
  have hiff := ending_panicked_iff (fun _ => false) env.postconf 0 ops
  unfold executePostconfOps
  cases ops with
  | nil => simp
  | cons e rest =>
    cases hbatch : env.postconfBatch with
    | ok => simp
    | panicked => simp
    | failed =>
      show (runLoop (fun _ => false) env.postconf 0 (e :: rest)).ending = .panicked ↔ _
      rw [hiff]
      constructor
      · rintro ⟨k, x, hx, hpanic, -⟩
        exact ⟨x, List.mem_of_getElem? hx, Or.inr ⟨rfl, hpanic⟩⟩
      · rintro ⟨x, hx, hpanic⟩
        obtain ⟨k, hk⟩ := List.mem_iff_getElem?.mp hx
        exact ⟨k, x, hk, by simpa using hpanic, fun _ _ => rfl⟩

theorem doPostconf_panicked_iff (env : ExecEnv) (entries : List Directive) :
    (doPostconf env entries).ending = .panicked ↔ PostconfPanics env entries := by
  set resolved := runLoop env.postconfCancelled env.resolvePostconf 0 entries with hresolved
  have hpanicked := ending_panicked_iff env.postconfCancelled env.resolvePostconf 0 entries
  have hfinished := ending_finished_iff env.postconfCancelled env.resolvePostconf 0 entries
  simp only [Nat.zero_add, ← hresolved] at hpanicked hfinished
  unfold PostconfPanics
  rw [← hpanicked, ← and_assoc, ← hfinished]
  cases hending : resolved.ending with
  | panicked => simp [doPostconf, ← hresolved, hending]
  | cancelled rest => simp [doPostconf, ← hresolved, hending]
  | finished =>
    have happlied : resolved.applied = entries.filter (fun e => env.resolvePostconf e = .ok) :=
      applied_of_finished hending
    have hops := executePostconfOps_panicked_iff env resolved.applied
    simp only [happlied, List.mem_filter, decide_eq_true_eq, and_assoc] at hops
    simp only [doPostconf, ← hresolved, hending, happlied, ← hops]
    cases (executePostconfOps env (entries.filter fun e => env.resolvePostconf e = .ok)).ending <;>
      simp

theorem panics_iff (env : ExecEnv) (pl : Plan) :
    Panics env pl ↔
      (runProxygen env pl.proxygen).ending = .panicked ∨
        (doPostconf env pl.postconf).ending = .panicked ∨
        (doPostconfd env pl.postconfd).ending = .panicked ∨
        (doLdap env pl.ldap).ending = .panicked := by
  rw [runProxygen_panicked_iff, doPostconf_panicked_iff, doPostconfd_panicked_iff,
    doLdap_panicked_iff]
  rfl

/-- The list has an entry for each of the items, marked as retried: the item
itself or a fresh entry of the same key. -/
def Retried {T : Type} (key : T → String) (reasons : T → List Reason)
    (mapReasons : (List Reason → List Reason) → T → T) (fresh : StrMap T)
    (items list : List T) : Prop :=
  ∀ it ∈ items, ∃ x ∈ list, key x = key it ∧ retryReason ∈ reasons x ∧
    (x = mapReasons (appendReason · retryReason) it ∨
      ∃ f, fresh[key it]? = some f ∧ x = mapReasons (appendReason · retryReason) f)

/-- A plan computed from the carry contains everything the execution did not
apply. -/
structure RetriesUnapplied (env : ExecEnv) (pl : Plan) (input : Input) (next : Plan) : Prop where
  rewrites : Retried Rewrite.source Rewrite.reasons Rewrite.mapReasons
    (processSections input {}).rewrites (unapplied pl.rewrites (doRewrites env pl.rewrites))
    next.rewrites
  postconf : Retried Directive.key Directive.reasons Directive.mapReasons
    (processSections input {}).postconf (unapplied pl.postconf (doPostconf env pl.postconf))
    next.postconf
  postconfd : Retried Directive.key Directive.reasons Directive.mapReasons
    (processSections input {}).postconfd
    (unapplied pl.postconfd (doPostconfd env pl.postconfd)) next.postconfd
  ldap : Retried Directive.key Directive.reasons Directive.mapReasons
    (processSections input {}).ldap (unapplied pl.ldap (doLdap env pl.ldap)) next.ldap
  proxygen : unapplied pl.proxygen.toList (runProxygen env pl.proxygen) ≠ [] →
    ∃ x, next.proxygen = some x ∧ retryReason ∈ x.reasons

/-- Something was not applied for another reason than a cancellation. -/
def FailsToApply (env : ExecEnv) (pl : Plan) : Prop :=
  (doMapfile env pl.mapfiles).failed ≠ [] ∨
    (∃ p ∈ unapplied pl.proxygen.toList (runProxygen env pl.proxygen),
      p ∉ (runProxygen env pl.proxygen).left) ∨
    (∃ e ∈ unapplied pl.rewrites (doRewrites env pl.rewrites),
      e ∉ (doRewrites env pl.rewrites).left) ∨
    (∃ e ∈ unapplied pl.postconf (doPostconf env pl.postconf),
      e ∉ (doPostconf env pl.postconf).left) ∨
    (∃ e ∈ unapplied pl.postconfd (doPostconfd env pl.postconfd),
      e ∉ (doPostconfd env pl.postconfd).left) ∨
    ∃ e ∈ unapplied pl.ldap (doLdap env pl.ldap), e ∉ (doLdap env pl.ldap).left

structure ExecuteMeets (env : ExecEnv) (pl : Plan) : Prop where
  proxygen : (execute env pl).carry.proxygen.toList =
    unapplied pl.proxygen.toList (runProxygen env pl.proxygen)
  rewrites : (execute env pl).carry.rewrites =
    unapplied pl.rewrites (doRewrites env pl.rewrites)
  postconf : (execute env pl).carry.postconf =
    unapplied pl.postconf (doPostconf env pl.postconf)
  postconfd : (execute env pl).carry.postconfd =
    unapplied pl.postconfd (doPostconfd env pl.postconfd)
  ldap : (execute env pl).carry.ldap = unapplied pl.ldap (doLdap env pl.ldap)
  /-- The next plan retries what was not applied. -/
  retries : ∀ input next, input.host = none → input.carry = (execute env pl).carry →
    compute input = some next → RetriesUnapplied env pl input next
  /-- What was not applied is reported, unless the execution was cancelled. -/
  reports : FailsToApply env pl → (execute env pl).failed = true

theorem retried_carryItems {T : Type} {key : T → String} {reasons : T → List Reason}
    {mapReasons : (List Reason → List Reason) → T → T}
    (href : LawfulRef key reasons mapReasons)
    {items : List T} (hitems : (items.map key).Nodup) {fresh : StrMap T}
    (hfresh : OrdMap.Keyed key fresh) :
    Retried key reasons mapReasons fresh items
      (OrdMap.valuesList (carryItems key mapReasons items fresh)) := by
  intro it hit
  have hentry := getElem?_carryItems href items fresh (key it)
  rw [OrdMap.find?_name_of_nodup hitems hit] at hentry
  refine ⟨_, (OrdMap.mem_valuesList_iff _ _).mpr ⟨key it, hentry⟩, ?_, ?_, ?_⟩
  · rw [href.key_map]
    cases hf : fresh[key it]? with
    | none => rfl
    | some f => exact hfresh _ _ hf
  · rw [href.reasons_map, mem_appendReason]
    exact Or.inr rfl
  · cases hf : fresh[key it]? with
    | none => exact Or.inl rfl
    | some f => exact Or.inr ⟨f, rfl, rfl⟩

theorem nodup_map_unapplied {key : T → String}
    (hkeys : (entries.map key).Nodup) (run : StepRun T) :
    ((unapplied entries run).map key).Nodup :=
  hkeys.sublist (List.filter_sublist.map key)

variable {env : ExecEnv}

theorem retriesUnapplied_of_carry {pl : Plan} (hdistinct : pl.Distinct)
    (hproxygen : (execute env pl).carry.proxygen.toList =
      unapplied pl.proxygen.toList (runProxygen env pl.proxygen))
    (hrewrites : (execute env pl).carry.rewrites =
      unapplied pl.rewrites (doRewrites env pl.rewrites))
    (hpostconf : (execute env pl).carry.postconf =
      unapplied pl.postconf (doPostconf env pl.postconf))
    (hpostconfd : (execute env pl).carry.postconfd =
      unapplied pl.postconfd (doPostconfd env pl.postconfd))
    (hldap : (execute env pl).carry.ldap = unapplied pl.ldap (doLdap env pl.ldap))
    {input : Input} {next : Plan} (hhost : input.host = none)
    (hcarry : input.carry = (execute env pl).carry) (hnext : compute input = some next) :
    RetriesUnapplied env pl input next where
  rewrites := by
    rw [plan_rewrites hnext hhost, hcarry, hrewrites]
    exact retried_carryItems rewriteRef (nodup_map_unapplied hdistinct.rewrites _)
      (keyed_processSections input).rewrites
  postconf := by
    rw [plan_postconf hnext hhost, hcarry, hpostconf]
    exact retried_carryItems directiveRef (nodup_map_unapplied hdistinct.postconf _)
      (keyed_processSections input).postconf
  postconfd := by
    rw [plan_postconfd hnext hhost, hcarry, hpostconfd]
    exact retried_carryItems directiveRef (nodup_map_unapplied hdistinct.postconfd _)
      (keyed_processSections input).postconfd
  ldap := by
    rw [plan_ldap hnext hhost, hcarry, hldap]
    exact retried_carryItems directiveRef (nodup_map_unapplied hdistinct.ldap _)
      (keyed_processSections input).ldap
  proxygen := by
    intro hne
    rw [plan_proxygen hnext hhost, hcarry]
    cases hcarried : (execute env pl).carry.proxygen with
    | none =>
      rw [hcarried] at hproxygen
      exact absurd hproxygen.symm hne
    | some carried =>
      refine ⟨_, rfl, ?_⟩
      exact (mem_appendReason _ _ _).mpr (Or.inr rfl)

theorem carry_proxygen_toList (env : ExecEnv) (pl : Plan) :
    (execute env pl).carry.proxygen.toList = (runProxygen env pl.proxygen).carried := by
  change (runProxygen env pl.proxygen).carried.head?.toList = _
  unfold runProxygen
  cases pl.proxygen with
  | none => rfl
  | some p => cases env.proxygen <;> rfl

theorem execute_reports {pl : Plan} (hdistinct : pl.Distinct)
    (hfails : FailsToApply env pl) : (execute env pl).failed = true := by
  simp only [execute, Bool.or_eq_true]
  rcases hfails with hmap | ⟨p, hp, hleft⟩ | ⟨e, he, hleft⟩ | ⟨e, he, hleft⟩ | ⟨e, he, hleft⟩ |
    ⟨e, he, hleft⟩
  · have hne : (!(doMapfile env pl.mapfiles).failed.isEmpty) = true := by simpa using hmap
    simp [hne]
  · simp [(runProxygen_spec env pl.proxygen).reports p hp hleft]
  · simp [(doRewrites_spec env hdistinct.rewrites).reports e he hleft]
  · simp [(doPostconf_spec env hdistinct.postconf).reports e he hleft]
  · simp [(doPostconfd_spec env pl.postconfd).reports e he hleft]
  · simp [(doLdap_spec env (List.Nodup.of_map _ hdistinct.ldap)).reports e he hleft]

/-! ## An execution without an error -/

/-- The context is not cancelled during the execution. -/
structure ExecEnv.NeverCancelled (env : ExecEnv) : Prop where
  rewrite : ∀ n, env.rewriteCancelled n = false
  postconf : ∀ n, env.postconfCancelled n = false
  postconfd : ∀ n, env.postconfdCancelled n = false
  ldap : ∀ n, env.ldapCancelled n = false

/-- Nothing but restarts is carried. -/
structure Carry.OnlyRestarts (carry : Carry) : Prop where
  rewrites : carry.rewrites = []
  postconf : carry.postconf = []
  postconfd : carry.postconfd = []
  ldap : carry.ldap = []
  proxygen : carry.proxygen = none

theorem Carry.OnlyRestarts.isEmpty {carry : Carry} (honly : carry.OnlyRestarts)
    (hrestarts : carry.restarts = []) : carry.isEmpty = true := by
  simp [Carry.isEmpty, honly.rewrites, honly.postconf, honly.postconfd, honly.ldap,
    honly.proxygen, hrestarts]

theorem doRewrites_carried_nil (hcancel : ∀ n, env.rewriteCancelled n = false)
    {entries : List Rewrite} (hclean : (doRewrites env entries).reported = false) :
    (doRewrites env entries).carried = [] := by
  have hending := (ending_finished_iff env.rewriteCancelled
    (fun e => (env.rewrite e).recovered) 0 entries).mpr
    ⟨fun j _ => hcancel (0 + j), fun e _ => by cases env.rewrite e <;> simp [HostOutcome.recovered]⟩
  have hfailed : (runLoop env.rewriteCancelled (fun e => (env.rewrite e).recovered) 0
      entries).failed = [] := by simpa [doRewrites, StepRun.reported] using hclean
  simp only [doRewrites, StepRun.carried, applied_of_no_failure hending hfailed]
  rw [List.filter_eq_nil_iff]
  intro e he
  simpa using ⟨e, he, rfl⟩

theorem doLdap_carried_nil (hcancel : ∀ n, env.ldapCancelled n = false)
    {entries : List Directive} (hclean : (doLdap env entries).reported = false) :
    (doLdap env entries).carried = [] := by
  have hnever := ending_ne_cancelled_of_never
    (fun e => (env.resolveLdap e).andThen (env.ldapWrite e)) 0 entries
  rw [← funext hcancel] at hnever
  unfold doLdap at hclean ⊢
  generalize runLoop env.ldapCancelled _ 0 entries = run at hnever hclean ⊢
  cases hending : run.ending with
  | panicked => simp [hending, StepRun.reported] at hclean
  | cancelled rest => exact absurd hending (hnever rest)
  | finished =>
    have hfailed : run.failed = [] := by simpa [hending, StepRun.reported] using hclean
    simp [hending, StepRun.carried, LoopRun.rest, hfailed]

theorem doPostconfd_carried_nil (hcancel : ∀ n, env.postconfdCancelled n = false)
    {entries : List Directive} (hclean : (doPostconfd env entries).reported = false) :
    (doPostconfd env entries).carried = [] := by
  have hnever : env.postconfdCancelled = fun _ => false := funext hcancel
  unfold doPostconfd at hclean ⊢
  rw [hnever] at hclean ⊢
  by_cases hempty : entries.isEmpty = true
  · simp [hempty, StepRun.carried]
  · simp only [hempty, Bool.false_eq_true, if_false] at hclean ⊢
    split
    · rename_i rest hending
      exact absurd hending (ending_ne_cancelled_of_never _ 0 entries rest)
    · cases hbatch : env.postconfdBatch <;>
        simp_all [StepRun.reported, StepRun.carried]

theorem doPostconf_carried_nil (hcancel : ∀ n, env.postconfCancelled n = false)
    {entries : List Directive} (hclean : (doPostconf env entries).reported = false) :
    (doPostconf env entries).carried = [] := by
  have hnever := ending_ne_cancelled_of_never env.resolvePostconf 0 entries
  rw [← funext hcancel] at hnever
  unfold doPostconf at hclean ⊢
  generalize runLoop env.postconfCancelled _ 0 entries = run at hnever hclean ⊢
  cases hending : run.ending with
  | panicked => simp [hending, StepRun.reported] at hclean
  | cancelled rest => exact absurd hending (hnever rest)
  | finished =>
    simp only [hending] at hclean ⊢
    split at hclean
    · simp [StepRun.reported] at hclean
    · have hnone : run.failed ++ (executePostconfOps env run.applied).failed = [] := by
        simpa [StepRun.reported] using hclean
      simp [StepRun.carried, hnone, retried]

theorem runProxygen_carried_nil {req : Option Proxygen}
    (hclean : (runProxygen env req).reported = false) : (runProxygen env req).carried = [] := by
  cases req with
  | none => rfl
  | some p =>
    cases hout : env.proxygen <;> simp_all [runProxygen, StepRun.reported, StepRun.carried]

/-- **An execution without an error leaves nothing to retry**, when it is not
cancelled. -/
theorem onlyRestarts_of_not_failed (hcancel : env.NeverCancelled) {pl : Plan}
    (hok : (execute env pl).failed = false) : (execute env pl).carry.OnlyRestarts := by
  simp only [execute, Bool.or_eq_false_iff] at hok
  obtain ⟨⟨⟨⟨⟨-, hproxygen⟩, hrewrites⟩, hpostconf⟩, hpostconfd⟩, hldap⟩ := hok
  exact {
    rewrites := doRewrites_carried_nil hcancel.rewrite hrewrites
    postconf := doPostconf_carried_nil hcancel.postconf hpostconf
    postconfd := doPostconfd_carried_nil hcancel.postconfd hpostconfd
    ldap := doLdap_carried_nil hcancel.ldap hldap
    proxygen := by simp [execute, runProxygen_carried_nil hproxygen] }

/-! ## The result -/

def ExecEnv.allOk : ExecEnv where
  mapfile := fun _ => true
  mapfileCancelled := fun _ => false
  proxygen := .ok
  rewrite := fun _ => .ok
  rewriteCancelled := fun _ => false
  resolvePostconf := fun _ => .ok
  postconfCancelled := fun _ => false
  postconfBatch := .ok
  postconf := fun _ => .ok
  postconfdCancelled := fun _ => false
  postconfdBatch := .ok
  resolveLdap := fun _ => .ok
  ldapWrite := fun _ => .ok
  ldapCancelled := fun _ => false

/-- A computed plan has distinct keys. -/
theorem distinct_of_compute {input : Input} {pl : Plan} (hpl : compute input = some pl)
    (hhost : input.host = none) : pl.Distinct where
  rewrites := by
    rw [plan_rewrites hpl hhost]
    exact OrdMap.nodup_map_valuesList
      (keyed_carryItems rewriteRef _ (keyed_processSections input).rewrites)
  postconf := by
    rw [plan_postconf hpl hhost]
    exact OrdMap.nodup_map_valuesList
      (keyed_carryItems directiveRef _ (keyed_processSections input).postconf)
  postconfd := by
    rw [plan_postconfd hpl hhost]
    exact OrdMap.nodup_map_valuesList
      (keyed_carryItems directiveRef _ (keyed_processSections input).postconfd)
  ldap := by
    rw [plan_ldap hpl hhost]
    exact OrdMap.nodup_map_valuesList
      (keyed_carryItems directiveRef _ (keyed_processSections input).ldap)

/-- The first cycle of a host with two Postfix parameters and an LDAP value. -/
def mtaInput : Input where
  cur := { services := (∅ : StrMap String).insert "mta" "zimbraServiceEnabled" }
  conf.sections := (∅ : StrMap MtaConfigSection).insert "mta" {
    postconf := Std.ExtTreeMap.ofList
      [("myhostname", "VAR:zimbraServerHostname"), ("mydestination", "localhost")] compare
    ldap := (∅ : StrMap String).insert "ldap_common_loglevel" "LOCAL:ldap_log" }
  firstRun := true

def mtaPlan : Plan :=
  finish mtaInput (build mtaInput)

theorem compute_mtaInput : compute mtaInput = some mtaPlan :=
  rfl

/-- **When an execution carries exactly what it did not apply.**  It does unless
the proxy regeneration, the Postfix steps or the LDAP step panics: a step that
panics loses what it did not apply. -/
theorem execute_meets_iff (env : ExecEnv) {pl : Plan} (hdistinct : pl.Distinct) :
    ExecuteMeets env pl ↔ ¬ Panics env pl := by
  rw [panics_iff]
  have hproxygen := (runProxygen_spec env pl.proxygen).carried_iff
  have hrewrites := (doRewrites_spec env hdistinct.rewrites).carried_iff
  have hpostconf := (doPostconf_spec env hdistinct.postconf).carried_iff
  have hpostconfd := (doPostconfd_spec env pl.postconfd).carried_iff
  have hldap := (doLdap_spec env (List.Nodup.of_map _ hdistinct.ldap)).carried_iff
  rw [← carry_proxygen_toList] at hproxygen
  constructor
  · rintro hmeets (h | h | h | h)
    · exact hproxygen.mp hmeets.proxygen h
    · exact hpostconf.mp hmeets.postconf h
    · exact hpostconfd.mp hmeets.postconfd h
    · exact hldap.mp hmeets.ldap h
  · intro hnopanic
    have hp := hproxygen.mpr fun h => hnopanic (Or.inl h)
    have hr := hrewrites.mpr (by simp [doRewrites])
    have hc := hpostconf.mpr fun h => hnopanic (Or.inr (Or.inl h))
    have hd := hpostconfd.mpr fun h => hnopanic (Or.inr (Or.inr (Or.inl h)))
    have hl := hldap.mpr fun h => hnopanic (Or.inr (Or.inr (Or.inr h)))
    exact {
      proxygen := hp
      rewrites := hr
      postconf := hc
      postconfd := hd
      ldap := hl
      retries := fun input next hhost hcarry hnext =>
        retriesUnapplied_of_carry hdistinct hp hr hc hd hl hhost hcarry hnext
      reports := execute_reports hdistinct }

theorem execute_meets_of_failed_batch :
    mtaPlan.Distinct ∧ mtaPlan.postconf.length = 2 ∧ mtaPlan.ldap.length = 1 ∧
      ExecuteMeets { ExecEnv.allOk with
        postconfBatch := .failed
        postconf := fun e => if e.key = "myhostname" then .failed else .ok } mtaPlan := by
  have hdistinct := distinct_of_compute compute_mtaInput rfl
  refine ⟨hdistinct, by decide +kernel, by decide +kernel, (execute_meets_iff _ hdistinct).mpr ?_⟩
  rw [panics_iff]
  decide +kernel

theorem not_executeMeets_of_batch_panic :
    ∃ env : ExecEnv, mtaPlan.Distinct ∧ (execute env mtaPlan).carry.postconf = [] ∧
      unapplied mtaPlan.postconf (doPostconf env mtaPlan.postconf) ≠ [] ∧
      ¬ ExecuteMeets env mtaPlan := by
  refine ⟨{ ExecEnv.allOk with postconfBatch := .panicked },
    distinct_of_compute compute_mtaInput rfl, by decide +kernel, by decide +kernel, ?_⟩
  intro hmeets
  exact absurd hmeets.postconf (by decide +kernel)

end Configd
