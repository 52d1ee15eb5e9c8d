import Configd.Plan.Compute

/-!
# What a computed plan holds

One specification for each step of `compute`, so that later proofs do not look into its loops.

* `mem_plan_sections` — the processed sections are the considered ones with a reason.
* `restartAction` and `deferredAction` say what a cycle asks of a service, in closed form: a section
  decides before a service toggle, and a toggle before the carry.  `asks_plan_restarts` and
  `asks_plan_deferred` say that the plan asks exactly this.
* `mem_trackedAfter` — the tracking map learns services on the first run only.
* `getElem?_carryItems` — a carried item is in the plan, fresh or as carried, with a retry reason.
-/

namespace Configd

open Lib

/-! ## Processed sections -/

theorem sectionReasons_eq_nil_iff (input : Input) (sn : String) (changes : List Reason) :
    sectionReasons input sn changes = [] ↔
      sn ∉ input.forced ∧ sn ∉ input.requested ∧ input.firstRun = false ∧ changes = [] ∧
        input.assumeChanged = false := by
  unfold sectionReasons
  by_cases hforced : sn ∈ input.forced <;> by_cases hrequested : sn ∈ input.requested <;>
    cases hfirst : input.firstRun <;> cases hassume : input.assumeChanged <;>
    simp [hforced, hrequested]

/-- The section is processed in this cycle. -/
def isProcessed (input : Input) (sn : String) (sec : MtaConfigSection) : Bool :=
  isConsidered input sn && !(reasonsOf input sn sec).isEmpty

variable {input : Input}

theorem processSection_of_not_processed {sn : String} {sec : MtaConfigSection}
    (b : Builder) (hnot : isProcessed input sn sec = false) :
    processSection input b sn sec =
      if isConsidered input sn then
        { b with heal := healMapfiles sn sec (isCompared input sn) b.heal }
      else b := by
  unfold processSection
  unfold isProcessed at hnot
  cases hcons : isConsidered input sn with
  | false => rfl
  | true =>
    have hempty : (reasonsOf input sn sec).isEmpty = true := by simpa [hcons] using hnot
    simp [hempty]

theorem processSection_of_processed {sn : String} {sec : MtaConfigSection}
    (b : Builder) (hproc : isProcessed input sn sec = true) :
    processSection input b sn sec =
      compileSection input
        { b with
          heal := healMapfiles sn sec (isCompared input sn) b.heal
          sections := b.sections ++ [⟨sn, reasonsOf input sn sec⟩]
          mapfiles := if !(changesOf input sn sec).isEmpty || input.firstRun then
            mapfileOps sn sec (reasonsOf input sn sec) b.mapfiles else b.mapfiles }
        sn sec (reasonsOf input sn sec) := by
  unfold isProcessed at hproc
  simp only [Bool.and_eq_true, Bool.not_eq_true'] at hproc
  unfold processSection
  rw [if_pos hproc.1]
  simp only [hproc.2, Bool.false_eq_true, if_false]

theorem processSection_fields (input : Input) (b : Builder) (sn : String)
    (sec : MtaConfigSection) :
    (processSection input b sn sec).sections = b.sections ++
        (if isProcessed input sn sec then [⟨sn, reasonsOf input sn sec⟩] else []) ∧
      (processSection input b sn sec).restarts =
        (if isProcessed input sn sec then
          compileRestarts input sn sec (reasonsOf input sn sec) b.restarts else b.restarts) ∧
      (processSection input b sn sec).deferred =
        if isProcessed input sn sec then
          compileDeferred input sn sec (reasonsOf input sn sec) b.deferred else b.deferred := by
  cases hproc : isProcessed input sn sec with
  | true => simp [processSection_of_processed b hproc, compileSection]
  | false =>
    rw [processSection_of_not_processed b hproc]
    split <;> simp

theorem foldl_processSection_sections (input : Input) (b : Builder)
    (entries : List (String × MtaConfigSection)) :
    (entries.foldl (fun b entry => processSection input b entry.1 entry.2) b).sections =
      b.sections ++ (entries.filter fun entry => isProcessed input entry.1 entry.2).map
        fun entry => ⟨entry.1, reasonsOf input entry.1 entry.2⟩ := by
  induction entries generalizing b with
  | nil => simp
  | cons entry rest ih =>
    rw [List.foldl_cons, ih, (processSection_fields ..).1, List.filter_cons]
    split <;> simp

/-- **The processed sections** are the considered sections that have a reason. -/
theorem mem_processSections_sections (input : Input) (s : Section) :
    s ∈ (processSections input {}).sections ↔
      ∃ sec, input.conf.sections[s.name]? = some sec ∧ isProcessed input s.name sec = true ∧
        s.reasons = reasonsOf input s.name sec := by
  rw [processSections, foldl_processSection_sections]
  simp only [List.nil_append, List.mem_map, List.mem_filter, Prod.exists]
  constructor
  · rintro ⟨sn, sec, ⟨hmem, hproc⟩, rfl⟩
    exact ⟨sec, Std.ExtTreeMap.mem_toList_iff_getElem?_eq_some.mp hmem, hproc, rfl⟩
  · rintro ⟨sec, hsec, hproc, hreasons⟩
    refine ⟨s.name, sec, ⟨Std.ExtTreeMap.mem_toList_iff_getElem?_eq_some.mpr hsec, hproc⟩, ?_⟩
    rw [← hreasons]

/-! ## Changed variables -/

/-- The section requires the lookup. -/
def MtaConfigSection.Requires (sec : MtaConfigSection) (type : LookupType) (key : String) : Prop :=
  ∃ name, sec.requiredVars[name]? = some type ∧ lookupKey name = key

/-- The observed value of the lookup differs between the two snapshots. -/
def Changed (input : Input) (type : LookupType) (key : String) : Prop :=
  input.prev.observedValue type key ≠ input.cur.observedValue type key

theorem diffLookup_eq (input : Input) (sn key : String) (type : LookupType) :
    diffLookup input sn key type =
      if input.prev.observedValue type (lookupKey key) =
          input.cur.observedValue type (lookupKey key) then none
      else some (varChanged sn type (lookupKey key)
        (input.prev.observedValue type (lookupKey key))
        (input.cur.observedValue type (lookupKey key))) := by
  unfold diffLookup
  by_cases hcur : input.cur.observedValue type (lookupKey key) = ""
  · by_cases hprev : input.prev.observedValue type (lookupKey key) = "" <;> simp [hcur, hprev]
  · by_cases hsame : input.prev.observedValue type (lookupKey key) =
        input.cur.observedValue type (lookupKey key) <;> simp [hcur, hsame]

/-- **The changes of a section** are its required lookups with another value. -/
theorem mem_diffSection_iff (input : Input) (sn : String) (sec : MtaConfigSection) (r : Reason) :
    r ∈ diffSection input sn sec ↔
      ∃ type key, sec.Requires type key ∧ Changed input type key ∧
        r = varChanged sn type key (input.prev.observedValue type key)
          (input.cur.observedValue type key) := by
  simp only [diffSection, List.mem_filterMap, diffLookup_eq]
  constructor
  · rintro ⟨⟨name, type⟩, hmem, hr⟩
    have hname := Std.ExtTreeMap.mem_toList_iff_getElem?_eq_some.mp hmem
    split at hr
    · cases hr
    · rename_i hne
      exact ⟨type, lookupKey name, ⟨name, hname, rfl⟩, hne, (Option.some.inj hr).symm⟩
  · rintro ⟨type, key, ⟨name, hname, rfl⟩, hne, rfl⟩
    refine ⟨(name, type), Std.ExtTreeMap.mem_toList_iff_getElem?_eq_some.mpr hname, ?_⟩
    rw [if_neg hne]

theorem diffSection_eq_nil_iff (input : Input) (sn : String) (sec : MtaConfigSection) :
    diffSection input sn sec = [] ↔
      ∀ type key, sec.Requires type key → ¬ Changed input type key := by
  rw [List.eq_nil_iff_forall_not_mem]
  constructor
  · intro hnone type key hreq hchanged
    exact hnone _ ((mem_diffSection_iff input sn sec _).mpr ⟨type, key, hreq, hchanged, rfl⟩)
  · intro hall r hr
    obtain ⟨type, key, hreq, hchanged, -⟩ := (mem_diffSection_iff input sn sec r).mp hr
    exact hall type key hreq hchanged

theorem varChanged_mem_sectionReasons {sn : String} {changes : List Reason}
    {r : Reason} (hr : r ∈ sectionReasons input sn changes) (hkind : r.kind = .varChanged) :
    input.firstRun = false ∧ r ∈ changes := by
  unfold sectionReasons at hr
  simp only [List.mem_append] at hr
  rcases hr with ((h | h) | h) | h <;> split at h <;> simp_all

theorem not_processed_iff {sn : String} {sec : MtaConfigSection}
    (hcons : isConsidered input sn = true) :
    isProcessed input sn sec = false ↔
      sn ∉ input.forced ∧ sn ∉ input.requested ∧ input.firstRun = false ∧
        changesOf input sn sec = [] ∧ input.assumeChanged = false := by
  rw [← sectionReasons_eq_nil_iff]
  simp [isProcessed, hcons, reasonsOf]

/-! ## The restarts of sections -/

/-- What a map of restart entries asks of a service. -/
def actionOf (map : StrMap Restart) (service : String) : Option Action :=
  map[service]?.map Restart.action

/-- The services a section restarts, by lower-case name. -/
def restartServices (sec : MtaConfigSection) : List String :=
  sec.restarts.keys.map Strings.toLower

/-- The section asks for the service in the restarts of this cycle. -/
def restartsNow (input : Input) (service : String) (entry : String × MtaConfigSection) : Bool :=
  isProcessed input entry.1 entry.2 && !(input.firstRun || isAsked input entry.1) &&
    decide (service ∈ restartServices entry.2)

/-- The section asks for the service in the deferred restarts of this cycle. -/
def restartsDeferred (input : Input) (service : String) (entry : String × MtaConfigSection) :
    Bool :=
  isProcessed input entry.1 entry.2 &&
    !(input.firstRun || !isAsked input entry.1 ||
      (varChanges (reasonsOf input entry.1 entry.2)).isEmpty) &&
    decide (service ∈ restartServices entry.2)

theorem actionOf_addRestart (dst : StrMap Restart) (name : String) (action : Action)
    (sn : String) (reasons : List Reason) (service : String) :
    actionOf (addRestart dst name action sn reasons) service =
      if name = service then some action else actionOf dst service := by
  unfold actionOf addRestart
  rw [OrdMap.getElem?_upsert]
  split <;> simp

theorem actionOf_compileSectionRestarts (cur : Snapshot) (sn : String) (sec : MtaConfigSection)
    (reasons : List Reason) (dst : StrMap Restart) (service : String) :
    actionOf (compileSectionRestarts cur sn sec reasons dst) service =
      if service ∈ restartServices sec then (sectionAction cur service).or (actionOf dst service)
      else actionOf dst service := by
  unfold compileSectionRestarts
  rw [foldl_of_idempotent (fun dst => actionOf dst service) _
    (fun svc => decide (Strings.toLower svc = service))
    (fun action => (sectionAction cur service).or action)]
  · congr 1
    simp [restartServices]
  · intro action
    cases sectionAction cur service <;> rfl
  · intro dst svc
    by_cases hname : Strings.toLower svc = service
    · subst hname
      cases haction : sectionAction cur (Strings.toLower svc) with
      | none => simp
      | some action => simp [actionOf_addRestart]
    · cases haction : sectionAction cur (Strings.toLower svc) with
      | none => simp [hname]
      | some action => simp [actionOf_addRestart, hname]

theorem keyed_compileSectionRestarts (cur : Snapshot) (sn : String) (sec : MtaConfigSection)
    (reasons : List Reason) {dst : StrMap Restart} (hdst : OrdMap.Keyed Restart.service dst) :
    OrdMap.Keyed Restart.service (compileSectionRestarts cur sn sec reasons dst) := by
  unfold compileSectionRestarts
  refine List.foldlRecOn _ _ hdst ?_
  intro dst hdst svc _
  split
  · exact hdst.upsert rfl fun _ => rfl
  · exact hdst

theorem actionOf_processSections_restarts (input : Input) (service : String) :
    actionOf (processSections input {}).restarts service =
      if input.conf.sections.toList.any (restartsNow input service) then
        sectionAction input.cur service
      else none := by
  unfold processSections
  rw [foldl_of_idempotent (fun b : Builder => actionOf b.restarts service) _
    (restartsNow input service) (fun action => (sectionAction input.cur service).or action)]
  · simp [actionOf]
  · intro action
    cases sectionAction input.cur service <;> rfl
  · intro b entry
    simp only [(processSection_fields ..).2.1, compileRestarts, restartsNow]
    by_cases hproc : isProcessed input entry.1 entry.2 = true <;>
      by_cases hskip : (input.firstRun || isAsked input entry.1) = true <;>
      simp only [hproc, hskip, if_true] <;> simp [actionOf_compileSectionRestarts]

theorem actionOf_processSections_deferred (input : Input) (service : String) :
    actionOf (processSections input {}).deferred service =
      if input.conf.sections.toList.any (restartsDeferred input service) then
        sectionAction input.cur service
      else none := by
  unfold processSections
  rw [foldl_of_idempotent (fun b : Builder => actionOf b.deferred service) _
    (restartsDeferred input service) (fun action => (sectionAction input.cur service).or action)]
  · simp [actionOf]
  · intro action
    cases sectionAction input.cur service <;> rfl
  · intro b entry
    simp only [(processSection_fields ..).2.2, compileDeferred, restartsDeferred]
    by_cases hproc : isProcessed input entry.1 entry.2 = true <;>
      by_cases hskip : (input.firstRun || !isAsked input entry.1 ||
        (varChanges (reasonsOf input entry.1 entry.2)).isEmpty) = true <;>
      simp only [hproc, hskip, if_true] <;> simp [actionOf_compileSectionRestarts]

/-! ## The keys of the entries -/

/-- Every map of the builder stores its entries under their own keys. -/
structure Builder.Keyed (b : Builder) : Prop where
  rewrites : OrdMap.Keyed Rewrite.source b.rewrites
  postconf : OrdMap.Keyed Directive.key b.postconf
  postconfd : OrdMap.Keyed Directive.key b.postconfd
  ldap : OrdMap.Keyed Directive.key b.ldap
  restarts : OrdMap.Keyed Restart.service b.restarts
  deferred : OrdMap.Keyed Restart.service b.deferred

variable {map : StrMap Directive}

theorem keyed_setDirective (hmap : OrdMap.Keyed Directive.key map)
    (key val sn : String) (reasons : List Reason) :
    OrdMap.Keyed Directive.key (setDirective key val sn reasons map) :=
  hmap.upsert rfl fun _ => rfl

theorem keyed_foldl_setDirective
    (hmap : OrdMap.Keyed Directive.key map) (value : String → String) (sn : String)
    (reasons : List Reason) (entries : List (String × String)) :
    OrdMap.Keyed Directive.key
      (entries.foldl (fun map entry => setDirective entry.1 (value entry.2) sn reasons map)
        map) := by
  refine List.foldlRecOn _ _ hmap ?_
  intro map hmap entry _
  exact keyed_setDirective hmap _ _ _ _

theorem keyed_compilePostconf (cur : Snapshot) (sn : String) (sec : MtaConfigSection)
    (reasons : List Reason) (hmap : OrdMap.Keyed Directive.key map) :
    OrdMap.Keyed Directive.key (compilePostconf cur sn sec reasons map) := by
  unfold compilePostconf
  refine List.foldlRecOn _ _
    (keyed_foldl_setDirective hmap (Strings.replaceChar · '\n' ' ') sn reasons _) ?_
  intro map hmap cond _
  split
  · exact keyed_foldl_setDirective hmap (Strings.replaceChar · '\n' ' ') sn reasons _
  · exact hmap

theorem keyed_compilePostconfd (cur : Snapshot) (sn : String) (sec : MtaConfigSection)
    (reasons : List Reason) (hmap : OrdMap.Keyed Directive.key map) :
    OrdMap.Keyed Directive.key (compilePostconfd cur sn sec reasons map) := by
  unfold compilePostconfd
  refine List.foldlRecOn _ _
    (keyed_foldl_setDirective hmap (Strings.replaceChar · '\n' ' ') sn reasons _) ?_
  intro map hmap cond _
  split
  · exact keyed_foldl_setDirective hmap (Strings.replaceChar · '\n' ' ') sn reasons _
  · exact hmap

theorem keyed_compileLdap (sn : String) (sec : MtaConfigSection) (reasons : List Reason)
    (hmap : OrdMap.Keyed Directive.key map) :
    OrdMap.Keyed Directive.key (compileLdap sn sec reasons map) := by
  unfold compileLdap
  refine List.foldlRecOn _ _ hmap ?_
  intro map hmap entry _
  split
  · exact hmap
  · exact keyed_setDirective hmap _ _ _ _

theorem keyed_compileRewrites (sn : String) (sec : MtaConfigSection) (reasons : List Reason)
    {map : StrMap Rewrite} (hmap : OrdMap.Keyed Rewrite.source map) :
    OrdMap.Keyed Rewrite.source (compileRewrites sn sec reasons map) := by
  unfold compileRewrites
  refine List.foldlRecOn _ _ hmap ?_
  intro map hmap entry _
  exact hmap.upsert rfl fun _ => rfl

theorem keyed_processSection (input : Input) {b : Builder} (hb : b.Keyed) (sn : String)
    (sec : MtaConfigSection) : (processSection input b sn sec).Keyed := by
  cases hproc : isProcessed input sn sec with
  | false =>
    rw [processSection_of_not_processed b hproc]
    split
    · exact ⟨hb.rewrites, hb.postconf, hb.postconfd, hb.ldap, hb.restarts, hb.deferred⟩
    · exact hb
  | true =>
    rw [processSection_of_processed b hproc]
    refine ⟨keyed_compileRewrites sn sec _ hb.rewrites,
      keyed_compilePostconf _ sn sec _ hb.postconf,
      keyed_compilePostconfd _ sn sec _ hb.postconfd, keyed_compileLdap sn sec _ hb.ldap,
      ?_, ?_⟩
    · simp only [compileSection, compileRestarts]
      split
      · exact hb.restarts
      · exact keyed_compileSectionRestarts _ _ _ _ hb.restarts
    · simp only [compileSection, compileDeferred]
      split
      · exact hb.deferred
      · exact keyed_compileSectionRestarts _ _ _ _ hb.deferred

theorem keyed_processSections (input : Input) : (processSections input {}).Keyed := by
  have hinit : Builder.Keyed {} :=
    ⟨OrdMap.keyed_empty _, OrdMap.keyed_empty _, OrdMap.keyed_empty _, OrdMap.keyed_empty _,
      OrdMap.keyed_empty _, OrdMap.keyed_empty _⟩
  unfold processSections
  refine List.foldlRecOn _ _ hinit ?_
  intro b hb entry _
  exact keyed_processSection input hb entry.1 entry.2

/-! ## Tracked services -/

/-- What the service toggles ask of a service: the start of an enabled one that
is not tracked, the stop of a tracked one that is not enabled. -/
def toggleAction (input : Input) (service : String) : Option Action :=
  if input.cur.serviceEnabled service then
    if input.tracked.contains service || input.firstRun then none else some .start
  else if input.tracked.contains service then some .stop
  else none

theorem getElem?_serviceToggles (input : Input) (service : String) :
    (serviceToggles input)[service]? =
      if input.cur.serviceEnabled service then
        if input.tracked.contains service || input.firstRun then none
        else some (startToggle service)
      else if input.tracked.contains service then some (stopToggle service)
      else none := by
  unfold serviceToggles
  rw [OrdMap.getElem?_foldl_insert startToggle
      (fun svc => !input.tracked.contains svc && !input.firstRun),
    OrdMap.getElem?_foldl_insert stopToggle (fun svc => !input.cur.serviceEnabled svc)]
  simp only [Snapshot.mem_serviceNames, Std.ExtTreeMap.mem_keys, Std.ExtTreeMap.mem_iff_contains]
  cases input.cur.serviceEnabled service <;> cases input.tracked.contains service <;>
    cases input.firstRun <;> simp

theorem mem_trackedAfter (input : Input) (service : String) :
    service ∈ trackedAfter input ↔
      service ∈ input.tracked ∨
        input.firstRun = true ∧ input.cur.serviceEnabled service = true := by
  rw [← Snapshot.mem_serviceNames]
  unfold trackedAfter
  generalize input.tracked = tracked
  induction input.cur.serviceNames generalizing tracked with
  | nil => simp
  | cons svc rest ih =>
    rw [List.foldl_cons, ih, List.mem_cons]
    by_cases hknown : tracked.contains svc = true
    · have hmem : svc ∈ tracked := Std.ExtTreeMap.mem_iff_contains.mpr hknown
      rw [if_neg (by simp [hknown])]
      constructor
      · rintro (h | ⟨hfirst, h⟩)
        · exact Or.inl h
        · exact Or.inr ⟨hfirst, Or.inr h⟩
      · rintro (h | ⟨hfirst, rfl | h⟩)
        · exact Or.inl h
        · exact Or.inl hmem
        · exact Or.inr ⟨hfirst, h⟩
    · cases hfirst : input.firstRun with
      | false => simp
      | true =>
        simp only [Bool.not_eq_true] at hknown
        simp only [hknown, Bool.not_false, Bool.and_self, if_true, Std.ExtTreeMap.mem_insert,
          Std.LawfulEqCmp.compare_eq_iff_eq, true_and]
        constructor
        · rintro ((rfl | h) | h)
          · exact Or.inr (Or.inl rfl)
          · exact Or.inl h
          · exact Or.inr (Or.inr h)
        · rintro (h | rfl | h)
          · exact Or.inl (Or.inr h)
          · exact Or.inl (Or.inl rfl)
          · exact Or.inr h

theorem getElem?_trackServices_restarts (input : Input) (b : Builder) (service : String) :
    (trackServices input b).restarts[service]? =
      (serviceToggles input)[service]?.elim b.restarts[service]?
        fun toggle => some (withToggle b.restarts[service]? toggle) := by
  refine OrdMap.getElem?_foldl_toList _ (fun _ old toggle => some (withToggle old toggle))
    ?_ ?_ (serviceToggles input) b.restarts service
  · intro map item
    simp
  · intro map item key hne
    rw [OrdMap.getElem?_insert_iff, if_neg hne]

theorem actionOf_trackServices (input : Input) (b : Builder) (service : String) :
    actionOf (trackServices input b).restarts service =
      (actionOf b.restarts service).or (toggleAction input service) := by
  unfold actionOf
  rw [getElem?_trackServices_restarts, getElem?_serviceToggles]
  unfold toggleAction
  cases hold : b.restarts[service]? <;> split_ifs <;>
    simp [withToggle, startToggle, stopToggle]

theorem keyed_trackServices (input : Input) {b : Builder}
    (hb : OrdMap.Keyed Restart.service b.restarts) :
    OrdMap.Keyed Restart.service (trackServices input b).restarts := by
  intro service r hr
  rw [getElem?_trackServices_restarts, getElem?_serviceToggles] at hr
  have hname : ∀ toggle : Restart, toggle.service = service →
      (withToggle b.restarts[service]? toggle).service = service := by
    intro toggle htoggle
    cases hentry : b.restarts[service]? with
    | some entry => exact hb service entry hentry
    | none => exact htoggle
  split_ifs at hr
  · exact hb service r hr
  · rw [← Option.some.inj hr]
    exact hname _ rfl
  · rw [← Option.some.inj hr]
    exact hname _ rfl
  · exact hb service r hr

/-! ## The carry -/

section Carry

variable {T : Type} {key : T → String} {reasons : T → List Reason}
  {mapReasons : (List Reason → List Reason) → T → T}

/-- What the two halves of a plan entry's `ref` have to do with each other. -/
structure LawfulRef (key : T → String) (reasons : T → List Reason)
    (mapReasons : (List Reason → List Reason) → T → T) : Prop where
  map_map : ∀ f g it, mapReasons f (mapReasons g it) =
    mapReasons (fun reasons => f (g reasons)) it
  key_map : ∀ f it, key (mapReasons f it) = key it
  reasons_map : ∀ f it, reasons (mapReasons f it) = f (reasons it)

theorem rewriteRef : LawfulRef Rewrite.source Rewrite.reasons Rewrite.mapReasons :=
  ⟨fun _ _ _ => rfl, fun _ _ => rfl, fun _ _ => rfl⟩

theorem directiveRef : LawfulRef Directive.key Directive.reasons Directive.mapReasons :=
  ⟨fun _ _ _ => rfl, fun _ _ => rfl, fun _ _ => rfl⟩

theorem restartRef : LawfulRef Restart.service Restart.reasons Restart.mapReasons :=
  ⟨fun _ _ _ => rfl, fun _ _ => rfl, fun _ _ => rfl⟩

theorem appendReason_idem (reasons : List Reason) (r : Reason) :
    appendReason (appendReason reasons r) r = appendReason reasons r := by
  have hmem : r ∈ appendReason reasons r := (mem_appendReason reasons r r).mpr (Or.inr rfl)
  rw [appendReason, if_pos hmem]

/-- **A carried item is re-included.**  Its entry is the fresh one when there is
one, else the item that comes first in the carry, marked as retried. -/
theorem getElem?_carryItems (href : LawfulRef key reasons mapReasons) (items : List T)
    (dst : StrMap T) (name : String) :
    (carryItems key mapReasons items dst)[name]? =
      match items.find? (fun it => key it = name) with
      | some it => some (mapReasons (appendReason · retryReason) (dst[name]?.getD it))
      | none => dst[name]? := by
  unfold carryItems
  induction items generalizing dst with
  | nil => rfl
  | cons it rest ih =>
    rw [List.foldl_cons, ih, OrdMap.getElem?_insert_iff]
    by_cases hname : key it = name
    · subst hname
      simp only [if_true, List.find?_cons, decide_true, Option.getD_some]
      cases rest.find? (fun other => key other = key it) with
      | none => rfl
      | some other => simp [href.map_map, appendReason_idem]
    · simp [hname]

theorem keyed_carryItems (href : LawfulRef key reasons mapReasons) (items : List T)
    {dst : StrMap T} (hdst : OrdMap.Keyed key dst) :
    OrdMap.Keyed key (carryItems key mapReasons items dst) := by
  unfold carryItems
  refine List.foldlRecOn _ _ hdst ?_
  intro dst hdst it _
  apply hdst.insert
  rw [href.key_map]
  cases hfound : dst[key it]? with
  | none => rfl
  | some found => exact hdst _ _ hfound

end Carry

/-- What the carry asks of a service. -/
def carryAction (carry : Carry) (service : String) : Option Action :=
  (carry.restarts.find? fun r => r.service = service).map Restart.action

theorem actionOf_mergeCarry (carry : Carry) (b : Builder) (service : String) :
    actionOf (mergeCarry carry b).restarts service =
      (actionOf b.restarts service).or (carryAction carry service) := by
  unfold actionOf mergeCarry carryAction
  rw [getElem?_carryItems restartRef]
  cases carry.restarts.find? (fun r => r.service = service) <;>
    cases b.restarts[service]? <;> simp [Restart.mapReasons]

/-! ## The entries of the plan -/

/-- What a cycle asks of a service: its changed sections decide, then the
service toggles, then the carry. -/
def restartAction (input : Input) (service : String) : Option Action :=
  ((if input.conf.sections.toList.any (restartsNow input service) then
      sectionAction input.cur service
    else none).or (toggleAction input service)).or (carryAction input.carry service)

/-- What a cycle defers for a service. -/
def deferredAction (input : Input) (service : String) : Option Action :=
  if input.conf.sections.toList.any (restartsDeferred input service) then
    sectionAction input.cur service
  else none

theorem compute_eq_some {pl : Plan} (hpl : compute input = some pl) :
    guardAllDisabled input = true ∧ pl = finish input (build input) := by
  unfold compute at hpl
  split at hpl
  · rename_i hguard
    exact ⟨hguard, (Option.some.inj hpl).symm⟩
  · simp at hpl

theorem build_of_no_host (hhost : input.host = none) :
    build input = mergeCarry input.carry (trackServices input (processSections input {})) := by
  rw [build, hhost, pruneToHost]

/-- The list asks of each service what `asked` says, classified for the host. -/
def Asks (list : List Restart) (systemd : Bool) (asked : String → Option Action) : Prop :=
  ∀ service action, (∃ r ∈ list, r.service = service ∧ r.action = action) ↔
    ∃ a, asked service = some a ∧ action = classify a service systemd

theorem Asks.owes {list : List Restart} {systemd : Bool} {asked : String → Option Action}
    (hasks : Asks list systemd asked) (service : String) :
    Owes list service ↔ ∃ a, asked service = some a ∧ a.IsRestart := by
  constructor
  · rintro ⟨r, hr, hservice, hrestart⟩
    obtain ⟨a, ha, haction⟩ := (hasks service r.action).mp ⟨r, hr, hservice, rfl⟩
    rw [haction, classify_isRestart] at hrestart
    exact ⟨a, ha, hrestart⟩
  · rintro ⟨a, ha, hrestart⟩
    obtain ⟨r, hr, hservice, haction⟩ := (hasks service _).mpr ⟨a, ha, rfl⟩
    exact ⟨r, hr, hservice, by rw [haction, classify_isRestart]; exact hrestart⟩

theorem Asks.clean {list : List Restart} {systemd : Bool} {asked : String → Option Action}
    (hasks : Asks list systemd asked) (service : String) :
    Clean list service ↔ ∀ a, asked service = some a → a.IsRestart := by
  constructor
  · intro hclean a ha
    obtain ⟨r, hr, hservice, haction⟩ := (hasks service _).mpr ⟨a, ha, rfl⟩
    have hrestart := hclean r hr hservice
    rwa [haction, classify_isRestart] at hrestart
  · intro hall r hr hservice
    obtain ⟨a, ha, haction⟩ := (hasks service r.action).mp ⟨r, hr, hservice, rfl⟩
    rw [haction, classify_isRestart]
    exact hall a ha

theorem Asks.forall_ne_iff {list : List Restart} {systemd : Bool}
    {asked : String → Option Action} (hasks : Asks list systemd asked) (service : String) :
    (∀ r ∈ list, r.service ≠ service) ↔ asked service = none := by
  rw [Option.eq_none_iff_forall_ne_some]
  constructor
  · intro hne a ha
    obtain ⟨r, hr, hservice, -⟩ := (hasks service _).mpr ⟨a, ha, rfl⟩
    exact hne r hr hservice
  · intro hnone r hr hservice
    obtain ⟨a, ha, -⟩ := (hasks service r.action).mp ⟨r, hr, hservice, rfl⟩
    exact hnone a ha

theorem asks_of_keyed {map : StrMap Restart} (hmap : OrdMap.Keyed Restart.service map)
    (systemd : Bool) :
    Asks (map.valuesList.map (Restart.classify systemd)) systemd (actionOf map) := by
  intro service action
  constructor
  · rintro ⟨r, hr, rfl, rfl⟩
    obtain ⟨x, hx, rfl⟩ := List.mem_map.mp hr
    have hfound := hmap.getElem?_of_mem hx
    exact ⟨x.action, by simp [actionOf, Restart.classify, hfound], rfl⟩
  · rintro ⟨asked, hasked, rfl⟩
    obtain ⟨x, hx, rfl⟩ := Option.map_eq_some_iff.mp hasked
    have hname : x.service = service := hmap service x hx
    refine ⟨x.classify systemd, List.mem_map_of_mem ?_, hname, by rw [← hname]; rfl⟩
    exact (OrdMap.mem_valuesList_iff map x).mpr ⟨service, hx⟩

section Plan

variable {input : Input} {pl : Plan} (hpl : compute input = some pl) (hhost : input.host = none)

include hhost

theorem keyed_build_restarts : OrdMap.Keyed Restart.service (build input).restarts := by
  rw [build_of_no_host hhost]
  exact keyed_carryItems restartRef _
    (keyed_trackServices input (keyed_processSections input).restarts)

include hpl

/-- **The restarts of a plan** are what `restartAction` asks for. -/
theorem asks_plan_restarts : Asks pl.restarts input.systemd (restartAction input) := by
  obtain ⟨-, rfl⟩ := compute_eq_some hpl
  have haction : actionOf (build input).restarts = restartAction input := by
    funext service
    rw [build_of_no_host hhost, actionOf_mergeCarry, actionOf_trackServices,
      actionOf_processSections_restarts, restartAction]
  rw [← haction]
  exact asks_of_keyed (keyed_build_restarts hhost) _

theorem nodup_plan_restarts : (pl.restarts.map Restart.service).Nodup := by
  obtain ⟨-, rfl⟩ := compute_eq_some hpl
  have hname : Restart.service ∘ Restart.classify input.systemd = Restart.service := rfl
  change ((OrdMap.valuesList (build input).restarts).map (Restart.classify input.systemd)
    |>.map Restart.service).Nodup
  rw [List.map_map, hname]
  exact OrdMap.nodup_map_valuesList (keyed_build_restarts hhost)

/-- **The deferred restarts of a plan** are what `deferredAction` asks for. -/
theorem asks_plan_deferred :
    Asks pl.deferredRestarts input.systemd (deferredAction input) := by
  obtain ⟨-, rfl⟩ := compute_eq_some hpl
  have hdeferred : (build input).deferred = (processSections input {}).deferred := by
    rw [build_of_no_host hhost]
    rfl
  have haction : actionOf (build input).deferred = deferredAction input := by
    funext service
    rw [hdeferred, actionOf_processSections_deferred, deferredAction]
  rw [← haction]
  apply asks_of_keyed
  rw [hdeferred]
  exact (keyed_processSections input).deferred

theorem mem_plan_sections (s : Section) :
    s ∈ pl.sections ↔
      ∃ sec, input.conf.sections[s.name]? = some sec ∧ isProcessed input s.name sec = true ∧
        s.reasons = reasonsOf input s.name sec := by
  obtain ⟨-, rfl⟩ := compute_eq_some hpl
  rw [← mem_processSections_sections]
  change s ∈ (build input).sections ↔ _
  rw [build_of_no_host hhost]
  rfl

theorem plan_rewrites :
    pl.rewrites = OrdMap.valuesList (carryItems Rewrite.source Rewrite.mapReasons
      input.carry.rewrites (processSections input {}).rewrites) := by
  obtain ⟨-, rfl⟩ := compute_eq_some hpl
  change OrdMap.valuesList (build input).rewrites = _
  rw [build_of_no_host hhost]
  rfl

theorem plan_postconf :
    pl.postconf = OrdMap.valuesList (carryItems Directive.key Directive.mapReasons
      input.carry.postconf (processSections input {}).postconf) := by
  obtain ⟨-, rfl⟩ := compute_eq_some hpl
  change OrdMap.valuesList (build input).postconf = _
  rw [build_of_no_host hhost]
  rfl

theorem plan_postconfd :
    pl.postconfd = OrdMap.valuesList (carryItems Directive.key Directive.mapReasons
      input.carry.postconfd (processSections input {}).postconfd) := by
  obtain ⟨-, rfl⟩ := compute_eq_some hpl
  change OrdMap.valuesList (build input).postconfd = _
  rw [build_of_no_host hhost]
  rfl

theorem plan_ldap :
    pl.ldap = OrdMap.valuesList (carryItems Directive.key Directive.mapReasons
      input.carry.ldap (processSections input {}).ldap) := by
  obtain ⟨-, rfl⟩ := compute_eq_some hpl
  change OrdMap.valuesList (build input).ldap = _
  rw [build_of_no_host hhost]
  rfl

theorem plan_proxygen :
    pl.proxygen = match input.carry.proxygen with
      | some carried => some (((processSections input {}).proxygen.getD carried).mapReasons
          (appendReason · retryReason))
      | none => (processSections input {}).proxygen := by
  obtain ⟨-, rfl⟩ := compute_eq_some hpl
  change (build input).proxygen = _
  rw [build_of_no_host hhost]
  rfl

theorem plan_tracked : pl.tracked = trackedAfter input := by
  obtain ⟨-, rfl⟩ := compute_eq_some hpl
  change (build input).tracked = _
  rw [build_of_no_host hhost]
  rfl

end Plan

end Configd
