import Configd.ConfigMgr.Conditions
import Configd.Daemon.Cycle
import Configd.Plan.Alike

/-!
# What a shown plan tells about secrets

Two calls of `ConfigManager.Plan` are compared that differ in the non-empty values of secret keys
(`isSecretKey`) only: the same `zmconfigd.cf`, file system and history.

The reasons of a plan hide such a value behind the name of its key.  Three ways remain to the
output: an LDAP attribute takes the value under a name of its own, a `FILE` fragment is rendered
with it, and an `if` block tests it.  `plans_shown_alike_iff` says exactly when the plans are
shown alike whatever the history is, and that with blocks that hold alike only the first two ways
matter.
-/

namespace Configd

open Lib

/-! ## Two calls of `Plan` -/

/-- The file system.  What a `FILE` lookup gives is rendered with the configuration. -/
structure HostFiles where
  baseDir : String
  stat : String → StatResult
  render : Snapshot → String → Except LookupError String

/-- The file system as the lookups see it with this configuration. -/
def HostFiles.at (host : HostFiles) (snap : Snapshot) : Files where
  baseDir := host.baseDir
  file := host.render snap
  stat := host.stat

/-- What a call of `Plan` finds beside the configuration: what the cycles before it and
the clients have left. -/
structure PlanHistory where
  requested : StrMap String := ∅
  forced : StrMap String := ∅
  firstRun : Bool := false
  tracked : StrMap TrackedStatus := ∅
  carry : Carry := {}
  deferred : List Restart := []
  scope : List String := []
  systemd : Bool := false

section Call

variable (raw : MtaConfig) (host : HostFiles)

/-- The daemon before the call, after a cycle with the configuration `prev` and a load
of the configuration `cur`. -/
def PlanHistory.daemon (h : PlanHistory) (prev cur : Snapshot) : Daemon where
  snap := cur
  conf := parseMtaConfig (host.at cur) cur raw
  requested := h.requested
  forced := h.forced
  firstRun := h.firstRun
  prev := plannedSnapshot (host.at prev) (host.at prev) prev raw
  tracked := h.tracked
  carry := h.carry
  deferred := h.deferred

def PlanHistory.input (h : PlanHistory) (prev cur : Snapshot) : Input :=
  (h.daemon raw host prev cur).input ⟨host.at cur, h.scope, h.systemd⟩

/-- The plan of the call as JSON and as text, if it is not rejected. -/
def shownPlan (h : PlanHistory) (prev cur : Snapshot) : Option (String × String) :=
  ((h.daemon raw host prev cur).plan ⟨host.at cur, h.scope, h.systemd⟩).phase.plan.map
    fun pl => (pl.JSON, pl.writeText)

end Call

/-- The value of a key that is secret, or the same. -/
def SecretlyAlike (key : String) (value value' : Option String) : Prop :=
  value = value' ∨ isSecretKey key = true ∧
    ∃ v v', value = some v ∧ value' = some v' ∧ v ≠ "" ∧ v' ≠ ""

/-- Two snapshots that differ in the values of secret keys only. -/
structure Snapshot.Variant (s s' : Snapshot) : Prop where
  services : s.services = s'.services
  observed : s.observedMap = s'.observedMap
  locals : ∀ key, SecretlyAlike key (s.local key) (s'.local key)
  vars : ∀ key, SecretlyAlike key (s.var key) (s'.var key)

/-- Two pairs of such snapshots, in which each value changed in both or in neither. -/
structure SecretVariants (prev cur prev' cur' : Snapshot) : Prop where
  before : prev.Variant prev'
  after : cur.Variant cur'
  locals : ∀ key, prev.local key = cur.local key ↔ prev'.local key = cur'.local key
  vars : ∀ key, prev.var key = cur.var key ↔ prev'.var key = cur'.var key

/-- A lookup type is what its spelling says: of the known types each has one
constructor. -/
def LookupType.Canonical (type : LookupType) : Prop :=
  LookupType.ofText type.text = type

/-- The types of the required lookups are canonical. -/
def MtaConfig.Canonical (raw : MtaConfig) : Prop :=
  ∀ (sn : String) sec, raw.sections[sn]? = some sec →
    (∀ (name : String) type, sec.requiredVars[name]? = some type → type.Canonical) ∧
      ∀ cond ∈ sec.conditionals, ∀ (name : String) type,
        cond.requiredVars[name]? = some type → type.Canonical

/-- The section is shown alike in the two calls: its changed lookups, its directives, its
LDAP attributes and its mapped files, each as far as it is shown. -/
def SectionShown (raw : MtaConfig) (host : HostFiles) (prev cur prev' cur' : Snapshot)
    (sec : MtaConfigSection) : Prop :=
  SectionAlike (PlanHistory.input raw host {} prev cur) (PlanHistory.input raw host {} prev' cur')
    (parsedSection (host.at cur) cur sec) (parsedSection (host.at cur') cur' sec)

section Alike

variable {raw : MtaConfig} {host : HostFiles} {prev cur prev' cur' : Snapshot}

theorem shownPlan_eq (h : PlanHistory) (prev cur : Snapshot) :
    shownPlan raw host h prev cur =
      if guardAllDisabled (h.input raw host prev cur) then
        let pl := (Daemon.holdDeferred h.deferred
          (finish (h.input raw host prev cur) (build (h.input raw host prev cur)))
          (h.daemon raw host prev cur).releases h.systemd).2
        some (pl.JSON, pl.writeText)
      else none := by
  have hcompute : compute (h.input raw host prev cur) =
      if guardAllDisabled (h.input raw host prev cur) then
        some (finish (h.input raw host prev cur) (build (h.input raw host prev cur)))
      else none := rfl
  unfold shownPlan Daemon.plan
  rw [show (h.daemon raw host prev cur).input ⟨host.at cur, h.scope, h.systemd⟩ =
    h.input raw host prev cur from rfl, hcompute]
  cases guardAllDisabled (h.input raw host prev cur) with
  | false => rfl
  | true => rfl

theorem redacted_holdDeferred (deferred : List Restart) (pl : Plan) (release systemd : Bool) :
    (Daemon.holdDeferred deferred pl release systemd).2.redacted =
      (Daemon.holdDeferred deferred pl.redacted release systemd).2 := by
  have hheld : Daemon.hold deferred pl.redacted.deferredRestarts systemd =
      Daemon.hold deferred pl.deferredRestarts systemd := rfl
  unfold Daemon.holdDeferred
  simp only [hheld]
  by_cases hkeep :
      (!release || (Daemon.hold deferred pl.deferredRestarts systemd).isEmpty) = true
  · simp only [hkeep, if_true]
  · simp only [hkeep]
    rfl

theorem forall₂_filterMap {A B : Type} {R : B → B → Prop} {f g : A → Option B} {list : List A}
    (hlist : ∀ a ∈ list, (f a = none ∧ g a = none) ∨
      ∃ x y, f a = some x ∧ g a = some y ∧ R x y) :
    List.Forall₂ R (list.filterMap f) (list.filterMap g) := by
  induction list with
  | nil => exact List.Forall₂.nil
  | cons a rest ih =>
    have hrest := ih fun b hb => hlist b (List.mem_cons_of_mem a hb)
    rcases hlist a (by simp) with ⟨hf, hg⟩ | ⟨x, y, hf, hg, hxy⟩
    · rwa [List.filterMap_cons_none hf, List.filterMap_cons_none hg]
    · rw [List.filterMap_cons_some hf, List.filterMap_cons_some hg]
      exact List.Forall₂.cons hxy hrest

/-- **Sections that are shown alike make plans that are**, whatever the history. -/
theorem shownPlan_of_alike (hservices : cur.services = cur'.services)
    (hsections : ∀ (sn : String) sec, raw.sections[sn]? = some sec →
      sectionEnabled sn cur.serviceEnabled = true →
        SectionShown raw host prev cur prev' cur' sec) (h : PlanHistory) :
    shownPlan raw host h prev cur = shownPlan raw host h prev' cur' := by
  have henabled := Snapshot.serviceEnabled_congr hservices
  have hinput : InputsAlike (h.input raw host prev cur) (h.input raw host prev' cur') := by
    refine ⟨hservices, rfl, rfl, rfl, rfl, rfl, rfl, rfl, rfl, rfl, rfl, ?_⟩
    change List.Forall₂ _ (raw.sections.filterMap _).toList (raw.sections.filterMap _).toList
    rw [Std.ExtTreeMap.toList_filterMap, Std.ExtTreeMap.toList_filterMap]
    apply forall₂_filterMap
    rintro ⟨sn, sec⟩ hmem
    have hsec := Std.ExtTreeMap.mem_toList_iff_getElem?_eq_some.mp hmem
    by_cases hon : sectionEnabled sn cur.serviceEnabled = true
    · have hshown := hsections sn sec hsec hon
      refine Or.inr ⟨(sn, parsedSection (host.at cur) cur sec),
        (sn, parsedSection (host.at cur') cur' sec), by simp [hon, parsedSection],
        by simp [← henabled, hon, parsedSection], rfl, ?_⟩
      exact ⟨hshown.rewrites, hshown.restarts, hshown.proxygen, hshown.changes, hshown.postconf,
        hshown.postconfd, hshown.ldap, hshown.mapped⟩
    · exact Or.inl ⟨by simp [hon], by simp [← henabled, hon]⟩
  have hguard : guardAllDisabled (h.input raw host prev cur) =
      guardAllDisabled (h.input raw host prev' cur') := by
    unfold guardAllDisabled
    rw [hinput.tracked, hinput.serviceEnabled]
  have hplan : ∀ release, (Daemon.holdDeferred h.deferred
      (finish (h.input raw host prev cur) (build (h.input raw host prev cur))) release
        h.systemd).2.redacted =
      (Daemon.holdDeferred h.deferred
        (finish (h.input raw host prev' cur') (build (h.input raw host prev' cur'))) release
          h.systemd).2.redacted := by
    intro release
    rw [redacted_holdDeferred, redacted_holdDeferred, redacted_eq_of_alike hinput]
  rw [shownPlan_eq, shownPlan_eq, hguard]
  simp only [Plan.JSON, Plan.writeText, hplan]
  rfl

/-! ## What the output tells -/

theorem shown_of_json {map map' : StrMap Directive} (hmap : OrdMap.Keyed Directive.key map)
    (hmap' : OrdMap.Keyed Directive.key map')
    (heq : (map.valuesList.map Directive.redacted).map Directive.json =
      (map'.valuesList.map Directive.redacted).map Directive.json) (key : String) :
    map[key]?.map (fun d => forLog key d.value) = map'[key]?.map fun d => forLog key d.value := by
  have hfinds : ∀ {m m' : StrMap Directive}, OrdMap.Keyed Directive.key m →
      OrdMap.Keyed Directive.key m' →
      (m.valuesList.map Directive.redacted).map Directive.json =
        (m'.valuesList.map Directive.redacted).map Directive.json →
      ∀ d, m[key]? = some d → ∃ d', m'[key]? = some d' ∧
        forLog key d.value = forLog key d'.value := by
    intro m m' hm hm' heq d hd
    have hin : d.redacted.json ∈ (m'.valuesList.map Directive.redacted).map Directive.json := by
      rw [← heq]
      exact List.mem_map_of_mem (List.mem_map_of_mem
        ((OrdMap.mem_valuesList_iff m d).mpr ⟨key, hd⟩))
    obtain ⟨shown, hshown, hjson⟩ := List.mem_map.mp hin
    obtain ⟨d', hd', rfl⟩ := List.mem_map.mp hshown
    obtain ⟨hkey, hvalue⟩ := directive_of_json hjson
    have hname : d.key = key := hm key d hd
    have hname' : d'.key = key := hkey.trans hname
    refine ⟨d', ?_, ?_⟩
    · have hfound := hm'.getElem?_of_mem hd'
      rwa [hname'] at hfound
    · simp only [Directive.redacted, hname, hname'] at hvalue
      exact hvalue.symm
  cases hd : map[key]? with
  | some d =>
    obtain ⟨d', hd', hvalue⟩ := hfinds hmap hmap' heq d hd
    rw [hd', Option.map_some, Option.map_some, hvalue]
  | none =>
    cases hd' : map'[key]? with
    | none => rfl
    | some d' =>
      obtain ⟨d, hsome, -⟩ := hfinds hmap' hmap heq.symm d' hd'
      rw [hd] at hsome
      cases hsome

variable {sec : MtaConfigSection}

theorem mapsTo_of_json {sn : String} {sec' : MtaConfigSection} {reasons reasons' : List Reason}
    (heq : (OrdMap.valuesList (mapfileOps sn sec reasons ∅)).map Mapfile.json =
      (OrdMap.valuesList (mapfileOps sn sec' reasons' ∅)).map Mapfile.json) (mk : MapfileKey) :
    sec.mapsTo mk = sec'.mapsTo mk := by
  have hlisted : ∀ {sec sec' : MtaConfigSection} {reasons reasons' : List Reason},
      (OrdMap.valuesList (mapfileOps sn sec reasons ∅)).map Mapfile.json =
        (OrdMap.valuesList (mapfileOps sn sec' reasons' ∅)).map Mapfile.json →
      sec.mapsTo mk = true → sec'.mapsTo mk = true := by
    intro sec sec' reasons reasons' heq hmaps
    set m : Mapfile := Mapfile.mark { key := mk.key, isLocal := mk.isLocal } sn reasons with hm
    have hentry : (mapfileOps sn sec reasons ∅)[mk]? = some m := by
      rw [getElem?_mapfileOps, hmaps]
      rfl
    have hin : m.json ∈ (OrdMap.valuesList (mapfileOps sn sec' reasons' ∅)).map Mapfile.json := by
      rw [← heq]
      exact List.mem_map_of_mem ((OrdMap.mem_valuesList_iff _ _).mpr ⟨mk, hentry⟩)
    obtain ⟨m', hm', hjson⟩ := List.mem_map.mp hin
    obtain ⟨hkey, hlocal⟩ := mapfile_of_json hjson
    obtain ⟨mk', hmk'⟩ := (OrdMap.mem_valuesList_iff _ _).mp hm'
    rw [getElem?_mapfileOps] at hmk'
    split at hmk'
    · rename_i hmaps'
      rw [← Option.some.inj hmk'] at hkey hlocal
      have hsame : mk' = mk := by
        obtain ⟨key, isLocal⟩ := mk
        obtain ⟨key', isLocal'⟩ := mk'
        simp only [hm, Mapfile.mark, Std.ExtTreeMap.getElem?_empty, Option.getD_none] at hkey hlocal
        rw [hkey, hlocal]
      rwa [hsame] at hmaps'
    · simp at hmk'
  cases hmaps : sec.mapsTo mk with
  | true => exact (hlisted heq hmaps).symm
  | false =>
    cases hmaps' : sec'.mapsTo mk with
    | false => rfl
    | true => exact absurd (hlisted heq.symm hmaps') (by simp [hmaps])

variable {type : LookupType}

def CanonicalVars (vars : StrMap LookupType) : Prop :=
  ∀ (name : String) type, vars[name]? = some type → type.Canonical

theorem changes_of_json {sn : String} {input input' : Input} {sec' : MtaConfigSection}
    (hsec : CanonicalVars sec.requiredVars) (hsec' : CanonicalVars sec'.requiredVars)
    (heq : (diffSection input sn sec).map Reason.jsonFields =
      (diffSection input' sn sec').map Reason.jsonFields) :
    shownChanges input sec = shownChanges input' sec' := by
  have hcanonical : ∀ (input : Input) {sec : MtaConfigSection}, CanonicalVars sec.requiredVars →
      ∀ c ∈ shownChanges input sec, c.type.Canonical := by
    intro input sec hsec c hc
    obtain ⟨⟨name, hname, -⟩, -⟩ := mem_shownChanges_iff.mp hc
    exact hsec name c.type hname
  have hall := hcanonical input hsec
  have hall' := hcanonical input' hsec'
  rw [diffSection_eq_map, diffSection_eq_map, List.map_map, List.map_map] at heq
  generalize shownChanges input sec = list at heq hall
  generalize shownChanges input' sec' = list' at heq hall'
  induction list generalizing list' with
  | nil => simpa using heq
  | cons c rest ih =>
    cases list' with
    | nil => simp at heq
    | cons c' rest' =>
      rw [List.map_cons, List.map_cons, List.cons.injEq] at heq
      obtain ⟨htext, hkey, hold, hnew⟩ := reason_of_json heq.1
      have htype : c.type = c'.type :=
        (hall c (by simp)).symm.trans ((congrArg _ htext).trans (hall' c' (by simp)))
      have hsame : c = c' := ShownChange.ext htype hkey hold hnew
      rw [hsame, ih (fun x hx => hall x (List.mem_cons_of_mem c hx)) rest' heq.2
        fun x hx => hall' x (List.mem_cons_of_mem c' hx)]

def onlyFor (sn : String) (firstRun : Bool) : PlanHistory where
  requested := (∅ : StrMap String).insert sn sn
  firstRun := firstRun
  scope := [sn]

theorem mem_keys_onlyFor (sn : String) : sn ∈ ((∅ : StrMap String).insert sn sn).keys := by
  simp [Std.ExtTreeMap.mem_keys]

section Only

variable {sn : String} {sec : MtaConfigSection} (hsec : raw.sections[sn]? = some sec)
  (hon : sectionEnabled sn cur.serviceEnabled = true) (firstRun : Bool)

theorem reasonsOf_onlyFor (sec : MtaConfigSection) :
    reasonsOf ((onlyFor sn firstRun).input raw host prev cur) sn sec =
      { kind := .requested, sectionName := sn } ::
        if firstRun then [{ kind := .firstRun, sectionName := sn }]
        else diffSection ((onlyFor sn firstRun).input raw host prev cur) sn sec := by
  have hforced : ((onlyFor sn firstRun).input raw host prev cur).forced = [] := rfl
  have hrequested : sn ∈ ((onlyFor sn firstRun).input raw host prev cur).requested :=
    mem_keys_onlyFor sn
  have hfirst : ((onlyFor sn firstRun).input raw host prev cur).firstRun = firstRun := rfl
  have hassume : ((onlyFor sn firstRun).input raw host prev cur).assumeChanged = false := rfl
  have hcompared : isCompared ((onlyFor sn firstRun).input raw host prev cur) sn = true := by
    simp [isCompared, hforced]
  unfold reasonsOf sectionReasons
  rw [changesOf, if_pos hcompared, hfirst, hassume]
  simp only [hforced, hrequested, if_true, List.not_mem_nil, if_false]
  simp

variable (host prev) in
include hsec hon in
/-- **The plan of such a call** has what the section contributes. -/
theorem exists_plan_onlyFor :
    ∃ (pl : Plan) (reasons : List Reason),
      shownPlan raw host (onlyFor sn firstRun) prev cur = some (pl.JSON, pl.writeText) ∧
      reasons = reasonsOf ((onlyFor sn firstRun).input raw host prev cur) sn
        (parsedSection (host.at cur) cur sec) ∧
      pl.sections = [⟨sn, reasons⟩] ∧
      (firstRun = true → pl.mapfiles = OrdMap.valuesList
        (mapfileOps sn (parsedSection (host.at cur) cur sec) reasons ∅)) ∧
      pl.postconf = OrdMap.valuesList (compilePostconf
        ((onlyFor sn firstRun).input raw host prev cur).cur sn
        (parsedSection (host.at cur) cur sec) reasons ∅) ∧
      pl.postconfd = OrdMap.valuesList (compilePostconfd
        ((onlyFor sn firstRun).input raw host prev cur).cur sn
        (parsedSection (host.at cur) cur sec) reasons ∅) ∧
      pl.ldap = OrdMap.valuesList
        (compileLdap sn (parsedSection (host.at cur) cur sec) reasons ∅) := by
  set input := (onlyFor sn firstRun).input raw host prev cur with hinput
  set psec := parsedSection (host.at cur) cur sec with hpsec
  have hguard : guardAllDisabled input = true := by
    have hsize : input.tracked.size = 0 := rfl
    simp [guardAllDisabled, hsize]
  have hsingle : processSections input {} = processSection input {} sn psec := by
    refine OrdMap.foldl_toList_of_single (parse_of_enabled hsec hon (host.at cur)) ?_
      ({} : Builder)
    intro b entry hne
    have hscope : input.scope = [sn] := rfl
    have hskip : isConsidered input entry.1 = false := by
      simp [isConsidered, inScope, hscope, hne]
    simp [processSection, hskip]
  have hconsidered : isConsidered input sn = true := by
    have hscope : input.scope = [sn] := rfl
    have hon' : sectionEnabled sn input.cur.serviceEnabled = true := hon
    simp [isConsidered, inScope, hscope, hon']
  have hprocessed : isProcessed input sn psec = true := by
    rw [isProcessed, hconsidered, reasonsOf_onlyFor firstRun]
    rfl
  have hbuild : build input = mergeCarry {} (trackServices input (compileSection input
      { ({} : Builder) with
        heal := healMapfiles sn psec (isCompared input sn) ∅
        sections := [⟨sn, reasonsOf input sn psec⟩]
        mapfiles := if !(changesOf input sn psec).isEmpty || input.firstRun then
          mapfileOps sn psec (reasonsOf input sn psec) ∅ else ∅ }
      sn psec (reasonsOf input sn psec))) := by
    rw [build_of_no_host rfl, hsingle, processSection_of_processed {} hprocessed]
    rfl
  have hrelease : ((onlyFor sn firstRun).daemon raw host prev cur).releases = false := by
    have hkeys : ((∅ : StrMap String).insert sn sn).keys.isEmpty = false :=
      List.isEmpty_eq_false_iff_exists_mem.mpr ⟨sn, mem_keys_onlyFor sn⟩
    unfold Daemon.releases
    rw [show ((onlyFor sn firstRun).daemon raw host prev cur).requested =
      (∅ : StrMap String).insert sn sn from rfl, hkeys]
    simp
  have hplan : (Daemon.holdDeferred [] (finish input (build input)) false false).2 =
      finish input (build input) := by
    simp [Daemon.holdDeferred]
  refine ⟨finish input (build input), reasonsOf input sn psec, ?_, rfl, ?_, ?_, ?_, ?_, ?_⟩
  · rw [shownPlan_eq, ← hinput, hguard, hrelease, if_pos rfl]
    change some ((Daemon.holdDeferred [] (finish input (build input)) false false).2.JSON,
      (Daemon.holdDeferred [] (finish input (build input)) false false).2.writeText) = _
    rw [hplan]
  all_goals rw [hbuild]
  · rfl
  · intro hfirst
    have hfirst' : input.firstRun = true := hfirst
    simp [finish, mergeCarry, trackServices, compileSection, hfirst']
  · rfl
  · rfl
  · rfl

end Only

theorem canonical_parsedSection (hraw : raw.Canonical) {sn : String}
    (hsec : raw.sections[sn]? = some sec) (fs : Files) (snap : Snapshot) :
    CanonicalVars (parsedSection fs snap sec).requiredVars := by
  obtain ⟨hown, hblocks⟩ := hraw sn sec hsec
  change CanonicalVars (sec.conditionals.foldl _ sec.requiredVars)
  refine List.foldlRecOn (motive := CanonicalVars) _ _ hown ?_
  intro vars hvars cond hcond
  split
  · exact hvars
  · refine List.foldlRecOn (motive := CanonicalVars) _ _ hvars ?_
    intro vars hvars entry hentry name type htype
    rw [OrdMap.getElem?_insert_iff] at htype
    split at htype
    · rw [← Option.some.inj htype]
      exact hblocks cond hcond entry.1 entry.2
        (Std.ExtTreeMap.mem_toList_iff_getElem?_eq_some.mp hentry)
    · exact hvars name type htype

theorem shown_leaves (key sn : String) (reasons : List Reason) (value : Option String) :
    (leaves key sn reasons (value.map (Strings.replaceChar · '\n' ' ')) none).map
      (fun d => forLog key d.value) = shownDirective key value := by
  cases value <;> rfl

/-- **Plans that are always shown alike** come from sections that are. -/
theorem sectionShown_of_shownPlan (hraw : raw.Canonical)
    (hservices : cur.services = cur'.services)
    (hall : ∀ h, shownPlan raw host h prev cur = shownPlan raw host h prev' cur') {sn : String}
    (hsec : raw.sections[sn]? = some sec)
    (hon : sectionEnabled sn cur.serviceEnabled = true) :
    SectionShown raw host prev cur prev' cur' sec := by
  have hon' : sectionEnabled sn cur'.serviceEnabled = true := by
    rwa [← Snapshot.serviceEnabled_congr hservices]
  have hkeyed := OrdMap.keyed_empty (V := Directive) Directive.key
  -- What the call for the section alone shows.
  obtain ⟨pl, reasons, hpl, hreasons, hsections, -, hpostconf, hpostconfd, hldap⟩ :=
    exists_plan_onlyFor host prev hsec hon false
  obtain ⟨pl', reasons', hpl', hreasons', hsections', -, hpostconf', hpostconfd', hldap'⟩ :=
    exists_plan_onlyFor host prev' hsec hon' false
  have hsame := hall (onlyFor sn false)
  rw [hpl, hpl', Option.some.injEq, Prod.mk.injEq] at hsame
  obtain ⟨jsections, -, jpostconf, jpostconfd, jldap⟩ := json_eq_of_JSON hsame.1
  rw [hpostconf, hpostconf'] at jpostconf
  rw [hpostconfd, hpostconfd'] at jpostconfd
  rw [hldap, hldap'] at jldap
  refine ⟨rfl, rfl, rfl, ?_, ?_, ?_, ?_, ?_⟩
  · apply changes_of_json (canonical_parsedSection hraw hsec _ _)
      (canonical_parsedSection hraw hsec _ _)
    rw [hsections, hsections', hreasons, hreasons', reasonsOf_onlyFor,
      reasonsOf_onlyFor] at jsections
    simp only [List.map_cons, List.map_nil, Section.json, reasonsJson, Json.obj.injEq,
      List.cons.injEq, Prod.mk.injEq, Json.arr.injEq, Bool.false_eq_true, if_false, true_and,
      and_true] at jsections
    have hfields := congrArg (List.map Json.members) jsections
    simp only [List.map_map, Function.comp_def, Json.members] at hfields
    exact hfields
  · intro key
    have hshown := shown_of_json (keyed_compilePostconf _ _ _ _ hkeyed)
      (keyed_compilePostconf _ _ _ _ hkeyed) jpostconf key
    simp only [getElem?_compilePostconf, Std.ExtTreeMap.getElem?_empty, shown_leaves] at hshown
    exact hshown
  · intro key
    have hshown := shown_of_json (keyed_compilePostconfd _ _ _ _ hkeyed)
      (keyed_compilePostconfd _ _ _ _ hkeyed) jpostconfd key
    simp only [getElem?_compilePostconfd, Std.ExtTreeMap.getElem?_empty, shown_leaves] at hshown
    exact hshown
  · intro key
    have hshown := shown_of_json (keyed_compileLdap _ _ _ hkeyed) (keyed_compileLdap _ _ _ hkeyed)
      jldap key
    have hvalue : ∀ (reasons : List Reason) (value : Option String),
        (leaves key sn reasons (value.bind fun v => if v = "" then none else some v) none).map
          (fun d => forLog key d.value) = shownLdap key value := by
      intro reasons value
      cases value with
      | none => rfl
      | some v => by_cases hempty : v = "" <;> simp [leaves, shownLdap, hempty, Directive.setTo]
    simpa only [getElem?_compileLdap, Std.ExtTreeMap.getElem?_empty, hvalue] using hshown
  · -- On the first run every mapped file of the section is listed.
    obtain ⟨pl, reasons, hpl, -, -, hmapfiles, -⟩ :=
      exists_plan_onlyFor host prev hsec hon true
    obtain ⟨pl', reasons', hpl', -, -, hmapfiles', -⟩ :=
      exists_plan_onlyFor host prev' hsec hon' true
    have hsame := hall (onlyFor sn true)
    rw [hpl, hpl', Option.some.injEq, Prod.mk.injEq] at hsame
    have jmapfiles := (json_eq_of_JSON hsame.1).2.1
    rw [hmapfiles rfl, hmapfiles' rfl] at jmapfiles
    exact mapsTo_of_json jmapfiles

/-! ## Where a secret can come through -/

variable (raw host prev cur prev' cur') in
/-- No block of an enabled section holds in one call only. -/
structure BlocksAlike : Prop where
  before : ∀ (sn : String) sec, raw.sections[sn]? = some sec →
    sectionEnabled sn prev.serviceEnabled = true → ∀ cond ∈ sec.conditionals,
      checkConditional (host.at prev) prev cond.type cond.key =
        checkConditional (host.at prev') prev' cond.type cond.key
  after : ∀ (sn : String) sec, raw.sections[sn]? = some sec →
    sectionEnabled sn cur.serviceEnabled = true → ∀ cond ∈ sec.conditionals,
      checkConditional (host.at cur) cur cond.type cond.key =
        checkConditional (host.at cur') cur' cond.type cond.key
  planned : ∀ (sn : String) sec, raw.sections[sn]? = some sec →
    sectionEnabled sn cur.serviceEnabled = true → ∀ cond ∈ sec.conditionals,
      conditionHolds (plannedSnapshot (host.at cur) (host.at cur) cur raw) cond =
        conditionHolds (plannedSnapshot (host.at cur') (host.at cur') cur' raw) cond

variable (raw host) in
/-- The value of a lookup that a plan compares. -/
def comparedValue (snap : Snapshot) (type : LookupType) (key : String) : String :=
  (plannedSnapshot (host.at snap) (host.at snap) snap raw).observedValue type key

variable (raw host prev cur prev' cur') in
/-- A `FILE` fragment changes in both runs or in neither, and what is shown of a change
is the same. -/
def FileAlike (path : String) : Prop :=
  (comparedValue raw host prev .file path = comparedValue raw host cur .file path ↔
      comparedValue raw host prev' .file path = comparedValue raw host cur' .file path) ∧
    (comparedValue raw host prev .file path ≠ comparedValue raw host cur .file path →
      displayValue path (comparedValue raw host prev .file path) =
          displayValue path (comparedValue raw host prev' .file path) ∧
        displayValue path (comparedValue raw host cur .file path) =
          displayValue path (comparedValue raw host cur' .file path))

variable (raw host prev cur prev' cur') in
/-- So do the `FILE` fragments the section requires. -/
def FilesAlike (sec : MtaConfigSection) : Prop :=
  ∀ path, (parsedSection (host.at cur) cur sec).Requires .file path →
    FileAlike raw host prev cur prev' cur' path

variable (host cur cur') in
/-- The LDAP attributes of the section get the same values, as far as they are shown. -/
def LdapAlike (sec : MtaConfigSection) : Prop :=
  ∀ key : String, shownLdap key (parsedSection (host.at cur) cur sec).ldap[key]? =
    shownLdap key (parsedSection (host.at cur') cur' sec).ldap[key]?

theorem requiredVars_parsedSection {s s' : Snapshot}
    (hblocks : ∀ cond ∈ sec.conditionals,
      checkConditional (host.at s) s cond.type cond.key =
        checkConditional (host.at s') s' cond.type cond.key) :
    (parsedSection (host.at s) s sec).requiredVars =
      (parsedSection (host.at s') s' sec).requiredVars := by
  refine List.foldl_ext _ _ _ ?_
  intro vars cond hcond
  have hsame := hblocks cond hcond
  change (if checkConditional (host.at s) s cond.type cond.key = cond.negated then vars else _) =
    if checkConditional (host.at s') s' cond.type cond.key = cond.negated then vars else _
  rw [hsame]

/-- Two values of a key that are the same, or secret and both there. -/
def ValueAlike (key v v' : String) : Prop :=
  v = v' ∨ isSecretKey key = true ∧ v ≠ "" ∧ v' ≠ ""

variable {key : String}

theorem displayValue_eq {v v' : String} (hvalue : ValueAlike key v v') :
    displayValue key v = displayValue key v' := by
  rcases hvalue with rfl | ⟨hsecret, hv, hv'⟩
  · rfl
  · have hshown : ∀ value : String, value ≠ "" → forLog key value = "[REDACTED]" := by
      intro value hne
      simp [forLog, hne, hsecret]
    unfold displayValue
    rw [hshown v hv, hshown v' hv']

theorem SecretlyAlike.value {value value' : Option String}
    (halike : SecretlyAlike key value value') :
    ValueAlike key (value.getD "") (value'.getD "") := by
  rcases halike with rfl | ⟨hsecret, v, v', rfl, rfl, hv, hv'⟩
  · exact Or.inl rfl
  · exact Or.inr ⟨hsecret, hv, hv'⟩

theorem SecretlyAlike.empty_iff {value value' : Option String}
    (halike : SecretlyAlike key value value') : value.getD "" = "" ↔ value'.getD "" = "" := by
  rcases halike with rfl | ⟨-, v, v', rfl, rfl, hv, hv'⟩
  · rfl
  · simp [hv, hv']

theorem getD_eq_iff {old new old' new' : Option String}
    (hold : SecretlyAlike key old old') (hnew : SecretlyAlike key new new')
    (hchange : old = new ↔ old' = new') :
    old.getD "" = new.getD "" ↔ old'.getD "" = new'.getD "" := by
  have hsome : ∀ {a b : Option String}, a.getD "" ≠ "" → (a.getD "" = b.getD "" ↔ a = b) := by
    intro a b hne
    cases a with
    | none => simp at hne
    | some v =>
      cases b with
      | none => simpa using hne
      | some w => simp
  by_cases hempty : old.getD "" = ""
  · rw [hempty, hold.empty_iff.mp hempty, eq_comm, hnew.empty_iff, eq_comm]
  · have hempty' : old'.getD "" ≠ "" := fun h => hempty (hold.empty_iff.mpr h)
    rw [hsome hempty, hsome hempty', hchange]

section Compared

variable {s s' : Snapshot} (hvariant : s.Variant s')
  (hblocks : ∀ (sn : String) sec, raw.sections[sn]? = some sec →
    sectionEnabled sn s.serviceEnabled = true → ∀ cond ∈ sec.conditionals,
      checkConditional (host.at s) s cond.type cond.key =
        checkConditional (host.at s') s' cond.type cond.key)

include hvariant hblocks in
theorem depends_eq (type : LookupType) (key : String) :
    (parseMtaConfig (host.at s) s raw).sections.toList.any (fun e => e.2.dependsOn type key) =
      (parseMtaConfig (host.at s') s' raw).sections.toList.any fun e => e.2.dependsOn type key := by
  have henabled := Snapshot.serviceEnabled_congr hvariant.services
  have hany : ∀ snap : Snapshot,
      (parseMtaConfig (host.at snap) snap raw).sections.toList.any
          (fun e => e.2.dependsOn type key) =
        raw.sections.toList.any fun e => sectionEnabled e.1 snap.serviceEnabled &&
          (parsedSection (host.at snap) snap e.2).dependsOn type key := by
    intro snap
    rw [parseMtaConfig, Std.ExtTreeMap.toList_filterMap, List.any_filterMap]
    congr 1
    funext e
    by_cases hon : sectionEnabled e.1 snap.serviceEnabled = true <;> simp [hon, parsedSection]
  rw [hany, hany, ← henabled]
  rw [Bool.eq_iff_iff, List.any_eq_true, List.any_eq_true]
  refine exists_congr ?_
  rintro ⟨sn, sec⟩
  refine and_congr_right fun hmem => ?_
  have hsec := Std.ExtTreeMap.mem_toList_iff_getElem?_eq_some.mp hmem
  cases hon : sectionEnabled sn s.serviceEnabled with
  | false => rfl
  | true =>
    have hvars := requiredVars_parsedSection (hblocks sn sec hsec hon)
    unfold MtaConfigSection.dependsOn
    rw [hvars]
    rfl

omit hvariant hblocks in
theorem comparedValue_eq (s : Snapshot) (type : LookupType) (key : String) :
    comparedValue raw host s type key =
      if (parseMtaConfig (host.at s) s raw).sections.toList.any
          (fun e => e.2.dependsOn type key) then
        observeOne (host.at s) s type key
      else "" := by
  unfold comparedValue Snapshot.observedValue Snapshot.observed plannedSnapshot observe
  simp only [Snapshot.withObserved]
  split <;> rfl

omit hblocks in
include hvariant in
theorem observeOne_eq (hvar : type ≠ .var) (hlocal : type ≠ .localconfig)
    (hfile : type ≠ .file) (key : String) :
    observeOne (host.at s) s type key = observeOne (host.at s') s' type key := by
  have hobserved : s.observedValue = s'.observedValue := by
    funext type key
    rw [Snapshot.observedValue, Snapshot.observed, hvariant.observed]
    rfl
  have hservice := Snapshot.serviceEnabled_congr hvariant.services
  cases type with
  | var => exact absurd rfl hvar
  | localconfig => exact absurd rfl hlocal
  | file => exact absurd rfl hfile
  | mapfile =>
    simp only [observeOne, if_true, mapfilePath]
    cases mappedFiles key with
    | none => rfl
    | some relPath => simp only [(hvariant.vars key).empty_iff, HostFiles.at]
  | maplocal =>
    have hlookup : lookUpConfig (host.at s) s .maplocal key =
        lookUpConfig (host.at s') s' .maplocal key := rfl
    simp only [observeOne, hlookup, hobserved, reduceCtorEq, if_false]
  | service =>
    have hlookup : lookUpConfig (host.at s) s .service key =
        lookUpConfig (host.at s') s' .service key := by
      simp only [lookUpConfig, Snapshot.value, hservice]
    simp only [observeOne, hlookup, hobserved, reduceCtorEq, if_false]
  | unknown name => simp only [observeOne, lookUpConfig, hobserved, reduceCtorEq, if_false]

omit hvariant hblocks in
theorem observeOne_var (fs : Files) (s : Snapshot) (key : String) :
    observeOne fs s .var key = (s.var key).getD "" := by
  cases hvar : s.var key <;> simp [observeOne, lookUpConfig, foundOr, hvar]

omit hvariant hblocks in
theorem observeOne_local (fs : Files) (s : Snapshot) (key : String) :
    observeOne fs s .localconfig key = (s.local key).getD "" := by
  cases hlocal : s.local key <;> simp [observeOne, lookUpConfig, foundOr, hlocal]

include hvariant hblocks in
/-- **What is compared of a lookup that is no file** is the same, or a secret. -/
theorem comparedValue_alike (hfile : type ≠ .file) (key : String) :
    ValueAlike key (comparedValue raw host s type key) (comparedValue raw host s' type key) := by
  rw [comparedValue_eq, comparedValue_eq, depends_eq hvariant hblocks]
  split
  · by_cases hvar : type = .var
    · rw [hvar, observeOne_var, observeOne_var]
      exact (hvariant.vars key).value
    · by_cases hlocal : type = .localconfig
      · rw [hlocal, observeOne_local, observeOne_local]
        exact (hvariant.locals key).value
      · exact Or.inl (observeOne_eq hvariant hvar hlocal hfile key)
  · exact Or.inl rfl

end Compared

theorem shownChange_compared (prev cur : Snapshot) (type : LookupType) (key : String) :
    shownChange (PlanHistory.input raw host {} prev cur) type key =
      if comparedValue raw host prev type key = comparedValue raw host cur type key then none
      else some ⟨type, key, displayValue key (comparedValue raw host prev type key),
        displayValue key (comparedValue raw host cur type key)⟩ :=
  rfl

theorem ValueAlike.empty_iff {v v' : String} (hvalue : ValueAlike key v v') :
    v = "" ↔ v' = "" := by
  rcases hvalue with rfl | ⟨-, hv, hv'⟩
  · rfl
  · simp [hv, hv']

section Runs

variable (hsecret : SecretVariants prev cur prev' cur')
  (hblocks : BlocksAlike raw host prev cur prev' cur')

include hsecret hblocks

theorem comparedValue_changed_iff (hfile : type ≠ .file) (key : String) :
    comparedValue raw host prev type key = comparedValue raw host cur type key ↔
      comparedValue raw host prev' type key = comparedValue raw host cur' type key := by
  have hold := comparedValue_alike hsecret.before hblocks.before hfile key
  have hnew := comparedValue_alike hsecret.after hblocks.after hfile key
  by_cases hempty : comparedValue raw host prev type key = "" ∨
      comparedValue raw host cur type key = ""
  · -- An empty value is empty in both runs.
    rcases hempty with hempty | hempty
    · rw [hempty, hold.empty_iff.mp hempty, eq_comm, hnew.empty_iff, eq_comm]
    · rw [hempty, hnew.empty_iff.mp hempty, hold.empty_iff]
  · -- Otherwise the lookup is observed before and after.
    obtain ⟨hp, hc⟩ := not_or.mp hempty
    have hseen : ∀ s : Snapshot, comparedValue raw host s type key ≠ "" →
        comparedValue raw host s type key = observeOne (host.at s) s type key := by
      intro s hne
      rw [comparedValue_eq] at hne ⊢
      split at hne
      · rename_i hdep
        rw [if_pos hdep]
      · exact absurd rfl hne
    rw [hseen prev hp, hseen cur hc, hseen prev' (fun h => hp (hold.empty_iff.mpr h)),
      hseen cur' (fun h => hc (hnew.empty_iff.mpr h))]
    by_cases hvar : type = .var
    · simp only [hvar, observeOne_var]
      exact getD_eq_iff (hsecret.before.vars key) (hsecret.after.vars key) (hsecret.vars key)
    · by_cases hlocal : type = .localconfig
      · simp only [hlocal, observeOne_local]
        exact getD_eq_iff (hsecret.before.locals key) (hsecret.after.locals key)
          (hsecret.locals key)
      · rw [observeOne_eq hsecret.before hvar hlocal hfile key,
          observeOne_eq hsecret.after hvar hlocal hfile key]

/-- **What a plan shows of a lookup that is no file** does not depend on the secrets. -/
theorem shownChange_alike (hfile : type ≠ .file) (key : String) :
    shownChange (PlanHistory.input raw host {} prev cur) type key =
      shownChange (PlanHistory.input raw host {} prev' cur') type key := by
  have hold := comparedValue_alike hsecret.before hblocks.before hfile key
  have hnew := comparedValue_alike hsecret.after hblocks.after hfile key
  have hsame := comparedValue_changed_iff hsecret hblocks hfile key
  rw [shownChange_compared, shownChange_compared, if_congr hsame rfl rfl, displayValue_eq hold,
    displayValue_eq hnew]

end Runs

theorem shownChange_file_eq_iff (path : String) :
    shownChange (PlanHistory.input raw host {} prev cur) .file path =
        shownChange (PlanHistory.input raw host {} prev' cur') .file path ↔
      FileAlike raw host prev cur prev' cur' path := by
  rw [shownChange_compared, shownChange_compared]
  unfold FileAlike
  by_cases hsame : comparedValue raw host prev .file path =
      comparedValue raw host cur .file path <;>
    by_cases hsame' : comparedValue raw host prev' .file path =
      comparedValue raw host cur' .file path <;>
    simp [hsame, hsame']

section Sections

variable (hsecret : SecretVariants prev cur prev' cur')
  (hblocks : BlocksAlike raw host prev cur prev' cur') {sn : String} {sec : MtaConfigSection}
  (hsec : raw.sections[sn]? = some sec) (hon : sectionEnabled sn cur.serviceEnabled = true)

include hblocks hsec hon

theorem activeValue_alike (block : Conditional → StrMap String) (own : StrMap String)
    (key : String) :
    activeValue (plannedSnapshot (host.at cur) (host.at cur) cur raw) sec.conditionals block own
        key =
      activeValue (plannedSnapshot (host.at cur') (host.at cur') cur' raw) sec.conditionals block
        own key := by
  refine List.foldl_ext _ _ _ ?_
  intro value cond hcond
  rw [hblocks.planned sn sec hsec hon cond hcond]

theorem shownChanges_alike_iff (hsecret : SecretVariants prev cur prev' cur') :
    shownChanges (PlanHistory.input raw host {} prev cur) (parsedSection (host.at cur) cur sec) =
        shownChanges (PlanHistory.input raw host {} prev' cur')
          (parsedSection (host.at cur') cur' sec) ↔
      FilesAlike raw host prev cur prev' cur' sec := by
  have hvars := requiredVars_parsedSection (hblocks.after sn sec hsec hon)
  constructor
  · intro hsame path hreq
    have hreq' : (parsedSection (host.at cur') cur' sec).Requires .file path := by
      unfold MtaConfigSection.Requires at hreq ⊢
      rwa [← hvars]
    exact (shownChange_file_eq_iff path).mp (Option.ext fun c =>
      ⟨shownChange_of_shownChanges hsame hreq, shownChange_of_shownChanges hsame.symm hreq'⟩)
  · intro hfiles
    unfold shownChanges
    rw [← hvars]
    refine List.filterMap_congr ?_
    rintro ⟨name, type⟩ hmem
    by_cases hfile : type = .file
    · subst hfile
      have hname := Std.ExtTreeMap.mem_toList_iff_getElem?_eq_some.mp hmem
      exact (shownChange_file_eq_iff _).mpr (hfiles _ ⟨name, hname, rfl⟩)
    · exact shownChange_alike hsecret hblocks hfile _

/-- **Where secrets come through a section**, if its blocks hold alike. -/
theorem sectionShown_iff (hsecret : SecretVariants prev cur prev' cur') :
    SectionShown raw host prev cur prev' cur' sec ↔
      FilesAlike raw host prev cur prev' cur' sec ∧ LdapAlike host cur cur' sec := by
  have hvars := requiredVars_parsedSection (hblocks.after sn sec hsec hon)
  have hchanges := shownChanges_alike_iff hblocks hsec hon hsecret
  constructor
  · intro hshown
    exact ⟨hchanges.mp hshown.changes, hshown.ldap⟩
  · rintro ⟨hfiles, hldap⟩
    refine ⟨rfl, rfl, rfl, hchanges.mpr hfiles, ?_, ?_, hldap, ?_⟩
    · intro key
      exact congrArg (shownDirective key) (activeValue_alike hblocks hsec hon _ _ key)
    · intro key
      exact congrArg (shownDirective key) (activeValue_alike hblocks hsec hon _ _ key)
    · intro mk
      unfold MtaConfigSection.mapsTo
      rw [hvars]

end Sections

/-! ## The plans -/

def passwordConf (required : List (String × LookupType)) (ldap : List (String × String)) :
    MtaConfig where
  sections := Std.ExtTreeMap.ofList [("mta", {
    requiredVars := Std.ExtTreeMap.ofList (("ldap_root_password", .localconfig) :: required) compare
    postconf := Std.ExtTreeMap.ofList [("relayhost", "FILE:conf/relay.cf")] compare
    ldap := Std.ExtTreeMap.ofList ldap compare })] compare

def fragmentHost : HostFiles where
  baseDir := "/opt/zextras"
  stat := fun _ => .absent
  render := fun snap _ => .ok ((snap.local "ldap_root_password").getD "")

def passwordSnapshot (password : String) : Snapshot where
  localMap := Std.ExtTreeMap.ofList [("ldap_root_password", password)] compare
  services := Std.ExtTreeMap.ofList [("mta", "zimbraServiceEnabled")] compare

theorem local_passwordSnapshot (password key : String) :
    (passwordSnapshot password).local key =
      if key = "ldap_root_password" then some password else none := by
  unfold Snapshot.local passwordSnapshot
  simp only [Std.ExtTreeMap.ofList_singleton, OrdMap.getElem?_insert_iff,
    Std.ExtTreeMap.getElem?_empty, eq_comm (b := key)]

theorem variant_passwordSnapshot {password password' : String} (hne : password ≠ "")
    (hne' : password' ≠ "") : (passwordSnapshot password).Variant (passwordSnapshot password') := by
  refine ⟨rfl, rfl, ?_, fun key => Or.inl rfl⟩
  intro key
  rw [local_passwordSnapshot, local_passwordSnapshot]
  by_cases hkey : key = "ldap_root_password"
  · subst hkey
    exact Or.inr ⟨by decide +kernel, password, password', by simp, by simp, hne, hne'⟩
  · exact Or.inl (by simp [hkey])

theorem secretVariants_password :
    SecretVariants (passwordSnapshot "alpha") (passwordSnapshot "beta")
      (passwordSnapshot "gamma") (passwordSnapshot "delta") := by
  refine ⟨variant_passwordSnapshot (by decide) (by decide),
    variant_passwordSnapshot (by decide) (by decide), ?_, fun key => Iff.rfl⟩
  intro key
  simp only [local_passwordSnapshot]
  by_cases hkey : key = "ldap_root_password" <;> simp [hkey]

/-- **Plans that do not tell secrets apart.**  For every two pairs of snapshots that differ in the
values of secret keys only, the plans are shown alike, whatever the history, if and only if every
enabled section is.  If no block holds in one run only, that is: the `FILE` fragments it requires
and the LDAP attributes it writes do not show the secrets. -/
theorem plans_shown_alike_iff (raw : MtaConfig) (host : HostFiles)
    (prev cur prev' cur' : Snapshot) (hraw : raw.Canonical)
    (hsecret : SecretVariants prev cur prev' cur') :
    ((∀ h, shownPlan raw host h prev cur = shownPlan raw host h prev' cur') ↔
      ∀ (sn : String) sec, raw.sections[sn]? = some sec →
        sectionEnabled sn cur.serviceEnabled = true →
          SectionShown raw host prev cur prev' cur' sec) ∧
    (BlocksAlike raw host prev cur prev' cur' →
      ((∀ h, shownPlan raw host h prev cur = shownPlan raw host h prev' cur') ↔
        ∀ (sn : String) sec, raw.sections[sn]? = some sec →
          sectionEnabled sn cur.serviceEnabled = true →
            FilesAlike raw host prev cur prev' cur' sec ∧ LdapAlike host cur cur' sec) ∧
      ∀ (sn : String) sec, raw.sections[sn]? = some sec →
        sectionEnabled sn cur.serviceEnabled = true →
          (SectionShown raw host prev cur prev' cur' sec ↔
            FilesAlike raw host prev cur prev' cur' sec ∧ LdapAlike host cur cur' sec)) := by
  have hshown : (∀ h, shownPlan raw host h prev cur = shownPlan raw host h prev' cur') ↔
      ∀ (sn : String) sec, raw.sections[sn]? = some sec →
        sectionEnabled sn cur.serviceEnabled = true →
          SectionShown raw host prev cur prev' cur' sec :=
    ⟨fun hall sn sec hsec hon =>
      sectionShown_of_shownPlan hraw hsecret.after.services hall hsec hon,
    fun hshown h => shownPlan_of_alike hsecret.after.services hshown h⟩
  refine ⟨hshown, fun hblocks => ?_⟩
  refine ⟨hshown.trans ?_, fun sn sec hsec hon => sectionShown_iff hblocks hsec hon hsecret⟩
  exact forall₄_congr fun sn sec hsec hon => sectionShown_iff hblocks hsec hon hsecret

end Alike

/-- A section that only looks the password up shows the same change in both runs. -/
theorem plans_shown_alike_password :
    SecretVariants (passwordSnapshot "alpha") (passwordSnapshot "beta")
        (passwordSnapshot "gamma") (passwordSnapshot "delta") ∧
      (∀ h, shownPlan (passwordConf [] []) fragmentHost h
          (passwordSnapshot "alpha") (passwordSnapshot "beta") =
        shownPlan (passwordConf [] []) fragmentHost h
          (passwordSnapshot "gamma") (passwordSnapshot "delta")) := by
  have hsections : ∀ (sn : String) sec, (passwordConf [] []).sections[sn]? = some sec →
      sec = { requiredVars := Std.ExtTreeMap.ofList [("ldap_root_password", .localconfig)] compare,
              postconf := Std.ExtTreeMap.ofList [("relayhost", "FILE:conf/relay.cf")] compare,
              ldap := Std.ExtTreeMap.ofList [] compare } := by
    intro sn sec hsec
    rw [passwordConf, Std.ExtTreeMap.ofList_singleton, OrdMap.getElem?_insert_iff] at hsec
    split at hsec
    · exact (Option.some.inj hsec).symm
    · simp at hsec
  have hcanonical : (passwordConf [] []).Canonical := by
    intro sn sec hsec
    rw [hsections sn sec hsec]
    refine ⟨?_, by simp⟩
    intro name type htype
    simp only [Std.ExtTreeMap.ofList_singleton, OrdMap.getElem?_insert_iff] at htype
    split at htype
    · rw [← Option.some.inj htype]
      rfl
    · simp at htype
  have hresult := plans_shown_alike_iff (passwordConf [] []) fragmentHost _ _ _ _ hcanonical
    secretVariants_password
  refine ⟨secretVariants_password, (hresult.2 ?_).1.mpr fun sn sec hsec hon => ⟨?_, ?_⟩⟩
  · refine ⟨?_, ?_, ?_⟩ <;>
    · intro sn sec hsec
      rw [hsections sn sec hsec]
      simp
  · rintro path ⟨name, hname, -⟩
    rw [hsections sn sec hsec] at hname
    simp only [parsedSection, registerConditionalRequiredVars, resolveSectionLDAP, List.foldl_nil,
      Std.ExtTreeMap.ofList_singleton, OrdMap.getElem?_insert_iff] at hname
    split at hname <;> simp at hname
  · intro key
    rw [hsections sn sec hsec]
    simp [parsedSection, registerConditionalRequiredVars, resolveSectionLDAP]

/-- The password is written to an LDAP attribute whose name tells nothing, or it is part
of a fragment: the plans show it. -/
theorem plans_show_password :
    SecretVariants (passwordSnapshot "alpha") (passwordSnapshot "beta")
        (passwordSnapshot "gamma") (passwordSnapshot "delta") ∧
      (shownPlan (passwordConf [] [("ldap_common_rootpw", "LOCAL:ldap_root_password")])
          fragmentHost {} (passwordSnapshot "alpha") (passwordSnapshot "beta")).map Prod.snd ≠
        (shownPlan (passwordConf [] [("ldap_common_rootpw", "LOCAL:ldap_root_password")])
          fragmentHost {} (passwordSnapshot "gamma") (passwordSnapshot "delta")).map Prod.snd ∧
      (shownPlan (passwordConf [("conf/relay.cf", .file)] []) fragmentHost {}
          (passwordSnapshot "alpha") (passwordSnapshot "beta")).map Prod.snd ≠
        (shownPlan (passwordConf [("conf/relay.cf", .file)] []) fragmentHost {}
          (passwordSnapshot "gamma") (passwordSnapshot "delta")).map Prod.snd :=
  ⟨secretVariants_password, by decide +kernel, by decide +kernel⟩

end Configd
