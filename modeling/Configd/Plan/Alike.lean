import Configd.Plan.ComputeSpec
import Configd.Plan.Render

/-!
# Computations that show the same plan

A plan is shown with the values of secret keys hidden.  Two computations of a plan whose
sections contribute the same, as far as it is shown, therefore give plans that are shown
alike (`redacted_eq_of_alike`), whatever was requested, carried or deferred.

What a section contributes is read off the maps of the builder first: the directive it
leaves for a key depends on the value that is active there (`activeValue`), and the
mapped file on whether one of its required lookups is about it (`mapsTo`).
-/

namespace Configd

open Lib

/-! ## What a section contributes -/

/-- The value a section has for a parameter: that of the last block that holds and sets
it, else its own. -/
def activeValue (cur : Snapshot) (conditionals : List Conditional)
    (block : Conditional → StrMap String) (own : StrMap String) (key : String) : Option String :=
  conditionals.foldl (fun value cond =>
    if conditionHolds cur cond then (block cond)[key]?.or value else value) own[key]?

/-- What is shown of the value of a directive. -/
def shownDirective (key : String) (value : Option String) : Option String :=
  value.map fun v => forLog key (Strings.replaceChar v '\n' ' ')

/-- What is shown of the value of an LDAP attribute; an empty one is not written. -/
def shownLdap (key : String) (value : Option String) : Option String :=
  value.bind fun v => if v = "" then none else some (forLog key v)

/-- A required lookup of the section is about the mapped file. -/
def MtaConfigSection.mapsTo (sec : MtaConfigSection) (mk : MapfileKey) : Bool :=
  sec.requiredVars.toList.any fun entry =>
    (entry.2 = .mapfile || entry.2 = .maplocal) &&
      decide (mk = ⟨lookupKey entry.1, entry.2 = .maplocal⟩)

/-- A changed lookup, as far as it is shown. -/
@[ext] structure ShownChange where
  type : LookupType
  key : String
  old : String
  new : String

def shownChange (input : Input) (type : LookupType) (key : String) : Option ShownChange :=
  if input.prev.observedValue type key = input.cur.observedValue type key then none
  else some ⟨type, key, displayValue key (input.prev.observedValue type key),
    displayValue key (input.cur.observedValue type key)⟩

/-- The required lookups of a section that changed, in the order of their names. -/
def shownChanges (input : Input) (sec : MtaConfigSection) : List ShownChange :=
  sec.requiredVars.toList.filterMap fun entry => shownChange input entry.2 (lookupKey entry.1)

/-- Two sections contribute the same to the plans of two inputs, as far as it is shown. -/
structure SectionAlike (input input' : Input) (sec sec' : MtaConfigSection) : Prop where
  rewrites : sec.rewrites = sec'.rewrites
  restarts : sec.restarts = sec'.restarts
  proxygen : sec.proxygen = sec'.proxygen
  changes : shownChanges input sec = shownChanges input' sec'
  postconf : ∀ key,
    shownDirective key
      (activeValue input.cur sec.conditionals Conditional.postconf sec.postconf key) =
      shownDirective key
        (activeValue input'.cur sec'.conditionals Conditional.postconf sec'.postconf key)
  postconfd : ∀ key,
    shownDirective key
        (activeValue input.cur sec.conditionals Conditional.postconfd sec.postconfd key) =
      shownDirective key
        (activeValue input'.cur sec'.conditionals Conditional.postconfd sec'.postconfd key)
  ldap : ∀ key, shownLdap key sec.ldap[key]? = shownLdap key sec'.ldap[key]?
  mapped : ∀ mk, sec.mapsTo mk = sec'.mapsTo mk

section Changes

variable {input input' : Input} {sec sec' : MtaConfigSection} {type : LookupType} {key : String}
  {c : ShownChange}

theorem diffSection_eq_map (input : Input) (sn : String) (sec : MtaConfigSection) :
    diffSection input sn sec = (shownChanges input sec).map fun c =>
      { kind := .varChanged, sectionName := sn, type := some c.type, key := c.key, old := c.old,
        new := c.new } := by
  rw [diffSection, shownChanges, List.map_filterMap]
  congr 1
  funext entry
  rw [diffLookup_eq, shownChange]
  split <;> rfl

theorem of_shownChange (h : shownChange input type key = some c) : type = c.type ∧ key = c.key := by
  unfold shownChange at h
  split at h
  · cases h
  · cases h
    exact ⟨rfl, rfl⟩

theorem mem_shownChanges_iff :
    c ∈ shownChanges input sec ↔
      sec.Requires c.type c.key ∧ shownChange input c.type c.key = some c := by
  rw [shownChanges, List.mem_filterMap]
  constructor
  · rintro ⟨⟨name, type⟩, hmem, hc⟩
    obtain ⟨rfl, hkey⟩ := of_shownChange hc
    have hname := Std.ExtTreeMap.mem_toList_iff_getElem?_eq_some.mp hmem
    exact ⟨⟨name, hname, hkey⟩, hkey ▸ hc⟩
  · rintro ⟨⟨name, hname, hkey⟩, hc⟩
    refine ⟨(name, c.type), Std.ExtTreeMap.mem_toList_iff_getElem?_eq_some.mpr hname, ?_⟩
    rwa [hkey]

theorem shownChange_of_shownChanges (hsame : shownChanges input sec = shownChanges input' sec')
    (hreq : sec.Requires type key) (hc : shownChange input type key = some c) :
    shownChange input' type key = some c := by
  obtain ⟨rfl, rfl⟩ := of_shownChange hc
  exact (mem_shownChanges_iff.mp (hsame ▸ mem_shownChanges_iff.mpr ⟨hreq, hc⟩)).2

end Changes

/-! ## The maps of the builder -/

theorem mem_appendReasons (reasons add : List Reason) (r : Reason) :
    r ∈ appendReasons reasons add ↔ r ∈ reasons ∨ r ∈ add := by
  unfold appendReasons
  induction add generalizing reasons with
  | nil => simp
  | cons first rest ih =>
    rw [List.foldl_cons, ih, mem_appendReason, List.mem_cons, or_assoc]

theorem appendReasons_of_subset {reasons add : List Reason} (hsub : ∀ r ∈ add, r ∈ reasons) :
    appendReasons reasons add = reasons := by
  unfold appendReasons
  induction add with
  | nil => rfl
  | cons first rest ih =>
    have hfirst : appendReason reasons first = reasons := by
      rw [appendReason, if_pos (hsub first (by simp))]
    rw [List.foldl_cons, hfirst]
    exact ih fun r hr => hsub r (List.mem_cons_of_mem first hr)

theorem appendReasons_idem (reasons add : List Reason) :
    appendReasons (appendReasons reasons add) add = appendReasons reasons add :=
  appendReasons_of_subset fun r hr => (mem_appendReasons reasons add r).mpr (Or.inr hr)

theorem appendUnique_idem (list : List String) (s : String) :
    appendUnique (appendUnique list s) s = appendUnique list s := by
  have hmem : s ∈ appendUnique list s := by
    unfold appendUnique
    split
    · assumption
    · simp
  rw [appendUnique, if_pos hmem]

/-- What `setDirective` makes of a directive. -/
def Directive.setTo (d : Directive) (value sn : String) (reasons : List Reason) : Directive :=
  { d with
    value := value
    sections := appendUnique d.sections sn
    reasons := appendReasons d.reasons reasons }

@[simp] theorem Directive.setTo_setTo (d : Directive) (value value' sn : String)
    (reasons : List Reason) :
    (d.setTo value sn reasons).setTo value' sn reasons = d.setTo value' sn reasons := by
  simp [setTo, appendUnique_idem, appendReasons_idem]

/-- The entry of a key after a section has set it to this value, or left it. -/
def leaves (key sn : String) (reasons : List Reason) (value : Option String)
    (old : Option Directive) : Option Directive :=
  match value with
  | some v => some ((old.getD { key }).setTo v sn reasons)
  | none => old

theorem leaves_leaves (key sn : String) (reasons : List Reason) (value value' : Option String)
    (old : Option Directive) :
    leaves key sn reasons value' (leaves key sn reasons value old) =
      leaves key sn reasons (value'.or value) old := by
  cases value <;> cases value' <;> simp [leaves]

theorem getElem?_foldl_setDirective (value : String → String) (sn : String)
    (reasons : List Reason) (source : StrMap String) (map : StrMap Directive) (key : String) :
    (source.toList.foldl
        (fun map entry => setDirective entry.1 (value entry.2) sn reasons map) map)[key]? =
      leaves key sn reasons (source[key]?.map value) map[key]? := by
  have hloop := OrdMap.getElem?_foldl_toList
    (fun (map : StrMap Directive) (entry : String × String) =>
      setDirective entry.1 (value entry.2) sn reasons map)
    (fun key old v => leaves key sn reasons (some (value v)) old)
    (by
      intro map item
      exact OrdMap.getElem?_upsert_self _ _ _ _)
    (by
      intro map item key hne
      exact OrdMap.getElem?_upsert_of_ne _ _ _ hne) source map key
  rw [hloop]
  cases source[key]? <;> rfl

theorem getElem?_foldl_blocks (cur : Snapshot) (sn : String) (reasons : List Reason)
    (block : Conditional → StrMap String) (conditionals : List Conditional) (key : String)
    (value : Option String) (old : Option Directive) (map : StrMap Directive)
    (hmap : map[key]? =
      leaves key sn reasons (value.map (Strings.replaceChar · '\n' ' ')) old) :
    (conditionals.foldl (fun map cond =>
        if conditionHolds cur cond then
          (block cond).toList.foldl
            (fun map entry =>
              setDirective entry.1 (Strings.replaceChar entry.2 '\n' ' ') sn reasons map)
            map
        else map) map)[key]? =
      leaves key sn reasons ((conditionals.foldl (fun value cond =>
        if conditionHolds cur cond then (block cond)[key]?.or value else value) value).map
          (Strings.replaceChar · '\n' ' ')) old := by
  induction conditionals generalizing map value with
  | nil => exact hmap
  | cons cond rest ih =>
    rw [List.foldl_cons, List.foldl_cons]
    apply ih
    split
    · refine (getElem?_foldl_setDirective (Strings.replaceChar · '\n' ' ') sn reasons
        (block cond) map key).trans ?_
      rw [hmap, leaves_leaves]
      cases (block cond)[key]? <;> rfl
    · exact hmap

/-- **The `POSTCONF` directives of a section**, key by key. -/
theorem getElem?_compilePostconf (cur : Snapshot) (sn : String) (sec : MtaConfigSection)
    (reasons : List Reason) (map : StrMap Directive) (key : String) :
    (compilePostconf cur sn sec reasons map)[key]? =
      leaves key sn reasons
        ((activeValue cur sec.conditionals Conditional.postconf sec.postconf key).map
          (Strings.replaceChar · '\n' ' ')) map[key]? :=
  getElem?_foldl_blocks cur sn reasons Conditional.postconf sec.conditionals key _ _ _
    (getElem?_foldl_setDirective (Strings.replaceChar · '\n' ' ') sn reasons sec.postconf map key)

theorem getElem?_compilePostconfd (cur : Snapshot) (sn : String) (sec : MtaConfigSection)
    (reasons : List Reason) (map : StrMap Directive) (key : String) :
    (compilePostconfd cur sn sec reasons map)[key]? =
      leaves key sn reasons
        ((activeValue cur sec.conditionals Conditional.postconfd sec.postconfd key).map
          (Strings.replaceChar · '\n' ' ')) map[key]? :=
  getElem?_foldl_blocks cur sn reasons Conditional.postconfd sec.conditionals key _ _ _
    (getElem?_foldl_setDirective (Strings.replaceChar · '\n' ' ') sn reasons sec.postconfd map key)

theorem getElem?_compileLdap (sn : String) (sec : MtaConfigSection) (reasons : List Reason)
    (map : StrMap Directive) (key : String) :
    (compileLdap sn sec reasons map)[key]? =
      leaves key sn reasons (sec.ldap[key]?.bind fun v => if v = "" then none else some v)
        map[key]? := by
  have hloop := OrdMap.getElem?_foldl_toList
    (fun (map : StrMap Directive) (entry : String × String) =>
      if entry.2 = "" then map else setDirective entry.1 entry.2 sn reasons map)
    (fun key old v => leaves key sn reasons (if v = "" then none else some v) old)
    (by
      intro map item
      by_cases hempty : item.2 = ""
      · simp [hempty, leaves]
      · simp only [hempty, if_false]
        exact OrdMap.getElem?_upsert_self _ _ _ _)
    (by
      intro map item key hne
      by_cases hempty : item.2 = ""
      · simp [hempty]
      · simp only [hempty, if_false]
        exact OrdMap.getElem?_upsert_of_ne _ _ _ hne) sec.ldap map key
  unfold compileLdap
  rw [hloop]
  cases sec.ldap[key]? <;> rfl

/-- The mapped file with a section and its reasons added. -/
def Mapfile.mark (m : Mapfile) (sn : String) (reasons : List Reason) : Mapfile :=
  { m with
    sections := appendUnique m.sections sn
    reasons := appendReasons m.reasons reasons }

@[simp] theorem Mapfile.mark_mark (m : Mapfile) (sn : String) (reasons : List Reason) :
    (m.mark sn reasons).mark sn reasons = m.mark sn reasons := by
  simp [mark, appendUnique_idem, appendReasons_idem]

/-- **The mapped files of a section.** -/
theorem getElem?_mapfileOps (sn : String) (sec : MtaConfigSection) (reasons : List Reason)
    (mapfiles : OrdMap MapfileKey Mapfile) (mk : MapfileKey) :
    (mapfileOps sn sec reasons mapfiles)[mk]? =
      if sec.mapsTo mk then
        some ((mapfiles[mk]?.getD { key := mk.key, isLocal := mk.isLocal }).mark sn reasons)
      else mapfiles[mk]? := by
  refine foldl_of_idempotent (fun map : OrdMap MapfileKey Mapfile => map[mk]?) _
    (fun entry : String × LookupType => (entry.2 = .mapfile || entry.2 = .maplocal) &&
      decide (mk = ⟨lookupKey entry.1, entry.2 = .maplocal⟩))
    (fun old => some ((old.getD { key := mk.key, isLocal := mk.isLocal }).mark sn reasons))
    (by simp) ?_ _ _
  intro map entry
  by_cases htype : (entry.2 = .mapfile || entry.2 = .maplocal) = true
  · simp only [htype, if_true, Bool.true_and]
    by_cases hkey : mk = ⟨lookupKey entry.1, entry.2 = .maplocal⟩
    · subst hkey
      simp [Mapfile.mark]
    · rw [OrdMap.getElem?_upsert_of_ne _ _ _ (Ne.symm hkey)]
      simp [hkey]
  · simp [htype]

/-- The reason of the per-cycle sync. -/
def syncReason (sn key : String) : Reason :=
  { kind := .mapfileSync, sectionName := sn, key := key }

theorem getElem?_healMapfiles (sn : String) (sec : MtaConfigSection) (compared : Bool)
    (heal : StrMap Mapfile) (key : String) :
    (healMapfiles sn sec compared heal)[key]? =
      if compared && sec.mapsTo ⟨key, false⟩ then
        some ((heal[key]?.getD { key }).mark sn [syncReason sn key])
      else heal[key]? := by
  cases compared with
  | false => simp [healMapfiles]
  | true =>
    have hmaps : sec.mapsTo ⟨key, false⟩ = sec.requiredVars.toList.any
        fun entry => entry.2 = .mapfile && decide (lookupKey entry.1 = key) := by
      unfold MtaConfigSection.mapsTo
      congr 1
      funext entry
      cases entry.2 <;> simp [eq_comm]
    rw [Bool.true_and, hmaps]
    unfold healMapfiles
    rw [if_pos rfl]
    refine foldl_of_idempotent (fun map : StrMap Mapfile => map[key]?) _
      (fun entry : String × LookupType => entry.2 = .mapfile && decide (lookupKey entry.1 = key))
      (fun old => some ((old.getD { key }).mark sn [syncReason sn key])) (by simp) ?_ _ _
    intro map entry
    by_cases htype : entry.2 = .mapfile
    · simp only [htype, if_true, decide_true, Bool.true_and]
      by_cases hkey : lookupKey entry.1 = key
      · subst hkey
        simp [Mapfile.mark, syncReason, appendReasons]
      · rw [OrdMap.getElem?_upsert_of_ne _ _ _ hkey]
        simp [hkey]
    · simp [htype]

/-! ## Two computations side by side -/

/-- What is shown of an entry of a map of directives. -/
def shownEntry (key : String) (entry : Option Directive) : Option Directive :=
  entry.map fun d => { d with value := forLog key d.value }

/-- Two maps of directives are shown alike. -/
def ShownAlike (map map' : StrMap Directive) : Prop :=
  ∀ key : String, shownEntry key map[key]? = shownEntry key map'[key]?

theorem shownEntry_leaves {key sn : String} {reasons : List Reason}
    {value value' : Option String} {old old' : Option Directive}
    (hvalue : value.map (forLog key) = value'.map (forLog key))
    (hold : shownEntry key old = shownEntry key old') :
    shownEntry key (leaves key sn reasons value old) =
      shownEntry key (leaves key sn reasons value' old') := by
  -- Of the old entry only what is shown is kept, and its value is replaced.
  have hset : ∀ v : String, shownEntry key (leaves key sn reasons (some v) old) =
      some (((shownEntry key old).getD { key }).setTo (forLog key v) sn reasons) := by
    intro v
    cases old <;> rfl
  have hset' : ∀ v : String, shownEntry key (leaves key sn reasons (some v) old') =
      some (((shownEntry key old').getD { key }).setTo (forLog key v) sn reasons) := by
    intro v
    cases old' <;> rfl
  cases value with
  | none =>
    cases value' with
    | none => exact hold
    | some v' => simp at hvalue
  | some v =>
    cases value' with
    | none => simp at hvalue
    | some v' =>
      simp only [Option.map_some, Option.some.injEq] at hvalue
      rw [hset, hset', hvalue, hold]

/-- Two inputs that differ in the values of their snapshots only, and in what is not shown of
their sections. -/
structure InputsAlike (input input' : Input) : Prop where
  services : input.cur.services = input'.cur.services
  forced : input.forced = input'.forced
  requested : input.requested = input'.requested
  firstRun : input.firstRun = input'.firstRun
  tracked : input.tracked = input'.tracked
  carry : input.carry = input'.carry
  scope : input.scope = input'.scope
  assumeChanged : input.assumeChanged = input'.assumeChanged
  systemd : input.systemd = input'.systemd
  host : input.host = none
  host' : input'.host = none
  sections : List.Forall₂
    (fun entry entry' => entry.1 = entry'.1 ∧ SectionAlike input input' entry.2 entry'.2)
    input.conf.sections.toList input'.conf.sections.toList

/-- Two builders that are shown alike. -/
structure Builder.Alike (b b' : Builder) : Prop where
  sections : b.sections = b'.sections
  mapfiles : b.mapfiles = b'.mapfiles
  heal : b.heal = b'.heal
  rewrites : b.rewrites = b'.rewrites
  postconf : ShownAlike b.postconf b'.postconf
  postconfd : ShownAlike b.postconfd b'.postconfd
  ldap : ShownAlike b.ldap b'.ldap
  proxygen : b.proxygen = b'.proxygen
  restarts : b.restarts = b'.restarts
  deferred : b.deferred = b'.deferred
  tracked : b.tracked = b'.tracked

namespace InputsAlike

variable {input input' : Input} (hinput : InputsAlike input input')

include hinput

theorem serviceEnabled : input.cur.serviceEnabled = input'.cur.serviceEnabled :=
  Snapshot.serviceEnabled_congr hinput.services

theorem isConsidered (sn : String) :
    Configd.isConsidered input sn = Configd.isConsidered input' sn := by
  unfold Configd.isConsidered inScope
  rw [hinput.scope, hinput.serviceEnabled]

theorem isCompared (sn : String) :
    Configd.isCompared input sn = Configd.isCompared input' sn := by
  unfold Configd.isCompared
  rw [hinput.forced]

variable {sn : String} {sec sec' : MtaConfigSection} (hsec : SectionAlike input input' sec sec')

include hsec

theorem changesOf : Configd.changesOf input sn sec = Configd.changesOf input' sn sec' := by
  unfold Configd.changesOf
  rw [hinput.isCompared, diffSection_eq_map, diffSection_eq_map, hsec.changes]

theorem reasonsOf : Configd.reasonsOf input sn sec = Configd.reasonsOf input' sn sec' := by
  unfold Configd.reasonsOf sectionReasons
  rw [hinput.changesOf hsec, hinput.forced, hinput.requested, hinput.firstRun,
    hinput.assumeChanged]

theorem isProcessed : Configd.isProcessed input sn sec = Configd.isProcessed input' sn sec' := by
  unfold Configd.isProcessed
  rw [hinput.isConsidered, hinput.reasonsOf hsec]

theorem compileSectionRestarts (reasons : List Reason) (dst : StrMap Restart) :
    Configd.compileSectionRestarts input.cur sn sec reasons dst =
      Configd.compileSectionRestarts input'.cur sn sec' reasons dst := by
  have haction : sectionAction input.cur = sectionAction input'.cur := by
    funext name
    unfold sectionAction
    rw [hinput.serviceEnabled]
  unfold Configd.compileSectionRestarts
  rw [hsec.restarts, haction]

/-- **One section.** -/
theorem processSection {b b' : Builder} (hb : b.Alike b') :
    (Configd.processSection input b sn sec).Alike (Configd.processSection input' b' sn sec') := by
  have hheal : healMapfiles sn sec (Configd.isCompared input sn) b.heal =
      healMapfiles sn sec' (Configd.isCompared input' sn) b'.heal := by
    apply Std.ExtTreeMap.ext_getElem?
    intro key
    rw [getElem?_healMapfiles, getElem?_healMapfiles, hb.heal, hinput.isCompared, hsec.mapped]
  cases hproc : Configd.isProcessed input sn sec with
  | false =>
    have hproc' := (hinput.isProcessed hsec).symm.trans hproc
    rw [processSection_of_not_processed b hproc, processSection_of_not_processed b' hproc',
      hinput.isConsidered]
    split
    · exact { hb with heal := hheal }
    · exact hb
  | true =>
    have hproc' := (hinput.isProcessed hsec).symm.trans hproc
    rw [processSection_of_processed b hproc, processSection_of_processed b' hproc']
    have hreasons : Configd.reasonsOf input sn sec = _ := hinput.reasonsOf hsec
    have hasked : isAsked input sn = isAsked input' sn := by
      unfold isAsked
      rw [hinput.forced, hinput.requested]
    refine ⟨?_, ?_, hheal, ?_, ?_, ?_, ?_, ?_, ?_, ?_, hb.tracked⟩
    · simp only [compileSection, hb.sections, hreasons]
    · simp only [compileSection, hinput.changesOf hsec, hinput.firstRun, hreasons]
      split
      · apply Std.ExtTreeMap.ext_getElem?
        intro mk
        rw [getElem?_mapfileOps, getElem?_mapfileOps, hb.mapfiles, hsec.mapped]
      · exact hb.mapfiles
    · simp only [compileSection, compileRewrites, hsec.rewrites, hb.rewrites, hreasons]
    · intro key
      simp only [compileSection, getElem?_compilePostconf, hreasons]
      refine shownEntry_leaves ?_ (hb.postconf key)
      simpa [shownDirective, Function.comp_def] using hsec.postconf key
    · intro key
      simp only [compileSection, getElem?_compilePostconfd, hreasons]
      refine shownEntry_leaves ?_ (hb.postconfd key)
      simpa [shownDirective, Function.comp_def] using hsec.postconfd key
    · intro key
      simp only [compileSection, getElem?_compileLdap, hreasons]
      refine shownEntry_leaves ?_ (hb.ldap key)
      have hshown : ∀ value : Option String,
          (value.bind fun v => if v = "" then none else some v).map (forLog key) =
            shownLdap key value := by
        intro value
        cases value with
        | none => rfl
        | some v => by_cases hempty : v = "" <;> simp [shownLdap, hempty]
      rw [hshown, hshown, hsec.ldap key]
    · simp only [compileSection, compileProxygen, hsec.proxygen, hb.proxygen, hreasons]
    · simp only [compileSection, compileRestarts, hasked, hinput.firstRun, hb.restarts, hreasons,
        hinput.compileSectionRestarts hsec]
    · simp only [compileSection, compileDeferred, hasked, hinput.firstRun, hb.deferred, hreasons,
        hinput.compileSectionRestarts hsec]

omit hsec in
theorem processSections {b b' : Builder} (hb : b.Alike b') :
    (Configd.processSections input b).Alike (Configd.processSections input' b') := by
  have hsections := hinput.sections
  unfold Configd.processSections
  generalize input.conf.sections.toList = entries at hsections ⊢
  generalize input'.conf.sections.toList = entries' at hsections ⊢
  induction hsections generalizing b b' with
  | nil => exact hb
  | cons hentry _ ih =>
    rw [List.foldl_cons, List.foldl_cons]
    refine ih ?_
    rw [← hentry.1]
    exact hinput.processSection hentry.2 hb

omit hsec in
theorem serviceToggles : Configd.serviceToggles input = Configd.serviceToggles input' := by
  have hnames : input.cur.serviceNames = input'.cur.serviceNames := by
    rw [Snapshot.serviceNames, hinput.services]
    rfl
  unfold Configd.serviceToggles
  rw [hinput.tracked, hinput.serviceEnabled, hnames, hinput.firstRun]

omit hsec in
theorem trackedAfter : Configd.trackedAfter input = Configd.trackedAfter input' := by
  have hvalue : input.cur.serviceValue = input'.cur.serviceValue := by
    funext name
    rw [Snapshot.serviceValue, hinput.services]
    rfl
  have hnames : input.cur.serviceNames = input'.cur.serviceNames := by
    rw [Snapshot.serviceNames, hinput.services]
    rfl
  unfold Configd.trackedAfter
  rw [hinput.tracked, hvalue, hnames, hinput.firstRun]

omit hsec hinput in
theorem carryItems {map map' : StrMap Directive} (hmap : ShownAlike map map')
    (items : List Directive) :
    ShownAlike (Configd.carryItems Directive.key Directive.mapReasons items map)
      (Configd.carryItems Directive.key Directive.mapReasons items map') := by
  intro key
  rw [getElem?_carryItems directiveRef, getElem?_carryItems directiveRef]
  cases items.find? (fun it => it.key = key) with
  | none => exact hmap key
  | some it =>
    have hshown : ∀ old : Option Directive, shownEntry key
        (some ((old.getD it).mapReasons (appendReason · retryReason))) =
          some ((((shownEntry key old).getD { it with value := forLog key it.value }).mapReasons
            (appendReason · retryReason))) := by
      intro old
      cases old <;> rfl
    simp only [hshown, hmap key]

omit hsec in
/-- **The whole computation.** -/
theorem build : (Configd.build input).Alike (Configd.build input') := by
  have hinit : Builder.Alike {} {} :=
    ⟨rfl, rfl, rfl, rfl, fun _ => rfl, fun _ => rfl, fun _ => rfl, rfl, rfl, rfl, rfl⟩
  have hb := hinput.processSections hinit
  rw [build_of_no_host hinput.host, build_of_no_host hinput.host', ← hinput.carry]
  refine ⟨hb.sections, hb.mapfiles, hb.heal, ?_, carryItems hb.postconf _,
    carryItems hb.postconfd _, carryItems hb.ldap _, ?_, ?_, hb.deferred, hinput.trackedAfter⟩
  · simp only [mergeCarry, trackServices, hb.rewrites]
  · simp only [mergeCarry, trackServices, hb.proxygen]
  · simp only [mergeCarry, trackServices, hb.restarts, hinput.serviceToggles]

end InputsAlike

theorem map_redacted_eq {map map' : StrMap Directive} (hmap : ShownAlike map map')
    (hkeyed : OrdMap.Keyed Directive.key map) (hkeyed' : OrdMap.Keyed Directive.key map') :
    map.valuesList.map Directive.redacted = map'.valuesList.map Directive.redacted := by
  have hlist : ∀ m : StrMap Directive, OrdMap.Keyed Directive.key m →
      m.valuesList.map Directive.redacted =
        OrdMap.valuesList (m.filterMap fun key d => shownEntry key (some d)) := by
    intro m hm
    rw [OrdMap.valuesList, OrdMap.valuesList, Std.ExtTreeMap.toList_filterMap, List.map_map]
    have hentries : m.toList.filterMap (fun p =>
        (shownEntry p.1 (some p.2)).map fun d => (p.1, d)) =
        m.toList.map fun p => (p.1, p.2.redacted) := by
      rw [← List.filterMap_eq_map]
      apply List.filterMap_congr
      rintro ⟨key, d⟩ hmem
      have hkey := hm key d (Std.ExtTreeMap.mem_toList_iff_getElem?_eq_some.mp hmem)
      simp [shownEntry, Directive.redacted, hkey]
    rw [hentries, List.map_map]
    rfl
  have hsame : (map.filterMap fun key d => shownEntry key (some d)) =
      map'.filterMap fun key d => shownEntry key (some d) := by
    apply Std.ExtTreeMap.ext_getElem?
    intro key
    rw [Std.ExtTreeMap.getElem?_filterMap', Std.ExtTreeMap.getElem?_filterMap']
    have hentry := hmap key
    cases hold : map[key]? <;> cases hold' : map'[key]? <;> simp_all [shownEntry]
  rw [hlist map hkeyed, hlist map' hkeyed', hsame]

theorem keyed_build_directives {input : Input} (hhost : input.host = none) :
    OrdMap.Keyed Directive.key (build input).postconf ∧
      OrdMap.Keyed Directive.key (build input).postconfd ∧
      OrdMap.Keyed Directive.key (build input).ldap := by
  have hsections := keyed_processSections input
  rw [build_of_no_host hhost]
  exact ⟨keyed_carryItems directiveRef _ hsections.postconf,
    keyed_carryItems directiveRef _ hsections.postconfd,
    keyed_carryItems directiveRef _ hsections.ldap⟩

/-- **Alike inputs give plans that are shown alike.** -/
theorem redacted_eq_of_alike {input input' : Input} (hinput : InputsAlike input input') :
    (finish input (build input)).redacted = (finish input' (build input')).redacted := by
  have hb := hinput.build
  obtain ⟨hpostconf, hpostconfd, hldap⟩ := keyed_build_directives hinput.host
  obtain ⟨hpostconf', hpostconfd', hldap'⟩ := keyed_build_directives hinput.host'
  have hnames : input.cur.serviceNames = input'.cur.serviceNames := by
    rw [Snapshot.serviceNames, hinput.services]
    rfl
  unfold Plan.redacted finish
  simp only [hb.sections, hb.mapfiles, hb.heal, hb.rewrites, hb.proxygen, hb.restarts, hb.deferred,
    hb.tracked, hinput.firstRun, hinput.systemd, hnames,
    map_redacted_eq hb.postconf hpostconf hpostconf',
    map_redacted_eq hb.postconfd hpostconfd hpostconfd',
    map_redacted_eq hb.ldap hldap hldap']

end Configd
