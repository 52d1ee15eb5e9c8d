import Configd.ConfigMgr.Conditions
import Configd.Parser.Lookups
import Configd.Plan.Alike

/-!
# Values of LDAP writes

A directive `LDAP key LOCAL x` is resolved while `zmconfigd.cf` is parsed
(`resolveSectionLDAP`): the section then holds the value of `x` itself.  `compileLdap` puts
it into the plan, and `doLdap` resolves it once more (`resolveValueSpec`), as if it were the
stored text of a lookup.

`ldap_value_handed_iff` says which values survive this: all but those that look like a
stored lookup.
-/

namespace Configd

open Lib

/-! ## The value in the plan -/

/-- The value a section gives an attribute in this cycle. -/
def ldapSetBy (input : Input) (key : String) (entry : String × MtaConfigSection) :
    Option String :=
  if isProcessed input entry.1 entry.2 then
    entry.2.ldap[key]?.bind fun v => if v = "" then none else some v
  else none

theorem processSection_ldap (input : Input) (b : Builder) (entry : String × MtaConfigSection)
    (key : String) :
    ((processSection input b entry.1 entry.2).ldap[key]?).map Directive.value =
      (ldapSetBy input key entry).or (b.ldap[key]?.map Directive.value) := by
  unfold ldapSetBy
  cases hproc : isProcessed input entry.1 entry.2 with
  | false =>
    rw [processSection_of_not_processed b hproc]
    split <;> rfl
  | true =>
    rw [processSection_of_processed b hproc]
    simp only [compileSection, getElem?_compileLdap, if_true]
    cases (entry.2.ldap[key]?.bind fun v => if v = "" then none else some v) <;> rfl

/-- **The value of an attribute** in the plan is that of the last section that sets it. -/
theorem processSections_ldap (input : Input) (key : String) :
    ((processSections input {}).ldap[key]?).map Directive.value =
      input.conf.sections.toList.reverse.findSome? (ldapSetBy input key) := by
  unfold processSections
  generalize input.conf.sections.toList = entries
  induction entries using List.reverseRecOn with
  | nil => simp
  | append_singleton entries entry ih =>
    rw [List.foldl_append, List.foldl_cons, List.foldl_nil, processSection_ldap, ih,
      List.reverse_append, List.reverse_singleton, List.singleton_append, List.findSome?_cons]
    cases ldapSetBy input key entry <;> rfl

theorem findSome?_ldapSetBy {input : Input} {sn key v : String} {sec : MtaConfigSection}
    (hsec : input.conf.sections[sn]? = some sec) (hproc : isProcessed input sn sec = true)
    (hvalue : sec.ldap[key]? = some v) (hne : v ≠ "")
    (hlast : ∀ sn' sec', input.conf.sections[sn']? = some sec' → compare sn sn' = .lt →
      isProcessed input sn' sec' = true → sec'.ldap[key]?.getD "" = "") :
    input.conf.sections.toList.reverse.findSome? (ldapSetBy input key) = some v := by
  have hmem := Std.ExtTreeMap.mem_toList_iff_getElem?_eq_some.mpr hsec
  obtain ⟨before, after, hlist⟩ := List.append_of_mem hmem
  have hsorted := Std.ExtTreeMap.ordered_keys_toList (t := input.conf.sections)
  rw [hlist] at hsorted ⊢
  have hafter : ∀ entry ∈ after.reverse, ldapSetBy input key entry = none := by
    intro entry hentry
    have hentry := List.mem_reverse.mp hentry
    have hlt : compare sn entry.1 = .lt :=
      (List.pairwise_cons.mp (List.pairwise_append.mp hsorted).2.1).1 entry hentry
    have hfound : input.conf.sections[entry.1]? = some entry.2 := by
      refine Std.ExtTreeMap.mem_toList_iff_getElem?_eq_some.mp ?_
      rw [hlist]
      exact List.mem_append_right _ (List.mem_cons_of_mem _ hentry)
    unfold ldapSetBy
    cases hproc' : isProcessed input entry.1 entry.2 with
    | false => rfl
    | true =>
      have hempty := hlast entry.1 entry.2 hfound hlt hproc'
      cases hldap : entry.2.ldap[key]? with
      | none => rfl
      | some w =>
        rw [hldap] at hempty
        simp only [Option.getD_some] at hempty
        simp [hempty]
  rw [List.reverse_append, List.reverse_cons, List.append_assoc, List.findSome?_append,
    List.findSome?_eq_none_iff.mpr hafter]
  simp [ldapSetBy, hproc, hvalue, hne]

/-! ## The value that is written -/

/-- `ConfigManager.doLdap`: the operations it hands to `ExecuteLdapWrite`, unless it is
cancelled before. -/
def ldapOperations (fs : Files) (snap : Snapshot) (cancelled : Nat → Bool) :
    Nat → List Directive → List (String × String)
  | _, [] => []
  | i, e :: rest =>
    if cancelled i then []
    else
      match resolveValueSpec fs snap e.value with
      | .error _ => ldapOperations fs snap cancelled (i + 1) rest
      | .ok value => (e.key, value) :: ldapOperations fs snap cancelled (i + 1) rest

theorem mem_ldapOperations {fs : Files} {snap : Snapshot} {cancelled : Nat → Bool}
    {entries : List Directive} {i : Nat} {key value : String}
    (h : (key, value) ∈ ldapOperations fs snap cancelled i entries) :
    ∃ e ∈ entries, e.key = key ∧ resolveValueSpec fs snap e.value = .ok value := by
  induction entries generalizing i with
  | nil => cases h
  | cons e rest ih =>
    unfold ldapOperations at h
    split at h
    · cases h
    · cases hresolve : resolveValueSpec fs snap e.value with
      | error err =>
        simp only [hresolve] at h
        obtain ⟨e', he', hop⟩ := ih h
        exact ⟨e', List.mem_cons_of_mem _ he', hop⟩
      | ok w =>
        simp only [hresolve, List.mem_cons] at h
        rcases h with heq | h
        · obtain ⟨rfl, rfl⟩ := Prod.mk.inj heq
          exact ⟨e, List.mem_cons_self, rfl, hresolve⟩
        · obtain ⟨e', he', hop⟩ := ih h
          exact ⟨e', List.mem_cons_of_mem _ he', hop⟩

theorem mem_ldapOperations_of_resolves {fs : Files} {snap : Snapshot} {cancelled : Nat → Bool}
    (hcancelled : ∀ i, cancelled i = false) {entries : List Directive} {e : Directive}
    (he : e ∈ entries) {value : String} (hresolve : resolveValueSpec fs snap e.value = .ok value)
    (i : Nat) : (e.key, value) ∈ ldapOperations fs snap cancelled i entries := by
  induction entries generalizing i with
  | nil => cases he
  | cons e' rest ih =>
    unfold ldapOperations
    rw [hcancelled i]
    simp only [Bool.false_eq_true, if_false]
    rcases List.mem_cons.mp he with rfl | he
    · rw [hresolve]
      exact List.mem_cons_self
    · cases resolveValueSpec fs snap e'.value with
      | error err => exact ih he (i + 1)
      | ok w => exact List.mem_cons_of_mem _ (ih he (i + 1))

/-- A cycle with a directive `LDAP key LOCAL x` in a section that is enabled and processed,
where `x` has the value `v`: the last section of the cycle that sets the attribute. -/
structure LdapCycle (v : String) where
  parsing : Files
  observing : Files
  executing : Files
  base : Snapshot
  raw : MtaConfig
  input : Input
  pl : Plan
  sn : String
  sec : MtaConfigSection
  key : String
  x : String
  conf : input.conf = parseMtaConfig parsing base raw
  cur : input.cur = plannedSnapshot parsing observing base raw
  host : input.host = none
  plan : compute input = some pl
  isSection : raw.sections[sn]? = some sec
  directive : sec.ldap[key]? = some ("LOCAL:" ++ x)
  value : base.local x = some v
  processed : isProcessed input sn (parsedSection parsing base sec) = true
  last : ∀ sn' sec', input.conf.sections[sn']? = some sec' → compare sn sn' = .lt →
    isProcessed input sn' sec' = true → sec'.ldap[key]?.getD "" = ""

/-- What `doLdap` hands over for the attribute is the value, up to surrounding white space;
and it is handed over unless `doLdap` is cancelled. -/
structure LdapCycle.HandsOver {v : String} (c : LdapCycle v) : Prop where
  value : ∀ cancelled w,
    (c.key, w) ∈ ldapOperations c.executing c.input.cur cancelled 0 c.pl.ldap →
      Strings.trimSpace w = Strings.trimSpace v
  written : ∃ w, (c.key, w) ∈ ldapOperations c.executing c.input.cur (fun _ => false) 0 c.pl.ldap

/-- The text looks like a stored lookup. -/
def LooksLikeLookup (v : String) : Prop :=
  Strings.hasPrefix v "VAR:" ∨ Strings.hasPrefix v "LOCAL:" ∨ Strings.hasPrefix v "MAPLOCAL:" ∨
    (Strings.hasPrefix v "FILE " ∧ ':' ∉ v.toList)

section Plan

variable {v : String} (c : LdapCycle v)

theorem LdapCycle.parsed_ldap :
    (parsedSection c.parsing c.base c.sec).ldap[c.key]? = some v := by
  have hcut : Strings.cut ("LOCAL:" ++ c.x) ':' = some ("LOCAL", c.x) := by
    have happend := Strings.cut_append "LOCAL" c.x ':' (by decide)
    rwa [show "LOCAL" ++ String.ofList [':'] = "LOCAL:" from by decide] at happend
  have htype : LookupType.ofText "LOCAL" = .localconfig := by decide
  simp only [parsedSection, registerConditionalRequiredVars, resolveSectionLDAP,
    Std.ExtTreeMap.getElem?_map', c.directive, Option.pmap_some, hcut, htype, lookUpConfig, c.value,
    foundOr]

/-- **The plan holds the value itself**, in the one entry of the attribute. -/
theorem LdapCycle.entry (hne : v ≠ "") :
    (∃ e ∈ c.pl.ldap, e.key = c.key) ∧ ∀ e ∈ c.pl.ldap, e.key = c.key → e.value = v := by
  have henabled : sectionEnabled c.sn c.base.serviceEnabled = true := by
    have hconsidered : isConsidered c.input c.sn = true := by
      have hproc := c.processed
      unfold isProcessed at hproc
      exact (Bool.and_eq_true_iff.mp hproc).1
    unfold isConsidered at hconsidered
    rw [c.cur] at hconsidered
    exact (Bool.and_eq_true_iff.mp hconsidered).2
  have hsec : c.input.conf.sections[c.sn]? = some (parsedSection c.parsing c.base c.sec) := by
    rw [c.conf]
    exact parse_of_enabled c.isSection henabled c.parsing
  have hfresh := processSections_ldap c.input c.key
  rw [findSome?_ldapSetBy hsec c.processed c.parsed_ldap hne c.last] at hfresh
  obtain ⟨d, hd, hvalue⟩ := Option.map_eq_some_iff.mp hfresh
  -- A carried write of the attribute only adds a reason.
  have hentry : ∃ e, (carryItems Directive.key Directive.mapReasons c.input.carry.ldap
      (processSections c.input {}).ldap)[c.key]? = some e ∧ e.value = v := by
    rw [getElem?_carryItems directiveRef, hd]
    split
    · exact ⟨_, rfl, hvalue⟩
    · exact ⟨d, rfl, hvalue⟩
  have hkeyed := keyed_carryItems directiveRef c.input.carry.ldap
    (keyed_processSections c.input).ldap
  obtain ⟨e, he, hev⟩ := hentry
  rw [plan_ldap c.plan c.host]
  refine ⟨⟨e, (OrdMap.mem_valuesList_iff _ _).mpr ⟨c.key, he⟩, hkeyed c.key e he⟩, ?_⟩
  intro e' he' hkey
  have hfound := hkeyed.getElem?_of_mem he'
  rw [hkey, he] at hfound
  rw [← Option.some.inj hfound]
  exact hev

theorem LdapCycle.handsOver_iff (hne : v ≠ "") :
    c.HandsOver ↔ ∃ w, resolveValueSpec c.executing c.input.cur v = .ok w ∧
      Strings.trimSpace w = Strings.trimSpace v := by
  obtain ⟨⟨e, he, hkey⟩, hvalue⟩ := c.entry hne
  constructor
  · intro h
    obtain ⟨w, hw⟩ := h.written
    obtain ⟨e', he', hkey', hresolve⟩ := mem_ldapOperations hw
    rw [hvalue e' he' hkey'] at hresolve
    exact ⟨w, hresolve, h.value _ w hw⟩
  · rintro ⟨w, hresolve, htrim⟩
    refine ⟨?_, w, ?_⟩
    · intro cancelled w' hw'
      obtain ⟨e', he', hkey', hresolve'⟩ := mem_ldapOperations hw'
      rw [hvalue e' he' hkey', hresolve] at hresolve'
      rw [← Except.ok.inj hresolve']
      exact htrim
    · have hentry : resolveValueSpec c.executing c.input.cur e.value = .ok w := by
        rw [hvalue e he hkey]
        exact hresolve
      rw [← hkey]
      exact mem_ldapOperations_of_resolves (fun _ => rfl) he hentry 0

end Plan

/-! ## Values that look like lookups -/

theorem hasPrefix_colon_iff {v before after type : String}
    (hcut : Strings.cut v ':' = some (before, after)) (htype : ':' ∉ type.toList) :
    Strings.hasPrefix v (type ++ ":") = true ↔ before = type := by
  obtain ⟨rfl, hbefore⟩ := Parser.cut_eq_some hcut
  rw [Strings.hasPrefix_iff]
  constructor
  · rintro ⟨rest, hsame⟩
    rw [hsame, Parser.cut_colon htype] at hcut
    exact (Prod.mk.inj (Option.some.inj hcut)).1.symm
  · rintro rfl
    exact ⟨after, rfl⟩

/-- **A text is read as a literal**, and as itself, unless it looks like a lookup. -/
theorem parseValueSpec_literal {v : String} (h : ¬LooksLikeLookup v) :
    parseValueSpec v = (.literal, v) := by
  unfold LooksLikeLookup at h
  rw [not_or, not_or, not_or, not_and, not_not] at h
  obtain ⟨hvar, hlocal, hmaplocal, hfile⟩ := h
  unfold parseValueSpec
  cases hcut : Strings.cut v ':' with
  | some parts =>
    obtain ⟨before, after⟩ := parts
    have hne : ∀ type, ':' ∉ type.toList → Strings.hasPrefix v (type ++ ":") ≠ true →
        before ≠ type := fun type htype hpre heq =>
      hpre ((hasPrefix_colon_iff hcut htype).mpr heq)
    simp only [hne "VAR" (by decide) hvar, hne "LOCAL" (by decide) hlocal,
      hne "MAPLOCAL" (by decide) hmaplocal, if_false]
  | none =>
    have hcolon : ':' ∉ v.toList := by
      intro hmem
      rw [Strings.cut, if_pos hmem] at hcut
      cases hcut
    have hno : Strings.hasPrefix v "FILE " = false := by
      cases hpre : Strings.hasPrefix v "FILE " with
      | false => rfl
      | true => exact absurd (hfile hpre) hcolon
    simp [Strings.cutPrefix, hno]

/-- A host without files whose local configuration has one value, named after itself. -/
def lookalikeBase (v : String) : Snapshot where
  localMap := (∅ : StrMap String).insert v v
  services := (∅ : StrMap String).insert "mta" "TRUE"

def lookalikeSection (v : String) : MtaConfigSection where
  ldap := (∅ : StrMap String).insert "ldap_common_loglevel" ("LOCAL:" ++ v)

def lookalikeConf (v : String) : MtaConfig where
  sections := (∅ : StrMap MtaConfigSection).insert "mta" (lookalikeSection v)

def lookalikeInput (v : String) : Input where
  cur := plannedSnapshot noFiles noFiles (lookalikeBase v) (lookalikeConf v)
  conf := parseMtaConfig noFiles (lookalikeBase v) (lookalikeConf v)
  firstRun := true

theorem isConsidered_lookalike (v : String) : isConsidered (lookalikeInput v) "mta" = true := by
  have hservice : ((∅ : StrMap String).insert "mta" "TRUE").contains "mta" = true := by
    decide +kernel
  have henabled : sectionEnabled "mta" (lookalikeInput v).cur.serviceEnabled =
      (lookalikeInput v).cur.serviceEnabled "mta" := by
    unfold sectionEnabled
    rfl
  unfold isConsidered
  rw [henabled]
  exact hservice

def lookalike (v : String) : LdapCycle v where
  parsing := noFiles
  observing := noFiles
  executing := noFiles
  base := lookalikeBase v
  raw := lookalikeConf v
  input := lookalikeInput v
  pl := finish (lookalikeInput v) (build (lookalikeInput v))
  sn := "mta"
  sec := lookalikeSection v
  key := "ldap_common_loglevel"
  x := v
  conf := rfl
  cur := rfl
  host := rfl
  plan := rfl
  isSection := by simp [lookalikeConf]
  directive := by simp [lookalikeSection]
  value := by simp [lookalikeBase, Snapshot.local]
  processed := by
    rw [← Bool.not_eq_false]
    intro hnot
    have hfirst := ((not_processed_iff (isConsidered_lookalike v)).mp hnot).2.2.1
    cases hfirst
  last := by
    intro sn' sec' hsec hlt
    have hraw : (lookalikeConf v).sections[sn']? ≠ none := by
      intro hnone
      simp [lookalikeInput, parseMtaConfig, hnone] at hsec
    have hsn : sn' = "mta" := by
      by_contra hne
      refine hraw ?_
      rw [lookalikeConf, OrdMap.getElem?_insert_iff, if_neg (Ne.symm hne)]
      simp
    rw [hsn] at hlt
    exact absurd hlt (by decide)

theorem resolveValueSpec_lookalike {v w : String} (hlook : LooksLikeLookup v)
    (h : resolveValueSpec noFiles (lookalikeInput v).cur v = .ok w) : w = "" := by
  rcases hlook with hpre | hpre | hpre | ⟨hpre, hno⟩
  · obtain ⟨rest, rfl⟩ := Strings.hasPrefix_iff.mp hpre
    rw [resolveValueSpec, parseValueSpec_var] at h
    simpa [resolveVAR, Snapshot.global, Snapshot.server, lookalikeInput, plannedSnapshot, observe,
      lookalikeBase, Snapshot.withObserved] using h.symm
  · obtain ⟨rest, hv⟩ := Strings.hasPrefix_iff.mp hpre
    have hspec : parseValueSpec v = (.localconfig, rest) := by
      have hcut : Strings.cut v ':' = some ("LOCAL", rest) := by
        rw [hv, show "LOCAL:" = "LOCAL" ++ ":" from by decide]
        exact Parser.cut_colon (by decide) rest
      simp [parseValueSpec, hcut]
    have hother : v ≠ rest := by
      intro heq
      have hlength := congrArg String.length hv
      rw [heq, String.length_append] at hlength
      have hpos : "LOCAL:".length = 6 := by decide
      omega
    have hlocal : (lookalikeInput v).cur.local rest = none := by
      change (lookalikeBase v).local rest = none
      rw [Snapshot.local, lookalikeBase, OrdMap.getElem?_insert_iff, if_neg hother]
      simp
    rw [resolveValueSpec, hspec] at h
    simpa [resolveLOCAL, hlocal] using h.symm
  · obtain ⟨rest, hv⟩ := Strings.hasPrefix_iff.mp hpre
    have hspec : parseValueSpec v = (.maplocal, rest) := by
      have hcut : Strings.cut v ':' = some ("MAPLOCAL", rest) := by
        rw [hv, show "MAPLOCAL:" = "MAPLOCAL" ++ ":" from by decide]
        exact Parser.cut_colon (by decide) rest
      simp [parseValueSpec, hcut]
    rw [resolveValueSpec, hspec] at h
    simp only [resolveMAPLOCAL, noFiles] at h
    split at h
    · cases h
    · exact (Except.ok.inj h).symm
  · obtain ⟨rest, hv⟩ := Strings.hasPrefix_iff.mp hpre
    have hspec : parseValueSpec v = (.file, rest) := by
      rw [hv]
      refine Parser.parseValueSpec_file ?_
      intro hmem
      exact hno (by rw [hv, String.toList_append]; exact List.mem_append_right _ hmem)
    rw [resolveValueSpec, hspec] at h
    cases h

/-- **Values and their LDAP writes.**  A value of the local configuration that is not blank
is what `doLdap` writes in every cycle, exactly if it does not look like a lookup. -/
theorem ldap_value_handed_iff {v : String} (hv : Strings.trimSpace v ≠ "") :
    (∀ c : LdapCycle v, c.HandsOver) ↔ ¬LooksLikeLookup v := by
  have hne : v ≠ "" := by
    rintro rfl
    exact hv (by decide)
  constructor
  · intro h hlook
    obtain ⟨w, hresolve, htrim⟩ := ((lookalike v).handsOver_iff hne).mp (h (lookalike v))
    rw [resolveValueSpec_lookalike hlook hresolve] at htrim
    exact hv (htrim.symm.trans (by decide))
  · intro hplain c
    refine (c.handsOver_iff hne).mpr ⟨v, ?_, rfl⟩
    rw [resolveValueSpec, parseValueSpec_literal hplain]

instance (v : String) : Decidable (LooksLikeLookup v) := by
  unfold LooksLikeLookup
  infer_instance

theorem ldap_value_handed_loglevel :
    Strings.trimSpace "49152" ≠ "" ∧ (lookalike "49152").HandsOver :=
  ⟨by decide, (ldap_value_handed_iff (by decide)).mpr (by decide) (lookalike "49152")⟩

theorem ldap_value_not_handed :
    Strings.trimSpace "VAR:loglevel" ≠ "" ∧ ¬(lookalike "VAR:loglevel").HandsOver := by
  refine ⟨by decide, ?_⟩
  intro h
  obtain ⟨w, hresolve, htrim⟩ := ((lookalike "VAR:loglevel").handsOver_iff (by decide)).mp h
  rw [resolveValueSpec_lookalike (by decide) hresolve] at htrim
  exact absurd htrim (by decide)

end Configd
