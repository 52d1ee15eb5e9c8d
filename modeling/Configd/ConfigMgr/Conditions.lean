import Configd.ConfigMgr.Observe

/-!
# Conditions of `if` blocks and change detection

A section compiles to its own Postfix directives and to those of its `if` blocks whose
condition holds.  The directives are fixed texts, so they differ between two snapshots only
when a condition does (`exists_flipped_of_directives_ne`).

A section is processed when one of its required variables has another observed value.  What a
condition tests is not a required variable: a change of it alone is not a change of the section
(`not_reported_when_condition_turns_false`), unless the section happens to require it.
`reported_of_directives_ne` is the result.
-/

namespace Configd

open Lib

/-! ## What a section compiles to -/

/-- The `POSTCONF` and `POSTCONFD` directives a section compiles to. -/
def directives (snap : Snapshot) (sn : String) (sec : MtaConfigSection) :
    StrMap Directive × StrMap Directive :=
  (compilePostconf snap sn sec [] ∅, compilePostconfd snap sn sec [] ∅)

theorem foldl_blocks_congr {S : Type} {holds holds' : Conditional → Bool}
    {apply : S → Conditional → S} {blocks : List Conditional}
    (hsame : ∀ cond ∈ blocks, holds cond = holds' cond) (s : S) :
    blocks.foldl (fun s cond => if holds cond then apply s cond else s) s =
      blocks.foldl (fun s cond => if holds' cond then apply s cond else s) s := by
  induction blocks generalizing s with
  | nil => rfl
  | cons cond rest ih =>
    rw [List.foldl_cons, List.foldl_cons, hsame cond (by simp)]
    exact ih (fun other hother => hsame other (by simp [hother])) _

/-- **The directives depend on the conditions only.** -/
theorem exists_flipped_of_directives_ne {prev cur : Snapshot} {sn : String}
    {sec : MtaConfigSection} (hdiffer : directives prev sn sec ≠ directives cur sn sec) :
    ∃ cond ∈ sec.conditionals, conditionHolds prev cond ≠ conditionHolds cur cond := by
  by_contra hnone
  push Not at hnone
  apply hdiffer
  unfold directives compilePostconf compilePostconfd
  rw [foldl_blocks_congr hnone, foldl_blocks_congr hnone]

/-! ## What a condition tests -/

/-- The lookup types a condition can have. -/
def Conditional.Testable (cond : Conditional) : Prop :=
  cond.type = .var ∨ cond.type = .service

instance (cond : Conditional) : Decidable cond.Testable :=
  inferInstanceAs (Decidable (_ ∨ _))

/-- The snapshot a plan works with, for the configuration `base` that was loaded:
the files are read when the sections are parsed and when they are observed. -/
def plannedSnapshot (parsing observing : Files) (base : Snapshot) (raw : MtaConfig) : Snapshot :=
  observe observing base (parseMtaConfig parsing base raw)

/-- The section as `parseMtaConfig` leaves it, with the required variables of the
blocks that hold. -/
def parsedSection (parsing : Files) (base : Snapshot) (sec : MtaConfigSection) :
    MtaConfigSection :=
  registerConditionalRequiredVars parsing base (resolveSectionLDAP parsing base sec)

section Observed

variable {raw : MtaConfig} {sn : String} {sec : MtaConfigSection} {base : Snapshot}
  (hraw : raw.sections[sn]? = some sec)
  (henabled : sectionEnabled sn base.serviceEnabled = true)

include hraw henabled

theorem parse_of_enabled (parsing : Files) :
    (parseMtaConfig parsing base raw).sections[sn]? = some (parsedSection parsing base sec) := by
  simp [parseMtaConfig, hraw, henabled, parsedSection]

theorem observed_condition (parsing observing : Files) {cond : Conditional}
    (hcond : cond ∈ sec.conditionals) (htestable : cond.Testable) :
    (plannedSnapshot parsing observing base raw).observedValue cond.type (lookupKey cond.key) =
      (base.value cond.type (lookupKey cond.key)).getD "" := by
  have hsec := Std.ExtTreeMap.mem_toList_iff_getElem?_eq_some.mpr
    (parse_of_enabled hraw henabled parsing)
  have hdepends : (parseMtaConfig parsing base raw).sections.toList.any
      (fun entry => entry.2.dependsOn cond.type (lookupKey cond.key)) = true := by
    refine List.any_eq_true.mpr ⟨_, hsec, ?_⟩
    rw [MtaConfigSection.dependsOn, Bool.or_eq_true]
    exact Or.inr (List.any_eq_true.mpr ⟨cond, hcond, by simp⟩)
  have hobserved : (plannedSnapshot parsing observing base raw).observedValue cond.type
      (lookupKey cond.key) = observeOne observing base cond.type (lookupKey cond.key) := by
    simp [Snapshot.observedValue, plannedSnapshot, observe, hdepends]
  rw [hobserved]
  rcases htestable with hvar | hservice
  · cases hvalue : base.var (lookupKey cond.key) <;>
      simp [observeOne, lookUpConfig, foundOr, Snapshot.value, hvar, hvalue]
  · cases hon : base.serviceEnabled (lookupKey cond.key) <;>
      simp [observeOne, lookUpConfig, foundOr, Snapshot.value, hservice, hon]

end Observed

theorem conditionHolds_plannedSnapshot (parsing observing : Files) (base : Snapshot)
    (raw : MtaConfig) {cond : Conditional} (htestable : cond.Testable) :
    conditionHolds (plannedSnapshot parsing observing base raw) cond =
      conditionHolds base cond := by
  have hvalue : (plannedSnapshot parsing observing base raw).value cond.type
      (Strings.trimPrefix cond.key "!") =
        base.value cond.type (Strings.trimPrefix cond.key "!") := by
    rcases htestable with hvar | hservice
    · rw [hvar]
      rfl
    · rw [hservice]
      rfl
  simp only [conditionHolds, hvalue]

theorem conditionHolds_eq (snap : Snapshot) (cond : Conditional) :
    conditionHolds snap cond =
      ((isTrueValue ((snap.value cond.type (lookupKey cond.key)).getD "") !=
        (Strings.cutPrefix cond.key "!").isSome) != cond.negated) := by
  have hempty : isTrueValue "" = false := by decide
  unfold conditionHolds lookupKey
  cases hvalue : snap.value cond.type (Strings.trimPrefix cond.key "!") <;>
    cases cond.negated <;> simp [hvalue, hempty]

/-- **The observed value decides the condition.** -/
theorem conditionHolds_eq_of_observed {raw : MtaConfig} {sn : String} {sec : MtaConfigSection}
    {prev cur : Snapshot} {parsing observing parsing' observing' : Files}
    (hraw : raw.sections[sn]? = some sec)
    (hprev : sectionEnabled sn prev.serviceEnabled = true)
    (hcur : sectionEnabled sn cur.serviceEnabled = true) {cond : Conditional}
    (hcond : cond ∈ sec.conditionals) (htestable : cond.Testable)
    (hsame : (plannedSnapshot parsing observing prev raw).observedValue cond.type
        (lookupKey cond.key) =
      (plannedSnapshot parsing' observing' cur raw).observedValue cond.type
        (lookupKey cond.key)) :
    conditionHolds (plannedSnapshot parsing observing prev raw) cond =
      conditionHolds (plannedSnapshot parsing' observing' cur raw) cond := by
  rw [observed_condition hraw hprev parsing observing hcond htestable,
    observed_condition hraw hcur parsing' observing' hcond htestable] at hsame
  rw [conditionHolds_plannedSnapshot _ _ _ _ htestable,
    conditionHolds_plannedSnapshot _ _ _ _ htestable, conditionHolds_eq, conditionHolds_eq, hsame]

/-! ## The result -/

theorem isProcessed_of_mem_diffSection {input : Input} {sn : String} {sec : MtaConfigSection}
    {r : Reason} (hscope : inScope input sn = true) (hforced : input.forced = [])
    (henabled : sectionEnabled sn input.cur.serviceEnabled = true)
    (hr : r ∈ diffSection input sn sec) : isProcessed input sn sec = true := by
  by_contra hnot
  have hconsidered : isConsidered input sn = true := by
    rw [isConsidered, hscope, henabled]
    rfl
  have hcompared : isCompared input sn = true := by simp [isCompared, hforced]
  obtain ⟨-, -, -, hnil, -⟩ := (not_processed_iff hconsidered).mp (by simpa using hnot)
  rw [changesOf, if_pos hcompared] at hnil
  simp [hnil] at hr

/-- `if VAR zimbraMtaEnable` with one directive; the section requires `required`. -/
def flagSection (required : List String) : MtaConfigSection where
  requiredVars := Std.ExtTreeMap.ofList (required.map fun name => (name, .var)) compare
  conditionals := [{
    type := .var
    key := "zimbraMtaEnable"
    negated := false
    postconf := Std.ExtTreeMap.ofList [("smtpd_milters", "inet:localhost:7026")] compare
    postconfd := ∅
    requiredVars := ∅ }]

def flagConf (required : List String) : MtaConfig where
  sections := Std.ExtTreeMap.ofList [("mta", flagSection required)] compare

def flagSnapshot (value : String) : Snapshot where
  serverMap := Std.ExtTreeMap.ofList [("zimbraMtaEnable", value)] compare
  services := Std.ExtTreeMap.ofList [("mta", "zimbraServiceEnabled")] compare

/-- The comparison of two cycles, in which the flag turns from true to false. -/
def flagInput (required : List String) : Input where
  prev := plannedSnapshot noFiles noFiles (flagSnapshot "TRUE") (flagConf required)
  cur := plannedSnapshot noFiles noFiles (flagSnapshot "FALSE") (flagConf required)
  conf := parseMtaConfig noFiles (flagSnapshot "FALSE") (flagConf required)
  firstRun := false

/-- **When other directives are reported as a change.**  If a section that both
snapshots enable compiles to other directives, then one of its conditions changed;
and when the section, or a block of it that holds now, requires what such a
condition tests, a changed variable is reported and the section is processed.  In
any case one is reported exactly if a required variable has another value. -/
theorem reported_of_directives_ne (input : Input) (raw : MtaConfig) (sn : String)
    (sec : MtaConfigSection) (prev cur : Snapshot) (parsing observing parsing' observing' : Files)
    (hraw : raw.sections[sn]? = some sec)
    (htestable : ∀ cond ∈ sec.conditionals, cond.Testable)
    (hprevOn : sectionEnabled sn prev.serviceEnabled = true)
    (hcurOn : sectionEnabled sn cur.serviceEnabled = true)
    (hprev : input.prev = plannedSnapshot parsing observing prev raw)
    (hcur : input.cur = plannedSnapshot parsing' observing' cur raw)
    (hdiffer : directives input.prev sn sec ≠ directives input.cur sn sec) :
    (∃ cond ∈ sec.conditionals,
        conditionHolds input.prev cond ≠ conditionHolds input.cur cond) ∧
      (∀ cond ∈ sec.conditionals,
        conditionHolds input.prev cond ≠ conditionHolds input.cur cond →
        (parsedSection parsing' cur sec).Requires cond.type (lookupKey cond.key) →
          (∃ r ∈ diffSection input sn (parsedSection parsing' cur sec), r.kind = .varChanged) ∧
            (inScope input sn = true → input.forced = [] →
              isProcessed input sn (parsedSection parsing' cur sec) = true)) ∧
      (diffSection input sn (parsedSection parsing' cur sec) ≠ [] ↔
        ∃ type key, (parsedSection parsing' cur sec).Requires type key ∧
          input.prev.observedValue type key ≠ input.cur.observedValue type key) := by
  refine ⟨exists_flipped_of_directives_ne hdiffer, ?_, ?_⟩
  · intro cond hcond hflipped hrequires
    have hchanged : Changed input cond.type (lookupKey cond.key) := by
      intro hsame
      rw [hprev, hcur] at hflipped hsame
      exact hflipped (conditionHolds_eq_of_observed hraw hprevOn hcurOn hcond
        (htestable cond hcond) hsame)
    have hmem := (mem_diffSection_iff input sn (parsedSection parsing' cur sec) _).mpr
      ⟨_, _, hrequires, hchanged, rfl⟩
    exact ⟨⟨_, hmem, rfl⟩, fun hscope hforced =>
      isProcessed_of_mem_diffSection hscope hforced (by rw [hcur]; exact hcurOn) hmem⟩
  · rw [Ne, diffSection_eq_nil_iff]
    push Not
    rfl

/-- The section requires the flag it tests. -/
theorem reported_of_directives_ne_required :
    ∃ r ∈ diffSection (flagInput ["zimbraMtaEnable"]) "mta"
      (parsedSection noFiles (flagSnapshot "FALSE") (flagSection ["zimbraMtaEnable"])),
      r.kind = .varChanged := by
  obtain ⟨⟨cond, hcond, hflipped⟩, hreported, -⟩ := reported_of_directives_ne
    (flagInput ["zimbraMtaEnable"]) (flagConf ["zimbraMtaEnable"]) "mta"
    (flagSection ["zimbraMtaEnable"]) (flagSnapshot "TRUE") (flagSnapshot "FALSE") noFiles noFiles
    noFiles noFiles (by decide +kernel) (by decide) (by decide) (by decide) rfl rfl
    (by decide +kernel)
  have hrequires : (parsedSection noFiles (flagSnapshot "FALSE")
      (flagSection ["zimbraMtaEnable"])).Requires .var "zimbraMtaEnable" :=
    ⟨"zimbraMtaEnable", by decide +kernel, by decide⟩
  refine (hreported cond hcond hflipped ?_).1
  rw [List.mem_singleton.mp hcond]
  exact hrequires

/-- A condition that turns false is no change of the section, and the directives of
its block stay set in Postfix. -/
theorem not_reported_when_condition_turns_false :
    directives (flagInput []).prev "mta" (flagSection []) ≠
        directives (flagInput []).cur "mta" (flagSection []) ∧
      (flagInput []).conf.sections["mta"]? =
        some (parsedSection noFiles (flagSnapshot "FALSE") (flagSection [])) ∧
      diffSection (flagInput []) "mta"
        (parsedSection noFiles (flagSnapshot "FALSE") (flagSection [])) = [] := by
  refine ⟨?_, ?_, ?_⟩ <;> decide +kernel

end Configd
