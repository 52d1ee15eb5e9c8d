import Configd.Parser.Lookups

/-!
# What the change detection observes

A section of an accepted text, and each of its blocks, stores the parameters its
`POSTCONF` lines set and the required variables its lines register; of several lines with
one name the last one counts.  `Scope.Reads` says so for the two maps, and with the
spelling of the values (`observes_iff_sound`) it follows for which texts everything a
`POSTCONF` directive looks up is registered as that lookup (`lookups_observed_iff`).
-/

namespace Configd.Parser

open Lib

/-! ## Sections and blocks -/

/-- The lines of a section outside its blocks, or of a block. -/
structure Scope where
  inSection : Bool
  lines : List Line

/-- The line an item is, unless it is a block. -/
def Item.line? : Item → Option Line
  | .line l => some l
  | .block _ => none

def Item.block? : Item → Option Block
  | .line _ => none
  | .block b => some b

/-- The lines of a section outside its blocks. -/
def SectionText.scope (s : SectionText) : Scope :=
  ⟨true, s.items.filterMap Item.line?⟩

def SectionText.blocks (s : SectionText) : List Block :=
  s.items.filterMap Item.block?

def Block.scope (b : Block) : Scope :=
  ⟨false, b.lines⟩

def Line.parameter (l : Line) : Option String :=
  if (current l.toks).type = .tokenPostconf then some l.name else none

/-- The line whose value a parameter has. -/
def Scope.setting (sc : Scope) (key : String) : Option Line :=
  OrdMap.lastNamed Line.parameter sc.lines key

def Scope.vars (sc : Scope) (key : String) : Option LookupType :=
  OrdMap.lastOf (Line.registers sc.inSection) sc.lines key

/-- The values are spelled so that what is looked up for them is registered. -/
def Scope.Sound (sc : Scope) : Prop :=
  ∀ key l, sc.setting key = some l → (l.value sc.inSection).Sound sc.vars

/-- **Every stored value is observed**: the lookup its line was parsed as is the one that
the value is read as, and it is registered. -/
def Scope.Observed (sc : Scope) (postconf : StrMap String) (vars : StrMap LookupType) : Prop :=
  ∀ key value, postconf[key]? = some value →
    ∃ l p, sc.setting key = some l ∧ l.stores sc.inSection = some p ∧ p.value = value ∧
      Observes (fun key => vars[key]?) value p.lk

/-- What the two maps hold of the lines. -/
structure Scope.Reads (sc : Scope) (postconf : StrMap String) (vars : StrMap LookupType) :
    Prop where
  postconf : ∀ key : String, postconf[key]? =
    (sc.setting key).bind fun l => (l.stores sc.inSection).map PostconfLine.value
  vars : ∀ key : String, vars[key]? = sc.vars key
  stores : ∀ l ∈ sc.lines, l.parameter ≠ none → l.stores sc.inSection ≠ none

/-! ## The maps of a section and a block -/

section Maps

variable {l : Line}

variable {sec : MtaConfigSection}

theorem Line.apply_stores {sec' : MtaConfigSection} (hl : Plain l.toks)
    (h : l.apply sec = some sec') (hparameter : l.parameter ≠ none) : l.stores true ≠ none := by
  unfold Line.parameter at hparameter
  split at hparameter
  · rename_i htype
    unfold Line.apply parseDirective at h
    simp only [htype, parsePostconf] at h
    obtain ⟨line, hline, -⟩ := parsePostconfLine_registers hl h
    rw [Line.stores, if_pos htype, hline]
    exact Option.some_ne_none line
  · exact absurd rfl hparameter

theorem Line.applyBlock_stores {cond cond' : Conditional} (hl : Plain l.toks)
    (h : l.applyBlock cond = some cond') (hparameter : l.parameter ≠ none) :
    l.stores false ≠ none := by
  unfold Line.parameter at hparameter
  split at hparameter
  · rename_i htype
    unfold Line.applyBlock parseConditionalLine at h
    simp only [htype] at h
    obtain ⟨line, hline, -⟩ := parsePostconfLine_registers hl h
    rw [Line.stores, if_pos htype, hline]
    exact Option.some_ne_none line
  · exact absurd rfl hparameter

theorem Line.stores_entry (allowMapLocal : Bool) (l : Line) :
    (l.stores allowMapLocal).map PostconfLine.entry = l.parameter.bind fun key =>
      ((l.stores allowMapLocal).map PostconfLine.value).map fun value => (key, value) := by
  unfold Line.stores Line.parameter
  split
  · cases hparse : parsePostconfLine "POSTCONF" allowMapLocal l.toks with
    | mk result rest =>
      cases result with
      | error err => rfl
      | ok p =>
        obtain ⟨hkey, -⟩ := parsePostconfLine_eq_ok hparse
        simp [Except.toOption, PostconfLine.entry, hkey]
  · rfl

theorem getElem?_stored {sc : Scope}
    (hstores : ∀ l ∈ sc.lines, l.parameter ≠ none → l.stores sc.inSection ≠ none) (key : String) :
    OrdMap.lastOf (fun l => (l.stores sc.inSection).map PostconfLine.entry) sc.lines key =
      (sc.setting key).bind fun l => (l.stores sc.inSection).map PostconfLine.value := by
  refine OrdMap.lastOf_eq_lastNamed (fun l _ => Line.stores_entry sc.inSection l) ?_ key
  intro l hl hparameter
  simpa using hstores l hl hparameter

end Maps

/-- **The maps of a section** are those of its lines. -/
theorem SectionText.reads_scope {s : SectionText} {sec' : MtaConfigSection}
    (hlines : ∀ l ∈ s.scope.lines, Plain l.toks ∧ (current l.toks).type ≠ .tokenIf)
    (hpostconf : sec.postconf = ∅) (hvars : sec.requiredVars = ∅)
    (h : s.items.foldlM Item.apply sec = some sec') :
    s.scope.Reads sec'.postconf sec'.requiredVars := by
  have hline : ∀ l, .line l ∈ s.items → l ∈ s.scope.lines := fun l hl =>
    List.mem_filterMap.mpr ⟨.line l, hl, rfl⟩
  have hstores : ∀ l ∈ s.scope.lines, l.parameter ≠ none → l.stores true ≠ none := by
    intro l hl hparameter
    obtain ⟨item, hitem, heq⟩ := List.mem_filterMap.mp hl
    cases item with
    | block b => cases heq
    | line l' =>
      obtain rfl := Option.some.inj heq
      obtain ⟨sec₁, sec₂, happly⟩ := round_of_foldlM h _ hitem
      exact Line.apply_stores (hlines l' hl).1 happly hparameter
  -- Items that are blocks leave both maps as they are.
  have hstep : ∀ item ∈ s.items, ∀ sec sec', item.apply sec = some sec' →
      sec'.postconf = sec.postconf.insertOf
        (item.line?.bind fun l => (l.stores true).map PostconfLine.entry) ∧
      sec'.requiredVars = sec.requiredVars.insertOf (item.line?.bind (Line.registers true)) := by
    intro item hitem sec sec' happly
    cases item with
    | line l =>
      obtain ⟨hl, hif⟩ := hlines l (hline l hitem)
      obtain ⟨hpc, hrv, -⟩ := Line.apply_maps hl hif happly
      exact ⟨hpc, hrv⟩
    | block b =>
      obtain ⟨cond, -, rfl⟩ := Option.map_eq_some_iff.mp happly
      exact ⟨rfl, rfl⟩
  refine ⟨?_, ?_, hstores⟩
  · intro key
    rw [OrdMap.getElem?_foldlM_insertOf MtaConfigSection.postconf _
        (fun item hitem sec sec' happly => (hstep item hitem sec sec' happly).1) h,
      hpostconf, ← OrdMap.lastOf_filterMap, ← getElem?_stored hstores]
    simp [scope]
  · intro key
    rw [OrdMap.getElem?_foldlM_insertOf MtaConfigSection.requiredVars _
        (fun item hitem sec sec' happly => (hstep item hitem sec sec' happly).2) h,
      hvars, ← OrdMap.lastOf_filterMap]
    simp [scope, Scope.vars]

/-- **The maps of a block** are those of its lines. -/
theorem Block.reads_scope {b : Block} {cond : Conditional} (hlines : ∀ l ∈ b.lines, Plain l.toks)
    (h : b.read = some cond) : b.scope.Reads cond.postconf cond.requiredVars := by
  obtain ⟨header, -, hfold⟩ := Option.bind_eq_some_iff.mp h
  have hstores : ∀ l ∈ b.scope.lines, l.parameter ≠ none → l.stores false ≠ none := by
    intro l hl hparameter
    obtain ⟨cond₁, cond₂, happly⟩ := round_of_foldlM hfold l hl
    exact Line.applyBlock_stores (hlines l hl) happly hparameter
  refine ⟨?_, ?_, hstores⟩
  · intro key
    rw [OrdMap.getElem?_foldlM_insertOf Conditional.postconf _ (fun l hl cond cond' happly =>
        (Line.applyBlock_maps (hlines l hl) happly).1) hfold,
      ← getElem?_stored hstores]
    simp [CondHeader.start, scope]
  · intro key
    rw [OrdMap.getElem?_foldlM_insertOf Conditional.requiredVars _ (fun l hl cond cond' happly =>
        (Line.applyBlock_maps (hlines l hl) happly).2) hfold]
    simp [CondHeader.start, scope, Scope.vars]

/-! ## Observed values -/

theorem Line.registers_ne_maplocal {l : Line} {key : String} :
    l.registers false ≠ some (key, .maplocal) := by
  have hvalue : ∀ toks, (readValue false toks).entry ≠ some (key, .maplocal) := by
    intro toks hentry
    have hword : ∀ word, (lookupTypes false).any (Strings.hasPrefix word ·) = true →
        LookupType.ofText word ≠ .maplocal := by
      intro word hany htext
      have hmap : word = "MAPLOCAL" := by
        unfold LookupType.ofText at htext
        split_ifs at htext with h₁ h₂ h₃ h₄ h₅ h₆
        exact h₅
      rw [hmap] at hany
      exact absurd hany (by decide)
    cases toks with
    | nil => cases hentry
    | cons t toks =>
      simp only [readValue] at hentry
      revert hentry
      cases t.type with
      | tokenIdentifier =>
        intro hentry
        simp only at hentry
        split at hentry
        · rename_i hany
          exact hword _ hany (Prod.mk.inj (Option.some.inj hentry)).2
        · cases hentry
      | tokenString =>
        intro hentry
        simp only at hentry
        split at hentry
        · rename_i hany
          exact hword _ hany (Prod.mk.inj (Option.some.inj hentry)).2
        · cases hentry
      | _ => intro hentry; cases hentry
  unfold Line.registers Line.value
  split
  all_goals first
    | exact hvalue _
    | (intro h; cases h)

theorem advance_subset (toks : List Token) : advance toks ⊆ toks := by
  cases toks with
  | nil => exact List.Subset.refl _
  | cons t rest =>
    simp only [advance]
    split
    · exact List.Subset.refl _
    · exact List.subset_cons_self t rest

theorem Scope.vars_ne_maplocal {sc : Scope} (hblock : sc.inSection = false) (key : String) :
    sc.vars key ≠ some .maplocal := by
  unfold Scope.vars
  rw [hblock]
  intro h
  obtain ⟨l, -, hentry⟩ := OrdMap.lastOf_eq_some h
  exact Line.registers_ne_maplocal hentry

/-- **Values that are observed** are those spelled for it. -/
theorem Scope.Reads.observed_iff {u : Unicode} {sc : Scope} {postconf : StrMap String}
    {vars : StrMap LookupType} (h : sc.Reads postconf vars)
    (hlexed : ∀ l ∈ sc.lines, ∀ t ∈ l.toks, t.Lexed u) :
    sc.Observed postconf vars ↔ sc.Sound := by
  have hvars : (fun key : String => vars[key]?) = sc.vars := funext h.vars
  -- What one line stores is observed as its value is spelled.
  have hline : ∀ l ∈ sc.lines, ∀ p, l.stores sc.inSection = some p →
      (Observes sc.vars p.value p.lk ↔ (l.value sc.inSection).Sound sc.vars) := by
    intro l hl p hp
    have hparse : ∃ rest, parsePostconfLine "POSTCONF" sc.inSection l.toks = (.ok p, rest) := by
      unfold Line.stores at hp
      split at hp
      · cases hparse : parsePostconfLine "POSTCONF" sc.inSection l.toks with
        | mk result rest =>
          rw [hparse] at hp
          cases result with
          | error err => cases hp
          | ok p' =>
            obtain rfl := Option.some.inj hp
            exact ⟨rest, rfl⟩
      · cases hp
    obtain ⟨rest, hparse⟩ := hparse
    obtain ⟨-, r, hvalue⟩ := parsePostconfLine_eq_ok hparse
    have hrest : ∀ t ∈ advance (advance l.toks), t.Lexed u := fun t ht =>
      hlexed l hl t (advance_subset _ (advance_subset _ ht))
    exact observes_iff_sound hrest (fun hblock key => Scope.vars_ne_maplocal hblock key) hvalue
  unfold Scope.Observed Scope.Sound
  rw [hvars]
  constructor
  · intro hobserved key l hsetting
    obtain ⟨hl, hkey⟩ := OrdMap.lastNamed_eq_some hsetting
    obtain ⟨p, hp⟩ := Option.ne_none_iff_exists'.mp (h.stores l hl (by simp [hkey]))
    obtain ⟨l', p', hsetting', hp', hvalue, hobserves⟩ := hobserved key p.value (by
      rw [h.postconf, hsetting, Option.bind_some, hp, Option.map_some])
    obtain rfl := Option.some.inj (hsetting.symm.trans hsetting')
    obtain rfl := Option.some.inj (hp.symm.trans hp')
    exact (hline l hl p hp).mp hobserves
  · intro hsound key value hstored
    rw [h.postconf] at hstored
    obtain ⟨l, hsetting, hmap⟩ := Option.bind_eq_some_iff.mp hstored
    obtain ⟨p, hp, rfl⟩ := Option.map_eq_some_iff.mp hmap
    obtain ⟨hl, -⟩ := OrdMap.lastNamed_eq_some hsetting
    exact ⟨l, p, hsetting, hp, rfl, (hline l hl p hp).mpr (hsound key l hsetting)⟩

/-! ## Accepted texts -/

def SectionText.name (s : SectionText) : String :=
  (current (advance s.header.toks)).literal

/-- The section a name stands for: the last of that name. -/
def sectionText (u : Unicode) (content name : String) : Option SectionText :=
  OrdMap.lastNamed (fun s => some s.name) (layout u content) name

/-- **What the `POSTCONF` directives resolve is observed**, in every section and every
block. -/
def LookupsObserved (u : Unicode) (content : String) (cfg : MtaConfig) : Prop :=
  ∀ name sec, cfg.sections[name]? = some sec →
    ∃ s, sectionText u content name = some s ∧
      s.scope.Observed sec.postconf sec.requiredVars ∧
      List.Forall₂ (fun b cond => b.scope.Observed cond.postconf cond.requiredVars)
        s.blocks sec.conditionals

/-- The text spells its values so. -/
def LookupsSound (u : Unicode) (content : String) : Prop :=
  ∀ name s, sectionText u content name = some s →
    s.scope.Sound ∧ ∀ b ∈ s.blocks, b.scope.Sound

theorem SectionText.start_eq_some {s : SectionText} {name : String}
    (h : s.start = some (name, sec)) :
    name = s.name ∧ sec.postconf = ∅ ∧ sec.requiredVars = ∅ ∧ sec.conditionals = [] := by
  unfold SectionText.start parseSectionHeader withIdentifier at h
  split at h
  · obtain ⟨rfl, rfl⟩ := Prod.mk.inj (Option.some.inj h)
    exact ⟨rfl, rfl, rfl, rfl⟩
  · cases h

theorem SectionText.read_eq_some {s : SectionText} {name : String}
    (h : s.read = some (name, sec)) :
    name = s.name ∧ ∃ start : MtaConfigSection, start.postconf = ∅ ∧ start.requiredVars = ∅ ∧
      start.conditionals = [] ∧ s.items.foldlM Item.apply start = some sec := by
  obtain ⟨⟨name₀, start⟩, hstart, hmap⟩ := Option.bind_eq_some_iff.mp h
  obtain ⟨sec₀, hitems, heq⟩ := Option.map_eq_some_iff.mp hmap
  obtain ⟨rfl, rfl⟩ := Prod.mk.inj heq
  obtain ⟨hname, hpostconf, hvars, hconditionals⟩ := start_eq_some hstart
  exact ⟨hname, start, hpostconf, hvars, hconditionals, hitems⟩

theorem getElem?_configOf {sections : List SectionText} {cfg : MtaConfig}
    (h : configOf sections = some cfg) (name : String) :
    cfg.sections[name]? = (OrdMap.lastNamed (fun s => some s.name) sections name).bind
      fun s => s.read.map Prod.snd := by
  have hstep : ∀ s ∈ sections, ∀ cfg cfg' : MtaConfig,
      (s.read.map fun named =>
        ({ sections := cfg.sections.insert named.1 named.2 } : MtaConfig)) = some cfg' →
          cfg'.sections = cfg.sections.insertOf s.read := by
    intro s _ cfg cfg' hround
    obtain ⟨⟨name, sec⟩, hread, rfl⟩ := Option.map_eq_some_iff.mp hround
    rw [hread]
    rfl
  have hentry : ∀ s ∈ sections, s.read = (some s.name).bind fun name =>
      (s.read.map Prod.snd).map fun sec => (name, sec) := by
    intro s _
    cases hread : s.read with
    | none => rfl
    | some named =>
      obtain ⟨name, sec⟩ := named
      obtain ⟨rfl, -⟩ := SectionText.read_eq_some hread
      rfl
  have hvalue : ∀ s ∈ sections, some s.name ≠ none → s.read.map Prod.snd ≠ none := by
    intro s hs _
    obtain ⟨cfg₁, cfg₂, hround⟩ := round_of_foldlM h s hs
    obtain ⟨named, hread, -⟩ := Option.map_eq_some_iff.mp hround
    simp [hread]
  rw [OrdMap.getElem?_foldlM_insertOf MtaConfig.sections SectionText.read hstep h,
    OrdMap.lastOf_eq_lastNamed hentry hvalue]
  simp

theorem SectionText.conditionals_read {items : List Item} {sec' : MtaConfigSection}
    (hlines : ∀ l ∈ items.filterMap Item.line?, Plain l.toks ∧ (current l.toks).type ≠ .tokenIf)
    (h : items.foldlM Item.apply sec = some sec') :
    ∃ conds, sec'.conditionals = sec.conditionals ++ conds ∧
      List.Forall₂ (fun b cond => Block.read b = some cond)
        (items.filterMap Item.block?) conds := by
  induction items generalizing sec with
  | nil =>
    obtain rfl : sec = sec' := by simpa using h
    exact ⟨[], by simp, .nil⟩
  | cons item rest ih =>
    rw [List.foldlM_cons] at h
    obtain ⟨sec₁, hfirst, hrest⟩ := Option.bind_eq_some_iff.mp h
    cases item with
    | line l =>
      have hhere := hlines l (by simp [Item.line?])
      obtain ⟨-, -, hsame⟩ := Line.apply_maps hhere.1 hhere.2 hfirst
      obtain ⟨conds, hconds, hread⟩ := ih (fun l hl => hlines l (by
        simp only [List.filterMap_cons, Item.line?]
        exact List.mem_cons_of_mem _ hl)) hrest
      exact ⟨conds, by rw [hconds, hsame], hread⟩
    | block b =>
      obtain ⟨cond, hb, rfl⟩ := Option.map_eq_some_iff.mp hfirst
      obtain ⟨conds, hconds, hread⟩ := ih hlines hrest
      exact ⟨cond :: conds, by simp [hconds], .cons hb hread⟩

theorem blocks_observed_iff {u : Unicode} {blocks : List Block} {conds : List Conditional}
    (h : List.Forall₂ (fun b cond => Block.read b = some cond) blocks conds)
    (hlexed : ∀ b ∈ blocks, ∀ l ∈ b.lines, ∀ t ∈ l.toks, t.Lexed u) :
    List.Forall₂ (fun b cond => b.scope.Observed cond.postconf cond.requiredVars) blocks conds ↔
      ∀ b ∈ blocks, b.scope.Sound := by
  induction h with
  | nil => simp
  | @cons b cond blocks conds hb _ ih =>
    have hhere := hlexed b List.mem_cons_self
    have hreads := Block.reads_scope (fun l hl t ht => (hhere l hl t ht).1) hb
    rw [List.forall₂_cons, ih fun b' hb' => hlexed b' (List.mem_cons_of_mem _ hb'),
      hreads.observed_iff hhere]
    simp

/-- **One section** of an accepted text. -/
theorem SectionText.observed_iff {u : Unicode} {s : SectionText} {name : String}
    {ls : List Line} (hfrom : ∀ item ∈ s.items, item.From ls)
    (hlexed : ∀ l ∈ ls, ∀ t ∈ l.toks, t.Lexed u) (hread : s.read = some (name, sec)) :
    (s.scope.Observed sec.postconf sec.requiredVars ∧
      List.Forall₂ (fun b cond => b.scope.Observed cond.postconf cond.requiredVars)
        s.blocks sec.conditionals) ↔
      s.scope.Sound ∧ ∀ b ∈ s.blocks, b.scope.Sound := by
  have hplain : ∀ l ∈ ls, Plain l.toks := fun l hl t ht => (hlexed l hl t ht).1
  have hscope : ∀ l ∈ s.scope.lines, l ∈ ls ∧ (current l.toks).type ≠ .tokenIf := by
    intro l hl
    obtain ⟨item, hitem, heq⟩ := List.mem_filterMap.mp hl
    cases item with
    | block b => cases heq
    | line l' =>
      obtain rfl := Option.some.inj heq
      exact hfrom _ hitem
  have hlines : ∀ l ∈ s.scope.lines, Plain l.toks ∧ (current l.toks).type ≠ .tokenIf :=
    fun l hl => ⟨hplain l (hscope l hl).1, (hscope l hl).2⟩
  have hblocks : ∀ b ∈ s.blocks, ∀ l ∈ b.lines, l ∈ ls := by
    intro b hb
    obtain ⟨item, hitem, heq⟩ := List.mem_filterMap.mp hb
    cases item with
    | line l => cases heq
    | block b' =>
      obtain rfl := Option.some.inj heq
      exact hfrom _ hitem
  obtain ⟨-, start, hpostconf, hvars, hconditionals, hitems⟩ := read_eq_some hread
  obtain ⟨conds, hconds, hblockReads⟩ := conditionals_read hlines hitems
  rw [hconditionals, List.nil_append] at hconds
  refine and_congr ?_ ?_
  · exact (reads_scope hlines hpostconf hvars hitems).observed_iff fun l hl =>
      hlexed l (hscope l hl).1
  · rw [hconds]
    exact blocks_observed_iff hblockReads fun b hb l hl => hlexed l (hblocks b hb l hl)

/-- **Lookups and their observation.**  In an accepted text everything the `POSTCONF`
directives resolve is registered as that lookup exactly if the values are spelled so. -/
theorem lookups_observed_iff {u : Unicode} {errors : List String} {content : String}
    {cfg : MtaConfig} (h : parseString u errors content = (some cfg, none)) :
    LookupsObserved u content cfg ↔ LookupsSound u content := by
  obtain ⟨hcfg, -⟩ := parseString_layout h
  have hlexed : ∀ l ∈ textLines u content, ∀ t ∈ l.toks, t.Lexed u := by
    intro l hl t ht
    obtain ⟨hline, hlexes⟩ := textLines_lexed h hl
    obtain ⟨⟨heof, hnewline, herror⟩, hname⟩ :=
      hlexes.kinds hline t.kind (List.mem_map_of_mem ht)
    refine ⟨?_, hname⟩
    simp only [TokenType.isStop, TokenType.isEnd, Bool.or_eq_false_iff, decide_eq_false_iff_not]
    exact ⟨hnewline, heof, herror⟩
  have hsection : ∀ name s, sectionText u content name = some s →
      ∃ sec, cfg.sections[name]? = some sec ∧
        ((s.scope.Observed sec.postconf sec.requiredVars ∧
          List.Forall₂ (fun b cond => b.scope.Observed cond.postconf cond.requiredVars)
            s.blocks sec.conditionals) ↔
          s.scope.Sound ∧ ∀ b ∈ s.blocks, b.scope.Sound) := by
    intro name s hs
    obtain ⟨hmem, -⟩ := OrdMap.lastNamed_eq_some hs
    obtain ⟨cfg₁, cfg₂, hround⟩ := round_of_foldlM hcfg s hmem
    obtain ⟨⟨name', sec⟩, hread, -⟩ := Option.map_eq_some_iff.mp hround
    refine ⟨sec, ?_, SectionText.observed_iff (layout_from hmem) hlexed hread⟩
    rw [getElem?_configOf hcfg name]
    unfold sectionText at hs
    rw [hs, Option.bind_some, hread, Option.map_some]
  constructor
  · intro hobserved name s hs
    obtain ⟨sec, hsec, hiff⟩ := hsection name s hs
    obtain ⟨s', hs', hhere⟩ := hobserved name sec hsec
    obtain rfl := Option.some.inj (hs.symm.trans hs')
    exact hiff.mp hhere
  · intro hsound name sec hsec
    have hs := hsec
    rw [getElem?_configOf hcfg name] at hs
    obtain ⟨s, hs, -⟩ := Option.bind_eq_some_iff.mp hs
    obtain ⟨sec', hsec', hiff⟩ := hsection name s hs
    obtain rfl := Option.some.inj (hsec.symm.trans hsec')
    exact ⟨s, hs, hiff.mpr (hsound name s hs)⟩

/-- A section with one lookup. -/
def oneLookup : String := "SECTION mta\n  POSTCONF myhostname VAR zimbraServiceHostname\n"

/-- The configuration a text is parsed to. -/
def parsed (content : String) : MtaConfig :=
  (parseString Unicode.ascii [] content).1.getD {}

theorem parseString_parsed {content : String}
    (hsome : (parseString Unicode.ascii [] content).1.isSome = true)
    (hok : (parseString Unicode.ascii [] content).2 = none) :
    parseString Unicode.ascii [] content = (some (parsed content), none) := by
  refine Prod.ext ?_ hok
  rw [parsed, Option.getD_eq_iff.mpr (Or.inl (Option.some_get hsome).symm), Option.some_get]

theorem lookups_observed_one :
    parseString Unicode.ascii [] oneLookup = (some (parsed oneLookup), none) ∧
      LookupsObserved Unicode.ascii oneLookup (parsed oneLookup) := by
  have hparse : parseString Unicode.ascii [] oneLookup = (some (parsed oneLookup), none) :=
    parseString_parsed (by decide +kernel) (by decide +kernel)
  refine ⟨hparse, (lookups_observed_iff hparse).mpr ?_⟩
  have hall : ∀ s ∈ layout Unicode.ascii oneLookup, s.blocks.length = 0 ∧
      s.scope.vars "zimbraServiceHostname" = some .var ∧
      ∀ l ∈ s.scope.lines, l.value true = .lookup .var "zimbraServiceHostname" := by
    decide +kernel
  intro name s hs
  obtain ⟨hblocks, hvars, hvalues⟩ := hall s (OrdMap.lastNamed_eq_some hs).1
  refine ⟨?_, ?_⟩
  · intro key l hl
    change (l.value true).Sound _
    rw [hvalues l (OrdMap.lastNamed_eq_some hl).1]
    exact ⟨hvars, fun h => by cases h⟩
  · rw [List.length_eq_zero_iff.mp hblocks]
    simp

/-- A name that is looked up as a server variable, and required as a local one below. -/
def twoTypes : String := "SECTION mta\n  POSTCONF myhostname VAR hostname\n  LOCAL hostname\n"

theorem lookup_not_observed :
    parseString Unicode.ascii [] twoTypes = (some (parsed twoTypes), none) ∧
      ¬LookupsObserved Unicode.ascii twoTypes (parsed twoTypes) := by
  have hparse : parseString Unicode.ascii [] twoTypes = (some (parsed twoTypes), none) :=
    parseString_parsed (by decide +kernel) (by decide +kernel)
  refine ⟨hparse, ?_⟩
  intro hobserved
  have hsome : ((parsed twoTypes).sections["mta"]?).isSome = true := by decide +kernel
  obtain ⟨sec, hsec⟩ := Option.isSome_iff_exists.mp hsome
  have hvalue : (((parsed twoTypes).sections["mta"]?).bind fun sec =>
      sec.postconf["myhostname"]?) = some "VAR:hostname" := by decide +kernel
  have hvars : (((parsed twoTypes).sections["mta"]?).bind fun sec =>
      sec.requiredVars["hostname"]?) = some .localconfig := by decide +kernel
  rw [hsec, Option.bind_some] at hvalue hvars
  obtain ⟨s, -, hscope, -⟩ := hobserved "mta" sec hsec
  obtain ⟨l, p, -, -, -, hread⟩ := hscope "myhostname" "VAR:hostname" hvalue
  have hkey : (parseValueSpec "VAR:hostname").2 = "hostname" := by decide
  have hvar := hread.2 .var (by decide)
  simp only [hkey, hvars] at hvar
  cases hvar

end Configd.Parser
