import Configd.Lib.Fields
import Configd.Parser.Layout

/-!
# Lookups of `POSTCONF` lines

The parser stores a lookup as text (`formatLookup`) and registers its key as a required variable;
`parseValueSpec` reads the text again when the directive is carried out.  The two agree for the
lookups people write, but not for all: a later line can register the name with another type, since
the required variables are one map from names to types; a `FILE` path with a colon, and a quoted
type name, are stored as text that is read as a literal; and a quoted word with a colon in it is
read as another lookup than the one that was registered.

`lookups_observed_iff` says for which texts everything a directive will look up is registered as
that lookup.
-/

namespace Configd.Parser

open Lib

/-! ## The spelling of a value -/

/-- How the value of a `POSTCONF` line is spelled: with a keyword and a key, with a word
that begins with a type name and a key, or as a text. -/
inductive ValueReading
  | empty
  | lookup (type : LookupType) (key : String)
  | worded (word key : String)
  | text (first : String)
  deriving DecidableEq

/-- The spelling of a value.  A keyword that is no type of lookup makes the value empty. -/
def readValue (allowMapLocal : Bool) : List Token → ValueReading
  | [] => .empty
  | t :: rest =>
    match t.type with
    | .tokenVar => .lookup .var (current rest).literal
    | .tokenLocal => .lookup .localconfig (current rest).literal
    | .tokenFile => .lookup .file (readPath rest).1
    | .tokenMaplocal =>
      if allowMapLocal then .lookup .maplocal (current rest).literal else .text t.literal
    | .tokenIdentifier | .tokenString =>
      if (lookupTypes allowMapLocal).any (Strings.hasPrefix t.literal ·) then
        .worded t.literal (current rest).literal
      else .text t.literal
    | _ => .empty

/-- The type a text before a colon names. -/
def colonType (before : String) : Option LookupType :=
  if before = "VAR" then some .var
  else if before = "LOCAL" then some .localconfig
  else if before = "MAPLOCAL" then some .maplocal
  else none

/-- The required variable a value registers. -/
def ValueReading.entry : ValueReading → Option (String × LookupType)
  | .lookup type key => some (key, type)
  | .worded word key => some (key, .ofText word)
  | _ => none

variable {type : LookupType}

theorem ofText_of_colonType {word : String} (h : colonType word = some type) :
    LookupType.ofText word = type := by
  unfold colonType at h
  split at h
  · rename_i hword
    cases h
    rw [hword]
    rfl
  · split at h
    · rename_i hword
      cases h
      rw [hword]
      rfl
    · split at h
      · rename_i hword
        cases h
        rw [hword]
        rfl
      · cases h

section Spelling

variable {allowMapLocal : Bool} {t : Token} {exact : Bool}

variable {cfgType : String}

/-- **The spelling of a lookup**: `FILE` and a path, another keyword and a word, or a word
that begins with a type name and a word. -/
theorem readValue_of_lookup
    (hexact : (t.type ≠ .tokenIdentifier && t.type ≠ .tokenString) = exact)
    (hlookup : lookupType allowMapLocal t = some cfgType) (toks : List Token) :
    (exact = true ∧ cfgType = "FILE" ∧
      readValue allowMapLocal (t :: toks) = .lookup .file (readPath toks).1) ∨
    ((exact && decide (cfgType = "FILE")) = false ∧
      ((∃ type, colonType cfgType = some type ∧
        readValue allowMapLocal (t :: toks) = .lookup type (current toks).literal) ∨
        readValue allowMapLocal (t :: toks) = .worded cfgType (current toks).literal)) := by
  simp only [lookupType] at hlookup
  simp only [readValue]
  revert hlookup hexact
  cases t.type with
  | tokenVar =>
    rintro rfl hlookup
    obtain rfl := Option.some.inj hlookup
    exact Or.inr ⟨by decide, Or.inl ⟨.var, rfl, rfl⟩⟩
  | tokenLocal =>
    rintro rfl hlookup
    obtain rfl := Option.some.inj hlookup
    exact Or.inr ⟨by decide, Or.inl ⟨.localconfig, rfl, rfl⟩⟩
  | tokenMaplocal =>
    rintro rfl hlookup
    simp only at hlookup
    split at hlookup
    · rename_i hallow
      obtain rfl := Option.some.inj hlookup
      exact Or.inr ⟨by decide, Or.inl ⟨.maplocal, rfl, by rw [if_pos hallow]⟩⟩
    · cases hlookup
  | tokenFile =>
    rintro rfl hlookup
    obtain rfl := Option.some.inj hlookup
    exact Or.inl ⟨rfl, rfl, rfl⟩
  | tokenIdentifier =>
    rintro rfl hlookup
    simp only at hlookup
    split at hlookup
    · rename_i hany
      obtain rfl := Option.some.inj hlookup
      exact Or.inr ⟨by simp, Or.inr (by rw [if_pos hany])⟩
    · cases hlookup
  | tokenString =>
    rintro rfl hlookup
    simp only at hlookup
    split at hlookup
    · rename_i hany
      obtain rfl := Option.some.inj hlookup
      exact Or.inr ⟨by simp, Or.inr (by rw [if_pos hany])⟩
    · cases hlookup
  | _ =>
    intro _ hlookup
    cases hlookup

theorem readValue_of_literal (hlookup : lookupType allowMapLocal t = none) (toks : List Token) :
    (readValue allowMapLocal (t :: toks)).entry = none := by
  simp only [lookupType] at hlookup
  simp only [readValue]
  revert hlookup
  cases t.type with
  | tokenMaplocal =>
    intro hlookup
    have hallow : ¬allowMapLocal = true := by
      simpa using hlookup
    simp only [if_neg hallow, ValueReading.entry]
  | tokenIdentifier =>
    intro hlookup
    have hany : ¬(lookupTypes allowMapLocal).any (Strings.hasPrefix t.literal ·) = true := by
      simpa using hlookup
    simp only [if_neg hany, ValueReading.entry]
  | tokenString =>
    intro hlookup
    have hany : ¬(lookupTypes allowMapLocal).any (Strings.hasPrefix t.literal ·) = true := by
      simpa using hlookup
    simp only [if_neg hany, ValueReading.entry]
  | tokenVar => rintro ⟨⟩
  | tokenLocal => rintro ⟨⟩
  | tokenFile => rintro ⟨⟩
  | _ => exact fun _ => rfl

variable {toks : List Token}

theorem readLookupKey_word
    (hpath : (exact && decide (cfgType = "FILE")) = false)
    (hname : (readLookupKey cfgType exact toks).1 ≠ "") :
    (readLookupKey cfgType exact toks).1 = (current toks).literal := by
  unfold readLookupKey at hname ⊢
  rw [hpath] at hname ⊢
  simp only [Bool.false_eq_true, if_false] at hname ⊢
  split
  · rfl
  · rename_i hother
    rw [if_neg hother] at hname
    exact absurd rfl hname

variable {directive value : String}

/-- **What the value of a line is parsed to**: a text, or a lookup with a key. -/
theorem parsePostconfValue_eq_ok {lk : Lookup}
    {rest : List Token} (ht : t.type.isStop = false)
    (h : parsePostconfValue directive allowMapLocal (t :: toks) = (.ok (value, lk), rest)) :
    (lookupType allowMapLocal t = none ∧
      value = (parseLiteralValue allowMapLocal (t :: toks)).1 ∧ lk = {}) ∨
    ∃ cfgType exact name, (t.type ≠ .tokenIdentifier && t.type ≠ .tokenString) = exact ∧
      lookupType allowMapLocal t = some cfgType ∧
      (readLookupKey cfgType exact toks).1 = name ∧ name ≠ "" ∧
      value = formatLookup cfgType name exact ∧ lk = ⟨name, cfgType⟩ := by
  rw [parsePostconfValue_cons directive allowMapLocal ht] at h
  cases hlookup : lookupType allowMapLocal t with
  | none =>
    simp only [hlookup, Prod.mk.injEq, Except.ok.injEq] at h
    obtain ⟨⟨rfl, rfl⟩, -⟩ := h
    exact Or.inl ⟨rfl, rfl, rfl⟩
  | some cfgType =>
    simp only [hlookup] at h
    split at h
    · cases (Prod.mk.inj h).1
    · rename_i hname
      simp only [Prod.mk.injEq, Except.ok.injEq] at h
      obtain ⟨⟨rfl, rfl⟩, -⟩ := h
      exact Or.inr ⟨cfgType, _, _, rfl, rfl, rfl, hname, rfl, rfl⟩

end Spelling

/-! ## What a line registers -/

/-- The required variable a lookup registers. -/
def Lookup.entry (lk : Lookup) : Option (String × LookupType) :=
  if lk.name = "" then none else some (lk.name, .ofText lk.typ)

theorem Lookup.register_eq (lk : Lookup) (vars : StrMap LookupType) :
    lk.register vars = vars.insertOf lk.entry := by
  unfold register entry
  split <;> rfl

variable {allowMapLocal : Bool}

theorem parsePostconfValue_entry {lk : Lookup}
    {rest : List Token} (hplain : Plain toks)
    (h : parsePostconfValue directive allowMapLocal toks = (.ok (value, lk), rest)) :
    lk.entry = (readValue allowMapLocal toks).entry := by
  cases toks with
  | nil =>
    obtain rfl := (Prod.mk.inj (Except.ok.inj (Prod.mk.inj h).1)).2
    rfl
  | cons t toks =>
    rcases parsePostconfValue_eq_ok (plain_cons.mp hplain).1 h with
      ⟨hlookup, -, rfl⟩ | ⟨cfgType, exact, name, hexact, hlookup, rfl, hname, -, rfl⟩
    · rw [readValue_of_literal hlookup]
      rfl
    · rw [Lookup.entry, if_neg hname]
      rcases readValue_of_lookup hexact hlookup toks with
        ⟨rfl, rfl, hvalue⟩ | ⟨hpath, ⟨type, htype, hvalue⟩ | hvalue⟩
      · rw [hvalue]
        rfl
      · rw [hvalue, readLookupKey_word hpath hname, ofText_of_colonType htype]
        rfl
      · rw [hvalue, readLookupKey_word hpath hname]
        rfl

/-- The name after the keyword of a line. -/
def Line.name (l : Line) : String :=
  (current (advance l.toks)).literal

def Line.value (allowMapLocal : Bool) (l : Line) : ValueReading :=
  readValue allowMapLocal (advance (advance l.toks))

/-- The required variable a line registers in a section, or in a block.  `MAPLOCAL` is a
type of lookup in sections only. -/
def Line.registers (inSection : Bool) (l : Line) : Option (String × LookupType) :=
  match (current l.toks).type with
  | .tokenVar => some (l.name, .var)
  | .tokenLocal => some (l.name, .localconfig)
  | .tokenMapfile => if inSection then some (l.name, .mapfile) else none
  | .tokenMaplocal => if inSection then some (l.name, .maplocal) else none
  | .tokenPostconf => (l.value inSection).entry
  | .tokenPostconfd => (l.value false).entry
  | _ => none

/-- The parameter a `POSTCONF` line sets, with the value and the lookup. -/
def Line.stores (allowMapLocal : Bool) (l : Line) : Option PostconfLine :=
  if (current l.toks).type = .tokenPostconf then
    (parsePostconfLine "POSTCONF" allowMapLocal l.toks).1.toOption
  else none

def PostconfLine.entry (p : PostconfLine) : String × String :=
  (p.key, p.value)

/-- **What a `POSTCONF` line says** stands after its keyword. -/
theorem parsePostconfLine_eq_ok {l : Line}
    {p : PostconfLine} {rest : List Token}
    (h : parsePostconfLine directive allowMapLocal l.toks = (.ok p, rest)) :
    p.key = l.name ∧ ∃ r, parsePostconfValue directive allowMapLocal (advance (advance l.toks)) =
      (.ok (p.value, p.lk), r) := by
  unfold parsePostconfLine withIdentifier at h
  split at h
  · obtain ⟨⟨value, lk⟩, r, hvalue, hp⟩ := andThen_eq_ok h
    obtain rfl := Except.ok.inj (Prod.mk.inj hp).1
    exact ⟨rfl, r, hvalue⟩
  · cases (Prod.mk.inj h).1

theorem plain_advance (h : Plain toks) : Plain (advance toks) := by
  cases toks with
  | nil => exact h
  | cons t rest =>
    rw [advance_cons (plain_cons.mp h).1]
    exact (plain_cons.mp h).2

theorem parsePostconfLine_registers {α : Type}
    {l : Line} (hl : Plain l.toks) {f : PostconfLine → α} {a : α}
    (h : (andThen (parsePostconfLine directive allowMapLocal l.toks) fun line toks =>
      (.ok (f line), skipToNewline toks)).1.toOption = some a) :
    ∃ line, (parsePostconfLine directive allowMapLocal l.toks).1.toOption = some line ∧
      a = f line ∧
      ∀ vars : StrMap LookupType,
        line.lk.register vars = vars.insertOf (l.value allowMapLocal).entry := by
  cases hparse : parsePostconfLine directive allowMapLocal l.toks with
  | mk result rest =>
    rw [hparse] at h
    cases result with
    | error err => cases h
    | ok line =>
      obtain ⟨-, r, hvalue⟩ := parsePostconfLine_eq_ok hparse
      refine ⟨line, rfl, (Option.some.inj h).symm, ?_⟩
      intro vars
      rw [Lookup.register_eq, parsePostconfValue_entry (plain_advance (plain_advance hl)) hvalue]
      rfl

/-- **A line of a section** and the two maps. -/
theorem Line.apply_maps {l : Line} {sec sec' : MtaConfigSection} (hl : Plain l.toks)
    (hif : (current l.toks).type ≠ .tokenIf) (h : l.apply sec = some sec') :
    sec'.postconf = sec.postconf.insertOf ((l.stores true).map PostconfLine.entry) ∧
      sec'.requiredVars = sec.requiredVars.insertOf (l.registers true) ∧
      sec'.conditionals = sec.conditionals := by
  have hvar : ∀ type errMsg,
      (parseRequiredVarDirective type errMsg sec l.toks).1.toOption = some sec' →
        sec' = { sec with requiredVars := sec.requiredVars.insert l.name type } := by
    intro type errMsg h
    unfold parseRequiredVarDirective withIdentifier at h
    split at h
    · exact (Option.some.inj h).symm
    · cases h
  unfold Line.apply parseDirective at h
  unfold Line.stores Line.registers
  cases htype : (current l.toks).type with
  | tokenVar =>
    simp only [htype] at h
    rw [hvar _ _ h]
    exact ⟨rfl, rfl, rfl⟩
  | tokenLocal =>
    simp only [htype] at h
    rw [hvar _ _ h]
    exact ⟨rfl, rfl, rfl⟩
  | tokenMapfile =>
    simp only [htype] at h
    rw [hvar _ _ h]
    exact ⟨rfl, rfl, rfl⟩
  | tokenMaplocal =>
    simp only [htype] at h
    rw [hvar _ _ h]
    exact ⟨rfl, rfl, rfl⟩
  | tokenPostconf =>
    simp only [htype, parsePostconf] at h
    obtain ⟨line, hline, rfl, hregister⟩ := parsePostconfLine_registers hl h
    exact ⟨by rw [if_pos rfl, hline]; rfl, hregister _, rfl⟩
  | tokenPostconfd =>
    simp only [htype, parsePostconfd] at h
    obtain ⟨line, -, rfl, hregister⟩ := parsePostconfLine_registers hl h
    exact ⟨rfl, hregister _, rfl⟩
  | tokenRewrite =>
    simp only [htype, parseRewrite] at h
    split at h
    · cases h
    · split at h
      · cases h
      · split at h
        · split at h
          · obtain rfl := (Option.some.inj h).symm
            exact ⟨rfl, rfl, rfl⟩
          · cases h
        · obtain rfl := (Option.some.inj h).symm
          exact ⟨rfl, rfl, rfl⟩
  | tokenRestart =>
    simp only [htype] at h
    obtain rfl := (Option.some.inj h).symm
    exact ⟨rfl, rfl, rfl⟩
  | tokenProxygen =>
    simp only [htype] at h
    obtain rfl := (Option.some.inj h).symm
    exact ⟨rfl, rfl, rfl⟩
  | tokenFi =>
    simp only [htype] at h
    obtain rfl := (Option.some.inj h).symm
    exact ⟨rfl, rfl, rfl⟩
  | tokenIf => exact absurd htype hif
  | tokenIdentifier =>
    simp only [htype] at h
    split at h
    · unfold parseLdap withIdentifier at h
      split at h
      · obtain rfl := (Option.some.inj h).symm
        simp only
        split <;> exact ⟨rfl, rfl, rfl⟩
      · cases h
    · cases h
  | _ =>
    simp only [htype] at h
    cases h

/-- **A line of a block** and the two maps. -/
theorem Line.applyBlock_maps {l : Line} {cond cond' : Conditional} (hl : Plain l.toks)
    (h : l.applyBlock cond = some cond') :
    cond'.postconf = cond.postconf.insertOf ((l.stores false).map PostconfLine.entry) ∧
      cond'.requiredVars = cond.requiredVars.insertOf (l.registers false) := by
  unfold Line.applyBlock parseConditionalLine at h
  unfold Line.stores Line.registers
  cases htype : (current l.toks).type with
  | tokenVar =>
    simp only [htype, parseConditionalRequiredVar] at h
    split at h
    · obtain rfl := (Option.some.inj h).symm
      exact ⟨rfl, rfl⟩
    · cases h
  | tokenLocal =>
    simp only [htype, parseConditionalRequiredVar] at h
    split at h
    · obtain rfl := (Option.some.inj h).symm
      exact ⟨rfl, rfl⟩
    · cases h
  | tokenPostconf =>
    simp only [htype] at h
    obtain ⟨line, hline, rfl, hregister⟩ := parsePostconfLine_registers hl h
    exact ⟨by rw [if_pos rfl, hline]; rfl, hregister _⟩
  | tokenPostconfd =>
    simp only [htype] at h
    obtain ⟨line, -, rfl, hregister⟩ := parsePostconfLine_registers hl h
    exact ⟨rfl, hregister _⟩
  | _ =>
    simp only [htype] at h
    obtain rfl := (Option.some.inj h).symm
    exact ⟨rfl, rfl⟩

/-! ## Reading a stored value again -/

/-- The lookup a stored value is read as; a literal is none. -/
def ValueType.lookup : ValueType → Option LookupType
  | .var => some .var
  | .localconfig => some .localconfig
  | .maplocal => some .maplocal
  | .file => some .file
  | .literal => none

theorem parseValueSpec_of_cut {before after : String}
    (hcut : Strings.cut value ':' = some (before, after)) :
    ValueType.lookup (parseValueSpec value).1 = colonType before ∧
      (colonType before ≠ none → (parseValueSpec value).2 = after) := by
  unfold parseValueSpec colonType
  simp only [hcut]
  split
  · exact ⟨rfl, fun _ => rfl⟩
  · split
    · exact ⟨rfl, fun _ => rfl⟩
    · split
      · exact ⟨rfl, fun _ => rfl⟩
      · exact ⟨rfl, fun h => absurd rfl h⟩

theorem cut_colon {before : String} (hbefore : ':' ∉ before.toList) (after : String) :
    Strings.cut (before ++ ":" ++ after) ':' = some (before, after) :=
  Strings.cut_append before after ':' hbefore

theorem cut_eq_some {before after : String}
    (hcut : Strings.cut value ':' = some (before, after)) :
    value = before ++ ":" ++ after ∧ ':' ∉ before.toList := by
  obtain ⟨hvalue, hbefore⟩ := Strings.cut_eq_some hcut
  refine ⟨?_, hbefore⟩
  rw [← String.toList_inj, hvalue]
  simp

theorem parseValueSpec_file {path : String} (hpath : ':' ∉ path.toList) :
    parseValueSpec ("FILE " ++ path) = (.file, path) := by
  have hcut : Strings.cut ("FILE " ++ path) ':' = none := by
    unfold Strings.cut
    rw [if_neg]
    simp [hpath]
  unfold parseValueSpec
  rw [hcut, Strings.cutPrefix_append]

theorem parseValueSpec_file_colon {path : String} (hpath : ':' ∈ path.toList) :
    ValueType.lookup (parseValueSpec ("FILE " ++ path)).1 = none := by
  obtain ⟨l, r, heq, hl⟩ := List.eq_append_cons_of_mem hpath
  have hvalue : "FILE " ++ path =
      String.ofList ("FILE ".toList ++ l) ++ ":" ++ String.ofList r := by
    rw [← String.ofList_toList (s := path), heq, show (":" : String) = String.ofList [':'] from rfl]
    simp [← String.toList_inj]
  have hcut : Strings.cut ("FILE " ++ path) ':' =
      some (String.ofList ("FILE ".toList ++ l), String.ofList r) := by
    rw [hvalue]
    refine cut_colon ?_ _
    simp [hl]
  rw [(parseValueSpec_of_cut hcut).1]
  have hne : ∀ type : String, ' ' ∉ type.toList →
      String.ofList ("FILE ".toList ++ l) ≠ type := by
    rintro type hspace rfl
    simp at hspace
  unfold colonType
  rw [if_neg (hne _ (by decide)), if_neg (hne _ (by decide)), if_neg (hne _ (by decide))]

/-- What follows the first word of a text. -/
def Trails (tail : String) : Prop :=
  tail = "" ∨ ∃ rest, tail.toList = ' ' :: rest

theorem hasPrefix_of_trails {first tail pre : String} (htail : Trails tail)
    (hpre : ' ' ∉ pre.toList) (h : Strings.hasPrefix (first ++ tail) pre = true) :
    Strings.hasPrefix first pre = true := by
  rw [Strings.hasPrefix_iff_toList] at h ⊢
  rw [String.toList_append] at h
  rcases Nat.le_total pre.toList.length first.toList.length with hle | hle
  · exact List.prefix_of_prefix_length_le h (List.prefix_append _ _) hle
  · obtain ⟨more, hmore⟩ := List.prefix_of_prefix_length_le (List.prefix_append _ _) h hle
    rw [← hmore, List.prefix_append_right_inj] at h
    cases more with
    | nil =>
      rw [List.append_nil] at hmore
      rw [hmore]
    | cons c more =>
      rcases htail with rfl | ⟨rest, hrest⟩
      · simp at h
      · rw [hrest, List.cons_prefix_cons] at h
        exact absurd (by rw [← hmore, h.1]; simp) hpre

theorem parseValueSpec_text {first tail : String} (htail : Trails tail)
    (hplain : ∀ type ∈ ["VAR", "LOCAL", "FILE"], Strings.hasPrefix first type = false) :
    ValueType.lookup (parseValueSpec (first ++ tail)).1 =
      if Strings.hasPrefix first "MAPLOCAL:" then some .maplocal else none := by
  have hblank : ∀ type ∈ ["VAR", "LOCAL", "FILE"], ' ' ∉ type.toList := by decide
  have hno : ∀ type ∈ ["VAR", "LOCAL", "FILE"], Strings.hasPrefix (first ++ tail) type = false := by
    intro type htype
    rw [Bool.eq_false_iff]
    intro h
    have hfirst := hasPrefix_of_trails htail (hblank type htype) h
    rw [hplain type htype] at hfirst
    cases hfirst
  cases hcut : Strings.cut (first ++ tail) ':' with
  | some parts =>
    obtain ⟨before, after⟩ := parts
    obtain ⟨hvalue, hbefore⟩ := cut_eq_some hcut
    rw [(parseValueSpec_of_cut hcut).1]
    have hbeginning : Strings.hasPrefix (first ++ tail) before = true := by
      rw [hvalue, String.append_assoc]
      exact Strings.hasPrefix_append _ _
    unfold colonType
    rw [if_neg (by rintro rfl; rw [hno "VAR" (by simp)] at hbeginning; cases hbeginning),
      if_neg (by rintro rfl; rw [hno "LOCAL" (by simp)] at hbeginning; cases hbeginning)]
    by_cases hmap : before = "MAPLOCAL"
    · have hfirst : Strings.hasPrefix first "MAPLOCAL:" = true := by
        refine hasPrefix_of_trails htail (by decide) ?_
        rw [hvalue, hmap]
        exact Strings.hasPrefix_append "MAPLOCAL:" after
      rw [if_pos hmap, if_pos hfirst]
    · rw [if_neg hmap, if_neg]
      intro hfirst
      -- The first colon is that of the prefix.
      obtain ⟨rest, hrest⟩ := Strings.hasPrefix_iff.mp hfirst
      have hsplit : first ++ tail = "MAPLOCAL" ++ ":" ++ (rest ++ tail) := by
        rw [hrest, String.append_assoc]
        rfl
      rw [hsplit, cut_colon (by decide)] at hcut
      exact hmap (Prod.mk.inj (Option.some.inj hcut)).1.symm
  | none =>
    have hcolon : ':' ∉ (first ++ tail).toList := by
      intro hmem
      rw [Strings.cut, if_pos hmem] at hcut
      cases hcut
    have hfile : Strings.cutPrefix (first ++ tail) "FILE " = none := by
      unfold Strings.cutPrefix
      rw [if_neg]
      intro h
      have hshort : Strings.hasPrefix (first ++ tail) "FILE" = true :=
        Strings.hasPrefix_of_append (b := " ") h
      rw [hno "FILE" (by simp)] at hshort
      cases hshort
    have hmap : Strings.hasPrefix first "MAPLOCAL:" = false := by
      rw [Bool.eq_false_iff]
      intro h
      obtain ⟨rest, rfl⟩ := Strings.hasPrefix_iff.mp h
      exact hcolon (by simp)
    unfold parseValueSpec
    rw [hcut, hfile, hmap]
    rfl

/-! ## The value of a line -/

/-- The types of lookups in values. -/
def lookupTypesOf : List LookupType :=
  [.var, .localconfig, .file, .maplocal]

/-- What is looked up for the value is registered as that lookup, and read so again. -/
def Observes (vars : String → Option LookupType) (value : String) (lk : Lookup) : Prop :=
  (∀ type ∈ lookupTypesOf, lk.name ≠ "" → lk.typ = type.text →
    ValueType.lookup (parseValueSpec value).1 = some type ∧ (parseValueSpec value).2 = lk.name ∧
      vars lk.name = some type) ∧
  ∀ type, ValueType.lookup (parseValueSpec value).1 = some type →
    vars (parseValueSpec value).2 = some type

/-- The spelling that makes it so: a keyword whose key is registered with its type, a path
without a colon; a word that is a type name whose key is registered with it (but `FILE`),
or one with a colon that is registered as it will be read; a text that does not begin with
a type. -/
def ValueReading.Sound (vars : String → Option LookupType) : ValueReading → Prop
  | .empty => True
  | .lookup type key => vars key = some type ∧ (type = .file → ':' ∉ key.toList)
  | .worded word key => word ≠ "FILE" ∧
      match Strings.cut word ':' with
      | none => ∀ type, colonType word = some type → vars key = some type
      | some (before, after) =>
        ∀ type, colonType before = some type → vars (after ++ ":" ++ key) = some type
  | .text first => Strings.hasPrefix first "MAPLOCAL:" = false

theorem colonType_eq_some {word : String} (h : colonType word = some type) :
    word = type.text ∧ ':' ∉ word.toList ∧ type ∈ lookupTypesOf := by
  unfold colonType at h
  split at h
  · rename_i hword
    cases h
    subst hword
    decide
  · split at h
    · rename_i hword
      cases h
      subst hword
      decide
    · split at h
      · rename_i hword
        cases h
        subst hword
        decide
      · cases h

theorem text_inj {type' : LookupType} (h : type ∈ lookupTypesOf) (h' : type' ∈ lookupTypesOf)
    (htext : type.text = type'.text) : type = type' := by
  have hinj : ∀ type ∈ lookupTypesOf, ∀ type' ∈ lookupTypesOf, type.text = type'.text →
      type = type' := by decide
  exact hinj type h type' h' htext

section Observes

variable {vars : String → Option LookupType} {name : String}

theorem observes_literal
    (hvalue : ValueType.lookup (parseValueSpec value).1 = none) : Observes vars value {} := by
  refine ⟨fun _ _ h => absurd rfl h, ?_⟩
  intro type htype
  rw [hvalue] at htype
  cases htype

theorem observes_colon_iff {word : String} (hname : name ≠ "")
    (hword : colonType word = some type) :
    Observes vars (word ++ ":" ++ name) ⟨name, word⟩ ↔ vars name = some type := by
  obtain ⟨htext, hcolon, hmem⟩ := colonType_eq_some hword
  obtain ⟨hlookup, hkey⟩ := parseValueSpec_of_cut (cut_colon hcolon name)
  have hkey := hkey (by simp [hword])
  rw [hword] at hlookup
  constructor
  · intro h
    exact (h.1 type hmem hname htext).2.2
  · intro hvars
    refine ⟨?_, ?_⟩
    · intro type' htype' _ htext'
      rw [text_inj htype' hmem (htext'.symm.trans htext)]
      exact ⟨hlookup, hkey, hvars⟩
    · intro type' htype'
      rw [hlookup] at htype'
      rw [hkey, hvars, htype']

theorem observes_file_iff (hname : name ≠ "") :
    Observes vars ("FILE " ++ name) ⟨name, "FILE"⟩ ↔
      vars name = some .file ∧ ':' ∉ name.toList := by
  constructor
  · intro h
    obtain ⟨hlookup, -, hvars⟩ := h.1 .file (by simp [lookupTypesOf]) hname rfl
    refine ⟨hvars, ?_⟩
    intro hcolon
    rw [parseValueSpec_file_colon hcolon] at hlookup
    cases hlookup
  · rintro ⟨hvars, hcolon⟩
    have hspec := parseValueSpec_file hcolon
    refine ⟨?_, ?_⟩
    · intro type htype _ htext
      obtain rfl : type = .file := text_inj htype (by simp [lookupTypesOf]) htext.symm
      rw [hspec]
      exact ⟨rfl, rfl, hvars⟩
    · intro type htype
      rw [hspec] at htype ⊢
      cases htype
      exact hvars

theorem observes_worded_iff (word : String) (hname : name ≠ "") :
    Observes vars (word ++ ":" ++ name) ⟨name, word⟩ ↔
      (ValueReading.worded word name).Sound vars := by
  simp only [ValueReading.Sound]
  cases hcut : Strings.cut word ':' with
  | none =>
    have hcolon : ':' ∉ word.toList := by
      intro hmem
      rw [Strings.cut, if_pos hmem] at hcut
      cases hcut
    simp only
    cases hword : colonType word with
    | some type =>
      rw [observes_colon_iff hname hword]
      have hfile : word ≠ "FILE" := by
        rintro rfl
        cases hword
      simp [hfile]
    | none =>
      have hlookup := (parseValueSpec_of_cut (cut_colon hcolon name)).1
      rw [hword] at hlookup
      simp only [reduceCtorEq, false_implies, implies_true, and_true]
      constructor
      · rintro h rfl
        have hfile := (h.1 .file (by simp [lookupTypesOf]) hname rfl).1
        rw [hlookup] at hfile
        cases hfile
      · intro hfile
        refine ⟨?_, ?_⟩
        · intro type htype _ htext
          -- The other types are read from what stands before the colon.
          have hread : ∀ type ∈ lookupTypesOf, type ≠ .file →
              colonType type.text = some type := by decide
          obtain rfl : word = type.text := htext
          rw [hread type htype (by rintro rfl; exact hfile rfl)] at hword
          cases hword
        · intro type htype
          rw [hlookup] at htype
          cases htype
  | some parts =>
    obtain ⟨before, after⟩ := parts
    obtain ⟨rfl, hbefore⟩ := cut_eq_some hcut
    have hcolon : ∀ type : LookupType, type ∈ lookupTypesOf →
        before ++ ":" ++ after ≠ type.text := by
      intro type htype heq
      have hno : ∀ type ∈ lookupTypesOf, ':' ∉ type.text.toList := by decide
      refine hno type htype ?_
      rw [← heq]
      simp
    obtain ⟨hlookup, hkey⟩ := parseValueSpec_of_cut (cut_colon hbefore (after ++ ":" ++ name))
    have hassoc : before ++ ":" ++ after ++ ":" ++ name =
        before ++ ":" ++ (after ++ ":" ++ name) := by
      simp [String.append_assoc]
    rw [hassoc]
    simp only
    constructor
    · intro h
      refine ⟨hcolon .file (by simp [lookupTypesOf]), ?_⟩
      intro type htype
      have hvars := h.2 type (hlookup.trans htype)
      rwa [hkey (by simp [htype])] at hvars
    · rintro ⟨-, hvars⟩
      refine ⟨fun type htype _ htext => absurd htext (hcolon type htype), ?_⟩
      intro type htype
      rw [hlookup] at htype
      rw [hkey (by simp [htype])]
      exact hvars type htype

end Observes

/-! ## Spelling and observation -/

/-- A token as the lexer makes it on a line. -/
def Token.Lexed (u : Unicode) (t : Token) : Prop :=
  t.type.isStop = false ∧ (t.type ≠ .tokenString → IsName u t.kind)

theorem trails_join (first : String) (more : List String) :
    ∃ tail, Strings.join " " (first :: more) = first ++ tail ∧ Trails tail := by
  cases more with
  | nil => exact ⟨"", by simp [Strings.join], Or.inl rfl⟩
  | cons second rest =>
    refine ⟨" " ++ Strings.join " " (second :: rest), ?_, Or.inr ⟨_, by simp; rfl⟩⟩
    rw [Strings.join, String.intercalate_cons_cons, Strings.join, String.append_assoc]

theorem parseValue_word {t : Token} (hstop : t.type.isStop = false)
    (ht : t.type = .tokenIdentifier ∨ t.type = .tokenString) (rest : List Token) :
    ∃ tail, (parseValue (t :: rest)).1 = t.literal ++ tail ∧ Trails tail := by
  have hpart : valuePart (t :: rest) = some ([t.literal], rest) := by
    unfold valuePart
    rw [current_cons, advance_cons hstop]
    rcases ht with ht | ht <;> rw [ht]
  unfold parseValue
  rw [List.length_cons, valueParts, hpart]
  exact trails_join t.literal _

theorem observes_text_iff {vars : String → Option LookupType} {first tail : String}
    (htail : Trails tail)
    (hplain : ∀ type ∈ ["VAR", "LOCAL", "FILE"], Strings.hasPrefix first type = false)
    (hvars : Strings.hasPrefix first "MAPLOCAL:" = true → ∀ key, vars key ≠ some .maplocal) :
    Observes vars (first ++ tail) {} ↔ (ValueReading.text first).Sound vars := by
  have hlookup := parseValueSpec_text htail hplain
  simp only [ValueReading.Sound]
  cases hmap : Strings.hasPrefix first "MAPLOCAL:" with
  | false =>
    rw [hmap] at hlookup
    simp only [iff_true]
    exact observes_literal hlookup
  | true =>
    rw [hmap] at hlookup
    simp only [Bool.true_eq_false, iff_false]
    intro h
    exact hvars hmap _ (h.2 .maplocal hlookup)

theorem not_hasPrefix_of_maplocal {u : Unicode} {t : Token} (ht : t.Lexed u)
    (htype : t.type = .tokenMaplocal) :
    (∀ type ∈ ["VAR", "LOCAL", "FILE"], Strings.hasPrefix t.literal type = false) ∧
      Strings.hasPrefix t.literal "MAPLOCAL:" = false := by
  have hname := ht.2 (by rw [htype]; decide)
  have hupper : toUpper u t.literal = "MAPLOCAL" :=
    toUpper_of_lookupKeyword (hname.1.symm.trans htype) (by decide)
  refine ⟨?_, ?_⟩
  · intro type hmem
    rw [Bool.eq_false_iff]
    intro h
    obtain ⟨rest, hrest⟩ := List.isPrefixOf_iff_prefix.mp h
    have hchars : (toUpper u t.literal).toList.head? = type.toList.head? := by
      have hhead : ∀ type ∈ ["VAR", "LOCAL", "FILE"], ∃ c cs, type.toList = c :: cs ∧
          c.toNat < 128 ∧ c.toUpper = c := by
        intro type hmem
        fin_cases hmem
        · exact ⟨'V', ['A', 'R'], by decide⟩
        · exact ⟨'L', ['O', 'C', 'A', 'L'], by decide⟩
        · exact ⟨'F', ['I', 'L', 'E'], by decide⟩
      obtain ⟨c, cs, hcs, hascii, hc⟩ := hhead type hmem
      rw [hcs] at hrest ⊢
      simp [toUpper, ← hrest, hascii, hc]
    have hother : ∀ type ∈ ["VAR", "LOCAL", "FILE"],
        "MAPLOCAL".toList.head? ≠ type.toList.head? := by decide
    rw [hupper] at hchars
    exact hother type hmem hchars
  · rw [Bool.eq_false_iff]
    intro h
    obtain ⟨rest, hrest⟩ := List.isPrefixOf_iff_prefix.mp h
    have hcolon := hname.2 ':' (by
      change ':' ∈ t.literal.toList
      rw [← hrest]
      simp)
    rcases hcolon with hident | hbang
    · exact absurd hident (by simp [isIdentifierChar, isLetter, isDigit])
    · exact absurd hbang (by decide)

section Value

variable {u : Unicode} {allowMapLocal : Bool} {t : Token} {vars : String → Option LookupType}

theorem parseLiteralValue_of_ne (htype : t.type ≠ .tokenMaplocal) (toks : List Token) :
    parseLiteralValue allowMapLocal (t :: toks) = parseValue (t :: toks) := by
  unfold parseLiteralValue
  rw [current_cons]
  simp [htype]

theorem observes_word_iff (ht : t.Lexed u)
    (hvars : allowMapLocal = false → ∀ key, vars key ≠ some .maplocal)
    (htype : t.type = .tokenIdentifier ∨ t.type = .tokenString)
    (hno : (lookupTypes allowMapLocal).any (Strings.hasPrefix t.literal ·) = false)
    (toks : List Token) :
    Observes vars (parseLiteralValue allowMapLocal (t :: toks)).1 {} ↔
      (ValueReading.text t.literal).Sound vars := by
  have hother : ∀ type ∈ lookupTypes allowMapLocal, Strings.hasPrefix t.literal type = false := by
    intro type hmem
    simpa using List.any_eq_false.mp hno type hmem
  obtain ⟨tail, hparse, htail⟩ := parseValue_word ht.1 htype toks
  rw [parseLiteralValue_of_ne (by rcases htype with h | h <;> rw [h] <;> decide), hparse]
  refine observes_text_iff htail ?_ ?_
  · intro type hmem
    exact hother type (List.mem_append_left _ hmem)
  · intro hmap
    refine hvars ?_
    cases allowMapLocal with
    | false => rfl
    | true =>
      have hshort : Strings.hasPrefix t.literal "MAPLOCAL" = true :=
        Strings.hasPrefix_of_append (b := ":") hmap
      rw [hother "MAPLOCAL" (by simp [lookupTypes])] at hshort
      cases hshort

theorem observes_maplocal_iff (ht : t.Lexed u) (htype : t.type = .tokenMaplocal)
    (toks : List Token) :
    Observes vars (parseLiteralValue false (t :: toks)).1 {} ↔
      (ValueReading.text t.literal).Sound vars := by
  obtain ⟨hplain, hmap⟩ := not_hasPrefix_of_maplocal ht htype
  have hparse : ∃ tail, (parseLiteralValue false (t :: toks)).1 = t.literal ++ tail ∧
      Trails tail := by
    unfold parseLiteralValue
    rw [current_cons, advance_cons ht.1, htype]
    simp only [decide_true, Bool.not_false, Bool.and_self, if_true]
    split
    · exact ⟨"", by simp, Or.inl rfl⟩
    · exact ⟨" " ++ (parseValue toks).1, by rw [String.append_assoc], Or.inr ⟨_, by simp; rfl⟩⟩
  obtain ⟨tail, hparse, htail⟩ := hparse
  rw [hparse]
  exact observes_text_iff htail hplain fun h => absurd h (by simp [hmap])

theorem observes_keyword (htype : t.type ≠ .tokenMaplocal)
    (hpart : valuePart (t :: toks) = none) :
    Observes vars (parseLiteralValue allowMapLocal (t :: toks)).1 {} := by
  have hvalue : (parseValue (t :: toks)).1 = "" := by
    rw [parseValue, List.length_cons, valueParts, hpart]
    rfl
  rw [parseLiteralValue_of_ne htype, hvalue]
  exact observes_literal (by decide)

theorem observes_literalValue_iff (ht : t.Lexed u)
    (hvars : allowMapLocal = false → ∀ key, vars key ≠ some .maplocal)
    (hlookup : lookupType allowMapLocal t = none) (toks : List Token) :
    Observes vars (parseLiteralValue allowMapLocal (t :: toks)).1 {} ↔
      (readValue allowMapLocal (t :: toks)).Sound vars := by
  unfold lookupType at hlookup
  cases htype : t.type with
  | tokenVar => rw [htype] at hlookup; cases hlookup
  | tokenLocal => rw [htype] at hlookup; cases hlookup
  | tokenFile => rw [htype] at hlookup; cases hlookup
  | tokenMaplocal =>
    obtain rfl : allowMapLocal = false := by
      rw [htype] at hlookup
      simpa using hlookup
    simp only [readValue, htype, Bool.false_eq_true, if_false]
    exact observes_maplocal_iff ht htype toks
  | tokenIdentifier =>
    have hno : (lookupTypes allowMapLocal).any (Strings.hasPrefix t.literal ·) = false := by
      rw [htype] at hlookup
      simpa using hlookup
    simp only [readValue, htype, hno, Bool.false_eq_true, if_false]
    exact observes_word_iff ht hvars (Or.inl htype) hno toks
  | tokenString =>
    have hno : (lookupTypes allowMapLocal).any (Strings.hasPrefix t.literal ·) = false := by
      rw [htype] at hlookup
      simpa using hlookup
    simp only [readValue, htype, hno, Bool.false_eq_true, if_false]
    exact observes_word_iff ht hvars (Or.inr htype) hno toks
  | _ =>
    simp only [readValue, htype, ValueReading.Sound, iff_true]
    refine observes_keyword (by rw [htype]; decide) ?_
    unfold valuePart
    rw [current_cons, htype]

theorem observes_formatLookup_iff {exact : Bool}
    (hpath : (exact && decide (cfgType = "FILE")) = false)
    (hname : (readLookupKey cfgType exact toks).1 ≠ "") :
    Observes vars (formatLookup cfgType (readLookupKey cfgType exact toks).1 exact)
        ⟨(readLookupKey cfgType exact toks).1, cfgType⟩ ↔
      (ValueReading.worded cfgType (current toks).literal).Sound vars := by
  have hword := readLookupKey_word hpath hname
  rw [hword] at hname ⊢
  unfold formatLookup
  rw [hpath]
  exact observes_worded_iff cfgType hname

theorem worded_sound_iff {key : String}
    (htype : colonType cfgType = some type) :
    (ValueReading.worded cfgType key).Sound vars ↔ (ValueReading.lookup type key).Sound vars := by
  have hcut : Strings.cut cfgType ':' = none := by
    rw [Strings.cut, if_neg (colonType_eq_some htype).2.1]
  have hword : cfgType ≠ "FILE" := by
    rintro rfl
    cases htype
  have hfile : type ≠ .file := by
    rintro rfl
    exact hword (colonType_eq_some htype).1
  simp only [ValueReading.Sound, hcut, htype]
  simp [hfile, hword]

theorem observes_lookup_iff {exact : Bool}
    (hexact : (t.type ≠ .tokenIdentifier && t.type ≠ .tokenString) = exact)
    (hlookup : lookupType allowMapLocal t = some cfgType) (toks : List Token)
    (hname : (readLookupKey cfgType exact toks).1 ≠ "") :
    Observes vars (formatLookup cfgType (readLookupKey cfgType exact toks).1 exact)
        ⟨(readLookupKey cfgType exact toks).1, cfgType⟩ ↔
      (readValue allowMapLocal (t :: toks)).Sound vars := by
  rcases readValue_of_lookup hexact hlookup toks with
    ⟨rfl, rfl, hvalue⟩ | ⟨hpath, ⟨type, htype, hvalue⟩ | hvalue⟩
  · rw [hvalue]
    simp only [ValueReading.Sound, true_implies]
    exact observes_file_iff hname
  · rw [hvalue, observes_formatLookup_iff hpath hname]
    exact worded_sound_iff htype
  · rw [hvalue]
    exact observes_formatLookup_iff hpath hname

end Value

/-- **The spelling of a value decides whether it is observed.** -/
theorem observes_iff_sound {u : Unicode}
    {rest : List Token} {lk : Lookup}
    {vars : String → Option LookupType} (hlexed : ∀ t ∈ toks, t.Lexed u)
    (hvars : allowMapLocal = false → ∀ key, vars key ≠ some .maplocal)
    (h : parsePostconfValue directive allowMapLocal toks = (.ok (value, lk), rest)) :
    Observes vars value lk ↔ (readValue allowMapLocal toks).Sound vars := by
  cases toks with
  | nil =>
    obtain ⟨rfl, rfl⟩ : value = "" ∧ lk = {} := by
      have hvalue := Except.ok.inj (Prod.mk.inj h).1
      exact ⟨(Prod.mk.inj hvalue).1.symm, (Prod.mk.inj hvalue).2.symm⟩
    simp only [readValue, ValueReading.Sound, iff_true]
    exact observes_literal (by decide)
  | cons t toks =>
    have ht := hlexed t (by simp)
    rcases parsePostconfValue_eq_ok ht.1 h with
      ⟨hlookup, rfl, rfl⟩ | ⟨cfgType, exact, name, hexact, hlookup, rfl, hname, rfl, rfl⟩
    · exact observes_literalValue_iff ht hvars hlookup toks
    · exact observes_lookup_iff hexact hlookup toks hname

end Configd.Parser
