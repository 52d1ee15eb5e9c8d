import Configd.Transformer.Markers

/-!
# Lines that stay on one line

A looked-up value may have many lines.  A value that is put into a line is put on one line, so
that a directive of the generated file is not split.  This module follows the newlines through
the passes: a handler gives a text on one line for a directive on one line, apart from
`explode` (`xformConfig_oneLine`); the pass over the untyped markers only looks up values
(`xformConfig_of_no_colon`).  `single_line_iff` says for which lines the result is one line.
-/

namespace Configd
namespace Transformer

open Lib Lib.Strings Lib.Regex

/-- A text without a newline. -/
def OneLine (s : String) : Prop :=
  '\n' ∉ s.toList

instance (s : String) : Decidable (OneLine s) := inferInstanceAs (Decidable (_ ∉ _))

/-- No newline except one at the end. -/
def SingleLine (out : String) : Prop :=
  ∃ s, OneLine s ∧ (out = s ∨ out = s ++ "\n")

/-! ## Texts made of one text -/

variable {s : String}

theorem OneLine.mono {t : String} (h : OneLine s) (hsub : t.toList ⊆ s.toList) : OneLine t :=
  fun hmem => h (hsub hmem)

theorem OneLine.append {t : String} (hs : OneLine s) (ht : OneLine t) : OneLine (s ++ t) := by
  rw [OneLine, String.toList_append, List.mem_append, not_or]
  exact ⟨hs, ht⟩

theorem OneLine.ite {p : Prop} [Decidable p] {t : String} (hs : OneLine s) (ht : OneLine t) :
    OneLine (if p then s else t) := by
  split
  · exact hs
  · exact ht

theorem trimRight_subset (cutset : Char → Bool) (s : String) :
    (trimRight cutset s).toList ⊆ s.toList := by
  rw [trimRight, String.toList_ofList]
  have hpre := List.rdropWhile_prefix cutset s.toList
  exact hpre.subset

theorem trimLeft_subset (cutset : Char → Bool) (s : String) :
    (trimLeft cutset s).toList ⊆ s.toList := by
  rw [trimLeft, String.toList_ofList]
  exact List.dropWhile_subset _

theorem trim_subset (cutset : Char → Bool) (s : String) : (trim cutset s).toList ⊆ s.toList :=
  List.Subset.trans (trimRight_subset _ _) (trimLeft_subset _ _)

theorem trimSuffix_subset (s suf : String) : (trimSuffix s suf).toList ⊆ s.toList := by
  unfold trimSuffix
  split
  · rw [String.toList_ofList]
    exact List.take_subset _ _
  · exact List.Subset.refl _

theorem splitN_subset {sep : Char} {n : Nat} {part : String} (h : part ∈ splitN sep n s) :
    part.toList ⊆ s.toList := by
  induction n generalizing s with
  | zero => cases h
  | succ n ih =>
    cases n with
    | zero => exact List.mem_singleton.mp h ▸ List.Subset.refl _
    | succ n =>
      simp only [splitN] at h
      cases hcut : cut s sep with
      | none =>
        rw [hcut] at h
        exact List.mem_singleton.mp h ▸ List.Subset.refl _
      | some parts =>
        obtain ⟨before, after⟩ := parts
        rw [hcut] at h
        rw [(cut_eq_some hcut).1]
        rcases List.mem_cons.mp h with rfl | hrest
        · exact List.subset_append_left _ _
        · exact List.Subset.trans (ih hrest)
            (List.Subset.trans (List.subset_cons_self _ _) (List.subset_append_right _ _))

theorem getD_subset {parts : List String} (h : ∀ part ∈ parts, part.toList ⊆ s.toList)
    (i : Nat) : (parts.getD i "").toList ⊆ s.toList := by
  rw [List.getD_eq_getElem?_getD]
  cases hi : parts[i]? with
  | none => simp
  | some part => exact h part (List.mem_of_getElem? hi)

theorem splitN_getD_subset (sep : Char) (n : Nat) (s : String) (i : Nat) :
    ((splitN sep n s).getD i "").toList ⊆ s.toList :=
  getD_subset (fun _ => splitN_subset) i

theorem findOne_eq_ok {re : Re} {sr : String} {groups : List String}
    (h : findOne re sr = .ok groups) :
    ∃ m, .inr m ∈ find re.pattern sr.toList ∧ groups = m.groups.map String.ofList := by
  unfold findOne at h
  split at h
  next m hm =>
    have hall : m ∈ findAll re.pattern sr := hm ▸ List.mem_singleton.mpr rfl
    exact ⟨m, mem_findAll.mp hall, (Except.ok.inj h).symm⟩
  next => cases h

theorem findOne_subset {re : Re} {sr : String} {groups : List String}
    (h : findOne re sr = .ok groups) (i : Nat) : (groups.getD i "").toList ⊆ sr.toList := by
  obtain ⟨m, hmem, rfl⟩ := findOne_eq_ok h
  obtain ⟨htext, hgroups⟩ := isInfix_of_mem_find hmem
  refine getD_subset (fun group hgroup => ?_) i
  obtain ⟨g, hg, rfl⟩ := List.mem_map.mp hgroup
  rw [String.toList_ofList]
  exact List.Subset.trans (hgroups g hg).subset htext.subset

theorem OneLine.join {sep : String} (hsep : OneLine sep) {parts : List String}
    (hparts : ∀ part ∈ parts, OneLine part) : OneLine (Strings.join sep parts) := by
  intro hmem
  rcases mem_join hmem with h | ⟨part, hpart, h⟩
  · exact hsep h
  · exact hparts part hpart h

theorem oneLine_of_mem_fields {field : String} (h : field ∈ fields s) : OneLine field :=
  fun hmem => absurd (isSpace_of_mem_fields h '\n' hmem) (by decide)

theorem oneLine_replaceChar (s : String) : OneLine (replaceChar s '\n' ' ') := by
  rw [OneLine, replaceChar, String.toList_ofList, List.mem_map]
  rintro ⟨c, -, hc⟩
  split at hc
  · exact absurd hc (by decide)
  next hne => exact hne hc

theorem oneLine_toString (n : Int) : OneLine (toString n) := by
  intro hmem
  rcases isDigit_of_mem_toString hmem with hdigit | hminus
  · exact absurd hdigit (by decide)
  · exact absurd hminus (by decide)

/-! ## Handlers -/

section Handlers

variable {fmt : Formats} {lookUpConfig : ConfigLookup} {sr value : String}

theorem resolveCommentState_oneLine {re : Re} {isComment : Bool} (hsr : OneLine sr)
    (h : resolveCommentState lookUpConfig re sr isComment = .ok value) : OneLine value := by
  obtain ⟨groups, hgroups, h⟩ := bind_eq_ok h
  obtain rfl := Except.ok.inj h
  have hoperand : OneLine ((splitN ',' 3 (groups.getD 1 "")).getD 1 "") :=
    hsr.mono (List.Subset.trans (splitN_getD_subset ',' 3 _ 1) (findOne_subset hgroups 1))
  exact .ite (.ite hoperand (by decide)) (by decide)

theorem handleTruth_oneLine {re : Re} {yes no : String} (hyes : OneLine yes) (hno : OneLine no)
    (h : handleTruth lookUpConfig re yes no sr = .ok value) : OneLine value := by
  obtain ⟨groups, -, h⟩ := bind_eq_ok h
  obtain rfl := Except.ok.inj h
  exact .ite hyes hno

theorem oneLine_pyStrFloat (h : OneLine s) : OneLine (pyStrFloat s) :=
  .ite h (h.append (by decide))

theorem handleRangeDirective_oneLine
    (h : handleRangeDirective fmt lookUpConfig sr = .ok value) : OneLine value := by
  obtain ⟨groups, -, h⟩ := bind_eq_ok h
  obtain ⟨lookupValStr, -, h⟩ := bind_eq_ok h
  split at h
  · obtain rfl := Except.ok.inj h
    refine oneLine_pyStrFloat fun hmem => ?_
    exact absurd (fmt.formatFloat_chars _ _ _ '\n' hmem) (by decide)
  · cases h

theorem handleListDirective_oneLine (hsr : OneLine sr)
    (h : handleListDirective fmt lookUpConfig sr = .ok value) : OneLine value := by
  unfold handleListDirective at h
  simp only [bind, Except.bind] at h
  split at h
  · cases h
  · split at h
    · cases h
    · split at h
      · obtain rfl := Except.ok.inj h
        decide
      · split at h
        · cases h
        · obtain rfl := Except.ok.inj h
          exact OneLine.join (hsr.mono (splitN_getD_subset ' ' 3 sr 2))
            fun field => oneLine_of_mem_fields

theorem chooseOperand_oneLine {fs : List String} {replacement altReplacement lookupVal : String}
    {matches_ : String → String → Bool} (hsearch : OneLine (fs.getD 2 ""))
    (hreplacement : OneLine replacement) (halt : OneLine altReplacement)
    (h : chooseOperand sr fs replacement altReplacement matches_ lookupVal = .ok value) :
    OneLine value := by
  unfold chooseOperand at h
  split at h
  · cases h
  · simp only [] at h
    split at h
    · obtain rfl := Except.ok.inj h
      exact .ite hsearch hreplacement
    · obtain rfl := Except.ok.inj h
      exact halt

theorem resolveSearchReplaceDirective_oneLine {searchInNone : Bool}
    {matches_ : String → String → Bool} (hsr : OneLine sr)
    (h : resolveSearchReplaceDirective fmt lookUpConfig sr searchInNone matches_ = .ok value) :
    OneLine value := by
  have hoperand : ∀ i, OneLine ((splitN '^' 3 sr).getD i "") := fun i =>
    hsr.mono (splitN_getD_subset '^' 3 sr i)
  have htrimmed : ∀ i, OneLine (trim pyWhitespace ((splitN '^' 3 sr).getD i "")) := fun i =>
    (hoperand i).mono (trim_subset _ _)
  have hsearch : OneLine ((splitN ' ' 3 ((splitN '^' 3 sr).getD 0 "")).getD 2 "") :=
    (hoperand 0).mono (splitN_getD_subset ' ' 3 _ 2)
  have hreplacement : OneLine (if 1 < (splitN '^' 3 sr).length then
      trim pyWhitespace ((splitN '^' 3 sr).getD 1 "") else "") := .ite (htrimmed 1) (by decide)
  have halt : OneLine (if 2 < (splitN '^' 3 sr).length then
      trim pyWhitespace ((splitN '^' 3 sr).getD 2 "") else "") := .ite (htrimmed 2) (by decide)
  unfold resolveSearchReplaceDirective at h
  simp only [bind, Except.bind] at h
  split at h
  · cases h
  · split at h
    · cases h
    · split at h
      · exact chooseOperand_oneLine hsearch hreplacement halt h
      · split at h
        · exact chooseOperand_oneLine hsearch hreplacement halt h
        · obtain rfl := Except.ok.inj h
          decide

theorem handleFreqDirective_oneLine
    (h : handleFreqDirective fmt lookUpConfig sr = .ok value) : OneLine value := by
  obtain ⟨groups, -, h⟩ := bind_eq_ok h
  obtain ⟨lookupValStr, -, h⟩ := bind_eq_ok h
  split at h
  · obtain rfl := Except.ok.inj h
    exact oneLine_toString _
  · cases h

theorem handler_oneLine {handler : String × (String → Except String String)}
    (hmem : handler ∈ handlers fmt lookUpConfig) (hne : handler.1 ≠ "explode") (hsr : OneLine sr)
    (h : handler.2 sr = .ok value) : OneLine value := by
  simp only [handlers, List.mem_cons, List.not_mem_nil, or_false] at hmem
  rcases hmem with rfl | rfl | rfl | rfl | rfl | rfl | rfl | rfl | rfl | rfl <;> dsimp only at h
  · exact resolveCommentState_oneLine hsr h
  · exact resolveCommentState_oneLine hsr h
  · exact handleTruth_oneLine (by decide) (by decide) h
  · exact handleTruth_oneLine (by decide) (by decide) h
  · exact handleRangeDirective_oneLine h
  · exact handleFreqDirective_oneLine h
  · exact handleListDirective_oneLine hsr h
  · exact resolveSearchReplaceDirective_oneLine hsr h
  · exact resolveSearchReplaceDirective_oneLine hsr h
  · exact absurd rfl hne

variable {match_ : String}

theorem xformConfig_cases (h : xformConfig fmt lookUpConfig match_ = .ok value) :
    (∃ handler ∈ handlers fmt lookUpConfig, hasPrefix (trim isPercent match_) handler.1 = true ∧
      handler.2 (trim isPercent match_) = .ok value) ∨
    ((∀ handler ∈ handlers fmt lookUpConfig,
      hasPrefix (trim isPercent match_) handler.1 = false) ∧
      value = handleDefaultLookup lookUpConfig (trim isPercent match_)) := by
  unfold xformConfig at h
  simp only [] at h
  split at h
  next handler hfind =>
    have hpre := List.find?_some hfind
    exact .inl ⟨handler, List.mem_of_find?_eq_some hfind, hpre, h⟩
  next hfind =>
    refine .inr ⟨fun handler hmem => ?_, (Except.ok.inj h).symm⟩
    exact Bool.eq_false_iff.mpr (List.find?_eq_none.mp hfind handler hmem)

/-- **A directive on one line is rendered on one line**, apart from `explode`. -/
theorem xformConfig_oneLine {keyword : String} (hmatch : OneLine match_)
    (hkeyword : keyword ∈ (handlers fmt lookUpConfig).map Prod.fst) (hne : keyword ≠ "explode")
    (hpre : hasPrefix (trim isPercent match_) keyword = true)
    (h : xformConfig fmt lookUpConfig match_ = .ok value) : OneLine value := by
  have hsr : OneLine (trim isPercent match_) := hmatch.mono (trim_subset _ _)
  obtain ⟨own, hown, rfl⟩ := List.mem_map.mp hkeyword
  rcases xformConfig_cases h with ⟨handler, hmem, hfirst, hvalue⟩ | ⟨hnone, -⟩
  · refine handler_oneLine hmem ?_ hsr hvalue
    -- No other word begins as `explode` does.
    intro hexplode
    rw [hexplode] at hfirst
    have hapart : ∀ keyword ∈ (handlers fmt lookUpConfig).map Prod.fst, keyword ≠ "explode" →
        ¬("explode".toList <+: keyword.toList ∨ keyword.toList <+: "explode".toList) := by
      simp only [handlers, List.map_cons, List.map_nil]
      decide
    exact hapart own.1 hkeyword hne (List.prefix_or_prefix_of_prefix
      (hasPrefix_iff_toList.mp hfirst) (hasPrefix_iff_toList.mp hpre))
  · rw [hnone own hown] at hpre
    cases hpre

/-! ## Directives without a colon -/

theorem colon_mem_of_findOne (re : Re) (hre : ∀ items ∈ re.pattern, .lit [':'] ∈ items) {α : Type}
    {f : List String → Except String α} {a : α} (h : (findOne re sr >>= f) = .ok a) :
    ':' ∈ sr.toList := by
  obtain ⟨groups, hgroups, -⟩ := bind_eq_ok h
  obtain ⟨m, hmem, -⟩ := findOne_eq_ok hgroups
  exact (lit_isInfix_of_mem_find hmem hre).subset (List.mem_singleton.mpr rfl)

theorem colon_mem_of_splitTypeKey {field : String} (hfield : field.toList ⊆ sr.toList) {α : Type}
    {f : String × String → Except String α} {a : α}
    (h : (splitTypeKey fmt sr field >>= f) = .ok a) : ':' ∈ sr.toList := by
  by_contra hcolon
  have hsplit : split field ':' = [field] := by
    have hfree : ':' ∉ field.toList := fun hmem => hcolon (hfield hmem)
    simpa using split_ofList_of_not_mem hfree
  rw [splitTypeKey, hsplit] at h
  cases h

theorem colon_mem_of_search {searchInNone : Bool} {matches_ : String → String → Bool}
    (h : resolveSearchReplaceDirective fmt lookUpConfig sr searchInNone matches_ = .ok value) :
    ':' ∈ sr.toList := by
  unfold resolveSearchReplaceDirective at h
  simp only [] at h
  split at h
  · cases h
  · refine colon_mem_of_splitTypeKey ?_ h
    exact List.Subset.trans (splitN_getD_subset ' ' 3 _ 1) (splitN_getD_subset '^' 3 sr 0)

theorem colon_mem_of_handler {handler : String × (String → Except String String)}
    (hmem : handler ∈ handlers fmt lookUpConfig) (h : handler.2 sr = .ok value) :
    ':' ∈ sr.toList := by
  simp only [handlers, List.mem_cons, List.not_mem_nil, or_false] at hmem
  rcases hmem with rfl | rfl | rfl | rfl | rfl | rfl | rfl | rfl | rfl | rfl <;> dsimp only at h
  · exact colon_mem_of_findOne commentRe (by simp [commentRe, operandRe]) h
  · exact colon_mem_of_findOne uncommentRe (by simp [uncommentRe, operandRe]) h
  · exact colon_mem_of_findOne binaryRe (by simp [binaryRe, operandRe]) h
  · exact colon_mem_of_findOne truefalseRe (by simp [truefalseRe, operandRe]) h
  · exact colon_mem_of_findOne rangeRe (by simp [rangeRe, operandRe]) h
  · exact colon_mem_of_findOne freqRe (by simp [freqRe, operandRe]) h
  · unfold handleListDirective at h
    simp only [] at h
    split at h
    · cases h
    · exact colon_mem_of_splitTypeKey (splitN_getD_subset ' ' 3 sr 1) h
  · exact colon_mem_of_search h
  · exact colon_mem_of_search h
  · exact colon_mem_of_findOne explodeRe (by simp [explodeRe]) h

/-- **Without a colon** there is no directive, only a lookup. -/
theorem xformConfig_of_no_colon (hcolon : ':' ∉ match_.toList)
    (h : xformConfig fmt lookUpConfig match_ = .ok value) :
    value = handleDefaultLookup lookUpConfig (trim isPercent match_) := by
  rcases xformConfig_cases h with ⟨handler, hmem, -, hvalue⟩ | ⟨-, hvalue⟩
  · exact absurd (trim_subset _ _ (colon_mem_of_handler hmem hvalue)) hcolon
  · exact hvalue

end Handlers

/-! ## Passes before the markers -/

section Passes

variable {fmt : Formats} {lookUpConfig : ConfigLookup} {line : String}

/-- The values of the local configuration have one line each. -/
def LocalOneLine (lookUpConfig : ConfigLookup) : Prop :=
  ∀ key value, lookUpConfig "LOCAL" key = .ok value → OneLine value

theorem xformLocalConfig_oneLine (hlocal : LocalOneLine lookUpConfig) {value : String}
    (h : xformLocalConfig lookUpConfig match_ = .ok value) : OneLine value := by
  unfold xformLocalConfig at h
  simp only [] at h
  split at h
  next err _ =>
    split at h
    · cases h
    · obtain rfl := Except.ok.inj h
      decide
  next val hval =>
    have hone := hlocal _ _ hval
    split at h
    · -- `SPLIT`: the text before the first space.
      obtain rfl := Except.ok.inj h
      cases hcut : cut val ' ' with
      | none => exact hone
      | some parts =>
        obtain ⟨before, after⟩ := parts
        refine hone.mono ?_
        rw [(cut_eq_some hcut).1]
        exact List.subset_append_left _ _
    · split at h
      · split at h
        · cases h
        next first rest hfields =>
          -- `PERDITION_LDAP_SPLIT`: the first word and the hosts of the URLs.
          obtain rfl := Except.ok.inj h
          have hfirst : OneLine first := oneLine_of_mem_fields (hfields ▸ List.mem_cons_self)
          refine (hfirst.append (by decide)).append (OneLine.join (by decide) ?_)
          intro host hhost
          obtain ⟨m, hm, rfl⟩ := List.mem_map.mp hhost
          obtain ⟨htext, hgroups⟩ := isInfix_of_mem_find (mem_findAll.mp hm)
          refine hone.mono ?_
          rw [String.toList_ofList, List.getD_eq_getElem?_getD]
          cases hgroup : m.groups[0]? with
          | none => simp
          | some g =>
            exact List.Subset.trans (hgroups g (List.mem_of_getElem? hgroup)).subset htext.subset
      · obtain rfl := Except.ok.inj h
        exact hone

variable {out : String}

theorem replaceAll_oneLine {re : Pattern} {f : String → Except String String}
    (hs : OneLine s) (hf : ∀ m value, .inr m ∈ find re s.toList →
      f (String.ofList m.text) = .ok value → OneLine value)
    (h : replaceAll re f s = .ok out) : OneLine out := by
  intro hmem
  rcases (mem_replaceAll h '\n').mp hmem with hmem | ⟨m, value, hm, hvalue, hmem⟩
  · exact hs (mem_of_inl_mem_find hmem)
  · exact hf m value hm hvalue hmem

theorem hasPrefix_trim {keyword : String} (hfree : '%' ∉ keyword.toList)
    (hne : keyword.toList ≠ []) (hpre : hasPrefix s keyword = true) :
    hasPrefix (trim isPercent ("%%" ++ s ++ "%%")) keyword = true := by
  obtain ⟨rest, rfl⟩ := hasPrefix_iff.mp hpre
  have hchars : ∀ c ∈ keyword.toList, isPercent c = false := by
    intro c hc
    rw [isPercent, decide_eq_false_iff_not]
    rintro rfl
    exact hfree hc
  have hleft : ("%%" ++ (keyword ++ rest) ++ "%%").toList.dropWhile isPercent =
      keyword.toList ++ (rest.toList ++ ['%', '%']) := by
    have hfence : isPercent '%' = true := rfl
    obtain ⟨c, tail, htail⟩ := List.exists_cons_of_ne_nil hne
    have hc := hchars c (htail ▸ List.mem_cons_self)
    simp [htail, hfence, hc]
  have hkeep : keyword.toList.rdropWhile isPercent = keyword.toList := by
    rw [List.rdropWhile_eq_self_iff]
    intro hlast
    rw [hchars _ (List.getLast_mem hlast)]
    exact Bool.false_ne_true
  rw [hasPrefix_iff_toList, trim, trimLeft, trimRight, hleft]
  simp only [String.toList_ofList]
  conv_lhs => rw [← hkeep]
  exact prefix_rdropWhile_append _ _ _

theorem xformConfig_wrapped_oneLine (keyword : String) {value : String} (hs : OneLine s)
    (hkeyword : keyword ∈ (handlers fmt lookUpConfig).map Prod.fst) (hne : keyword ≠ "explode")
    (hpre : hasPrefix s (keyword ++ " ") = true)
    (h : xformConfig fmt lookUpConfig ("%%" ++ s ++ "%%") = .ok value) : OneLine value := by
  have hword : ∀ keyword ∈ (handlers fmt lookUpConfig).map Prod.fst,
      '%' ∉ keyword.toList ∧ keyword.toList ≠ [] := by
    simp only [handlers, List.map_cons, List.map_nil]
    decide
  obtain ⟨hfree, hnonempty⟩ := hword keyword hkeyword
  have hmatch : OneLine ("%%" ++ s ++ "%%") :=
    ((by decide : OneLine "%%").append hs).append (by decide)
  exact xformConfig_oneLine hmatch hkeyword hne
    (hasPrefix_trim hfree hnonempty (hasPrefix_of_append hpre)) h

theorem processPrefixDirective_oneLine (hline : OneLine line)
    (h : processPrefixDirective fmt lookUpConfig line = .ok out) : OneLine out := by
  unfold processPrefixDirective at h
  simp only [] at h
  split at h
  next => exact Except.ok.inj h ▸ hline
  next rest hcut =>
    split at h
    next => exact Except.ok.inj h ▸ hline
    next content restOfLine htext =>
      -- The directive and what follows it are parts of the line.
      have hrest : OneLine rest := by
        have htrimmed := hline.mono (trimLeft_subset (fun c => c = ' ' || c = '\t') line)
        rw [cutPrefix_eq_some hcut] at htrimmed
        refine htrimmed.mono ?_
        rw [String.toList_append]
        exact List.subset_append_right _ _
      have hcontent : OneLine (String.ofList content) := by
        refine hrest.mono ?_
        rw [String.toList_ofList, cutText_eq_some htext]
        exact List.subset_append_left _ _
      have hafter : OneLine (String.ofList restOfLine) := by
        refine hrest.mono ?_
        rw [String.toList_ofList, cutText_eq_some htext]
        exact List.Subset.trans (List.subset_append_right _ _) (List.subset_append_right _ _)
      split at h
      next hprefix =>
        obtain ⟨result, hresult, h⟩ := bind_eq_ok h
        obtain rfl := Except.ok.inj h
        have hone : OneLine result := by
          rcases Bool.or_eq_true_iff.mp hprefix with hpre | hpre
          · exact xformConfig_wrapped_oneLine "comment" hcontent
              (by simp [handlers]) (by decide) hpre hresult
          · exact xformConfig_wrapped_oneLine "uncomment" hcontent
              (by simp [handlers]) (by decide) hpre hresult
        have hindent : OneLine (String.ofList (line.toList.take (line.toList.length -
            (trimLeft (fun c => c = ' ' || c = '\t') line).toList.length))) := by
          refine hline.mono ?_
          rw [String.toList_ofList]
          exact List.take_subset _ _
        exact (hindent.append (hone.mono (trimSuffix_subset _ _))).append hafter
      next => exact Except.ok.inj h ▸ hline

theorem prefixedLine_oneLine (hlocal : LocalOneLine lookUpConfig) (hline : OneLine line)
    (h : prefixedLine fmt lookUpConfig line = .ok out) : OneLine out := by
  obtain ⟨replaced, hreplaced, h⟩ := bind_eq_ok h
  have hone : OneLine replaced :=
    replaceAll_oneLine hline (fun _ _ _ hvalue => xformLocalConfig_oneLine hlocal hvalue) hreplaced
  exact processPrefixDirective_oneLine (hone.mono (trimRight_subset _ _)) h

end Passes

/-! ## Lines that are rendered on one line -/

/-- No `explode` directive in a line, as the passes read it. -/
def NoExplode (line : String) : Prop :=
  match wrappedContent line with
  | some innerContent => hasPrefix innerContent "explode " = false
  | none => ∀ m, .inr m ∈ find inlineDirectRe line.toList →
      hasPrefix (trim isPercent (String.ofList m.text)) "explode " = false

def IsSearch (line : String) : Prop :=
  ∃ innerContent, wrappedContent line = some innerContent ∧ isSearchDirective innerContent = true

/-- A line with its directives rendered; its markers stay. -/
def directivesFilled (fmt : Formats) (lookUpConfig : ConfigLookup) (line : String) : String :=
  String.ofList ((seen inlineDirectRe line.toList).flatMap (Sum.elim ([·]) fun text =>
    ((inlineDirective fmt lookUpConfig (String.ofList text)).toOption.getD "").toList))

/-- A text with the values of its typed markers, each on one line. -/
def typedFilled (lookUpConfig : ConfigLookup) (s : String) : String :=
  String.ofList ((seen configVarRe s.toList).flatMap (Sum.elim ([·]) fun text =>
    (replaceChar (xformConfigVariable lookUpConfig (String.ofList text)) '\n' ' ').toList))

/-- A marker of the text is all of it, up to white space. -/
def Alone (re : Pattern) (m : Marker) (s : String) : Prop :=
  .inr m.text ∈ seen re s.toList ∧ trimSpace s = String.ofList m.text

/-- Every newline of the text is part of an untyped marker, and where such a marker is alone
its value has one line. -/
structure FlatText (lookUpConfig : ConfigLookup) (s : String) : Prop where
  newline : .inl '\n' ∉ seen plainVarRe s.toList
  alone : ∀ name, Alone plainVarRe (.plain name) s →
    OneLine ((Marker.plain name).value lookUpConfig)

/-- A line whose markers are rendered on one line: the value of a typed marker that is alone on
it is flat; and where there is none, but the values of the typed markers leave an untyped one
alone, that one's value has one line. -/
structure FlatMarkers (lookUpConfig : ConfigLookup) (line : String) : Prop where
  typed : ∀ type name, Alone configVarRe (.typed type name) line →
    FlatText lookUpConfig ((Marker.typed type name).value lookUpConfig)
  plain : (∀ type name, ¬Alone configVarRe (.typed type name) line) →
    ∀ name, Alone plainVarRe (.plain name) (typedFilled lookUpConfig line) →
      OneLine ((Marker.plain name).value lookUpConfig)

/-- A line, after its `comment` prefix, that is rendered on one line: it has no `explode`
directive; the values of the untyped markers in a `contains` or `exact` directive have one line;
and the markers that its directives leave are rendered on one line. -/
structure FlatLine (fmt : Formats) (lookUpConfig : ConfigLookup) (line : String) : Prop where
  explode : NoExplode line
  embedded : ∀ innerContent, wrappedContent line = some innerContent →
    isSearchDirective innerContent = true → ∀ name,
      .inr (Marker.plain name).text ∈
        seen plainVarRe (typedFilled lookUpConfig innerContent).toList →
      OneLine ((Marker.plain name).value lookUpConfig)
  markers : wrappedContent line = none →
    FlatMarkers lookUpConfig (directivesFilled fmt lookUpConfig line)

section Passes

variable {fmt : Formats} {lookUpConfig : ConfigLookup} {line : String}

theorem xformConfig_plain {m : Match} {s : List Char} (hm : .inr m ∈ find plainVarRe s)
    {value : String} (h : xformConfig fmt lookUpConfig (String.ofList m.text) = .ok value) :
    ∃ name, m.text = (Marker.plain name).text ∧ value = (Marker.plain name).value lookUpConfig := by
  obtain ⟨content, ⟨head, hhead, word, hne, hword, rfl⟩, htext⟩ :=
    content_of_mem_find (by decide) hm
  obtain rfl := List.mem_singleton.mp hhead
  have hfree : '%' ∉ word := fun hmem => absurd (hword '%' hmem) (by decide)
  have hcolon : ':' ∉ (String.ofList m.text).toList := by
    intro hmem
    have hcolon : ':' ∈ word := by simpa [htext, mark] using hmem
    exact absurd (hword ':' hcolon) (by decide)
  refine ⟨String.ofList word, ?_, ?_⟩
  · rw [htext, Marker.text, Marker.content, String.toList_ofList, List.nil_append]
  · rw [xformConfig_of_no_colon hcolon h, htext, List.nil_append, trim_mark hfree hne,
      handleDefaultLookup_eq]

theorem exists_typed {text s : List Char} (h : .inr text ∈ seen configVarRe s) :
    ∃ type name, text = (Marker.typed type name).text ∧ '%' ∉ name.toList := by
  obtain ⟨m, hm, rfl⟩ := inr_mem_seen.mp h
  obtain ⟨content, ⟨head, hhead, word, -, hword, rfl⟩, htext⟩ :=
    content_of_mem_find (by decide) hm
  have htype : ∃ type : VarType, head = type.text.toList ++ [':'] := by
    simp only [List.map_cons, List.map_nil, List.mem_cons, List.not_mem_nil, or_false] at hhead
    rcases hhead with rfl | rfl | rfl
    · exact ⟨.var, by decide⟩
    · exact ⟨.localConfig, by decide⟩
    · exact ⟨.service, by decide⟩
  obtain ⟨type, rfl⟩ := htype
  refine ⟨type, String.ofList word, by simp [htext, Marker.text, Marker.content], ?_⟩
  rw [String.toList_ofList]
  exact fun hmem => absurd (hword '%' hmem) (by decide)

theorem newline_mem_keepOnOneLine {value : String} :
    '\n' ∈ (keepOnOneLine line match_ value).toList ↔
      trimSpace line = match_ ∧ '\n' ∈ value.toList := by
  unfold keepOnOneLine
  split
  next heq => simp [heq]
  next hne => exact ⟨fun h => absurd h (oneLine_replaceChar value), fun h => absurd h.1 hne⟩

theorem inlineDirective_oneLine {value : String} (hmatch : OneLine match_)
    (hexplode : hasPrefix (trim isPercent match_) "explode " = false)
    (h : inlineDirective fmt lookUpConfig match_ = .ok value) : OneLine value := by
  unfold inlineDirective at h
  simp only [splitN] at h
  cases hcut : cut (trim isPercent match_) ' ' with
  | none =>
    rw [hcut] at h
    exact Except.ok.inj h ▸ hmatch
  | some parts =>
    obtain ⟨directiveName, after⟩ := parts
    rw [hcut] at h
    simp only [] at h
    have hcontent := (cut_eq_some hcut).1
    split at h
    next hknown =>
      have hkeyword : directiveName ∈ (handlers fmt lookUpConfig).map Prod.fst := by
        have hsub : ∀ name ∈ knownDirectives, name ∈ (handlers fmt lookUpConfig).map Prod.fst := by
          simp only [handlers, List.map_cons, List.map_nil]
          decide
        exact hsub directiveName (by simpa [isKnownDirective] using hknown)
      have hne : directiveName ≠ "explode" := by
        rintro rfl
        rw [Bool.eq_false_iff] at hexplode
        refine hexplode (hasPrefix_iff_toList.mpr ?_)
        rw [hcontent]
        exact ⟨after.toList, by simp⟩
      have hpre : hasPrefix (trim isPercent match_) directiveName = true := by
        rw [hasPrefix_iff_toList, hcontent]
        exact List.prefix_append _ _
      exact xformConfig_oneLine hmatch hkeyword hne hpre h
    next => exact Except.ok.inj h ▸ hmatch

theorem processInlineDirectives_oneLine (hline : OneLine line) (hwrap : wrappedContent line = none)
    (hexplode : NoExplode line) {inlined : String}
    (h : processInlineDirectives fmt lookUpConfig line = .ok inlined) : OneLine inlined := by
  unfold processInlineDirectives at h
  split at h
  · exact Except.ok.inj h ▸ hline
  · refine replaceAll_oneLine hline (fun m value hm hvalue => ?_) h
    rw [NoExplode, hwrap] at hexplode
    refine inlineDirective_oneLine (hline.mono ?_) (hexplode m hm) hvalue
    rw [String.toList_ofList]
    exact (isInfix_of_mem_find hm).1.subset

theorem directivesFilled_eq {inlined : String}
    (h : processInlineDirectives fmt lookUpConfig line = .ok inlined) :
    directivesFilled fmt lookUpConfig line = inlined := by
  unfold processInlineDirectives at h
  split at h
  next hfew =>
    obtain rfl := Except.ok.inj h
    -- A marker has two fences of two characters each.
    have hnone : ∀ text, .inr text ∉ seen inlineDirectRe line.toList := by
      intro text htext
      obtain ⟨m, hm, rfl⟩ := inr_mem_seen.mp htext
      obtain ⟨content, -, hmark⟩ := content_of_mem_find (by decide) hm
      obtain ⟨before, after, hline⟩ := (isInfix_of_mem_find hm).1
      have hcount : 4 ≤ line.toList.count '%' := by
        rw [← hline, hmark, mark]
        simp only [List.count_append, List.count_cons_self, List.count_nil]
        omega
      have hcontains : contains line "%%" = true := by
        refine contains_iff.mpr (List.IsInfix.trans ?_ (isInfix_of_mem_find hm).1)
        rw [hmark]
        exact (List.prefix_append ['%', '%'] _).isInfix
      rw [hcontains, Bool.not_true, Bool.false_or, decide_eq_true_eq] at hfew
      omega
    have hplain : ∀ u : Marked, (∀ text, .inr text ∉ u) → ∀ value : List Char → List Char,
        u.flatMap (Sum.elim ([·]) value) = Marked.render u := by
      intro u hu value
      refine List.flatMap_congr fun piece hpiece => ?_
      cases piece with
      | inl c => rfl
      | inr text => exact absurd hpiece (hu text)
    rw [directivesFilled, hplain _ hnone, render_seen, String.ofList_toList]
  next => exact (eq_of_replaceAll h).symm

theorem oneLine_typedFilled (h : OneLine s) : OneLine (typedFilled lookUpConfig s) := by
  rw [OneLine, typedFilled, String.toList_ofList, List.mem_flatMap]
  rintro ⟨piece, hpiece, hmem⟩
  cases piece with
  | inl c =>
    obtain rfl := List.mem_singleton.mp hmem
    exact h (mem_of_inl_mem_find (inl_mem_seen.mp hpiece))
  | inr text => exact oneLine_replaceChar _ hmem

/-- **The pass over the untyped markers** leaves a text on one line exactly when it is flat. -/
theorem plainVarPass_oneLine_iff {filled rendered : String}
    (hrendered : plainVarPass fmt lookUpConfig filled = .ok rendered) :
    OneLine rendered ↔ FlatText lookUpConfig filled := by
  have hvalue : ∀ m, .inr m ∈ find plainVarRe filled.toList →
      ∃ name, m.text = (Marker.plain name).text ∧
        (xformConfig fmt lookUpConfig (String.ofList m.text)).map
          (keepOnOneLine filled (String.ofList m.text)) =
        .ok (keepOnOneLine filled (String.ofList m.text)
          ((Marker.plain name).value lookUpConfig)) := by
    intro m hm
    obtain ⟨value, hvalue⟩ := exists_of_replaceAll hrendered hm
    cases hconfig : xformConfig fmt lookUpConfig (String.ofList m.text) with
    | error e =>
      rw [hconfig] at hvalue
      cases hvalue
    | ok looked =>
      obtain ⟨name, htext, rfl⟩ := xformConfig_plain hm hconfig
      exact ⟨name, htext, rfl⟩
  constructor
  · refine fun hone => ⟨fun hmem => ?_, fun name halone hmem => ?_⟩
    · exact hone ((mem_replaceAll hrendered '\n').mpr (.inl (inl_mem_seen.mp hmem)))
    · obtain ⟨m, hm, htext⟩ := inr_mem_seen.mp halone.1
      obtain ⟨other, hother, hvalue⟩ := hvalue m hm
      obtain rfl : name = other := Marker.plain_inj (htext.symm.trans hother)
      refine hone ((mem_replaceAll hrendered '\n').mpr (.inr ⟨m, _, hm, hvalue, ?_⟩))
      rw [htext]
      exact newline_mem_keepOnOneLine.mpr ⟨halone.2, hmem⟩
  · rintro ⟨hnewline, halone⟩ hmem
    rcases (mem_replaceAll hrendered '\n').mp hmem with hmem | ⟨m, value, hm, heq, hmem⟩
    · exact hnewline (inl_mem_seen.mpr hmem)
    · obtain ⟨name, htext, hvalue⟩ := hvalue m hm
      obtain rfl := Except.ok.inj (hvalue.symm.trans heq)
      obtain ⟨hline, hmem⟩ := newline_mem_keepOnOneLine.mp hmem
      exact halone name ⟨inr_mem_seen.mpr ⟨m, hm, htext⟩, htext ▸ hline⟩ hmem

/-- **Where no typed marker is alone** the values are put in on one line. -/
theorem configVarPass_of_not_alone {inlined : String}
    (h : ∀ type name, ¬Alone configVarRe (.typed type name) inlined) :
    configVarPass lookUpConfig inlined = .ok (typedFilled lookUpConfig inlined) := by
  have hvalue : ∀ text, .inr text ∈ seen configVarRe inlined.toList →
      keepOnOneLine inlined (String.ofList text)
          (xformConfigVariable lookUpConfig (String.ofList text)) =
        replaceChar (xformConfigVariable lookUpConfig (String.ofList text)) '\n' ' ' := by
    intro text htext
    obtain ⟨type, name, rfl, -⟩ := exists_typed htext
    exact if_neg fun hline => h type name ⟨htext, hline⟩
  refine replaceAll_of_seen _ rfl fun text htext => ?_
  rw [hvalue text htext, String.ofList_toList]

theorem percent_notMem {l : List Char} (hl : ∀ c ∈ l, isSpace c = true) : '%' ∉ l :=
  fun hmem => absurd (hl '%' hmem) (by decide)

theorem FlatText.append_iff {lead trail : List Char} (hlead : ∀ c ∈ lead, isSpace c = true)
    (htrail : ∀ c ∈ trail, isSpace c = true) (hnewline : '\n' ∉ lead ∧ '\n' ∉ trail) (v : String) :
    FlatText lookUpConfig (String.ofList (lead ++ (v.toList ++ trail))) ↔
      FlatText lookUpConfig v := by
  have hseen : seen plainVarRe (lead ++ (v.toList ++ trail)) =
      Marked.plain lead ++ (seen plainVarRe v.toList ++ Marked.plain trail) :=
    seen_surround (by decide) (by decide) (percent_notMem hlead) (percent_notMem htrail)
  have htrim := trimSpace_append hlead htrail v.toList
  rw [String.ofList_toList] at htrim
  constructor
  · rintro ⟨hline, halone⟩
    rw [String.toList_ofList, hseen] at hline
    refine ⟨fun hmem => hline (by simp [hmem]), fun name hname => halone name ⟨?_, ?_⟩⟩
    · rw [String.toList_ofList, hseen]
      simp [hname.1]
    · rw [htrim, hname.2]
  · rintro ⟨hline, halone⟩
    refine ⟨?_, fun name hname => halone name ⟨?_, ?_⟩⟩
    · rw [String.toList_ofList, hseen]
      simpa [hnewline] using hline
    · have hmem := hname.1
      rw [String.toList_ofList, hseen] at hmem
      simpa using hmem
    · rw [← htrim, hname.2]

/-- **Where a typed marker is alone** its value is put in as it is. -/
theorem configVarPass_of_alone {inlined filled : String} {type : VarType} {name : String}
    (hinlined : OneLine inlined) (h : Alone configVarRe (.typed type name) inlined)
    (hfilled : configVarPass lookUpConfig inlined = .ok filled) :
    FlatText lookUpConfig filled ↔
      FlatText lookUpConfig ((Marker.typed type name).value lookUpConfig) := by
  obtain ⟨lead, trail, hline, hlead, htrail⟩ := exists_eq_append_trimSpace inlined
  obtain ⟨m, hm, hmtext⟩ := inr_mem_seen.mp h.1
  obtain ⟨content, hcontent, htext⟩ := content_of_mem_find (by decide) hm
  obtain ⟨type', name', hsame, hname⟩ := exists_typed h.1
  rw [h.2, String.toList_ofList] at hline
  have hmark : seen configVarRe (Marker.typed type name).text =
      [.inr (Marker.typed type name).text] := by
    have hread : seen configVarRe (mark '%' content ++ []) =
        .inr (mark '%' content) :: seen configVarRe [] :=
      seen_mark (by decide) (by decide) hcontent []
    rw [← hmtext, htext]
    rwa [List.append_nil] at hread
  have hseen : seen configVarRe inlined.toList = Marked.plain lead ++
      (seen configVarRe (Marker.typed type name).text ++ Marked.plain trail) := by
    rw [hline]
    exact seen_surround (by decide) (by decide) (percent_notMem hlead) (percent_notMem htrail)
  have hvalue : xformConfigVariable lookUpConfig (String.ofList (Marker.typed type name).text) =
      (Marker.typed type name).value lookUpConfig := by
    rw [hsame, xformConfigVariable_text lookUpConfig type' hname, Marker.typed_inj hsame]
  rw [eq_of_replaceAll hfilled, hseen, hmark, List.flatMap_append, List.flatMap_append,
    List.flatMap_singleton, Marked.flatMap_plain, Marked.flatMap_plain, Sum.elim_inr,
    Except.toOption, Option.getD_some, hvalue, keepOnOneLine, if_pos h.2]
  refine FlatText.append_iff hlead htrail ?_ _
  rw [OneLine, hline, List.mem_append, List.mem_append, not_or, not_or] at hinlined
  exact ⟨hinlined.1, hinlined.2.2⟩

/-- **The passes over the markers** keep a line on one line exactly when its markers are flat. -/
theorem rendered_oneLine_iff {inlined filled rendered : String} (hinlined : OneLine inlined)
    (hfilled : configVarPass lookUpConfig inlined = .ok filled)
    (hrendered : plainVarPass fmt lookUpConfig filled = .ok rendered) :
    OneLine rendered ↔ FlatMarkers lookUpConfig inlined := by
  rw [plainVarPass_oneLine_iff hrendered]
  by_cases halone : ∃ type name, Alone configVarRe (.typed type name) inlined
  · constructor
    · intro hflat
      refine ⟨fun type name h => (configVarPass_of_alone hinlined h hfilled).mp hflat, ?_⟩
      obtain ⟨type, name, h⟩ := halone
      exact fun hnone => absurd h (hnone type name)
    · intro hmarkers
      obtain ⟨type, name, h⟩ := halone
      exact (configVarPass_of_alone hinlined h hfilled).mpr (hmarkers.typed type name h)
  · push Not at halone
    rw [configVarPass_of_not_alone halone] at hfilled
    obtain rfl := Except.ok.inj hfilled
    constructor
    · exact fun hflat => ⟨fun type name h => absurd h (halone type name), fun _ => hflat.alone⟩
    · refine fun hmarkers => ⟨fun hmem => ?_, hmarkers.plain halone⟩
      exact oneLine_typedFilled hinlined (mem_of_inl_mem_find (inl_mem_seen.mp hmem))

theorem hasPrefix_of_replaceAll {heads : List (List Char)} {chars : Char → Bool}
    (hchars : chars '%' = false) {f : String → Except String String} {p : String}
    (hp : '%' ∉ p.toList) (hpre : hasPrefix s p = true)
    (h : replaceAll (fenced '%' heads chars) f s = .ok out) : hasPrefix out p = true := by
  obtain ⟨rest, rfl⟩ := hasPrefix_iff.mp hpre
  rw [hasPrefix_iff_toList, eq_of_replaceAll h, String.toList_ofList, String.toList_append,
    seen_append hchars hp, List.flatMap_append, Marked.flatMap_plain]
  exact List.prefix_append _ _

theorem processWrappingDirective_eq_some
    (h : processWrappingDirective fmt lookUpConfig line = .ok (some out)) :
    ∃ innerContent content value, wrappedContent line = some innerContent ∧
      xformConfig fmt lookUpConfig ("%%" ++ content ++ "%%") = .ok value ∧ out = value ++ "\n" ∧
      (isSearchDirective innerContent = false ∧ content = innerContent ∨
        isSearchDirective innerContent = true ∧ ∃ typed,
          substituteTyped lookUpConfig innerContent = .ok typed ∧
          replaceAll plainVarRe (xformConfig fmt lookUpConfig) typed = .ok content) := by
  unfold processWrappingDirective at h
  cases hwrap : wrappedContent line with
  | none =>
    rw [hwrap] at h
    cases h
  | some innerContent =>
    rw [hwrap] at h
    obtain ⟨directive, hdirective, h⟩ := bind_eq_ok h
    obtain ⟨value, hvalue, h⟩ := bind_eq_ok h
    have hout : out = value ++ "\n" := (Option.some.inj (Except.ok.inj h)).symm
    cases hsearch : isSearchDirective innerContent with
    | false =>
      rw [substitutedLine, hsearch] at hdirective
      obtain rfl : line = directive := Except.ok.inj hdirective
      rw [(wrappedContent_eq_some hwrap).1] at hvalue
      exact ⟨innerContent, innerContent, value, rfl, hvalue, hout, .inl ⟨hsearch, rfl⟩⟩
    | true =>
      rw [substitutedLine, hsearch, if_pos rfl] at hdirective
      obtain ⟨typed, htyped, hdirective⟩ := bind_eq_ok hdirective
      obtain ⟨content, hcontent, hdirective⟩ := bind_eq_ok hdirective
      obtain rfl : "%%" ++ content ++ "%%" = directive := Except.ok.inj hdirective
      exact ⟨innerContent, content, value, rfl, hvalue, hout,
        .inr ⟨hsearch, typed, htyped, hcontent⟩⟩

theorem processWrappingDirective_oneLine (hline : OneLine line)
    (hflat : FlatLine fmt lookUpConfig line)
    (h : processWrappingDirective fmt lookUpConfig line = .ok (some out)) :
    ∃ value, OneLine value ∧ out = value ++ "\n" := by
  obtain ⟨innerContent, content, value, hwrap, hvalue, rfl, hcontent⟩ :=
    processWrappingDirective_eq_some h
  obtain ⟨hinner, hdirective⟩ := wrappedContent_eq_some hwrap
  have hexplode := hflat.explode
  rw [NoExplode, hwrap] at hexplode
  obtain ⟨keyword, hmem, hpre⟩ := exists_keyword hdirective
  have hkeyword : keyword ∈ (handlers fmt lookUpConfig).map Prod.fst := hmem
  have hne : keyword ≠ "explode" := by
    rintro rfl
    exact Bool.noConfusion (hexplode.symm.trans hpre)
  have hfree : '%' ∉ (keyword ++ " ").toList := by
    have hall : ∀ keyword ∈ Marker.directiveKeywords, '%' ∉ (keyword ++ " ").toList := by decide
    exact hall keyword hmem
  have hone : OneLine innerContent := by
    refine hline.mono ?_
    rw [hinner, String.toList_append, String.toList_append]
    exact List.Subset.trans (List.subset_append_right _ _) (List.subset_append_left _ _)
  refine ⟨value, ?_, rfl⟩
  rcases hcontent with ⟨-, rfl⟩ | ⟨hsearch, typed, htyped, hcontent⟩
  · exact xformConfig_wrapped_oneLine keyword hone hkeyword hne hpre hvalue
  · have htypedOne : OneLine typed := by
      refine replaceAll_oneLine hone (fun m value _ heq => ?_) htyped
      obtain rfl := Except.ok.inj heq
      exact oneLine_replaceChar _
    have hcontentOne : OneLine content := by
      refine replaceAll_oneLine htypedOne (fun m value hm heq => ?_) hcontent
      obtain ⟨name, htext, rfl⟩ := xformConfig_plain hm heq
      rw [eq_of_replaceAll htyped] at hm
      exact hflat.embedded innerContent hwrap hsearch name (inr_mem_seen.mpr ⟨m, hm, htext⟩)
    have htypedPre := hasPrefix_of_replaceAll (by decide) hfree hpre htyped
    have hcontentPre := hasPrefix_of_replaceAll (by decide) hfree htypedPre hcontent
    exact xformConfig_wrapped_oneLine keyword hcontentOne hkeyword hne hcontentPre hvalue

theorem transform_eq_ok (hmarker : hasNoMarker line = false)
    (h : transform fmt lookUpConfig line = .ok out) :
    ∃ prefixed, prefixedLine fmt lookUpConfig line = .ok prefixed ∧
      (processWrappingDirective fmt lookUpConfig prefixed = .ok (some out) ∨
        wrappedContent prefixed = none ∧ ∃ inlined filled rendered,
          processInlineDirectives fmt lookUpConfig prefixed = .ok inlined ∧
          configVarPass lookUpConfig inlined = .ok filled ∧
          plainVarPass fmt lookUpConfig filled = .ok rendered ∧ out = rendered ++ "\n") := by
  unfold transform at h
  rw [hmarker] at h
  obtain ⟨prefixed, hprefixed, h⟩ := bind_eq_ok h
  obtain ⟨wrapped, hwrapped, h⟩ := bind_eq_ok h
  refine ⟨prefixed, hprefixed, ?_⟩
  cases wrapped with
  | some result =>
    obtain rfl : result = out := Except.ok.inj h
    exact .inl hwrapped
  | none =>
    obtain ⟨inlined, hinlined, h⟩ := bind_eq_ok h
    obtain ⟨filled, hfilled, h⟩ := bind_eq_ok h
    obtain ⟨rendered, hrendered, h⟩ := bind_eq_ok h
    refine .inr ⟨?_, inlined, filled, rendered, hinlined, hfilled, hrendered,
      (Except.ok.inj h).symm⟩
    unfold processWrappingDirective at hwrapped
    cases hwrap : wrappedContent prefixed with
    | none => rfl
    | some innerContent =>
      rw [hwrap] at hwrapped
      obtain ⟨_, _, hwrapped⟩ := bind_eq_ok hwrapped
      obtain ⟨_, _, hwrapped⟩ := bind_eq_ok hwrapped
      cases Except.ok.inj hwrapped

end Passes

theorem singleLine_of_append : SingleLine (s ++ "\n") ↔ OneLine s := by
  constructor
  · rintro ⟨t, ht, heq | heq⟩
    · exact absurd (heq ▸ by simp) ht
    · obtain rfl := String.append_left_inj "\n" |>.mp heq
      exact ht
  · exact fun h => ⟨s, h, .inr rfl⟩

/-- **A line that stays on one line**: it cannot hold a marker, or it is flat after its prefix. -/
def StaysFlat (fmt : Formats) (lookUpConfig : ConfigLookup) (line : String) : Prop :=
  hasNoMarker line = false → ∀ prefixed, prefixedLine fmt lookUpConfig line = .ok prefixed →
    FlatLine fmt lookUpConfig prefixed

theorem singleLine_of_staysFlat {fmt : Formats} {lookUpConfig : ConfigLookup}
    (hlocal : LocalOneLine lookUpConfig) {line : String} (hline : OneLine line)
    (h : transform fmt lookUpConfig line = .ok out) (hflat : StaysFlat fmt lookUpConfig line) :
    SingleLine out := by
  by_cases hmarker : hasNoMarker line = true
  · rw [transform, if_pos hmarker] at h
    exact ⟨out, Except.ok.inj h ▸ hline, .inl rfl⟩
  · rw [Bool.not_eq_true] at hmarker
    obtain ⟨prefixed, hprefixed, hcases⟩ := transform_eq_ok hmarker h
    have hone := prefixedLine_oneLine hlocal hline hprefixed
    have hflat := hflat hmarker prefixed hprefixed
    rcases hcases with hwrapped |
      ⟨hwrap, inlined, filled, rendered, hinlined, hfilled, hrendered, rfl⟩
    · obtain ⟨value, hvalue, rfl⟩ := processWrappingDirective_oneLine hone hflat hwrapped
      exact singleLine_of_append.mpr hvalue
    · have hinlinedOne := processInlineDirectives_oneLine hone hwrap hflat.explode hinlined
      rw [singleLine_of_append, rendered_oneLine_iff hinlinedOne hfilled hrendered,
        ← directivesFilled_eq hinlined]
      exact hflat.markers hwrap

theorem staysFlat_of_singleLine {fmt : Formats} {lookUpConfig : ConfigLookup}
    (hlocal : LocalOneLine lookUpConfig) {line : String} (hline : OneLine line)
    (h : transform fmt lookUpConfig line = .ok out)
    (hplain : ∀ prefixed, prefixedLine fmt lookUpConfig line = .ok prefixed →
      NoExplode prefixed ∧ ¬IsSearch prefixed) (hsingle : SingleLine out) :
    StaysFlat fmt lookUpConfig line := by
  intro hmarker prefixed hprefixed
  obtain ⟨prefixed', hprefixed', hcases⟩ := transform_eq_ok hmarker h
  obtain rfl : prefixed' = prefixed := Except.ok.inj (hprefixed'.symm.trans hprefixed)
  obtain ⟨hexplode, hsearch⟩ := hplain prefixed' hprefixed
  refine ⟨hexplode, fun innerContent hwrap hdirective => ?_, fun hwrap => ?_⟩
  · exact absurd ⟨innerContent, hwrap, hdirective⟩ hsearch
  · rcases hcases with hwrapped | ⟨-, inlined, filled, rendered, hinlined, hfilled, hrendered, rfl⟩
    · obtain ⟨innerContent, _, _, hsome, _⟩ := processWrappingDirective_eq_some hwrapped
      rw [hwrap] at hsome
      cases hsome
    · have hone := processInlineDirectives_oneLine
        (prefixedLine_oneLine hlocal hline hprefixed) hwrap hexplode hinlined
      rw [directivesFilled_eq hinlined, ← rendered_oneLine_iff hone hfilled hrendered]
      exact singleLine_of_append.mp hsingle

/-- An attribute with two values, one with one value, and an empty one. -/
def saslValues : ConfigLookup
  | "VAR", "mechs" => .ok "LOGIN\nPLAIN"
  | "VAR", "sasl" => .ok "on"
  | "VAR", "none" => .ok ""
  | _, _ => .error "not found"

theorem saslValues_local : LocalOneLine saslValues := by
  intro key value h
  simp [saslValues] at h

/-- **A line is rendered on one line** when it stays flat; when it is no `contains` or `exact`
directive and has no `explode` directive, only then. -/
theorem single_line_iff (fmt : Formats) (lookUpConfig : ConfigLookup)
    (hlocal : LocalOneLine lookUpConfig) (line : String) (hline : OneLine line) (out : String)
    (h : transform fmt lookUpConfig line = .ok out) :
    (StaysFlat fmt lookUpConfig line → SingleLine out) ∧
    ((∀ prefixed, prefixedLine fmt lookUpConfig line = .ok prefixed →
        NoExplode prefixed ∧ ¬IsSearch prefixed) →
      (SingleLine out ↔ StaysFlat fmt lookUpConfig line)) :=
  ⟨singleLine_of_staysFlat hlocal hline h, fun hplain =>
    ⟨staysFlat_of_singleLine hlocal hline h hplain, singleLine_of_staysFlat hlocal hline h⟩⟩

theorem head_of_alone {re : Pattern} {m : Marker} (h : Alone re m s) :
    (trimSpace s).toList.head? = some '%' := by
  rw [h.2, String.toList_ofList]
  rfl

theorem mem_getRight {u : Marked} {text : List Char} (h : .inr text ∈ u) :
    text ∈ u.filterMap Sum.getRight? :=
  List.mem_filterMap.mpr ⟨_, h, rfl⟩

theorem flatLine_mechList : FlatLine noFormats saslValues "mech_list: %%mechs%%" where
  explode m hm := by
    have hone : findAll inlineDirectRe "mech_list: %%mechs%%" =
        [⟨"%%mechs%%".toList, ["mechs".toList], []⟩] := by decide +kernel
    obtain rfl := List.mem_singleton.mp (hone ▸ mem_findAll.mpr hm)
    decide +kernel
  embedded innerContent hwrap := by
    have hnone : wrappedContent "mech_list: %%mechs%%" = none := by decide +kernel
    rw [hnone] at hwrap
    cases hwrap
  markers _ := by
    have hhead : (trimSpace (directivesFilled noFormats saslValues
        "mech_list: %%mechs%%")).toList.head? ≠ some '%' ∧
        (trimSpace (typedFilled saslValues (directivesFilled noFormats saslValues
          "mech_list: %%mechs%%"))).toList.head? ≠ some '%' := by decide +kernel
    exact ⟨fun type name h => absurd (head_of_alone h) hhead.1,
      fun _ name h => absurd (head_of_alone h) hhead.2⟩

theorem wrappedContent_auth : wrappedContent "%%contains VAR:sasl on^auth %%sasl%% end%%" =
    some "contains VAR:sasl on^auth %%sasl%% end" := by
  decide +kernel

theorem flatLine_auth :
    FlatLine noFormats saslValues "%%contains VAR:sasl on^auth %%sasl%% end%%" where
  explode := by
    rw [NoExplode, wrappedContent_auth]
    decide +kernel
  embedded innerContent hwrap _ name hname := by
    obtain rfl := Option.some.inj (wrappedContent_auth.symm.trans hwrap)
    have hone : (seen plainVarRe (typedFilled saslValues
        "contains VAR:sasl on^auth %%sasl%% end").toList).filterMap Sum.getRight? =
        [(Marker.plain "sasl").text] := by decide +kernel
    obtain rfl := Marker.plain_inj (List.mem_singleton.mp (hone ▸ mem_getRight hname))
    decide
  markers hwrap := by
    rw [wrappedContent_auth] at hwrap
    cases hwrap

theorem single_line_mech_list :
    (StaysFlat noFormats saslValues "mech_list: %%mechs%%" ∧
        SingleLine "mech_list: LOGIN PLAIN\n") ∧
      StaysFlat noFormats saslValues "%%contains VAR:sasl on^auth %%sasl%% end%%" ∧
        SingleLine "auth on end\n" := by
  have hmechs : transform noFormats saslValues "mech_list: %%mechs%%" =
      .ok "mech_list: LOGIN PLAIN\n" := by decide +kernel
  have hauth : transform noFormats saslValues "%%contains VAR:sasl on^auth %%sasl%% end%%" =
      .ok "auth on end\n" := by decide +kernel
  have hflat : StaysFlat noFormats saslValues "mech_list: %%mechs%%" := by
    intro _ prefixed hprefixed
    have hsame : prefixedLine noFormats saslValues "mech_list: %%mechs%%" =
        .ok "mech_list: %%mechs%%" := by decide +kernel
    exact Except.ok.inj (hsame.symm.trans hprefixed) ▸ flatLine_mechList
  have hsearch : StaysFlat noFormats saslValues "%%contains VAR:sasl on^auth %%sasl%% end%%" := by
    intro _ prefixed hprefixed
    have hsame : prefixedLine noFormats saslValues "%%contains VAR:sasl on^auth %%sasl%% end%%" =
        .ok "%%contains VAR:sasl on^auth %%sasl%% end%%" := by decide +kernel
    exact Except.ok.inj (hsame.symm.trans hprefixed) ▸ flatLine_auth
  exact ⟨⟨hflat, (single_line_iff _ _ saslValues_local _ (by decide) _ hmechs).1 hflat⟩, hsearch,
    (single_line_iff _ _ saslValues_local _ (by decide) _ hauth).1 hsearch⟩

/-- An untyped marker in a `contains` directive, and an untyped marker that an empty typed one
leaves alone, split the line. -/
theorem line_is_split :
    LocalOneLine saslValues ∧
      OneLine "%%contains VAR:sasl on^mechs %%mechs%% end%%" ∧
      prefixedLine noFormats saslValues "%%contains VAR:sasl on^mechs %%mechs%% end%%" =
        .ok "%%contains VAR:sasl on^mechs %%mechs%% end%%" ∧
      transform noFormats saslValues "%%contains VAR:sasl on^mechs %%mechs%% end%%" =
        .ok "mechs LOGIN\nPLAIN end\n" ∧
      ¬SingleLine "mechs LOGIN\nPLAIN end\n" ∧
      transform noFormats saslValues "%%VAR:none%%%%mechs%%" = .ok "LOGIN\nPLAIN\n" ∧
      ¬SingleLine "LOGIN\nPLAIN\n" := by
  have hsplit : ¬OneLine "mechs LOGIN\nPLAIN end" ∧ ¬OneLine "LOGIN\nPLAIN" := by decide
  refine ⟨saslValues_local, by decide, by decide +kernel, by decide +kernel, ?_,
    by decide +kernel, ?_⟩
  · exact fun h => hsplit.1 (singleLine_of_append.mp h)
  · exact fun h => hsplit.2 (singleLine_of_append.mp h)

end Transformer
end Configd
