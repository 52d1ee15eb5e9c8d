import Configd.Transformer.Transform

/-!
# Lines of text and markers

A line of literal text and markers is meant to be rendered in one go: every marker gives way
to its value, on one line, and the text of a value is text.  The code renders it in passes
over the text that the pass before left, so this depends on what the text between the markers
reads as.  `rendered_once_iff` says exactly when the line is rendered in one go.
-/

namespace Configd
namespace Transformer

open Lib Lib.Strings Lib.Regex

/-- The types a typed marker may name. -/
inductive VarType
  | var
  | localConfig
  | service
  deriving DecidableEq

def VarType.text : VarType → String
  | .var => "VAR"
  | .localConfig => "LOCAL"
  | .service => "SERVICE"

/-- `%%name%%` and `%%TYPE:name%%`. -/
inductive Marker
  | plain (name : String)
  | typed (type : VarType) (name : String)
  deriving DecidableEq

namespace Marker

def name : Marker → String
  | .plain name => name
  | .typed _ name => name

/-- What stands between the `%%`. -/
def content : Marker → List Char
  | .plain name => name.toList
  | .typed type name => type.text.toList ++ ':' :: name.toList

def text (m : Marker) : List Char :=
  mark '%' m.content

/-- The words with which the text of a directive begins. -/
def directiveKeywords : List String :=
  ["comment", "uncomment"] ++ knownDirectives

structure WellFormed (m : Marker) : Prop where
  name_ne : m.name.toList ≠ []
  chars : ∀ c ∈ m.name.toList, c ∉ ['%', ':', '@', '\n']
  keyword : ∀ keyword ∈ directiveKeywords, ¬keyword.toList <+: m.name.toList

/-- The looked-up value: `VAR`, then `LOCAL`, for an untyped marker, and empty when missing. -/
def value (lookUpConfig : ConfigLookup) : Marker → String
  | .plain name =>
    ((lookUpConfig "VAR" name).toOption.or (lookUpConfig "LOCAL" name).toOption).getD ""
  | .typed type name => (lookUpConfig type.text name).toOption.getD ""

/-- The value on one line. -/
def flatValue (lookUpConfig : ConfigLookup) (m : Marker) : List Char :=
  (replaceChar (m.value lookUpConfig) '\n' ' ').toList

end Marker

/-- A line of literal text and at least one marker. -/
structure Template where
  pieces : List (Char ⊕ Marker)
  literal : ∀ c, .inl c ∈ pieces → c ∉ ['%', '@', '\n']
  wellFormed : ∀ m, .inr m ∈ pieces → m.WellFormed
  marked : ∃ m, .inr m ∈ pieces

/-- The line that some text and markers make. -/
def lineOf (pieces : List (Char ⊕ Marker)) : String :=
  String.ofList (pieces.flatMap (Sum.elim ([·]) Marker.text))

/-- White space at the end of a line that is removed. -/
def trailing : Char ⊕ Marker → Bool
  | .inl c => pyWhitespace c
  | .inr _ => false

namespace Template

def line (t : Template) : String :=
  lineOf t.pieces

/-- The pieces without the white space at the end. -/
def kept (t : Template) : List (Char ⊕ Marker) :=
  t.pieces.rdropWhile trailing

/-- What the line is meant to be rendered as. -/
def expected (t : Template) (lookUpConfig : ConfigLookup) : String :=
  String.ofList (t.kept.flatMap (Sum.elim ([·]) (Marker.flatValue lookUpConfig))) ++ "\n"

/-- Not a single marker up to surrounding white space. -/
def NotSingle (t : Template) : Prop :=
  ∀ m, .inr m ∈ t.pieces → trimSpace t.line ≠ String.ofList m.text

/-- The line, with the typed markers in it. -/
def typedMarkers (t : Template) : Marked :=
  t.kept.flatMap fun
    | .inl c => [.inl c]
    | .inr (.plain name) => Marked.plain (Marker.plain name).text
    | .inr (.typed type name) => [.inr (Marker.typed type name).text]

/-- The line with the values of the typed markers filled in, with the untyped markers in it. -/
def plainMarkers (t : Template) (lookUpConfig : ConfigLookup) : Marked :=
  t.kept.flatMap fun
    | .inl c => [.inl c]
    | .inr (.plain name) => [.inr (Marker.plain name).text]
    | .inr (.typed type name) => Marked.plain ((Marker.typed type name).flatValue lookUpConfig)

/-- **Rendered in one go**: the result is the meant one, the pass over the typed markers reads
the typed markers of the line and nothing else, and so does the pass over the untyped ones; no
text that came from a value is read as a marker or a part of one. -/
structure RenderedOnce (fmt : Formats) (lookUpConfig : ConfigLookup) (t : Template) : Prop where
  result : transform fmt lookUpConfig t.line = .ok (t.expected lookUpConfig)
  reads : ∃ before after,
    (prefixedLine fmt lookUpConfig t.line >>= processInlineDirectives fmt lookUpConfig) =
      .ok before ∧
    configVarPass lookUpConfig before = .ok after ∧
    seen configVarRe before.toList = t.typedMarkers ∧
    seen plainVarRe after.toList = t.plainMarkers lookUpConfig

/-- When a line is rendered in one go: the text between its typed markers nowhere reads as a
typed marker; the text and the values between its untyped markers nowhere read as an untyped
marker, or as the beginning of one that the next marker closes; and where the values of the
typed markers leave an untyped marker alone on the line, its value has no newline. -/
structure ReadsClean (lookUpConfig : ConfigLookup) (t : Template) : Prop where
  typed : Unbroken '%' (["VAR:", "LOCAL:", "SERVICE:"].map String.toList) (· ≠ '%') t.typedMarkers
  plain : Unbroken '%' [[]] (fun c => c ≠ '%' && c ≠ ':') (t.plainMarkers lookUpConfig)
  alone : ∀ name, .inr (.plain name) ∈ t.kept →
    trimSpace (String.ofList (Marked.render (t.plainMarkers lookUpConfig))) =
      String.ofList (Marker.plain name).text →
    '\n' ∉ ((Marker.plain name).value lookUpConfig).toList

end Template

/-! ## Markers -/

namespace Marker

theorem text_injective {m m' : Marker} (h : m.text = m'.text) : m.content = m'.content :=
  List.append_cancel_right (List.cons.inj (List.cons.inj h).2).2

theorem plain_inj {name name' : String} (h : (plain name).text = (plain name').text) :
    name = name' :=
  String.toList_inj.mp (text_injective h)

theorem typed_inj {type type' : VarType} {name name' : String}
    (h : (typed type name).text = (typed type' name').text) :
    typed type name = typed type' name' := by
  have htype : ∀ type : VarType, ':' ∉ type.text.toList := by
    intro type
    cases type <;> decide
  obtain ⟨htext, hname⟩ := append_fence_inj (htype type) (htype type') (text_injective h)
  have hsame : type = type' := by
    cases type <;> cases type' <;> first | rfl | exact absurd htext (by decide)
  rw [hsame, String.toList_inj.mp hname]

variable {m : Marker}

theorem WellFormed.notMem (h : m.WellFormed) {c : Char} (hc : c = '%' ∨ c = '@') :
    c ∉ m.content := by
  have hname : c ∉ m.name.toList := by
    intro hmem
    have hfree := h.chars c hmem
    rcases hc with rfl | rfl <;> exact hfree (by decide)
  cases m with
  | plain name => exact hname
  | typed type name =>
    simp only [content, List.mem_append, List.mem_cons, not_or]
    rcases hc with rfl | rfl <;> cases type <;> exact ⟨by decide, by decide, hname⟩

theorem WellFormed.percent_notMem (h : m.WellFormed) : '%' ∉ m.content :=
  h.notMem (.inl rfl)

theorem WellFormed.content_ne (h : m.WellFormed) : m.content ≠ [] := by
  cases m with
  | plain name => exact h.name_ne
  | typed type name => simp [content]

theorem WellFormed.not_directive (h : m.WellFormed) {keyword : String}
    (hkeyword : keyword ∈ directiveKeywords) : ¬keyword.toList <+: m.content := by
  cases m with
  | plain name => exact h.keyword keyword hkeyword
  | typed type name =>
    -- A type begins with a capital letter.
    have hfirst : ∀ keyword ∈ directiveKeywords, ∃ c rest, keyword.toList = c :: rest ∧
        c ∉ ['V', 'L', 'S'] := by
      intro keyword hmem
      simp only [directiveKeywords, knownDirectives, List.cons_append, List.nil_append,
        List.mem_cons, List.not_mem_nil, or_false] at hmem
      rcases hmem with rfl | rfl | rfl | rfl | rfl | rfl | rfl | rfl | rfl | rfl <;>
        exact ⟨_, _, rfl, by decide⟩
    obtain ⟨c, rest, heq, hc⟩ := hfirst keyword hkeyword
    rw [heq]
    cases type <;>
    · intro hpre
      obtain ⟨rfl, -⟩ := List.cons_prefix_cons.mp hpre
      exact absurd hc (by decide)

theorem contains_inline (h : m.WellFormed) : Content [[]] (· ≠ '%') m.content := by
  refine ⟨[], List.mem_singleton.mpr rfl, m.content, h.content_ne, fun c hc => ?_, rfl⟩
  rw [decide_eq_true_eq]
  rintro rfl
  exact h.percent_notMem hc

theorem prefix_content {s rest : List Char} (hs : '%' ∉ s)
    (hpre : s <+: m.content ++ '%' :: rest) : s <+: m.content := by
  rcases List.prefix_or_prefix_of_prefix hpre (List.prefix_append m.content _) with hshort | hlong
  · exact hshort
  · obtain ⟨tail, rfl⟩ := hlong
    cases tail with
    | nil => simp
    | cons c tail =>
      have htail := (List.prefix_append_right_inj m.content).mp hpre
      obtain ⟨rfl, -⟩ := List.cons_prefix_cons.mp htail
      exact absurd (by simp) hs

end Marker

/-! ## The first passes leave the line alone -/

/-- Pieces as in a template. -/
structure Clean (pieces : List (Char ⊕ Marker)) : Prop where
  literal : ∀ c, .inl c ∈ pieces → c ∉ ['%', '@', '\n']
  wellFormed : ∀ m, .inr m ∈ pieces → m.WellFormed

variable {p : List (Char ⊕ Marker)}

theorem Clean.mono {q : List (Char ⊕ Marker)} (h : Clean p) (hsub : q ⊆ p) : Clean q where
  literal c hc := h.literal c (hsub hc)
  wellFormed m hm := h.wellFormed m (hsub hm)

@[simp] theorem toList_lineOf (pieces : List (Char ⊕ Marker)) :
    (lineOf pieces).toList = pieces.flatMap (Sum.elim ([·]) Marker.text) :=
  String.toList_ofList

theorem Clean.at_notMem (h : Clean p) : '@' ∉ (lineOf p).toList := by
  rw [toList_lineOf, List.mem_flatMap]
  rintro ⟨piece, hpiece, hmem⟩
  cases piece with
  | inl c =>
    obtain rfl := List.mem_singleton.mp hmem
    exact h.literal _ hpiece (by decide)
  | inr m =>
    have hcontent := (h.wellFormed m hpiece).notMem (.inr rfl)
    simp [Marker.text, mark] at hmem
    exact hcontent hmem

theorem trimRight_lineOf (p : List (Char ⊕ Marker)) :
    trimRight pyWhitespace (lineOf p) = lineOf (p.rdropWhile trailing) := by
  rw [trimRight, toList_lineOf, lineOf]
  congr 1
  induction p using List.reverseRecOn with
  | nil => rfl
  | append_singleton p piece ih =>
    rw [List.flatMap_append, List.flatMap_singleton]
    cases piece with
    | inl c =>
      by_cases hc : pyWhitespace c = true
      · rw [List.rdropWhile_concat_pos trailing p (.inl c) hc]
        exact (List.rdropWhile_concat_pos pyWhitespace _ c hc).trans ih
      · rw [List.rdropWhile_concat_neg trailing p (.inl c) hc, List.flatMap_append,
          List.flatMap_singleton]
        exact List.rdropWhile_concat_neg pyWhitespace _ c hc
    | inr m =>
      rw [List.rdropWhile_concat_neg trailing p _ (by simp [trailing]), List.flatMap_append,
        List.flatMap_singleton]
      have htext : p.flatMap (Sum.elim ([·]) Marker.text) ++ m.text =
          (p.flatMap (Sum.elim ([·]) Marker.text) ++ '%' :: '%' :: (m.content ++ ['%'])) ++
            ['%'] := by
        simp [Marker.text, mark]
      simp only [Sum.elim_inr]
      rw [htext, List.rdropWhile_concat_neg]
      decide

theorem dropWhile_lineOf {blank : Char → Bool} (hblank : blank '%' = false)
    (p : List (Char ⊕ Marker)) :
    (lineOf p).toList.dropWhile blank =
      (lineOf (p.dropWhile (Sum.elim blank fun _ => false))).toList := by
  rw [toList_lineOf, toList_lineOf]
  induction p with
  | nil => rfl
  | cons piece p ih =>
    cases piece with
    | inl c =>
      by_cases hc : blank c = true
      · simpa [List.dropWhile_cons, hc] using ih
      · simp [hc]
    | inr m => simp [Marker.text, mark, hblank]

theorem Clean.exists_marker (h : Clean p) {rest : List Char}
    (hline : (lineOf p).toList = '%' :: '%' :: rest) :
    ∃ (m : Marker) (tail : List Char), m.WellFormed ∧ rest = m.content ++ '%' :: '%' :: tail := by
  rw [toList_lineOf] at hline
  cases p with
  | nil => cases hline
  | cons piece p =>
    cases piece with
    | inl c =>
      obtain rfl := (List.cons.inj hline).1
      exact absurd (by decide) (h.literal '%' List.mem_cons_self)
    | inr m =>
      refine ⟨m, p.flatMap (Sum.elim ([·]) Marker.text), h.wellFormed m List.mem_cons_self, ?_⟩
      have hrest := (List.cons.inj (List.cons.inj hline).2).2
      rw [← hrest]
      exact List.append_assoc m.content ['%', '%'] _

variable (fmt : Formats) (lookUpConfig : ConfigLookup)

theorem Marker.WellFormed.hasPrefix_eq_false {m : Marker} (h : m.WellFormed) {s : String}
    {rest : List Char} (hs : s.toList <+: m.content ++ '%' :: rest) (keyword : String)
    (hkeyword : keyword ∈ Marker.directiveKeywords) : hasPrefix s (keyword ++ " ") = false := by
  have hfree : ∀ keyword ∈ Marker.directiveKeywords, '%' ∉ keyword.toList := by decide
  rw [Bool.eq_false_iff]
  intro hpre
  have hkey := hasPrefix_iff_toList.mp (hasPrefix_of_append hpre)
  exact h.not_directive hkeyword (Marker.prefix_content (hfree keyword hkeyword) (hkey.trans hs))

theorem Clean.processPrefixDirective_eq (h : Clean p) :
    processPrefixDirective fmt lookUpConfig (lineOf p) = .ok (lineOf p) := by
  unfold processPrefixDirective
  simp only []
  split
  · rfl
  next rest hcut =>
    have htrimmed : (lineOf (p.dropWhile (Sum.elim (fun c => c = ' ' || c = '\t')
        fun _ => false))).toList = '%' :: '%' :: rest.toList := by
      rw [← dropWhile_lineOf (by decide)]
      have happend := cutPrefix_eq_some hcut
      rw [trimLeft] at happend
      rw [← String.toList_ofList (l := (lineOf p).toList.dropWhile _), happend,
        String.toList_append]
      rfl
    obtain ⟨m, tail, hm, hrest⟩ := (h.mono (List.dropWhile_subset _)).exists_marker htrimmed
    have hbegins : isPrefixDirective (String.ofList m.content) = false := by
      have hs : (String.ofList m.content).toList <+: m.content ++ '%' :: '%' :: tail := by simp
      have hcomment := hm.hasPrefix_eq_false hs "comment" (by decide)
      have huncomment := hm.hasPrefix_eq_false hs "uncomment" (by decide)
      exact Bool.or_eq_false_iff.mpr ⟨hcomment, huncomment⟩
    have hcontent : cutText "%%".toList (m.content ++ '%' :: '%' :: tail) =
        some (m.content, tail) := cutText_append hm.percent_notMem
    rw [hrest, hcontent]
    simp only [hbegins]
    rfl

theorem exists_keyword {s : String} (h : isWrappingDirective s = true) :
    ∃ keyword ∈ Marker.directiveKeywords, hasPrefix s (keyword ++ " ") = true := by
  simp only [isWrappingDirective, Bool.or_eq_true] at h
  rcases h with ((((((h | h) | h) | h) | h) | h) | h) | h <;>
    simp [Marker.directiveKeywords, knownDirectives, h]

theorem Clean.wrappedContent_eq (h : Clean p) :
    wrappedContent (lineOf p) = none := by
  rw [Option.eq_none_iff_forall_ne_some]
  intro innerContent hsome
  obtain ⟨hline, hwrap⟩ := wrappedContent_eq_some hsome
  have hrest : (lineOf p).toList = '%' :: '%' :: (innerContent.toList ++ ['%', '%']) := by
    rw [hline]
    simp
  obtain ⟨m, tail, hm, hinner⟩ := h.exists_marker hrest
  have hpre : innerContent.toList <+: m.content ++ '%' :: '%' :: tail :=
    hinner ▸ List.prefix_append _ _
  have hno := hm.hasPrefix_eq_false hpre
  obtain ⟨keyword, hkeyword, hword⟩ := exists_keyword hwrap
  exact Bool.noConfusion ((hno keyword hkeyword).symm.trans hword)

theorem Marker.WellFormed.trim_text {m : Marker} (h : m.WellFormed) :
    trim isPercent (String.ofList m.text) = String.ofList m.content :=
  trim_mark h.percent_notMem h.content_ne

theorem Marker.WellFormed.inlineDirective_eq {m : Marker} (h : m.WellFormed) :
    inlineDirective fmt lookUpConfig (String.ofList m.text) = .ok (String.ofList m.text) := by
  unfold inlineDirective
  rw [h.trim_text]
  simp only [splitN]
  cases hcut : cut (String.ofList m.content) ' ' with
  | none => rfl
  | some parts =>
    obtain ⟨before, after⟩ := parts
    have hcontent := (cut_eq_some hcut).1
    rw [String.toList_ofList] at hcontent
    have hunknown : isKnownDirective before = false := by
      rw [isKnownDirective, List.contains_eq_mem, decide_eq_false_iff_not]
      intro hmem
      refine h.not_directive (List.mem_append_right _ hmem) ?_
      rw [hcontent]
      exact List.prefix_append _ _
    simp only [hunknown]
    rfl

def allMarkers (p : List (Char ⊕ Marker)) : Marked :=
  p.map (Sum.map id Marker.text)

theorem render_allMarkers (p : List (Char ⊕ Marker)) :
    Marked.render (allMarkers p) = (lineOf p).toList := by
  rw [toList_lineOf, Marked.render, allMarkers, List.flatMap_map]
  refine List.flatMap_congr fun piece _ => ?_
  cases piece <;> rfl

theorem mem_allMarkers {text : List Char}
    (h : .inr text ∈ allMarkers p) : ∃ m, .inr m ∈ p ∧ text = Marker.text m := by
  simpa [allMarkers, eq_comm] using h

theorem Clean.processInlineDirectives_eq (h : Clean p) :
    processInlineDirectives fmt lookUpConfig (lineOf p) = .ok (lineOf p) := by
  unfold processInlineDirectives
  split
  · rfl
  · have hwell : Marked.WellMarked '%' [[]] (· ≠ '%') (allMarkers p) := by
      intro text htext
      obtain ⟨m, hm, rfl⟩ := mem_allMarkers htext
      exact ⟨m.content, Marker.contains_inline (h.wellFormed m hm), rfl⟩
    have hunbroken : Unbroken '%' [[]] (· ≠ '%') (allMarkers p) := by
      intro before content after _ heq _
      have hmem : .inl '%' ∈ allMarkers p := by simp [heq]
      exact h.literal '%' (by simpa [allMarkers] using hmem) (by decide)
    have hseen : seen inlineDirectRe (lineOf p).toList = allMarkers p := by
      rw [← render_allMarkers]
      exact seen_render_of_unbroken (by decide) (by decide) hwell hunbroken
    rw [replaceAll_of_seen id hseen]
    · exact congrArg (Except.ok <| String.ofList ·) (render_allMarkers p)
        |>.trans (by rw [String.ofList_toList])
    · intro text htext
      obtain ⟨m, hm, rfl⟩ := mem_allMarkers htext
      exact (h.wellFormed m hm).inlineDirective_eq fmt lookUpConfig

theorem Clean.prefixedLine_eq (h : Clean p) :
    prefixedLine fmt lookUpConfig (lineOf p) = .ok (lineOf (p.rdropWhile trailing)) := by
  have hlocal : seen localConfigRe (lineOf p).toList = Marked.plain (lineOf p).toList :=
    seen_of_notMem (by decide) h.at_notMem
  have hpre := List.rdropWhile_prefix trailing p
  have hkept : Clean (p.rdropWhile trailing) := h.mono hpre.subset
  unfold prefixedLine
  rw [replaceAll_of_seen_plain hlocal]
  simp only [bind, Except.bind]
  rw [trimRight_lineOf, hkept.processPrefixDirective_eq]

/-! ## The passes over the markers -/

theorem trimSpace_trimRight (s : String) : trimSpace (trimRight pyWhitespace s) = trimSpace s := by
  have hspace : ∀ c, pyWhitespace c = true → isSpace c = true := by
    intro c hc
    simp only [pyWhitespace, List.mem_cons, List.not_mem_nil, or_false, decide_eq_true_eq] at hc
    rcases hc with rfl | rfl | rfl | rfl | rfl | rfl <;> decide
  obtain ⟨l, rfl⟩ : ∃ l, s = String.ofList l := ⟨s.toList, String.ofList_toList.symm⟩
  rw [trimRight, String.toList_ofList]
  induction l using List.reverseRecOn with
  | nil => rfl
  | append_singleton l c ih =>
    by_cases hc : pyWhitespace c = true
    · rw [List.rdropWhile_concat_pos _ _ _ hc, ih, trimSpace_concat (hspace c hc)]
    · rw [List.rdropWhile_concat_neg _ _ _ hc]

theorem xformConfigVariable_text (type : VarType) {name : String} (h : '%' ∉ name.toList) :
    xformConfigVariable lookUpConfig (String.ofList (Marker.typed type name).text) =
      (Marker.typed type name).value lookUpConfig := by
  have htype : ':' ∉ type.text.toList ∧ '%' ∉ type.text.toList := by cases type <;> decide
  have hfree : '%' ∉ (Marker.typed type name).content := by
    simp [Marker.content, htype.2, h]
  have hsplit : splitN ':' 2 (String.ofList (Marker.typed type name).content) =
      [type.text, name] := by
    simp only [splitN, Marker.content, cut_ofList_append htype.1, String.ofList_toList]
  unfold xformConfigVariable
  rw [Marker.text, trim_mark hfree (by simp [Marker.content]), hsplit]
  cases type <;> rfl

theorem handleDefaultLookup_eq (name : String) :
    handleDefaultLookup lookUpConfig name = (Marker.plain name).value lookUpConfig := by
  simp only [handleDefaultLookup, Marker.value]
  cases lookUpConfig "VAR" name <;> rfl

theorem xformConfig_text {name : String} (h : (Marker.plain name).WellFormed) :
    xformConfig fmt lookUpConfig (String.ofList (Marker.plain name).text) =
      .ok ((Marker.plain name).value lookUpConfig) := by
  have hno : ∀ keyword ∈ Marker.directiveKeywords, hasPrefix name keyword = false := by
    intro keyword hmem
    rw [Bool.eq_false_iff]
    exact fun hpre => h.keyword keyword hmem (hasPrefix_iff_toList.mp hpre)
  have hnone : (handlers fmt lookUpConfig).find? (fun handler => hasPrefix name handler.1) =
      none := by
    rw [List.find?_eq_none]
    intro handler hmem
    have hkeyword : handler.1 ∈ Marker.directiveKeywords := by
      have hmap : handler.1 ∈ (handlers fmt lookUpConfig).map Prod.fst :=
        List.mem_map.mpr ⟨handler, hmem, rfl⟩
      exact hmap
    rw [hno handler.1 hkeyword]
    exact Bool.false_ne_true
  unfold xformConfig
  simp only [h.trim_text, Marker.content, String.ofList_toList, handleDefaultLookup_eq, hnone]

theorem replaceChar_eq_self_iff {s : String} {old new : Char} (hne : old ≠ new) :
    replaceChar s old new = s ↔ old ∉ s.toList := by
  rw [← String.toList_inj, replaceChar, String.toList_ofList]
  induction s.toList with
  | nil => simp
  | cons c l ih =>
    rw [List.map_cons, List.cons.injEq, ih, List.mem_cons, not_or]
    refine and_congr_left fun _ => ?_
    split
    next heq => simp [heq, hne.symm]
    next hc => simp [Ne.symm hc]

theorem flatMap_eq_flatMap_iff {α β : Type} {l : List α} {f g : α → List β}
    (hlength : ∀ x ∈ l, (f x).length = (g x).length) :
    l.flatMap f = l.flatMap g ↔ ∀ x ∈ l, f x = g x := by
  refine ⟨fun h => ?_, fun h => List.flatMap_congr h⟩
  induction l with
  | nil => simp
  | cons a l ih =>
    rw [List.flatMap_cons, List.flatMap_cons] at h
    obtain ⟨hhead, htail⟩ := List.append_inj h (hlength a List.mem_cons_self)
    rw [List.forall_mem_cons]
    exact ⟨hhead, ih (fun x hx => hlength x (List.mem_cons_of_mem _ hx)) htail⟩

namespace Template

variable (t : Template)

theorem clean : Clean t.pieces := ⟨t.literal, t.wellFormed⟩

theorem kept_subset : t.kept ⊆ t.pieces := by
  have hpre := List.rdropWhile_prefix trailing t.pieces
  exact hpre.subset

theorem clean_kept : Clean t.kept :=
  t.clean.mono t.kept_subset

theorem flatMap_typedMarkers (f : List Char → List Char) :
    t.typedMarkers.flatMap (Sum.elim ([·]) f) = t.kept.flatMap fun
      | .inl c => [c]
      | .inr (.plain name) => (Marker.plain name).text
      | .inr (.typed type name) => f (Marker.typed type name).text := by
  rw [typedMarkers, List.flatMap_assoc]
  refine List.flatMap_congr fun piece _ => ?_
  rcases piece with c | name | ⟨type, name⟩
  · rfl
  · exact Marked.flatMap_plain _ f
  · simp

theorem flatMap_plainMarkers (f : List Char → List Char) :
    (t.plainMarkers lookUpConfig).flatMap (Sum.elim ([·]) f) = t.kept.flatMap fun
      | .inl c => [c]
      | .inr (.plain name) => f (Marker.plain name).text
      | .inr (.typed type name) => (Marker.typed type name).flatValue lookUpConfig := by
  rw [plainMarkers, List.flatMap_assoc]
  refine List.flatMap_congr fun piece _ => ?_
  rcases piece with c | name | ⟨type, name⟩
  · rfl
  · simp
  · exact Marked.flatMap_plain _ f

theorem render_typedMarkers : Marked.render t.typedMarkers = (lineOf t.kept).toList := by
  rw [toList_lineOf]
  refine (t.flatMap_typedMarkers id).trans (List.flatMap_congr fun piece _ => ?_)
  rcases piece with c | name | ⟨type, name⟩ <;> rfl

theorem mem_typedMarkers {text : List Char} (h : .inr text ∈ t.typedMarkers) :
    ∃ type name, .inr (.typed type name) ∈ t.kept ∧ text = (Marker.typed type name).text := by
  obtain ⟨piece, hpiece, hmem⟩ := List.mem_flatMap.mp h
  rcases piece with c | name | ⟨type, name⟩
  · simp at hmem
  · simp [Marked.plain] at hmem
  · exact ⟨type, name, hpiece, by simpa using hmem⟩

theorem mem_plainMarkers {text : List Char} :
    .inr text ∈ t.plainMarkers lookUpConfig ↔
      ∃ name, .inr (.plain name) ∈ t.kept ∧ text = (Marker.plain name).text := by
  constructor
  · intro h
    obtain ⟨piece, hpiece, hmem⟩ := List.mem_flatMap.mp h
    rcases piece with c | name | ⟨type, name⟩
    · simp at hmem
    · exact ⟨name, hpiece, by simpa using hmem⟩
    · simp [Marked.plain] at hmem
  · rintro ⟨name, hmem, rfl⟩
    exact List.mem_flatMap.mpr ⟨_, hmem, List.mem_singleton.mpr rfl⟩

theorem wellMarked_typedMarkers :
    Marked.WellMarked '%' (["VAR:", "LOCAL:", "SERVICE:"].map String.toList) (· ≠ '%')
      t.typedMarkers := by
  intro text htext
  obtain ⟨type, name, hmem, rfl⟩ := t.mem_typedMarkers htext
  have hm := t.clean_kept.wellFormed _ hmem
  refine ⟨_, ⟨type.text.toList ++ [':'], by cases type <;> decide, name.toList, hm.name_ne, ?_, ?_⟩,
    rfl⟩
  · intro c hc
    rw [decide_eq_true_eq]
    rintro rfl
    exact hm.chars '%' hc (by decide)
  · simp [Marker.content]

theorem wellMarked_plainMarkers :
    Marked.WellMarked '%' [[]] (fun c => c ≠ '%' && c ≠ ':') (t.plainMarkers lookUpConfig) := by
  intro text htext
  obtain ⟨name, hmem, rfl⟩ := (t.mem_plainMarkers lookUpConfig).mp htext
  have hm := t.clean_kept.wellFormed _ hmem
  refine ⟨_, ⟨[], List.mem_singleton.mpr rfl, name.toList, hm.name_ne, ?_, rfl⟩, rfl⟩
  intro c hc
  have hfree := hm.chars c hc
  simp only [List.mem_cons, not_or] at hfree
  simp [hfree.1, hfree.2.1]

theorem hasNoMarker_line : hasNoMarker t.line = false := by
  obtain ⟨m, hm⟩ := t.marked
  have hsub : m.text.Sublist t.line.toList := by
    rw [line, toList_lineOf, List.flatMap_def]
    exact List.sublist_flatten_of_mem (List.mem_map.mpr ⟨_, hm, rfl⟩)
  have hcount : 2 ≤ t.line.toList.count '%' := by
    refine le_trans ?_ (hsub.count_le '%')
    simp [Marker.text, mark]
  simp only [hasNoMarker, Bool.and_eq_false_iff, decide_eq_false_iff_not]
  exact .inr (by omega)

theorem transform_line : transform fmt lookUpConfig t.line =
    (configVarPass lookUpConfig (lineOf t.kept) >>= plainVarPass fmt lookUpConfig).map
      (· ++ "\n") := by
  unfold transform
  rw [t.hasNoMarker_line, line, t.clean.prefixedLine_eq fmt lookUpConfig]
  simp only [bind, Except.bind, Bool.false_eq_true, if_false, processWrappingDirective]
  rw [show t.pieces.rdropWhile trailing = t.kept from rfl, t.clean_kept.wrappedContent_eq]
  simp only []
  rw [t.clean_kept.processInlineDirectives_eq fmt lookUpConfig]
  simp only []
  cases configVarPass lookUpConfig (lineOf t.kept) with
  | error e => rfl
  | ok after =>
    simp only []
    cases plainVarPass fmt lookUpConfig after <;> rfl

/-- **The typed markers** are replaced by their values on one line, when the pass sees them
only. -/
theorem configVarPass_of_seen (hsingle : t.NotSingle)
    (hseen : seen configVarRe (lineOf t.kept).toList = t.typedMarkers) :
    configVarPass lookUpConfig (lineOf t.kept) =
      .ok (String.ofList (Marked.render (t.plainMarkers lookUpConfig))) := by
  have hrender : Marked.render (t.plainMarkers lookUpConfig) = t.typedMarkers.flatMap
      (Sum.elim ([·]) fun text =>
        (replaceChar (xformConfigVariable lookUpConfig (String.ofList text)) '\n' ' ').toList) := by
    refine (t.flatMap_plainMarkers lookUpConfig id).trans ?_
    rw [flatMap_typedMarkers]
    refine List.flatMap_congr fun piece hpiece => ?_
    rcases piece with c | name | ⟨type, name⟩
    · rfl
    · rfl
    · have hname : '%' ∉ name.toList := fun hmem =>
        (t.clean_kept.wellFormed _ hpiece).chars '%' hmem (by decide)
      simp only [xformConfigVariable_text lookUpConfig type hname]
      rfl
  rw [hrender]
  refine replaceAll_of_seen _ hseen fun text htext => ?_
  obtain ⟨type, name, hmem, rfl⟩ := t.mem_typedMarkers htext
  have hother : trimSpace (lineOf t.kept) ≠ String.ofList (Marker.typed type name).text := by
    rw [kept, ← trimRight_lineOf, trimSpace_trimRight]
    exact hsingle _ (t.kept_subset hmem)
  simp only [keepOnOneLine, if_neg hother, String.ofList_toList]

/-- What the pass over the untyped markers makes of one of them. -/
def plainValue (text : List Char) : List Char :=
  (keepOnOneLine (String.ofList (Marked.render (t.plainMarkers lookUpConfig))) (String.ofList text)
    ((xformConfig fmt lookUpConfig (String.ofList text)).toOption.getD "")).toList

theorem plainValue_text {name : String} (hmem : .inr (.plain name) ∈ t.kept) :
    t.plainValue fmt lookUpConfig (Marker.plain name).text =
      (keepOnOneLine (String.ofList (Marked.render (t.plainMarkers lookUpConfig)))
        (String.ofList (Marker.plain name).text)
        ((Marker.plain name).value lookUpConfig)).toList := by
  rw [plainValue, xformConfig_text fmt lookUpConfig (t.clean_kept.wellFormed _ hmem)]
  rfl

theorem plainVarPass_of_seen
    (hseen : seen plainVarRe (Marked.render (t.plainMarkers lookUpConfig)) =
      t.plainMarkers lookUpConfig) :
    plainVarPass fmt lookUpConfig (String.ofList (Marked.render (t.plainMarkers lookUpConfig))) =
      .ok (String.ofList ((t.plainMarkers lookUpConfig).flatMap
        (Sum.elim ([·]) (t.plainValue fmt lookUpConfig)))) := by
  rw [← String.toList_ofList (l := Marked.render (t.plainMarkers lookUpConfig))] at hseen
  refine replaceAll_of_seen _ hseen fun text htext => ?_
  obtain ⟨name, hmem, rfl⟩ := (t.mem_plainMarkers lookUpConfig).mp htext
  rw [t.plainValue_text fmt lookUpConfig hmem,
    xformConfig_text fmt lookUpConfig (t.clean_kept.wellFormed _ hmem), String.ofList_toList]
  rfl

theorem flatMap_plainValue_iff :
    String.ofList ((t.plainMarkers lookUpConfig).flatMap
        (Sum.elim ([·]) (t.plainValue fmt lookUpConfig))) ++ "\n" = t.expected lookUpConfig ↔
      ∀ name, .inr (.plain name) ∈ t.kept →
        trimSpace (String.ofList (Marked.render (t.plainMarkers lookUpConfig))) =
          String.ofList (Marker.plain name).text →
        '\n' ∉ ((Marker.plain name).value lookUpConfig).toList := by
  rw [expected, String.append_left_inj, flatMap_plainMarkers, String.ofList_inj]
  have hvalue : ∀ name, .inr (.plain name) ∈ t.kept →
      (t.plainValue fmt lookUpConfig (Marker.plain name).text =
          (Marker.plain name).flatValue lookUpConfig ↔
        (trimSpace (String.ofList (Marked.render (t.plainMarkers lookUpConfig))) =
            String.ofList (Marker.plain name).text →
          '\n' ∉ ((Marker.plain name).value lookUpConfig).toList)) := by
    intro name hmem
    rw [t.plainValue_text fmt lookUpConfig hmem, keepOnOneLine, Marker.flatValue,
      String.toList_inj]
    split
    next hline => rw [eq_comm, replaceChar_eq_self_iff (by decide), forall_prop_of_true hline]
    next hline => exact ⟨fun _ h => absurd h hline, fun _ => rfl⟩
  rw [flatMap_eq_flatMap_iff]
  · constructor
    · intro h name hmem
      have hpiece := h (.inr (.plain name)) hmem
      simp only [Sum.elim_inr] at hpiece
      exact (hvalue name hmem).mp hpiece
    · rintro h (c | name | ⟨type, name⟩) hmem
      · rfl
      · simp only [Sum.elim_inr]
        exact (hvalue name hmem).mpr (h name hmem)
      · rfl
  · rintro (c | name | ⟨type, name⟩) hmem
    · rfl
    · simp only [Sum.elim_inr]
      rw [t.plainValue_text fmt lookUpConfig hmem, Marker.flatValue, keepOnOneLine]
      split
      · simp [replaceChar]
      · rfl
    · rfl

end Template

def twoValues : ConfigLookup
  | "VAR", "x" => .ok "%%y%%"
  | "VAR", "y" => .ok "1"
  | _, _ => .error "not found"

/-- `a %%VAR:name%%`. -/
def oneMarker (name : String) (h : (Marker.typed .var name).WellFormed) : Template where
  pieces := [.inl 'a', .inl ' ', .inr (.typed .var name)]
  literal := by
    intro c hc
    simp only [List.mem_cons, Sum.inl.injEq, reduceCtorEq, List.not_mem_nil, or_false] at hc
    rcases hc with rfl | rfl <;> decide
  wellFormed := by
    intro m hm
    simp only [List.mem_cons, Sum.inr.injEq, reduceCtorEq, List.not_mem_nil, or_false,
      false_or] at hm
    exact hm ▸ h
  marked := ⟨_, by simp; rfl⟩

theorem not_prefix_letter (c : Char) :
    ∀ keyword ∈ Marker.directiveKeywords, ¬keyword.toList <+: [c] := by
  have hlength : ∀ keyword ∈ Marker.directiveKeywords, 1 < keyword.toList.length := by decide
  intro keyword hmem hpre
  exact absurd hpre.length_le (Nat.not_le.mpr (hlength keyword hmem))

theorem wellFormed_x : (Marker.typed .var "x").WellFormed :=
  ⟨by simp [Marker.name], by simp [Marker.name], not_prefix_letter 'x'⟩

theorem wellFormed_y : (Marker.typed .var "y").WellFormed :=
  ⟨by simp [Marker.name], by simp [Marker.name], not_prefix_letter 'y'⟩

/-- **A line of text and markers is rendered in one go** exactly when it reads clean. -/
theorem rendered_once_iff (t : Template) (hsingle : t.NotSingle) :
    t.RenderedOnce fmt lookUpConfig ↔ t.ReadsClean lookUpConfig := by
  have hbefore : (prefixedLine fmt lookUpConfig t.line >>=
      processInlineDirectives fmt lookUpConfig) =
      .ok (lineOf t.kept) := by
    rw [Template.line, t.clean.prefixedLine_eq]
    exact t.clean_kept.processInlineDirectives_eq fmt lookUpConfig
  have htyped : seen configVarRe (lineOf t.kept).toList = t.typedMarkers ↔
      Unbroken '%' (["VAR:", "LOCAL:", "SERVICE:"].map String.toList) (· ≠ '%')
        t.typedMarkers := by
    rw [← t.render_typedMarkers]
    exact seen_render_iff (by decide) (by decide) t.wellMarked_typedMarkers
  have hplain : seen plainVarRe (Marked.render (t.plainMarkers lookUpConfig)) =
      t.plainMarkers lookUpConfig ↔
      Unbroken '%' [[]] (fun c => c ≠ '%' && c ≠ ':') (t.plainMarkers lookUpConfig) :=
    seen_render_iff (by decide) (by decide) (t.wellMarked_plainMarkers lookUpConfig)
  -- Once both passes see the markers of the line only, the result is known.
  have hresult : seen configVarRe (lineOf t.kept).toList = t.typedMarkers →
      seen plainVarRe (Marked.render (t.plainMarkers lookUpConfig)) = t.plainMarkers lookUpConfig →
      transform fmt lookUpConfig t.line = .ok (String.ofList ((t.plainMarkers lookUpConfig).flatMap
        (Sum.elim ([·]) (t.plainValue fmt lookUpConfig))) ++ "\n") := by
    intro hseen hseen'
    rw [t.transform_line, t.configVarPass_of_seen lookUpConfig hsingle hseen]
    simp only [bind, Except.bind]
    rw [t.plainVarPass_of_seen fmt lookUpConfig hseen']
    rfl
  constructor
  · rintro ⟨hout, before, after, hline, hpass, hseen, hseen'⟩
    obtain rfl := Except.ok.inj (hbefore.symm.trans hline)
    rw [t.configVarPass_of_seen lookUpConfig hsingle hseen] at hpass
    obtain rfl := Except.ok.inj hpass
    rw [String.toList_ofList] at hseen'
    refine ⟨htyped.mp hseen, hplain.mp hseen', ?_⟩
    exact (t.flatMap_plainValue_iff fmt lookUpConfig).mp
      (Except.ok.inj ((hresult hseen hseen').symm.trans hout))
  · intro hclean
    have hseen := htyped.mpr hclean.typed
    have hseen' := hplain.mpr hclean.plain
    refine ⟨?_, _, _, hbefore, t.configVarPass_of_seen lookUpConfig hsingle hseen, hseen, ?_⟩
    · rw [hresult hseen hseen', (t.flatMap_plainValue_iff fmt lookUpConfig).mpr hclean.alone]
    · rw [String.toList_ofList]
      exact hseen'

theorem rendered_once_plain_value :
    (oneMarker "y" wellFormed_y).NotSingle ∧
      (oneMarker "y" wellFormed_y).ReadsClean twoValues := by
  have hsingle : (oneMarker "y" wellFormed_y).NotSingle := by
    intro m hm
    obtain rfl : m = .typed .var "y" := by simpa [oneMarker] using hm
    decide +kernel
  refine ⟨hsingle, (rendered_once_iff noFormats twoValues _ hsingle).mp ⟨by decide +kernel, ?_⟩⟩
  exact ⟨"a %%VAR:y%%", "a 1", by decide +kernel, by decide +kernel, by decide +kernel,
    by decide +kernel⟩

/-- The value of `x` is read as a marker: `a %%VAR:x%%` becomes `a 1`, the value of `y`. -/
theorem value_read_as_marker :
    (oneMarker "x" wellFormed_x).NotSingle ∧
      (oneMarker "x" wellFormed_x).expected twoValues = "a %%y%%\n" ∧
      transform noFormats twoValues (oneMarker "x" wellFormed_x).line = .ok "a 1\n" := by
  refine ⟨?_, by decide +kernel, by decide +kernel⟩
  intro m hm
  obtain rfl : m = .typed .var "x" := by simpa [oneMarker] using hm
  decide +kernel

end Transformer
end Configd
