import Configd.Lib.Lines
import Configd.Parser.Locality
import Configd.Parser.Scan

/-!
# The layout of `zmconfigd.cf`

A text the parser accepts is a sequence of lines.  A line that begins with `SECTION` opens
a section, one with `IF` a block of the section, one with `FI` closes the block, and all
others belong to the section or the block they stand in.  `Reading.step` arranges the
lines in that way, looking at their first tokens only.

`parseSections_layout` says that the recursive descent does nothing else: the parsed
configuration is that of the arranged lines (`configOf`), where each line is parsed by
itself.
-/

namespace Configd.Parser

open Lib

/-! ## The lines of a file -/

structure Line where
  text : String
  toks : List Token

/-- An `if` block: the line of its condition, and the lines of its body. -/
structure Block where
  header : Line
  lines : List Line := []

inductive Item
  | line (l : Line)
  | block (b : Block)

/-- A section: its header and what stands in it. -/
structure SectionText where
  header : Line
  items : List Item := []

structure Reading where
  done : List SectionText := []
  cur : Option SectionText := none
  block : Option Block := none

/-- The tokens of a file, line by line. -/
def tokenLines : List Token → List (List Token)
  | [] => [[]]
  | t :: rest =>
    if t.type.isEnd then [[]]
    else if t.type = .tokenNewline then [] :: tokenLines rest
    else
      match tokenLines rest with
      | [] => [[t]]
      | l :: ls => (t :: l) :: ls

def SectionText.add (s : SectionText) (item : Item) : SectionText :=
  { s with items := s.items ++ [item] }

def Reading.step (r : Reading) (l : Line) : Reading :=
  match l.toks with
  | [] => r
  | t :: _ =>
    match r.block with
    | some b =>
      if t.type = .tokenFi then
        { r with cur := r.cur.map (·.add (.block b)), block := none }
      else { r with block := some { b with lines := b.lines ++ [l] } }
    | none =>
      if t.type = .tokenSection then
        { done := r.done ++ r.cur.toList, cur := some { header := l }, block := none }
      else if t.type = .tokenIf then { r with block := some { header := l } }
      else { r with cur := r.cur.map (·.add (.line l)) }

def Reading.sections (r : Reading) : List SectionText :=
  r.done ++ r.cur.toList

/-! ## What the lines say -/

def Line.apply (sec : MtaConfigSection) (l : Line) : Option MtaConfigSection :=
  (parseDirective sec l.toks).1.toOption

def Line.applyBlock (cond : Conditional) (l : Line) : Option Conditional :=
  (parseConditionalLine cond l.toks).1.toOption

def Block.read (b : Block) : Option Conditional :=
  (parseConditionalHeader b.header.toks).1.toOption.bind fun header =>
    b.lines.foldlM Line.applyBlock header.start

def Item.apply (sec : MtaConfigSection) : Item → Option MtaConfigSection
  | .line l => l.apply sec
  | .block b => b.read.map fun cond => { sec with conditionals := sec.conditionals ++ [cond] }

/-- The name of a section and what it begins with. -/
def SectionText.start (s : SectionText) : Option (String × MtaConfigSection) :=
  (parseSectionHeader (advance s.header.toks)).1.toOption

def SectionText.read (s : SectionText) : Option (String × MtaConfigSection) :=
  s.start.bind fun (name, sec) => (s.items.foldlM Item.apply sec).map fun sec => (name, sec)

/-- The configuration of the sections. -/
def configOf (sections : List SectionText) : Option MtaConfig :=
  sections.foldlM (fun cfg s => s.read.map fun (name, sec) =>
    { sections := cfg.sections.insert name sec }) {}

theorem Block.read_append {b : Block} {cond : Conditional} (hread : b.read = some cond)
    (l : Line) : Block.read { b with lines := b.lines ++ [l] } = l.applyBlock cond := by
  unfold Block.read at hread ⊢
  obtain ⟨header, hheader, hlines⟩ := Option.bind_eq_some_iff.mp hread
  simp only [hheader, Option.bind_some, List.foldlM_append, hlines, List.foldlM_cons,
    List.foldlM_nil, bind_pure, Option.bind_eq_bind]

theorem SectionText.read_add {s : SectionText} {name : String} {sec sec' : MtaConfigSection}
    (hread : s.read = some (name, sec)) {item : Item} (hitem : item.apply sec = some sec') :
    (s.add item).read = some (name, sec') := by
  unfold read at hread ⊢
  obtain ⟨start, hstart, hitems⟩ := Option.bind_eq_some_iff.mp hread
  obtain ⟨sec₀, hsec, heq⟩ := Option.map_eq_some_iff.mp hitems
  have hadd : (s.add item).start = some start := hstart
  cases heq
  rw [hadd, Option.bind_some]
  simp [add, List.foldlM_append, hsec, hitem]

/-! ## Tokens and lines -/

/-- The tokens of a file from some point on: one that ends the file stands at the end
only. -/
def Ended : List Token → Prop
  | [] => False
  | t :: rest => if t.type.isEnd then rest = [] else Ended rest

variable {t : Token}

theorem ended_cons_iff (ht : t.type.isEnd = false) (rest : List Token) :
    Ended (t :: rest) ↔ Ended rest := by
  simp [Ended, ht]

variable {toks : List Token}

theorem Ended.of_isAtEnd (hend : Ended toks) (hat : isAtEnd toks = true) :
    ∃ t, toks = [t] ∧ t.type.isEnd = true := by
  cases toks with
  | nil => exact hend.elim
  | cons t rest =>
    have ht : t.type.isEnd = true := hat
    refine ⟨t, ?_, ht⟩
    simp only [Ended, ht, if_true] at hend
    rw [hend]

theorem Ended.of_suffix {r : List Token} (hend : Ended toks) (hsuffix : r <:+ toks)
    (hr : Ended r) (hclean : ∀ t ∈ r, t.type ≠ .tokenError) :
    ∀ t ∈ toks, t.type ≠ .tokenError := by
  induction toks with
  | nil => simp
  | cons t rest ih =>
    rcases List.suffix_cons_iff.mp hsuffix with rfl | hsuffix
    · exact hclean
    · have hnot : t.type.isEnd = false := by
        cases hend' : t.type.isEnd with
        | false => rfl
        | true =>
          simp only [Ended, hend', if_true] at hend
          rw [hend, List.suffix_nil] at hsuffix
          rw [hsuffix] at hr
          exact hr.elim
      intro t' ht'
      rcases List.mem_cons.mp ht' with rfl | ht'
      · intro herror
        rw [herror] at hnot
        exact absurd hnot (by decide)
      · exact ih ((ended_cons_iff hnot rest).mp hend) hsuffix t' ht'

theorem exists_line (hend : Ended toks) :
    ∃ l s, toks = l ++ s ∧ Plain l ∧ Stopped s ∧ Ended s := by
  induction toks with
  | nil => exact hend.elim
  | cons t rest ih =>
    by_cases hstop : t.type.isStop = true
    · exact ⟨[], t :: rest, rfl, plain_nil, ⟨t, rest, rfl, hstop⟩, hend⟩
    · rw [Bool.not_eq_true] at hstop
      obtain ⟨l, s, rfl, hl, hs⟩ :=
        ih ((ended_cons_iff (not_isEnd_of_not_isStop hstop) rest).mp hend)
      exact ⟨t :: l, s, rfl, plain_cons.mpr ⟨hstop, hl⟩, hs⟩

variable {l : List Token}

theorem tokenLines_cons (ht : t.type.isStop = false) {rest : List Token}
    {ls : List (List Token)} (hrest : tokenLines rest = l :: ls) :
    tokenLines (t :: rest) = (t :: l) :: ls := by
  rw [tokenLines, not_isEnd_of_not_isStop ht, if_neg (by simp),
    if_neg (ne_newline_of_not_isStop ht), hrest]

theorem tokenLines_newline (ht : t.type = .tokenNewline) (rest : List Token) :
    tokenLines (t :: rest) = [] :: tokenLines rest := by
  rw [tokenLines, ht, if_neg (by decide), if_pos rfl]

theorem tokenLines_end (ht : t.type.isEnd = true) (rest : List Token) :
    tokenLines (t :: rest) = [[]] := by
  rw [tokenLines, if_pos ht]

variable {s : List Token}

theorem exists_tokenLines (hs : Stopped s) :
    ∃ ls, tokenLines s = [] :: ls ∧ ∀ l, Plain l → tokenLines (l ++ s) = l :: ls := by
  have hfirst : ∃ ls, tokenLines s = [] :: ls := by
    obtain ⟨t, rest, rfl, ht⟩ := hs
    by_cases hend : t.type.isEnd = true
    · exact ⟨[], tokenLines_end hend rest⟩
    · refine ⟨_, tokenLines_newline ?_ rest⟩
      simpa [TokenType.isStop, hend] using ht
  obtain ⟨ls, hls⟩ := hfirst
  refine ⟨ls, hls, ?_⟩
  intro l hl
  induction l with
  | nil => exact hls
  | cons t l ih =>
    obtain ⟨ht, hl⟩ := plain_cons.mp hl
    exact tokenLines_cons ht (ih hl)

/-- The lines are those of the tokens. -/
def LinesOf (ls : List Line) (toks : List Token) : Prop :=
  ls.map Line.toks = tokenLines toks

def blankLine : Line := ⟨"", []⟩

@[simp] theorem Reading.step_blank (r : Reading) {l : Line} (hl : l.toks = []) :
    r.step l = r := by
  unfold step
  rw [hl]

variable {ls : List Line}

theorem LinesOf.split (h : LinesOf ls (l ++ s))
    (hl : Plain l) (hs : Stopped s) :
    ∃ line rest, ls = line :: rest ∧ line.toks = l ∧ LinesOf (blankLine :: rest) s := by
  obtain ⟨lines, hstop, hlines⟩ := exists_tokenLines hs
  unfold LinesOf at h ⊢
  rw [hlines l hl] at h
  obtain ⟨line, rest, rfl, hline, hrest⟩ := List.map_eq_cons_iff.mp h
  exact ⟨line, rest, rfl, hline, by rw [hstop, List.map_cons, hrest]; rfl⟩

theorem LinesOf.newline {rest : List Token}
    (h : LinesOf ls (t :: rest)) (ht : t.type = .tokenNewline) :
    ∃ line lines, ls = line :: lines ∧ line.toks = [] ∧ LinesOf lines rest := by
  unfold LinesOf at h ⊢
  rw [tokenLines_newline ht] at h
  exact List.map_eq_cons_iff.mp h

/-! ## Blocks -/

theorem andThen_eq_ok {α β : Type} {p : Parsed α} {f : α → List Token → Parsed β} {b : β}
    {rest : List Token} (h : andThen p f = (.ok b, rest)) :
    ∃ a toks, p = (.ok a, toks) ∧ f a toks = (.ok b, rest) := by
  obtain ⟨_ | a, toks⟩ := p
  · cases h
  · exact ⟨a, toks, rfl, h⟩

theorem parseConditionalLine_stop {cond cond' : Conditional} {rest : List Token}
    (ht : t.type.isStop = false) (h : parseConditionalLine cond (t :: l) = (.ok cond', rest)) :
    (∃ toks, rest = skipToNewline toks) ∨ rest = l ∧ (current l).type = .tokenIdentifier := by
  have hvar : parseConditionalRequiredVar cond (t :: l) = (.ok cond', rest) →
      rest = l ∧ (current l).type = .tokenIdentifier := by
    intro h
    unfold parseConditionalRequiredVar at h
    rw [advance_cons ht] at h
    simp only at h
    split at h
    · rename_i hname
      exact ⟨(Prod.mk.inj h).2.symm, hname⟩
    · cases h
  have hends : ∀ p : Parsed Conditional, EndsLine p → p = (.ok cond', rest) →
      ∃ toks, rest = skipToNewline toks := by
    rintro _ hends rfl
    exact hends cond' rfl
  have hpostconf : ∀ (p : Parsed PostconfLine) (f : PostconfLine → Conditional),
      EndsLine (andThen p fun line toks => (.ok (f line), skipToNewline toks)) :=
    fun p f => andThen_endsLine p fun _ _ => endsLine_ok _ _
  unfold parseConditionalLine at h
  rw [current_cons] at h
  cases htype : t.type with
  | tokenVar =>
    simp only [htype] at h
    exact Or.inr (hvar h)
  | tokenLocal =>
    simp only [htype] at h
    exact Or.inr (hvar h)
  | tokenPostconf =>
    simp only [htype] at h
    exact Or.inl (hends _ (hpostconf _ _) h)
  | tokenPostconfd =>
    simp only [htype] at h
    exact Or.inl (hends _ (hpostconf _ _) h)
  | _ =>
    simp only [htype] at h
    exact Or.inl ⟨_, (Prod.mk.inj h).2.symm⟩

theorem parseConditionalBody_line (ht : t.type.isStop = false)
    (hfi : t.type ≠ .tokenFi) (hsection : t.type ≠ .tokenSection) (fuel : Nat)
    (cond : Conditional) (l : List Token) :
    parseConditionalBody (fuel + 1) cond (t :: l) =
      andThen (parseConditionalLine cond (t :: l)) (parseConditionalBody fuel) := by
  rw [parseConditionalBody, current_cons]
  cases htype : t.type with
  | tokenEOF => rw [htype] at ht; exact absurd ht (by decide)
  | tokenError => rw [htype] at ht; exact absurd ht (by decide)
  | tokenNewline => rw [htype] at ht; exact absurd ht (by decide)
  | tokenFi => exact absurd htype hfi
  | tokenSection => exact absurd htype hsection
  | _ => rfl

theorem parseConditionalBody_rest (hl : Plain l) (hs : Stopped s)
    (hname : (current (l ++ s)).type = .tokenIdentifier) (fuel : Nat) (cond : Conditional) :
    parseConditionalBody (fuel + 1) cond (l ++ s) = parseConditionalBody fuel cond s := by
  have hskip : parseConditionalLine cond (l ++ s) = (.ok cond, s) := by
    unfold parseConditionalLine
    rw [hname, skipToNewline_append hl hs]
  rw [parseConditionalBody, hname]
  simp only [hskip, andThen]

theorem parseConditionalBody_goesOn {cond cond₁ cond' : Conditional}
    {r : List Token} {n : Nat} (hl : Plain (t :: l)) (hs : Stopped s)
    (hparse : parseConditionalLine cond (t :: l ++ s) = (.ok cond₁, toks))
    (h : parseConditionalBody n cond₁ toks = (.ok cond', r)) (hlen : (t :: l ++ s).length < n + 1) :
    ∃ m ≤ n, s.length < m ∧ parseConditionalBody m cond₁ s = (.ok cond', r) := by
  obtain ⟨ht, hl'⟩ := plain_cons.mp hl
  simp only [List.length_cons, List.length_append] at hlen
  rcases parseConditionalLine_stop ht hparse with ⟨skipped, hstop⟩ | ⟨htoks, hname⟩
  · have hrest : toks = s := by
      obtain ⟨l₁, hl₁, hrest⟩ := (parseConditionalLine_alike cond hl hs).rest
      rw [hparse] at hrest
      have hagain : skipToNewline toks = toks := by
        rw [hstop]
        exact List.dropWhile_idempotent _ _
      simp only at hrest
      rw [← hagain, hrest, skipToNewline_append hl₁ hs]
    rw [hrest] at h
    exact ⟨n, Nat.le_refl n, by omega, h⟩
  · -- The position is at the name, and the rest of the line takes a turn of its own.
    obtain rfl : toks = l ++ s := htoks
    have hlong : 0 < l.length := by
      cases l with
      | nil => exact absurd hname (current_type_ne hs _ rfl)
      | cons _ _ => simp
    obtain _ | m := n
    · exact absurd hlen (by omega)
    · rw [parseConditionalBody_rest hl' hs hname] at h
      exact ⟨m, by omega, by omega, h⟩

/-- **A block** is the lines up to the first `fi`. -/
theorem parseConditionalBody_layout (n : Nat) :
    ∀ {cond cond' : Conditional} {toks r : List Token} {ls : List Line} {b : Block},
      Ended toks → toks.length < n → parseConditionalBody n cond toks = (.ok cond', r) →
      LinesOf ls toks → b.read = some cond →
      ∃ b' ls', b'.read = some cond' ∧ Ended r ∧ r <:+ toks ∧ LinesOf ls' r ∧
        ∀ done s, ls.foldl Reading.step ⟨done, some s, some b⟩ =
          ls'.foldl Reading.step ⟨done, some (s.add (.block b')), none⟩ := by
  induction n using Nat.strong_induction_on with
  | _ n ih =>
  intro cond cond' toks r ls b hend hlen h hls hread
  obtain _ | n := n
  · exact absurd hlen (by simp)
  obtain ⟨l, s, rfl, hl, hs, hends⟩ := exists_line hend
  cases l with
  | nil =>
    -- At the end of a line: a line break, or the file ends in the block.
    obtain ⟨t, rest, rfl, ht⟩ := hs
    simp only [List.nil_append, parseConditionalBody, current_cons] at h hls hlen ⊢
    by_cases hnewline : t.type = .tokenNewline
    · have hnot : t.type.isEnd = false := by rw [hnewline]; rfl
      obtain ⟨line, lines, rfl, hblank, hlines⟩ := hls.newline hnewline
      simp only [hnewline, advance] at h
      obtain ⟨b', ls', hread', hend', hsuffix, hls', hfold⟩ := ih n (Nat.lt_succ_self n)
        ((ended_cons_iff hnot rest).mp hends) (by simp at hlen; omega) h hlines hread
      refine ⟨b', ls', hread', hend', hsuffix.trans (List.suffix_cons t rest), hls', ?_⟩
      intro done s
      rw [List.foldl_cons, Reading.step_blank _ hblank]
      exact hfold done s
    · have htype : t.type = .tokenEOF ∨ t.type = .tokenError := by
        simpa [TokenType.isStop, TokenType.isEnd, hnewline] using ht
      rcases htype with htype | htype <;> · rw [htype] at h; cases h
  | cons t l =>
    obtain ⟨ht, hl'⟩ := plain_cons.mp hl
    obtain ⟨line, rest, rfl, hline, hrest⟩ := hls.split hl hs
    by_cases hfi : t.type = .tokenFi
    · -- The line that ends the block.
      rw [List.cons_append, parseConditionalBody, current_cons, hfi] at h
      simp only [Prod.mk.injEq, Except.ok.injEq] at h
      obtain ⟨rfl, rfl⟩ := h
      rw [← List.cons_append, skipToNewline_append hl hs]
      refine ⟨b, blankLine :: rest, hread, hends, List.suffix_append _ _, hrest, ?_⟩
      intro done s
      simp [Reading.step, hline, hfi, blankLine]
    · by_cases hsection : t.type = .tokenSection
      · rw [List.cons_append, parseConditionalBody, current_cons, hsection] at h
        cases h
      · rw [List.cons_append, parseConditionalBody_line ht hfi hsection, ← List.cons_append] at h
        obtain ⟨cond₁, toks₁, hparse, h⟩ := andThen_eq_ok h
        have halike := parseConditionalLine_alike cond hl hs
        have happly : line.applyBlock cond = some cond₁ := by
          unfold Line.applyBlock
          rw [hline, ← halike.result, hparse]
          rfl
        have hread₁ : Block.read { b with lines := b.lines ++ [line] } = some cond₁ := by
          rw [Block.read_append hread, happly]
        have hstep : ∀ done s, Reading.step ⟨done, some s, some b⟩ line =
            ⟨done, some s, some { b with lines := b.lines ++ [line] }⟩ := by
          intro done s
          simp [Reading.step, hline, hfi]
        obtain ⟨m, hm, hlenm, h⟩ := parseConditionalBody_goesOn hl hs hparse h hlen
        obtain ⟨b', ls', hread', hend', hsuffix, hls', hfold⟩ :=
          ih m (Nat.lt_succ_of_le hm) hends hlenm h hrest hread₁
        refine ⟨b', ls', hread', hend', hsuffix.trans (List.suffix_append _ _), hls', ?_⟩
        intro done s
        have hfold := hfold done s
        rw [List.foldl_cons, Reading.step_blank _ rfl] at hfold
        rw [List.foldl_cons, hstep, hfold]

/-! ## Sections -/

theorem parseConditional_layout {sec sec' : MtaConfigSection} {r : List Token}
    {line : Line} {rest : List Line} {st : SectionText} {name : String} (hl : Plain (t :: l))
    (hs : Stopped s) (hend : Ended s) (hif : t.type = .tokenIf) (hline : line.toks = t :: l)
    (hrest : LinesOf (blankLine :: rest) s) (hread : st.read = some (name, sec))
    (h : parseDirective sec (t :: l ++ s) = (.ok sec', r)) :
    ∃ st' ls', st'.read = some (name, sec') ∧ Ended r ∧ r <:+ s ∧ LinesOf ls' r ∧
      ∀ done, (line :: rest).foldl Reading.step ⟨done, some st, none⟩ =
        ls'.foldl Reading.step ⟨done, some st', none⟩ := by
  have hcond : parseConditional sec (t :: l ++ s) = (.ok sec', r) := by
    rw [← h]
    unfold parseDirective
    rw [List.cons_append, current_cons, hif]
  obtain ⟨header, toks, hheader, hbody⟩ := andThen_eq_ok hcond
  have halike := parseConditionalHeader_alike hl hs
  have hskip : skipToNewline toks = s := by
    obtain ⟨l₁, hl₁, hrest⟩ := halike.rest
    rw [hheader] at hrest
    simp only at hrest
    rw [hrest, skipToNewline_append hl₁ hs]
  simp only [hskip] at hbody
  obtain ⟨cond, toks', hparse, hfinish⟩ := andThen_eq_ok hbody
  simp only [Prod.mk.injEq, Except.ok.injEq] at hfinish
  obtain ⟨rfl, rfl⟩ := hfinish
  have hstart : Block.read { header := line } = some header.start := by
    unfold Block.read
    rw [hline, ← halike.result, hheader]
    rfl
  obtain ⟨b, ls', hb, hend', hlen, hls', hfold⟩ :=
    parseConditionalBody_layout _ hend (Nat.lt_succ_self _) hparse hrest hstart
  refine ⟨st.add (.block b), ls', SectionText.read_add hread ?_, hend', hlen, hls', ?_⟩
  · simp [Item.apply, hb]
  · intro done
    have hfold := hfold done st
    rw [List.foldl_cons, Reading.step_blank _ rfl] at hfold
    rw [List.foldl_cons, ← hfold]
    simp [Reading.step, hline, hif]

/-- **The body of a section** is the lines up to the next `SECTION`. -/
theorem parseBody_layout (n : Nat) :
    ∀ {sec sec' : MtaConfigSection} {toks r : List Token} {ls : List Line} {s : SectionText}
      {name : String},
      Ended toks → toks.length < n → parseBody n sec toks = (.ok sec', r) →
      LinesOf ls toks → s.read = some (name, sec) →
      ∃ s' ls', s'.read = some (name, sec') ∧ Ended r ∧ r <:+ toks ∧ LinesOf ls' r ∧
        ∀ done, ls.foldl Reading.step ⟨done, some s, none⟩ =
          ls'.foldl Reading.step ⟨done, some s', none⟩ := by
  induction n with
  | zero =>
    intro sec sec' toks r ls s name _ hlen
    exact absurd hlen (by simp)
  | succ n ih =>
    intro sec sec' toks r ls st name hend hlen h hls hread
    rw [parseBody] at h
    by_cases hstop : (isAtEnd toks || isNextSection toks) = true
    · rw [if_pos hstop] at h
      simp only [Prod.mk.injEq, Except.ok.injEq] at h
      obtain ⟨rfl, rfl⟩ := h
      exact ⟨st, ls, hread, hend, List.suffix_rfl, hls, fun done => rfl⟩
    rw [if_neg hstop] at h
    obtain ⟨l, s, rfl, hl, hs, hends⟩ := exists_line hend
    cases l with
    | nil =>
      -- A line break.
      obtain ⟨t, rest, rfl, ht⟩ := hs
      have hnot : t.type.isEnd = false := by
        simp only [List.nil_append, isAtEnd, current_cons, Bool.or_eq_true, not_or,
          Bool.not_eq_true] at hstop
        exact hstop.1
      have hnewline : t.type = .tokenNewline := by
        simpa [TokenType.isStop, hnot] using ht
      rw [List.nil_append, if_pos (by simp [isAtNewline, hnewline]), advance,
        if_neg (by simp [hnot])] at h
      obtain ⟨line, lines, rfl, hblank, hlines⟩ := hls.newline hnewline
      obtain ⟨s', ls', hread', hend', hsuffix, hls', hfold⟩ :=
        ih ((ended_cons_iff hnot rest).mp hends) (by simp at hlen; omega) h hlines hread
      refine ⟨s', ls', hread', hend', hsuffix.trans (List.suffix_cons t rest), hls', ?_⟩
      intro done
      rw [List.foldl_cons, Reading.step_blank _ hblank]
      exact hfold done
    | cons t l =>
      obtain ⟨ht, hl'⟩ := plain_cons.mp hl
      have hsection : t.type ≠ .tokenSection := by
        intro htype
        exact hstop (by simp [isNextSection, htype])
      rw [if_neg (by simp [isAtNewline, ne_newline_of_not_isStop ht])] at h
      obtain ⟨sec₁, toks₁, hparse, hgo⟩ := andThen_eq_ok h
      obtain ⟨line, rest, rfl, hline, hrest⟩ := hls.split hl hs
      by_cases hif : t.type = .tokenIf
      · obtain ⟨s₁, ls₁, hread₁, hend₁, hsuffix₁, hls₁, hfold₁⟩ :=
          parseConditional_layout hl hs hends hif hline hrest hread hparse
        have hlen₁ := hsuffix₁.length_le
        obtain ⟨s', ls', hread', hend', hsuffix, hls', hfold⟩ :=
          ih hend₁ (by simp at hlen; omega) hgo hls₁ hread₁
        refine ⟨s', ls', hread', hend',
          (hsuffix.trans hsuffix₁).trans (List.suffix_append _ _), hls', ?_⟩
        intro done
        rw [hfold₁ done, hfold done]
      · obtain ⟨rfl, hresult⟩ := (parseDirective_endsLine sec _ hif).line
          (parseDirective_alike sec hl hs hif) hs hparse
        have happly : (Item.line line).apply sec = some sec₁ := by
          change (parseDirective sec line.toks).1.toOption = some sec₁
          rw [hline, hresult]
        obtain ⟨s', ls', hread', hend', hsuffix, hls', hfold⟩ :=
          ih hends (by simp at hlen; omega) hgo hrest (SectionText.read_add hread happly)
        refine ⟨s', ls', hread', hend', hsuffix.trans (List.suffix_append _ _), hls', ?_⟩
        intro done
        have hfold := hfold done
        rw [List.foldl_cons, Reading.step_blank _ rfl] at hfold
        rw [List.foldl_cons, ← hfold]
        simp [Reading.step, hline, hsection, hif]

/-- The reading is between two blocks, and its sections give the configuration. -/
structure Reading.Gives (r : Reading) (cfg : MtaConfig) : Prop where
  block : r.block = none
  config : configOf r.sections = some cfg

theorem gives_init : Reading.Gives {} {} := ⟨rfl, rfl⟩

theorem LinesOf.dropNewlines (hend : Ended toks)
    (hls : LinesOf ls toks) (r : Reading) :
    ∃ ls', LinesOf ls' (toks.dropWhile (·.type = .tokenNewline)) ∧
      Ended (toks.dropWhile (·.type = .tokenNewline)) ∧
      ls.foldl Reading.step r = ls'.foldl Reading.step r := by
  induction toks generalizing ls with
  | nil => exact hend.elim
  | cons t rest ih =>
    by_cases hnewline : t.type = .tokenNewline
    · obtain ⟨line, lines, rfl, hblank, hlines⟩ := hls.newline hnewline
      have hnot : t.type.isEnd = false := by rw [hnewline]; rfl
      obtain ⟨ls', hls', hend', hfold⟩ := ih ((ended_cons_iff hnot rest).mp hend) hlines
      rw [List.dropWhile_cons, if_pos (by simp [hnewline])]
      refine ⟨ls', hls', hend', ?_⟩
      rw [List.foldl_cons, Reading.step_blank _ hblank, hfold]
    · rw [List.dropWhile_cons, if_neg (by simp [hnewline])]
      exact ⟨ls, hls, hend, rfl⟩

theorem parseSectionHeader_line {header : String × MtaConfigSection}
    (hl : Plain l) (hs : Stopped s) (h : parseSectionHeader (l ++ s) = (.ok header, toks))
    (hnewline : isAtNewline toks = true) :
    toks = s ∧ (parseSectionHeader l).1.toOption = some header := by
  have halike := parseSectionHeader_alike hl hs
  rw [h] at halike
  refine ⟨?_, halike.result.symm⟩
  obtain ⟨l', hl', hrest⟩ := halike.rest
  cases l' with
  | nil => exact hrest
  | cons t l' =>
    simp only at hrest
    rw [hrest, List.cons_append, (not_newline_or_end (plain_cons.mp hl').1 _).1] at hnewline
    cases hnewline

/-- **A section** is its header and its body. -/
theorem parseSection_layout {cfg cfg' : MtaConfig} {r : List Token}
    {rd : Reading} (hend : Ended toks) (hgo : isAtEnd toks = false)
    (h : parseSection cfg toks = (.ok cfg', r)) (hls : LinesOf ls toks) (hrd : rd.Gives cfg) :
    ∃ rd' ls', rd'.Gives cfg' ∧ Ended r ∧ r <:+ toks ∧ r.length < toks.length ∧ LinesOf ls' r ∧
      ls.foldl Reading.step rd = ls'.foldl Reading.step rd' := by
  obtain ⟨ls₀, hls₀, hend₀, hfold₀⟩ := hls.dropNewlines hend rd
  have hsuffix₀ : toks.dropWhile (·.type = .tokenNewline) <:+ toks := List.dropWhile_suffix _
  unfold parseSection at h
  revert h hls₀ hend₀ hsuffix₀
  generalize toks.dropWhile (·.type = .tokenNewline) = toks₀
  intro h hls₀ hend₀ hsuffix₀
  simp only at h
  by_cases hatEnd : isAtEnd toks₀ = true
  · -- Only blank lines are left.
    rw [if_pos hatEnd] at h
    simp only [Prod.mk.injEq, Except.ok.injEq] at h
    obtain ⟨rfl, rfl⟩ := h
    refine ⟨rd, ls₀, hrd, hend₀, hsuffix₀, lt_of_le_of_ne hsuffix₀.length_le ?_, hls₀, hfold₀⟩
    intro hsame
    rw [hsuffix₀.eq_of_length hsame, hgo] at hatEnd
    cases hatEnd
  rw [if_neg hatEnd] at h
  by_cases hsection : (current toks₀).type = .tokenSection
  · rw [if_pos hsection] at h
    obtain ⟨l, s, rfl, hl, hs, hends⟩ := exists_line hend₀
    cases l with
    | nil => exact absurd hsection (current_type_ne hs _ rfl)
    | cons t l =>
      obtain ⟨ht, hl'⟩ := plain_cons.mp hl
      rw [List.cons_append, current_cons] at hsection
      rw [List.cons_append, advance_cons ht] at h
      obtain ⟨⟨name, sec⟩, toks₁, hheader, h⟩ := andThen_eq_ok h
      obtain ⟨line, rest, rfl, hline, hrest⟩ := hls₀.split hl hs
      by_cases hnewline : isAtNewline toks₁ = true
      · simp only [hnewline, if_true] at h
        obtain ⟨sec', toks₂, hbody, hfinish⟩ := andThen_eq_ok h
        simp only [Prod.mk.injEq, Except.ok.injEq] at hfinish
        obtain ⟨rfl, rfl⟩ := hfinish
        obtain ⟨rfl, hresult⟩ := parseSectionHeader_line hl' hs hheader hnewline
        obtain ⟨nl, after, rfl, -⟩ := hs
        have hnl' : nl.type = .tokenNewline := of_decide_eq_true hnewline
        have hnot : nl.type.isEnd = false := by rw [hnl']; rfl
        rw [advance, if_neg (by simp [hnot])] at hbody
        obtain ⟨blank, lines, hcons, hblank, hlines⟩ := hrest.newline hnl'
        obtain ⟨rfl, rfl⟩ := List.cons.inj hcons
        have hstart : SectionText.read { header := line } = some (name, sec) := by
          unfold SectionText.read SectionText.start
          rw [hline, advance_cons ht, hresult]
          rfl
        obtain ⟨st, ls', hread, hend', hsuffix, hls', hfold⟩ := parseBody_layout _
          ((ended_cons_iff hnot after).mp hends) (by simp) hbody hlines hstart
        have hsuffix' : toks₂ <:+ l ++ nl :: after :=
          hsuffix.trans ((List.suffix_cons nl after).trans (List.suffix_append _ _))
        refine ⟨⟨rd.sections, some st, none⟩, ls', ⟨rfl, ?_⟩, hend',
          (hsuffix'.trans (List.suffix_cons t _)).trans hsuffix₀, ?_, hls', ?_⟩
        · change configOf (rd.sections ++ [st]) = _
          rw [configOf, List.foldlM_append, show List.foldlM _ _ _ = _ from hrd.config]
          simp [hread]
        · have hlen₀ := hsuffix₀.length_le
          have hlen := hsuffix'.length_le
          simp only [List.length_append, List.length_cons] at hlen₀ hlen
          omega
        · rw [hfold₀, List.foldl_cons, ← hfold]
          simp [Reading.step, hline, hsection, hrd.block, Reading.sections]
      · rw [if_neg hnewline] at h
        cases h
  · rw [if_neg hsection] at h
    cases h

/-! ## Files -/

theorem isPrefix_parseSections (n : Nat) (cfg : MtaConfig) (errors : List String)
    (toks : List Token) : errors <+: (parseSections n cfg errors toks).2 := by
  induction n generalizing cfg errors toks with
  | zero => exact List.prefix_rfl
  | succ n ih =>
    rw [parseSections]
    split
    · exact List.prefix_rfl
    · split
      · exact (List.prefix_append _ _).trans (ih _ _ _)
      · simp only [List.append_assoc]
        exact (List.prefix_append _ _).trans (ih _ _ _)

/-- **The recursive descent** follows the layout of the lines. -/
theorem parseSections_layout (n : Nat) :
    ∀ {cfg cfg' : MtaConfig} {toks : List Token} {ls : List Line} {rd : Reading},
      Ended toks → toks.length < n → parseSections n cfg [] toks = (cfg', []) →
      lexError toks = [] → LinesOf ls toks → rd.Gives cfg →
      (∀ t ∈ toks, t.type ≠ .tokenError) ∧
        configOf (ls.foldl Reading.step rd).sections = some cfg' := by
  induction n with
  | zero =>
    intro cfg cfg' toks ls rd _ hlen
    exact absurd hlen (by simp)
  | succ n ih =>
    intro cfg cfg' toks ls rd hend hlen h hlex hls hrd
    rw [parseSections] at h
    by_cases hatEnd : isAtEnd toks = true
    · rw [if_pos hatEnd] at h
      obtain ⟨rfl, -⟩ := Prod.mk.inj h
      obtain ⟨t, rfl, ht⟩ := hend.of_isAtEnd hatEnd
      refine ⟨?_, ?_⟩
      · intro t' ht' herror
        rw [List.mem_singleton.mp ht'] at herror
        simp [lexError, herror] at hlex
      · unfold LinesOf at hls
        rw [tokenLines_end ht] at hls
        obtain ⟨line, lines, rfl, hline, hlines⟩ := List.map_eq_cons_iff.mp hls
        obtain rfl : lines = [] := by simpa using hlines
        rw [List.foldl_cons, Reading.step_blank _ hline, List.foldl_nil]
        exact hrd.config
    · rw [if_neg hatEnd] at h
      rw [Bool.not_eq_true] at hatEnd
      cases hparse : parseSection cfg toks with
      | mk result r =>
        have herrors := isPrefix_parseSections n
        cases result with
        | error err =>
          simp only [hparse] at h
          have hmore := congrArg Prod.snd h
          simp only at hmore
          have hlost := hmore ▸ herrors _ _ _
          simp at hlost
        | ok cfg₁ =>
          simp only [hparse, List.nil_append] at h
          have hnone : lexError r = [] := by
            have hkept := herrors cfg₁ (lexError r) r
            rw [h] at hkept
            exact List.prefix_nil.mp hkept
          rw [hnone] at h
          obtain ⟨rd', ls', hrd', hend', hsuffix, hlen', hls', hfold⟩ :=
            parseSection_layout hend hatEnd hparse hls hrd
          rw [hfold]
          obtain ⟨hclean, hconfig⟩ := ih hend' (by omega) h hnone hls' hrd'
          exact ⟨hend.of_suffix hsuffix hend' hclean, hconfig⟩

/-! ## Texts -/

theorem Lexer.tokens_ended (u : Unicode) (n : Nat) :
    ∀ l : Lexer, l.input.length < n → Ended (l.tokens u n) := by
  induction n with
  | zero =>
    intro l hlen
    exact absurd hlen (by simp)
  | succ n ih =>
    intro l hlen
    cases hscan : scan u l.input with
    | mk result rest =>
      cases result with
      | none =>
        obtain ⟨t, ht, htoks⟩ := Lexer.tokens_none hscan n
        rw [htoks]
        simp [Ended, ht, TokenType.isEnd]
      | some k =>
        obtain ⟨t, l', hkind, hinput, htoks⟩ := Lexer.tokens_some hscan n
        have htype : t.type = k.1 := congrArg Prod.fst hkind
        rw [htoks]
        by_cases hk : k.1 = .tokenEOF
        · simp [Ended, htype, hk, TokenType.isEnd]
        · rw [if_neg hk]
          have hshort := scan_length hscan hk
          have hrest := ih l' (by rw [hinput]; omega)
          by_cases hend : t.type.isEnd = true
          · -- A token that is no end of the file is no error either.
            have herror : t.type = .tokenError := by
              simpa [TokenType.isEnd, htype, hk] using hend
            exact absurd (htype.symm.trans herror) (scan_type_ne_error hscan)
          · simpa [Ended, hend] using hrest

theorem splitOn_line {line : List Char} (hline : '\n' ∉ line) (rest : List Char) :
    (line ++ '\n' :: rest).splitOn '\n' = line :: rest.splitOn '\n' := by
  rw [List.splitOn, List.splitOnP_append_cons _ _ (by decide)]
  change line.splitOn '\n' ++ rest.splitOn '\n' = _
  rw [List.splitOn_eq_singleton hline]
  rfl

theorem tokenLines_token {u : Unicode} {k : TokenType × String}
    {line line' : List Char} {ls : List (List Char)} (hkind : t.kind = k)
    (hk : k.1 ≠ .tokenEOF ∧ k.1 ≠ .tokenNewline ∧ k.1 ≠ .tokenError)
    (hscan : scan u line = (some k, line'))
    (hrest : List.Forall₂ (fun toks line => Lexes u line (toks.map Token.kind)) (tokenLines toks)
      (line' :: ls)) :
    List.Forall₂ (fun toks line => Lexes u line (toks.map Token.kind)) (tokenLines (t :: toks))
      (line :: ls) := by
  have htype : t.type = k.1 := congrArg Prod.fst hkind
  have hstop : t.type.isStop = false := by
    simp [TokenType.isStop, TokenType.isEnd, htype, hk]
  cases hlines : tokenLines toks with
  | nil => rw [hlines] at hrest; cases hrest
  | cons first others =>
    rw [hlines] at hrest
    obtain ⟨hfirst, hothers⟩ := List.forall₂_cons.mp hrest
    rw [tokenLines_cons hstop hlines]
    refine List.Forall₂.cons ?_ hothers
    rw [List.map_cons, hkind]
    exact Lexes.token hscan hk.1 hfirst

/-- **The tokens of a text** are those of its lines. -/
theorem tokenLines_lexes (u : Unicode) (n : Nat) :
    ∀ l : Lexer, l.input.length < n → (∀ t ∈ l.tokens u n, t.type ≠ .tokenError) →
      List.Forall₂ (fun toks line => Lexes u line (toks.map Token.kind))
        (tokenLines (l.tokens u n)) (l.input.splitOn '\n') := by
  induction n with
  | zero =>
    intro l hlen
    exact absurd hlen (by simp)
  | succ n ih =>
    intro l hlen herror
    by_cases hbreak : '\n' ∈ l.input
    · obtain ⟨line, rest, hinput, hline⟩ := List.eq_append_cons_of_mem hbreak
      rw [hinput, splitOn_line hline]
      rcases scan_line u hline rest with ⟨hblank, hscan⟩ | ⟨k, line', hk, hscan, hline', htype⟩
      · -- Nothing is left of the line.
        rw [← hinput] at hscan
        obtain ⟨t, l', hkind, hrest, htoks⟩ := Lexer.tokens_some hscan n
        rw [if_neg (by decide)] at htoks
        have hnewline : t.type = .tokenNewline := congrArg Prod.fst hkind
        have hshort := scan_length hscan (by decide)
        rw [htoks, tokenLines_newline hnewline, ← hrest]
        refine List.Forall₂.cons (Lexes.done hblank) (ih l' (by rw [hrest]; omega) ?_)
        intro t' ht'
        exact herror t' (by rw [htoks]; exact List.mem_cons_of_mem _ ht')
      · rw [← hinput] at hscan
        cases k with
        | none =>
          obtain ⟨t, ht, htoks⟩ := Lexer.tokens_none hscan n
          exact absurd ht (herror t (by simp [htoks]))
        | some kind =>
          obtain ⟨t, l', hkind, hrest, htoks⟩ := Lexer.tokens_some hscan n
          rw [if_neg (htype kind rfl).1] at htoks
          have hshort := scan_length hscan (htype kind rfl).1
          have hgo := ih l' (by rw [hrest]; omega) fun t' ht' =>
            herror t' (by rw [htoks]; exact List.mem_cons_of_mem _ ht')
          rw [hrest, splitOn_line hline'] at hgo
          rw [htoks]
          exact tokenLines_token hkind (htype kind rfl) hk hgo
    · rw [List.splitOn_eq_singleton hbreak]
      rcases scan_line u hbreak [] with ⟨hscan, -⟩ | ⟨k, line', hscan, -, hline', htype⟩
      · obtain ⟨t, l', hkind, -, htoks⟩ := Lexer.tokens_some hscan n
        rw [if_pos rfl] at htoks
        have hend : t.type.isEnd = true := by
          rw [show t.type = .tokenEOF from congrArg Prod.fst hkind]
          rfl
        rw [htoks, tokenLines_end hend]
        exact List.Forall₂.cons (Lexes.done hscan) List.Forall₂.nil
      · cases k with
        | none =>
          obtain ⟨t, ht, htoks⟩ := Lexer.tokens_none hscan n
          exact absurd ht (herror t (by simp [htoks]))
        | some kind =>
          obtain ⟨t, l', hkind, hrest, htoks⟩ := Lexer.tokens_some hscan n
          rw [if_neg (htype kind rfl).1] at htoks
          have hshort := scan_length hscan (htype kind rfl).1
          have hgo := ih l' (by rw [hrest]; omega) fun t' ht' =>
            herror t' (by rw [htoks]; exact List.mem_cons_of_mem _ ht')
          rw [hrest, List.splitOn_eq_singleton hline'] at hgo
          rw [htoks]
          exact tokenLines_token hkind (htype kind rfl) hscan hgo

/-- The lines of a text with their tokens. -/
def textLines (u : Unicode) (content : String) : List Line :=
  List.zipWith Line.mk (Strings.split content '\n') (tokenLines (tokenize u content))

/-- The sections of a text. -/
def layout (u : Unicode) (content : String) : List SectionText :=
  ((textLines u content).foldl Reading.step {}).sections

theorem zipWith_lines {u : Unicode} {toks : List (List Token)} {cs : List (List Char)}
    (h : List.Forall₂ (fun toks line => Lexes u line (toks.map Token.kind)) toks cs) :
    (List.zipWith Line.mk (cs.map String.ofList) toks).map Line.toks = toks ∧
      ∀ line ∈ List.zipWith Line.mk (cs.map String.ofList) toks,
        Lexes u line.text.toList (line.toks.map Token.kind) := by
  induction h with
  | nil => simp
  | cons hlexes _ ih =>
    refine ⟨by simp [ih.1], ?_⟩
    intro line hline
    rcases List.mem_cons.mp hline with rfl | hline
    · simpa using hlexes
    · exact ih.2 line hline

/-- **An accepted text** has the configuration of its layout, and its lines are lexed one
by one. -/
theorem parseString_layout {u : Unicode} {errors : List String} {content : String}
    {cfg : MtaConfig} (h : parseString u errors content = (some cfg, none)) :
    configOf (layout u content) = some cfg ∧
      ∀ line ∈ textLines u content, Lexes u line.text.toList (line.toks.map Token.kind) := by
  unfold parseString at h
  split at h
  · cases (Prod.mk.inj h).1
  simp only at h
  split at h
  · rename_i herrors
    have hstart := isPrefix_parseSections ((tokenize u content).length + 1) {}
      (errors ++ lexError (tokenize u content)) (tokenize u content)
    rw [herrors] at hstart
    have hnone := List.prefix_nil.mp hstart
    obtain ⟨hcfg, -⟩ := Prod.mk.inj h
    have hparse : parseSections ((tokenize u content).length + 1) {} [] (tokenize u content) =
        (cfg, []) := by
      rw [hnone] at herrors hcfg
      exact Prod.ext (Option.some.inj hcfg) herrors
    have hend : Ended (tokenize u content) := by
      refine Lexer.tokens_ended u _ _ ?_
      simp
    have hlex : lexError (tokenize u content) = [] := (List.append_eq_nil_iff.mp hnone).2
    have hlines : ∀ ls, LinesOf ls (tokenize u content) →
        (∀ t ∈ tokenize u content, t.type ≠ .tokenError) ∧
          configOf (ls.foldl Reading.step {}).sections = some cfg := fun ls hls =>
      parseSections_layout _ hend (Nat.lt_succ_self _) hparse hlex hls gives_init
    -- The tokens are clean, so they come line by line.
    have hclean := (hlines ((tokenLines (tokenize u content)).map (Line.mk "")) (by
      simp [LinesOf, Function.comp_def])).1
    have hforall := tokenLines_lexes u _ _ (by simp) hclean
    rw [Lexer.moveTo_input] at hforall
    obtain ⟨htoks, hlexes⟩ := zipWith_lines hforall
    exact ⟨(hlines (textLines u content) htoks).2, hlexes⟩
  · cases (Prod.mk.inj h).2

/-! ## Where the lines of the layout stand -/

def Block.From (ls : List Line) (b : Block) : Prop :=
  ∀ l ∈ b.lines, l ∈ ls

/-- The lines of an item are some of `ls`, and a line by itself opens no block. -/
def Item.From (ls : List Line) : Item → Prop
  | .line l => l ∈ ls ∧ (current l.toks).type ≠ .tokenIf
  | .block b => b.From ls

structure Reading.From (ls : List Line) (r : Reading) : Prop where
  items : ∀ s ∈ r.sections, ∀ item ∈ s.items, item.From ls
  block : ∀ b ∈ r.block, b.From ls

theorem Reading.From.add {r : Reading} (h : r.From ls) {item : Item}
    (hitem : item.From ls) :
    ∀ s ∈ r.done ++ (r.cur.map (·.add item)).toList, ∀ item ∈ s.items, item.From ls := by
  intro s hs item' hitem'
  rcases List.mem_append.mp hs with hs | hs
  · exact h.items s (List.mem_append_left _ hs) item' hitem'
  · obtain ⟨s₀, hs₀, rfl⟩ := Option.map_eq_some_iff.mp (Option.mem_toList.mp hs)
    rcases List.mem_append.mp hitem' with hitem' | hitem'
    · exact h.items s₀ (List.mem_append_right _ (Option.mem_toList.mpr hs₀)) item' hitem'
    · rw [List.mem_singleton.mp hitem']
      exact hitem

theorem Reading.From.step {r : Reading} (h : r.From ls) {l : Line}
    (hl : l ∈ ls) : (r.step l).From ls := by
  unfold Reading.step
  cases htoks : l.toks with
  | nil => exact h
  | cons t toks =>
    simp only
    cases hblock : r.block with
    | some b =>
      have hb := h.block b hblock
      simp only
      split
      · exact ⟨h.add (show Item.From ls (.block b) from hb), fun b hb => by cases hb⟩
      · refine ⟨h.items, ?_⟩
        intro b' hb'
        obtain rfl := Option.some.inj hb'
        intro l' hl'
        rcases List.mem_append.mp hl' with hl' | hl'
        · exact hb l' hl'
        · rw [List.mem_singleton.mp hl']
          exact hl
    | none =>
      simp only
      split
      · refine ⟨?_, fun b hb => by cases hb⟩
        intro s hs
        rcases List.mem_append.mp hs with hs | hs
        · exact h.items s hs
        · obtain rfl := Option.some.inj (Option.mem_toList.mp hs)
          simp
      · split
        · refine ⟨h.items, ?_⟩
          intro b hb
          obtain rfl := Option.some.inj hb
          simp [Block.From]
        · rename_i hif
          have hline : Item.From ls (.line l) := by
            refine ⟨hl, ?_⟩
            rw [htoks]
            exact hif
          refine ⟨h.add hline, ?_⟩
          intro b hb
          cases hb

/-- **The lines of the layout** are lines of the text. -/
theorem layout_from {u : Unicode} {content : String} {s : SectionText}
    (hs : s ∈ layout u content) : ∀ item ∈ s.items, item.From (textLines u content) := by
  have hrun : ((textLines u content).foldl Reading.step {}).From (textLines u content) := by
    refine List.foldlRecOn _ _ ⟨by simp [Reading.sections], by simp⟩ ?_
    intro r hr l hl
    exact hr.step hl
  exact hrun.items s hs

/-- **The tokens of the lines** of an accepted text are those of a line. -/
theorem textLines_lexed {u : Unicode} {errors : List String} {content : String}
    {cfg : MtaConfig} (h : parseString u errors content = (some cfg, none)) {l : Line}
    (hl : l ∈ textLines u content) :
    '\n' ∉ l.text.toList ∧ Lexes u l.text.toList (l.toks.map Token.kind) := by
  refine ⟨?_, (parseString_layout h).2 l hl⟩
  obtain ⟨i, hi, rfl⟩ := List.mem_iff_getElem.mp hl
  simp only [textLines, List.getElem_zipWith]
  exact Strings.not_mem_of_mem_split (List.getElem_mem _)
end Configd.Parser
