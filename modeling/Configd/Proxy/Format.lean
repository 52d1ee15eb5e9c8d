import Configd.Proxy.Tmpl
import Mathlib.Data.List.SplitBy

/-!
# The formatter of the proxy templates

`internal/proxy/tmpl/format.go` and the scanner of `lex.go`.  A pass of `Format` classifies the
lines one after another, with the open quote, the depth of the braces and the unfinished
statement as its state, aligns the groups of directives and writes every line again; passes
are made until one changes nothing, at most `maxPasses` times.

Whatever the scanner takes a line for, only blanks are moved (`format_visible`): every
part a line is cut into is found again in what is written for it (`Fline.Of`).
-/

namespace Configd
namespace Proxy
namespace Tmpl

open Lib Lib.Strings Lib.Regex

structure FormatOptions where
  isSwitch : Option (String → Bool) := none
  leadingSpace : Option (String → Bool) := none

/-! ## Scanning -/

/-- `varEnd`: the name of the variable a text begins with, and the text after it. -/
def varEnd : List Char → Option (List Char × List Char)
  | '$' :: '\x7b' :: text =>
    match text.takeWhile isNameChar, text.dropWhile isNameChar with
    | c :: name, '\x7d' :: after => some (c :: name, after)
    | _, _ => none
  | _ => none

/-- `scanner.skipQuote`: the text after the closing quote, if there is one. -/
def skipQuote (quote : Char) : List Char → Option (List Char)
  | [] => none
  | '\\' :: [] => none
  | '\\' :: _ :: text => skipQuote quote text
  | c :: text => if c = quote then some text else skipQuote quote text

def isQuote (c : Char) : Bool :=
  c = '\x22' || c = '\x27'

/-- `scanner.skipOpaque`: the text after a variable, an escaped character or a string, and the
quote that is left open. -/
def skipOpaque (tokenStart : Bool) : List Char → Option (List Char × Option Char)
  | [] => none
  | c :: text =>
    if c = '$' then (varEnd (c :: text)).map fun var => (var.2, none)
    else if c = '\\' then some (text.drop 1, none)
    else if isQuote c && tokenStart then
      match skipQuote c text with
      | some after => some (after, none)
      | none => some ([], some c)
    else none

/-- `lineScan`, as far as the formatter reads it. -/
structure LineScan where
  opens : Nat := 0
  closes : Nat := 0
  leadClose : Nat := 0
  code : List Char

def LineScan.count (ls : LineScan) (c : Char) (leading : Bool) : LineScan :=
  if c = '\x7b' then { ls with opens := ls.opens + 1 }
  else if c = '\x7d' then
    { ls with closes := ls.closes + 1, leadClose := ls.leadClose + leading.toNat }
  else ls

/-- The loop of `scanner.scan` over the rest of `text`, with the quote that is left open. -/
def scanLoop (text : List Char) :
    Nat → List Char → Bool → Bool → Option Char → LineScan → LineScan × Option Char
  | fuel + 1, c :: rest, leading, tokenStart, quote, ls =>
    match skipOpaque tokenStart (c :: rest) with
    | some (next, quote) => scanLoop text fuel next false false quote ls
    | none =>
      if c = '#' && tokenStart then
        ({ ls with code := text.take (text.length - (c :: rest).length) }, quote)
      else
        scanLoop text fuel rest (leading && (c = '\x7d' || isBlank c))
          (isBlank c || c = ';' || c = '\x7b' || c = '\x7d') quote (ls.count c leading)
  | _, _, _, _, quote, ls => (ls, quote)

/-- `scanner.scan`, with the quote that is open before the line and after it. -/
def scan (quote : Option Char) (text : List Char) : LineScan × Option Char :=
  match quote with
  | none => scanLoop text text.length text true true none { code := text }
  | some q =>
    match skipQuote q text with
    | some next => scanLoop text text.length next false true none { code := text }
    | none => ({ code := text }, some q)

/-- A `${` with a text of one character or more up to the next `}`, and what follows. -/
def skipBraced : List Char → Option (List Char)
  | '$' :: '\x7b' :: text =>
    if (text.takeWhile (· ≠ '\x7d')) = [] then none
    else
      match text.dropWhile (· ≠ '\x7d') with
      | _ :: after => some after
      | [] => none
  | _ => none

def skipAllBraced : Nat → List Char → List Char
  | fuel + 1, text =>
    match skipBraced text with
    | some after => skipAllBraced fuel after
    | none => text
  | 0, text => text

/-- The values of a `vanishingDirective`, after `seen` of them, and the semicolon. -/
def onlyBracedValues : Nat → Bool → List Char → Bool
  | fuel + 1, seen, text =>
    let rest := text.dropWhile isWhite
    if seen && rest.head? = some ';' then true
    else
      rest.length ≠ text.length &&
        match skipBraced rest with
        | some after => onlyBracedValues fuel true after
        | none => false
  | 0, _, _ => false

/-- `vanishingDirective`.  No choice of the pattern has to be taken back: a variable begins
with `$`, which neither a name nor white space does. -/
def vanishingDirective (body : List Char) : Bool :=
  let named := skipAllBraced body.length body
  let values := named.dropWhile isDirectiveChar
  values.length ≠ named.length && onlyBracedValues (values.length + 1) false values

def onlyVariables (body : List Char) : Bool :=
  body ≠ [] && skipAllBraced body.length body = []

/-! ## Lines -/

/-- `fline`.  A line without a level keeps its column: `level` is -1 in the source. -/
structure Fline where
  raw : List Char
  verbatim : Bool := false
  switches : List (List Char) := []
  col0 : Bool := false
  body : List Char := []
  level : Option Nat := some 0
  directive : Bool := false
  name : List Char := []
  rest : List Char := []
  gap : Nat := 0
  lead : Bool := false

def trimLeft (text : List Char) : List Char :=
  text.dropWhile isBlank

/-- What is trimmed at the end of a line. -/
def isTrail (c : Char) : Bool :=
  isBlank c || c = '\r'

def trimRight (text : List Char) : List Char :=
  text.rdropWhile isTrail

def varRef (name : List Char) : List Char :=
  opening ++ name ++ closing

def indentUnit : List Char := [' ', ' ', ' ', ' ']

/-- `fline.String`. -/
def Fline.text (f : Fline) : List Char :=
  if f.verbatim then f.raw
  else if f.body = [] ∧ f.switches = [] then []
  else
    match f.level with
    | none => f.raw
    | some level =>
      let indent := (List.replicate level indentUnit).flatten
      match f.switches with
      | [] => indent ++ f.body
      | first :: later =>
        (if f.col0 then [] else indent) ++ varRef first ++
          (if f.col0 && (f.body ≠ [] || later ≠ []) then indent else []) ++
          later.flatMap varRef ++ f.body

/-- The loop of `splitPrefixes`: the switches, the text after them and whether there was white
space before it. -/
def takeSwitches (isSwitch : String → Bool) :
    Nat → List Char → Bool → List (List Char) × List Char × Bool
  | fuel + 1, rest, hadWS =>
    match varEnd rest with
    | some (name, text) =>
      if isSwitch (String.ofList name) then
        let after := trimLeft text
        let (more, body, hadWS) :=
          takeSwitches isSwitch fuel after (hadWS || after.length ≠ text.length)
        (name :: more, body, hadWS)
      else ([], rest, hadWS)
    | none => ([], rest, hadWS)
  | 0, rest, hadWS => ([], rest, hadWS)

/-- `splitPrefixes` without `col0`. -/
def splitPrefixes (line : List Char) (opts : FormatOptions) : List (List Char) × List Char × Bool :=
  let rest := trimLeft line
  match opts.isSwitch with
  | none => ([], rest, rest ≠ line)
  | some isSwitch => takeSwitches isSwitch line.length rest (rest ≠ line)

def continuesStatement (code : List Char) (isComment : Bool) (ls : LineScan) : Bool :=
  !isComment && code ≠ [] && code.head? ≠ some '\x7b' && ls.leadClose = 0

def isDirective (code : List Char) (isComment : Bool) (ls : LineScan) : Bool :=
  code ≠ [] && !isComment && ls.opens + ls.closes = 0 && code.getLast? = some ';'

def finished (code : List Char) : Bool :=
  code.getLast?.any (· ∈ [';', '\x7b', '\x7d']) ||
    trimSpace (String.ofList ((find varPattern code).filterMap Sum.getLeft?)) = ""

def Fline.keepsColumn (f : Fline) (level : Nat) (hadWS : Bool) : Bool :=
  (vanishingDirective f.body && decide (0 < level) != hadWS) ||
    (0 < level && !hadWS && f.switches = [] && onlyVariables f.body)

def startsWithLeadingSpace (text : List Char) (opts : FormatOptions) : Bool :=
  match opts.leadingSpace, varEnd text with
  | some leadingSpace, some (name, _) => leadingSpace (String.ofList name)
  | _, _ => false

/-- Where the name of a directive ends, unless its quote does not. -/
def nameEnd : List Char → Option Nat
  | [] => some 0
  | c :: text =>
    if isQuote c then
      let quoted := text.takeWhile (· ≠ c)
      if quoted.length = text.length then none
      else some (quoted.length + 2 +
        ((text.drop (quoted.length + 1)).takeWhile (!isBlank ·)).length)
    else some ((c :: text).takeWhile (!isBlank ·)).length

def Fline.setDirective (f : Fline) (code : List Char) (opts : FormatOptions) : Fline :=
  match nameEnd code with
  | none => f
  | some stop =>
    let name := code.take stop
    let rest := trimLeft (f.body.drop stop)
    if code.length ≤ stop || rest = [] || rest = [';'] ||
        contains (String.ofList name) (String.ofList opening) || ';' ∈ name then f
    else
      { f with
        directive := true
        name := name
        rest := rest
        gap := f.body.length - stop - rest.length
        lead := startsWithLeadingSpace rest opts }

structure Classifier where
  quote : Option Char := none
  depth : Nat := 0
  pending : Bool := false

/-- `classifier.classifyLine`.  Subtraction on `Nat` is the `max(…, 0)` of the source. -/
def Classifier.classifyLine (c : Classifier) (opts : FormatOptions) (line : List Char) :
    Classifier × Fline :=
  if c.quote.isSome then
    let (ls, quote) := scan c.quote line
    ({ c with quote := quote, depth := c.depth + ls.opens - ls.closes },
      { raw := if line.getLast? = some '\r' then line.dropLast else line, verbatim := true })
  else
    let (switches, text, hadWS) := splitPrefixes line opts
    let (ls, quote) := scan none text
    -- A quote that runs on keeps the white space at the end: it belongs to the string.
    let body := if quote.isSome then trimLeft text else trimRight text
    let code := trimRight ls.code
    let isComment := body.head? = some '#'
    let continued := c.pending && continuesStatement code isComment ls
    let level := c.depth - ls.leadClose + continued.toNat
    let f : Fline :=
      { raw := trimRight line
        switches := switches
        col0 := trimLeft line = line && switches ≠ []
        body := body }
    let f := { f with level := if f.keepsColumn level hadWS then none else some level }
    ({ quote := quote
       depth := c.depth + ls.opens - ls.closes
       pending := if !isComment && code ≠ [] then !finished code else c.pending },
      if !continued && isDirective code isComment ls && f.level.isSome then f.setDirective code opts
      else f)

/-- `classify`, from a state on. -/
def Classifier.classify (opts : FormatOptions) : Classifier → List (List Char) → List Fline
  | _, [] => []
  | c, line :: lines =>
    let (c, f) := c.classifyLine opts line
    f :: c.classify opts lines

/-! ## Alignment -/

def Fline.natural (f : Fline) : Nat :=
  f.name.length + 1 + f.lead.toNat

def Fline.col (f : Fline) : Nat :=
  f.natural - 1 + f.gap

def Fline.padded (f : Fline) : Bool :=
  1 < f.gap

def linked (a b : Fline) : Bool :=
  if a.padded && b.padded then true
  else if a.padded then a.col ≤ b.natural
  else if b.padded then b.col ≤ a.natural
  else false

def alignGroup (group : List Fline) : List Fline :=
  let col := (group.map Fline.natural).foldl max 0
  group.map fun f =>
    let gap := if 1 < group.length then col - f.natural + 1 else 1
    { f with body := f.name ++ List.replicate gap ' ' ++ f.rest }

def alignRun (run : List Fline) : List Fline :=
  ((run.splitBy linked).map alignGroup).flatten

/-- Neighbours of one run. -/
def sameRun (a b : Fline) : Bool :=
  a.directive && b.directive && a.level = b.level

def alignRuns (fl : List Fline) : List Fline :=
  ((fl.splitBy sameRun).map fun run =>
    if run.all Fline.directive then alignRun run else run).flatten

def formatPass (opts : FormatOptions) (lines : List (List Char)) : List (List Char) :=
  (alignRuns (({} : Classifier).classify opts lines)).map Fline.text

def maxPasses : Nat := 16

/-- `formatLines`, with the passes that are left. -/
def formatLines (opts : FormatOptions) : Nat → List (List Char) → List (List Char)
  | 0, lines => lines
  | passes + 1, lines =>
    let out := formatPass opts lines
    if out = lines then out else formatLines opts passes out

/-- The lines of `Format`. -/
def formatted (opts : FormatOptions) (src : List Char) : List (List Char) :=
  match splitLines src with
  | [] => []
  | first :: later =>
    if (parseExplode first).isSome then first :: formatLines opts maxPasses later
    else formatLines opts maxPasses (first :: later)

def format (src : List Char) (opts : FormatOptions) : List Char :=
  (formatted opts src).flatMap (· ++ ['\n'])

/-! ## What is not moved -/

/-- A line without its spaces, tabs and carriage returns. -/
def visible (text : List Char) : List Char :=
  text.filter (!isTrail ·)

@[simp] theorem visible_nil : visible [] = [] := rfl

@[simp] theorem visible_append (l m : List Char) : visible (l ++ m) = visible l ++ visible m :=
  List.filter_append l m

theorem visible_eq_nil {l : List Char} (h : ∀ c ∈ l, isTrail c = true) : visible l = [] := by
  simpa [visible] using h

theorem isTrail_of_isBlank {c : Char} (h : isBlank c = true) : isTrail c = true := by
  simp [isTrail, h]

@[simp] theorem visible_trimLeft (l : List Char) : visible (trimLeft l) = visible l := by
  conv_rhs => rw [← List.takeWhile_append_dropWhile (p := isBlank) (l := l)]
  rw [visible_append, visible_eq_nil fun c hc => isTrail_of_isBlank (List.mem_takeWhile_imp hc)]
  rfl

@[simp] theorem visible_trimRight (l : List Char) : visible (trimRight l) = visible l := by
  conv_rhs => rw [← List.rdropWhile_append_rtakeWhile (p := isTrail) (l := l)]
  rw [visible_append, visible_eq_nil fun c hc => List.mem_rtakeWhile_imp hc, List.append_nil,
    trimRight]

@[simp] theorem visible_spaces (n : Nat) : visible (List.replicate n ' ') = [] :=
  visible_eq_nil fun c hc => by rw [List.eq_of_mem_replicate hc]; decide

@[simp] theorem visible_indent (level : Nat) :
    visible (List.replicate level indentUnit).flatten = [] := by
  apply visible_eq_nil
  intro c hc
  obtain ⟨l, hl, hmem⟩ := List.mem_flatten.mp hc
  obtain rfl := List.eq_of_mem_replicate hl
  fin_cases hmem <;> rfl

theorem mem_visible {c : Char} (hc : isTrail c = false) {l : List Char} :
    c ∈ visible l ↔ c ∈ l := by
  simp [visible, hc]

theorem varEnd_eq_some {text name after : List Char} (h : varEnd text = some (name, after)) :
    text = varRef name ++ after := by
  unfold varEnd at h
  split at h
  · rename_i text
    split at h
    · rename_i c name' after' hname hafter
      obtain ⟨rfl, rfl⟩ := Prod.mk.inj (Option.some.inj h)
      rw [varRef, opening, closing, ← hname]
      simp [← hafter]
    · nomatch h
  · nomatch h

theorem visible_takeSwitches (isSwitch : String → Bool) (fuel : Nat) (rest : List Char)
    (hadWS : Bool) :
    visible ((takeSwitches isSwitch fuel rest hadWS).1.flatMap varRef) ++
      visible (takeSwitches isSwitch fuel rest hadWS).2.1 = visible rest := by
  induction fuel generalizing rest hadWS with
  | zero => rfl
  | succ fuel ih =>
    rw [takeSwitches]
    split
    · rename_i name text hvar
      split
      · rw [varEnd_eq_some hvar]
        have hrest := ih (trimLeft text) (hadWS || (trimLeft text).length ≠ text.length)
        simp only [List.flatMap_cons, visible_append, List.append_assoc, hrest, visible_trimLeft]
      · rfl
    · rfl

theorem visible_splitPrefixes (line : List Char) (opts : FormatOptions) :
    visible ((splitPrefixes line opts).1.flatMap varRef) ++ visible (splitPrefixes line opts).2.1 =
      visible line := by
  rw [splitPrefixes]
  split
  · exact visible_trimLeft line
  · rw [visible_takeSwitches, visible_trimLeft]

/-! ### The parts of a directive -/

@[simp] theorem LineScan.count_code (ls : LineScan) (c : Char) (leading : Bool) :
    (ls.count c leading).code = ls.code := by
  unfold LineScan.count
  split_ifs <;> rfl

theorem scanLoop_code (text : List Char) (fuel : Nat) (rest : List Char) (leading tokenStart : Bool)
    (quote : Option Char) (ls : LineScan) (h : ls.code <+: text) :
    (scanLoop text fuel rest leading tokenStart quote ls).1.code <+: text := by
  fun_induction scanLoop text fuel rest leading tokenStart quote ls with
  | case1 fuel c rest leading tokenStart quote ls next left hopaque ih => exact ih h
  | case2 => exact List.take_prefix _ _
  | case3 fuel c rest leading tokenStart quote ls hopaque hcomment ih => exact ih (by simpa using h)
  | case4 => exact h

theorem scan_code (quote : Option Char) (text : List Char) : (scan quote text).1.code <+: text := by
  unfold scan
  split
  · exact scanLoop_code _ _ _ _ _ _ _ List.prefix_rfl
  · split
    · exact scanLoop_code _ _ _ _ _ _ _ List.prefix_rfl
    · exact List.prefix_rfl

theorem trimLeft_trimLeft (l : List Char) : trimLeft (trimLeft l) = trimLeft l :=
  List.dropWhile_idempotent isBlank l

theorem trimLeft_takeSwitches (isSwitch : String → Bool) (fuel : Nat) (rest : List Char)
    (hadWS : Bool) (h : trimLeft rest = rest) :
    trimLeft (takeSwitches isSwitch fuel rest hadWS).2.1 =
      (takeSwitches isSwitch fuel rest hadWS).2.1 := by
  induction fuel generalizing rest hadWS with
  | zero => exact h
  | succ fuel ih =>
    rw [takeSwitches]
    split
    · split
      · exact ih _ _ (trimLeft_trimLeft _)
      · exact h
    · exact h

theorem trimLeft_splitPrefixes (line : List Char) (opts : FormatOptions) :
    trimLeft (splitPrefixes line opts).2.1 = (splitPrefixes line opts).2.1 := by
  rw [splitPrefixes]
  split
  · exact trimLeft_trimLeft line
  · exact trimLeft_takeSwitches _ _ _ _ (trimLeft_trimLeft line)

/-! ### Lines -/

/-- A formatted line stands for a line of the source. -/
structure Fline.Of (f : Fline) (line : List Char) : Prop where
  raw : visible f.raw = visible line
  body : f.verbatim = false → visible (f.switches.flatMap varRef) ++ visible f.body = visible line
  parts : f.directive = true → visible f.name ++ visible f.rest = visible f.body

variable {line : List Char}

theorem Fline.Of.visible_text {f : Fline} (h : f.Of line) :
    visible f.text = visible line := by
  unfold Fline.text
  split
  · exact h.raw
  · rename_i hverbatim
    have hbody := h.body (by simpa using hverbatim)
    split
    · rename_i hempty
      simp [← hbody, hempty.1, hempty.2]
    · split
      · exact h.raw
      · rename_i level hlevel
        rw [← hbody]
        cases hswitches : f.switches with
        | nil => simp
        | cons first later => simp [apply_ite visible]

theorem Fline.Of.setDirective {f : Fline} {code : List Char} (h : f.Of line)
    (hcode : code <+: f.body) (opts : FormatOptions) :
    (f.setDirective code opts).Of line := by
  unfold Fline.setDirective
  split
  · exact h
  · rename_i stop hstop
    dsimp only
    split_ifs with hnone
    · exact h
    · refine ⟨h.raw, h.body, fun _ => ?_⟩
      have hlt : stop ≤ code.length := by
        simp only [Bool.or_eq_true, decide_eq_true_eq, not_or] at hnone
        omega
      -- The name is where the body begins, as the code is.
      have hname : code.take stop = f.body.take stop := by
        obtain ⟨after, hafter⟩ := hcode
        rw [← hafter, List.take_append_of_le_length hlt]
      rw [visible_trimLeft, hname, ← visible_append, List.take_append_drop]

theorem Classifier.classifyLine_of (c : Classifier) (opts : FormatOptions) (line : List Char) :
    (c.classifyLine opts line).2.Of line := by
  unfold Classifier.classifyLine
  split
  · refine ⟨?_, by simp, by simp⟩
    dsimp only
    split_ifs with hlast
    · obtain ⟨init, rfl⟩ := List.getLast?_eq_some_iff.mp hlast
      simp [visible, isTrail]
    · rfl
  · dsimp only
    have hsplit := visible_splitPrefixes line opts
    -- The body is the text after the switches without the white space at its end, if at all.
    generalize hbody : (if (scan none (splitPrefixes line opts).2.1).2.isSome then
      trimLeft (splitPrefixes line opts).2.1 else trimRight (splitPrefixes line opts).2.1) = body
    have hvisible : visible body = visible (splitPrefixes line opts).2.1 := by
      rw [← hbody]
      split_ifs <;> simp
    have hcode : trimRight (scan none (splitPrefixes line opts).2.1).1.code <+: body := by
      obtain ⟨after, hafter⟩ := scan_code none (splitPrefixes line opts).2.1
      rw [← hbody]
      split_ifs
      · rw [trimLeft_splitPrefixes]
        exact (List.rdropWhile_prefix isTrail _).trans ⟨after, hafter⟩
      · conv_rhs => rw [← hafter]
        exact Strings.prefix_rdropWhile_append isTrail _ _
    have hof : ∀ col0 level, Fline.Of
        { raw := trimRight line
          switches := (splitPrefixes line opts).1
          col0 := col0
          body := body
          level := level } line := fun _ _ =>
      ⟨visible_trimRight line, fun _ => by rw [← hsplit, hvisible], by simp⟩
    exact iteInduction (motive := fun f => Fline.Of f line)
      (fun _ => (hof _ _).setDirective hcode opts) fun _ => hof _ _

theorem Classifier.classify_of (opts : FormatOptions) (c : Classifier) (lines : List (List Char)) :
    List.Forall₂ (fun line f => Fline.Of f line) lines (c.classify opts lines) := by
  induction lines generalizing c with
  | nil => exact .nil
  | cons line lines ih => exact .cons (c.classifyLine_of opts line) (ih _)

/-! ### Alignment -/

/-- A line before and after the alignment: a directive may be given another gap. -/
def Realigned (f f' : Fline) : Prop :=
  f' = f ∨ f.directive = true ∧ ∃ gap,
    f' = { f with body := f.name ++ List.replicate gap ' ' ++ f.rest }

theorem Fline.Of.realigned {f f' : Fline} (h : f.Of line)
    (hre : Realigned f f') : f'.Of line := by
  obtain rfl | ⟨hdirective, gap, rfl⟩ := hre
  · exact h
  · have hparts := h.parts hdirective
    refine ⟨h.raw, fun hverbatim => ?_, fun _ => by simp⟩
    simpa [hparts] using h.body hverbatim

theorem forall₂_splitBy {A : Type} {R : A → A → Prop} (r : A → A → Bool) (g : List A → List A)
    (l : List A) (h : ∀ run ∈ l.splitBy r, List.Forall₂ R run (g run)) :
    List.Forall₂ R l ((l.splitBy r).map g).flatten := by
  have hruns : List.Forall₂ (List.Forall₂ R) (l.splitBy r) ((l.splitBy r).map g) :=
    List.forall₂_map_right_iff.mpr (List.forall₂_same.mpr h)
  have hflat := List.rel_flatten hruns
  rwa [List.flatten_splitBy] at hflat

theorem realigned_alignRuns (fl : List Fline) : List.Forall₂ Realigned fl (alignRuns fl) := by
  apply forall₂_splitBy
  intro run _
  split_ifs with hall
  · -- The lines of a group are lines of the run.
    refine forall₂_splitBy linked alignGroup run fun group hgroup => ?_
    refine List.forall₂_map_right_iff.mpr (List.forall₂_same.mpr fun f hf => .inr ⟨?_, _, rfl⟩)
    have hmem : f ∈ (run.splitBy linked).flatten := List.mem_flatten.mpr ⟨group, hgroup, hf⟩
    rw [List.flatten_splitBy] at hmem
    exact List.all_eq_true.mp hall f hmem
  · exact List.forall₂_same.mpr fun f _ => .inl rfl

/-! ### Passes -/

theorem formatPass_visible (opts : FormatOptions) (lines : List (List Char)) :
    (formatPass opts lines).map visible = lines.map visible := by
  have hof := Classifier.classify_of opts {} lines
  have hre := realigned_alignRuns (({} : Classifier).classify opts lines)
  rw [formatPass]
  generalize ({} : Classifier).classify opts lines = fl at hof hre
  generalize alignRuns fl = fl' at hre
  induction hof generalizing fl' with
  | nil =>
    cases hre
    rfl
  | cons hline _ ih =>
    cases hre with
    | cons hf hrest => simp [(hline.realigned hf).visible_text, ih _ hrest]

theorem formatLines_visible (opts : FormatOptions) (passes : Nat) (lines : List (List Char)) :
    (formatLines opts passes lines).map visible = lines.map visible := by
  induction passes generalizing lines with
  | zero => rfl
  | succ passes ih =>
    have hpass := formatPass_visible opts lines
    rw [formatLines]
    split_ifs
    · exact hpass
    · exact (ih _).trans hpass

theorem formatted_visible (opts : FormatOptions) (src : List Char) :
    (formatted opts src).map visible = (splitLines src).map visible := by
  unfold formatted
  split
  · rename_i hlines
    rw [hlines]
  · rename_i first later hlines
    rw [hlines]
    split
    · simp [formatLines_visible]
    · exact formatLines_visible opts maxPasses (first :: later)

/-! ## The lines of a formatted template -/

theorem not_mem_of_mem_splitLines {src : List Char} (h : line ∈ splitLines src) :
    '\n' ∉ line := by
  unfold splitLines at h
  split at h
  · nomatch h
  · have hsplit : ∀ text : List Char, line ∈ text.splitOn '\n' →
        String.ofList line ∈ split (String.ofList text) '\n' := fun text hmem =>
      List.mem_map_of_mem (by simpa using hmem)
    simpa using not_mem_of_mem_split (hsplit _ h)

theorem not_mem_of_mem_formatted {opts : FormatOptions} {src : List Char}
    (h : line ∈ formatted opts src) : '\n' ∉ line := by
  have hmem : visible line ∈ (splitLines src).map visible := by
    rw [← formatted_visible opts]
    exact List.mem_map_of_mem h
  obtain ⟨source, hsource, heq⟩ := List.mem_map.mp hmem
  rw [← mem_visible (by decide), ← heq, mem_visible (by decide)]
  exact not_mem_of_mem_splitLines hsource

theorem flatMap_ended {lines : List (List Char)} (h : lines ≠ []) :
    lines.flatMap (· ++ ['\n']) = List.intercalate ['\n'] lines ++ ['\n'] := by
  induction lines with
  | nil => exact absurd rfl h
  | cons line lines ih =>
    cases lines with
    | nil => simp
    | cons next lines => simpa using ih (by simp)

theorem splitLines_ended {lines : List (List Char)} (h : ∀ line ∈ lines, '\n' ∉ line) :
    splitLines (lines.flatMap (· ++ ['\n'])) = lines := by
  by_cases hne : lines = []
  · subst hne
    rfl
  · rw [splitLines, flatMap_ended hne, if_neg (by simp), if_pos (by simp),
      List.dropLast_concat, List.splitOn_intercalate _ h hne]

theorem splitLines_format (src : List Char) (opts : FormatOptions) :
    splitLines (format src opts) = formatted opts src :=
  splitLines_ended fun _ => not_mem_of_mem_formatted

/-- **Formatting moves blanks only**, whatever the variables are and however many passes are
made: the lines of a template and of what it is formatted to are the same, one by one and in
number, but for spaces, tabs and carriage returns. -/
theorem format_visible (src : List Char) (opts : FormatOptions) :
    (splitLines (format src opts)).map visible = (splitLines src).map visible := by
  rw [splitLines_format, formatted_visible]

end Tmpl
end Proxy
end Configd
