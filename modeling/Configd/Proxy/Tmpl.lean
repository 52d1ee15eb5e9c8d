import Configd.Lib.Fenced
import Configd.Lib.Fields

/-!
# The template language of the proxy configuration

The renderer of `internal/proxy/tmpl/tmpl.go`.  A line is the list of its characters.  An enabler
prefix, `${name}` before more text, keeps or comments out the rest of the line; every other
`${name}` is replaced by the text of the variable; a rendered line that is an indented directive
without a value is commented out.

A resolver answers in a monad, since the one of the generator may dereference a nil variable.  Where
it answers for every name the line mentions, the line is rendered as by the resolver of the answers
alone (`renderLine_eq_some`).
-/

namespace Configd
namespace Proxy
namespace Tmpl

open Lib Lib.Strings Lib.Regex

/-! ## The patterns -/

/-- `\s` of the package `regexp`. -/
def isWhite (c : Char) : Bool :=
  c ∈ ['\t', '\n', '\x0c', '\r', ' ']

/-- `\w`. -/
def isWord (c : Char) : Bool :=
  ('a' ≤ c && c ≤ 'z') || ('A' ≤ c && c ≤ 'Z') || ('0' ≤ c && c ≤ '9') || c = '_'

/-- `[a-zA-Z0-9._:]`, the characters of a name. -/
def isNameChar (c : Char) : Bool :=
  isWord c || c = '.' || c = ':'

/-- `[a-z0-9_]`, the characters of the name of a directive. -/
def isDirectiveChar (c : Char) : Bool :=
  ('a' ≤ c && c ≤ 'z') || ('0' ≤ c && c ≤ '9') || c = '_'

def isBlank (c : Char) : Bool :=
  c = ' ' || c = '\t'

/-- `${`. -/
def opening : List Char := ['$', '\x7b']

/-- `}`. -/
def closing : List Char := ['\x7d']

def varPattern : Pattern :=
  [[.lit opening, .rep isNameChar 1 none true, .lit closing]]

def explodePattern : List Item :=
  [.lit "!\x7bexplode".toList, .rep isWhite 1 none false, .rep isWord 1 none true,
    .lit ['('], .rep (· ≠ ')') 0 none true, .lit [')', '\x7d']]

/-- `EnablerPattern` without its end: what is left after a match has to be empty. -/
def enablerPattern : List Item :=
  [.rep isWhite 0 none true, .lit opening, .rep (· ≠ '\x7d') 1 none true, .lit closing,
    .rep (· ≠ '\n') 1 none true]

def emptyDirectivePattern : List Item :=
  [.rep isWhite 1 none false, .rep isDirectiveChar 1 none false, .rep isWhite 1 none false,
    .lit [';']]

/-! ## Directives -/

def isCommentLine (line : List Char) : Bool :=
  hasPrefix (trimSpace (String.ofList line)) "#"

def splitLines (content : List Char) : List (List Char) :=
  if content = [] then []
  else (if content.getLast? = some '\n' then content.dropLast else content).splitOn '\n'

/-- `ParseExplode`: the type and the arguments of an explode directive. -/
def parseExplode (line : List Char) : Option (String × String) :=
  match matchItems explodePattern line with
  | some ⟨_, [typ, args], _⟩ => some (String.ofList typ, String.ofList args)
  | _ => none

def domainArgs (argsStr : String) : Except String (List String) :=
  if trimSpace argsStr = "" then
    .error "explode domain directive requires at least one argument"
  else
    let args := (split (trimSpace argsStr) ',').map trimSpace
    if "" ∈ args then .error "explode domain directive has empty argument" else .ok args

/-! ## Rendering -/

/-- `Resolver`: whether a name is that of an enabler, and of one that is on; and the text of a
variable, with whether there is one. -/
structure Resolver (m : Type → Type) where
  enabler : String → m (Bool × Bool)
  value : String → m (String × Bool)

def placeholderIndent (before : List Char) : List Char :=
  before.takeWhile isBlank

def indentContinuation (text indent : List Char) : List Char :=
  if indent = [] ∨ '\n' ∉ text then text
  else
    match text.splitOn '\n' with
    | [] => []
    | first :: later =>
      List.intercalate ['\n']
        (first :: later.map fun line => if line = [] then line else indent ++ line)

/-- Commenting out, as `renderEnabler` does it for an enabler that is off: every line that is
not blank gets a `#` after the indentation. -/
def commentOut (indent rendered : List Char) : List Char :=
  List.intercalate ['\n']
    ((rendered.splitOn '\n').map fun line =>
      if line.all isBlank then line
      else indent ++ '#' :: (if indent.isPrefixOf line then line.drop indent.length else line))

/-- What is left of a directive without a value. -/
def commentEmptyDirective (result : List Char) : List Char :=
  if (matchItems emptyDirectivePattern result).isSome then
    "    # ".toList ++ (trimSpace (String.ofList result)).toList
  else result

/-- The prefix that `EnablerPattern` finds: indentation, name and rest of the line. -/
def enablerPrefix (line : List Char) : Option (List Char × List Char × List Char) :=
  match matchItems enablerPattern line with
  | some ⟨_, [indent, name, rest], []⟩ => some (indent, name, rest)
  | _ => none

/-- The name in a match of `varPattern`. -/
def nameOf (m : Match) : String :=
  String.ofList m.groups.flatten

section Rendering

variable {m : Type → Type} [Monad m] (r : Resolver m)

/-- The loop of `expandVars`, `before` being the part of the line it has passed. -/
def expandFrom (before : List Char) : List (Char ⊕ Match) → m (List Char)
  | [] => pure []
  | .inl c :: later => do
      let rest ← expandFrom (before ++ [c]) later
      return c :: rest
  | .inr var :: later => do
      let (text, _) ← r.value (nameOf var)
      let rest ← expandFrom (before ++ var.text) later
      return indentContinuation text.toList (placeholderIndent before) ++ rest

def expandVars (line : List Char) : m (List Char) :=
  expandFrom r [] (find varPattern line)

/-- A line without an enabler prefix. -/
def renderText (line : List Char) : m (List Char) := do
  let result ← expandVars r line
  return commentEmptyDirective result

/-- `RenderLine` with at most `fuel` prefixes. -/
def renderPrefixes : Nat → List Char → m (List Char)
  | 0, line => renderText r line
  | fuel + 1, line =>
    match enablerPrefix line with
    | some (indent, name, rest) => do
        let (on, isEnabler) ← r.enabler (String.ofList name)
        if isEnabler then do
          let rendered ← renderPrefixes fuel (indent ++ rest)
          return if on then rendered else commentOut indent rendered
        else renderText r line
    | none => renderText r line

/-- `RenderLine`.  A prefix takes characters off the line, so their number bounds that of the
prefixes. -/
def renderLine (line : List Char) : m (List Char) :=
  renderPrefixes r line.length line

end Rendering

/-! ## The prefix of a line -/

theorem isWhite_dollar : isWhite '$' = false := rfl

/-- What stands before an enabler prefix, in it and after it. -/
structure IsEnablerPrefix (line indent name rest : List Char) : Prop where
  split : line = indent ++ (opening ++ (name ++ (closing ++ rest)))
  indent_white : ∀ c ∈ indent, isWhite c = true
  name_ne : name ≠ []
  name_open : '\x7d' ∉ name
  rest_ne : rest ≠ []
  rest_line : '\n' ∉ rest

variable {line : List Char}

theorem enablerPrefix_eq_some {indent name rest : List Char}
    (h : enablerPrefix line = some (indent, name, rest)) :
    IsEnablerPrefix line indent name rest := by
  simp only [enablerPrefix] at h
  split at h
  · rename_i text indent' name' rest' hmatch
    obtain ⟨rfl, rfl, rfl⟩ : indent' = indent ∧ name' = name ∧ rest' = rest := by
      simpa using h
    obtain ⟨parts, hreads, hgroups, htext, hline⟩ := reads_of_matchItems hmatch
    dsimp only at hgroups htext hline
    obtain ⟨⟩ | ⟨⟩ | ⟨hindent, -, -, hreads⟩ := hreads
    obtain ⟨⟩ | ⟨_, hreads⟩ := hreads
    obtain ⟨⟩ | ⟨⟩ | ⟨hname, hnamelength, -, hreads⟩ := hreads
    obtain ⟨⟩ | ⟨_, hreads⟩ := hreads
    obtain ⟨⟩ | ⟨⟩ | ⟨hrest, hrestlength, -, ⟨⟩⟩ := hreads
    simp only [enablerPattern, captures, List.cons.injEq, and_true] at hgroups
    obtain ⟨rfl, rfl, rfl⟩ := hgroups
    refine ⟨by simpa [htext] using hline.symm, hindent, List.ne_nil_of_length_pos hnamelength, ?_,
      List.ne_nil_of_length_pos hrestlength, ?_⟩
    · intro hmem
      simpa using hname _ hmem
    · intro hmem
      simpa using hrest _ hmem
  · cases h

/-! ## The names a line mentions -/

theorem matchAt_varPattern {s : List Char} {var : Match} (h : matchAt varPattern s = some var) :
    ∃ name, name ≠ [] ∧ (∀ c ∈ name, isNameChar c = true) ∧
      var.text = opening ++ (name ++ closing) ∧ nameOf var = String.ofList name := by
  obtain ⟨items, hitems, hmatch⟩ := List.exists_of_findSome?_eq_some h
  obtain rfl := List.mem_singleton.mp hitems
  obtain ⟨parts, hreads, hgroups, htext, -⟩ := reads_of_matchItems hmatch
  obtain ⟨⟩ | ⟨_, hreads⟩ := hreads
  obtain ⟨⟩ | ⟨⟩ | ⟨hname, hlength, -, hreads⟩ := hreads
  obtain ⟨⟩ | ⟨_, ⟨⟩⟩ := hreads
  refine ⟨_, List.ne_nil_of_length_pos hlength, hname, by simpa using htext, ?_⟩
  simp only [captures] at hgroups
  rw [nameOf, hgroups, List.flatten_singleton]

theorem opening_nameOf_isInfix {var : Match}
    (h : .inr var ∈ find varPattern line) : opening ++ (nameOf var).toList <:+: line := by
  obtain ⟨s, hmatch⟩ := matchAt_of_mem_find h
  obtain ⟨name, -, -, htext, hname⟩ := matchAt_varPattern hmatch
  refine List.IsInfix.trans ?_ (isInfix_of_mem_find h).1
  rw [htext, hname, String.toList_ofList, ← List.append_assoc]
  exact (List.prefix_append _ _).isInfix

/-- The line mentions no name with the given beginning. -/
def Avoids (start line : List Char) : Prop :=
  ¬opening ++ start <:+: line

theorem not_isInfix_of_name {start name : List Char} (h : Avoids start line)
    (hname : opening ++ name <:+: line) : ¬start <+: name := by
  rintro ⟨tail, rfl⟩
  refine h (List.IsInfix.trans ?_ hname)
  rw [← List.append_assoc]
  exact (List.prefix_append _ _).isInfix

theorem Avoids.rest {start indent name rest : List Char} (h : Avoids start line)
    (hline : IsEnablerPrefix line indent name rest) : Avoids start (indent ++ rest) := by
  rintro ⟨before, after, hsplit⟩
  have hrest : rest <:+: line := by
    rw [hline.split, ← List.append_assoc, ← List.append_assoc, ← List.append_assoc]
    exact (List.suffix_append _ _).isInfix
  rw [List.append_assoc] at hsplit
  rcases List.append_eq_append_iff.mp hsplit with ⟨part, hindent, hlater⟩ | ⟨part, -, hlater⟩
  · cases part with
    | nil => exact h (List.IsInfix.trans ⟨[], after, by simpa using hlater⟩ hrest)
    | cons c part =>
      obtain rfl : '$' = c := (List.cons.inj hlater).1
      have hwhite := hline.indent_white '$' (by simp [hindent])
      rw [isWhite_dollar] at hwhite
      cases hwhite
  · exact h (List.IsInfix.trans ⟨part, after, by rw [hlater, List.append_assoc]⟩ hrest)

section Answers

variable {r : Resolver Option} {answers : Resolver Id} {start : List Char}
  (hsame : ∀ name, ¬start <+: name.toList →
    r.enabler name = some (answers.enabler name) ∧ r.value name = some (answers.value name))

include hsame

theorem expandFrom_eq_some {pieces : List (Char ⊕ Match)}
    (hpieces : ∀ var, .inr var ∈ pieces → ¬start <+: (nameOf var).toList) (before : List Char) :
    expandFrom r before pieces = some (expandFrom answers before pieces) := by
  induction pieces generalizing before with
  | nil => rfl
  | cons piece later ih =>
    have hlater := ih fun var hvar => hpieces var (List.mem_cons_of_mem _ hvar)
    cases piece with
    | inl c =>
      simp only [expandFrom, hlater]
      rfl
    | inr var =>
      have hvalue := (hsame _ (hpieces var List.mem_cons_self)).2
      simp only [expandFrom, hvalue, hlater]
      rfl

theorem renderText_eq_some (hline : Avoids start line) :
    renderText r line = some (renderText answers line) := by
  have hexpand := expandFrom_eq_some hsame
    (fun var hvar => not_isInfix_of_name hline (opening_nameOf_isInfix hvar)) []
  simp only [renderText, expandVars, hexpand]
  rfl

theorem renderPrefixes_eq_some (fuel : Nat) (hline : Avoids start line) :
    renderPrefixes r fuel line = some (renderPrefixes answers fuel line) := by
  induction fuel generalizing line with
  | zero => exact renderText_eq_some hsame hline
  | succ fuel ih =>
    simp only [renderPrefixes]
    cases hbegins : enablerPrefix line with
    | none => exact renderText_eq_some hsame hline
    | some parts =>
      obtain ⟨indent, name, rest⟩ := parts
      have hparts := enablerPrefix_eq_some hbegins
      have hname : opening ++ name <:+: line := by
        rw [hparts.split, ← List.append_assoc opening]
        exact ⟨indent, closing ++ rest, by simp⟩
      have henabler := (hsame (String.ofList name)
        (by simpa using not_isInfix_of_name hline hname)).1
      simp only [henabler, Option.bind_eq_bind, Option.bind_some]
      cases hanswer : answers.enabler (String.ofList name) with
      | mk on isEnabler =>
        cases isEnabler with
        | false => exact renderText_eq_some hsame hline
        | true =>
          rw [if_pos rfl, ih (hline.rest hparts)]
          rfl

/-- **The answers decide the rendering**: a line that mentions no name with the given beginning
is rendered as by the answers for the other names. -/
theorem renderLine_eq_some (hline : Avoids start line) :
    renderLine r line = some (renderLine answers line) :=
  renderPrefixes_eq_some hsame line.length hline

end Answers

end Tmpl
end Proxy
end Configd
