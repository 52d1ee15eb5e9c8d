import Configd.Lib.Loop

/-!
# Patterns as the Go package `regexp` matches them

A pattern of the modelled program is a sequence of literal texts and repeated character classes,
some of them captured, or a few alternatives of that form.  Repetitions are greedy and give back
characters until the rest of the pattern matches; of several alternatives the first that matches
counts.  That is the leftmost-first match of `regexp`.

* `matchItems` matches at the beginning of a text;
* `find` cuts a text into the matches that `FindAll` and `ReplaceAll` find, from left to right and
  without overlap, and the characters between them.

`Reads` says what a match is made of.  A class before a literal text that begins outside it takes
all it can (`matchItems_rep_lit`), and `find` either takes the match at the current position or
steps over one character (`find_match`, `find_skip`).
-/

namespace Configd
namespace Lib
namespace Regex

/-- An item of a pattern: a literal text, or a class of characters repeated at least `least`
and at most `most` times, captured or not. -/
inductive Item
  | lit (text : List Char)
  | rep (chars : Char → Bool) (least : Nat) (most : Option Nat) (captured : Bool)

/-- The alternatives of a pattern, in order. -/
abbrev Pattern := List (List Item)

/-- A match: its text, what was captured in it, and the text after it. -/
structure Match where
  text : List Char
  groups : List (List Char)
  rest : List Char
  deriving DecidableEq

/-- A match with more text before it. -/
def Match.prepend (m : Match) (text : List Char) (captured : Bool) : Match where
  text := text ++ m.text
  groups := if captured then text :: m.groups else m.groups
  rest := m.rest

/-- How many characters a repetition takes at most. -/
def runLength (chars : Char → Bool) (most : Option Nat) (s : List Char) : Nat :=
  match most with
  | none => (s.takeWhile chars).length
  | some n => min n (s.takeWhile chars).length

/-- The numbers from `high` down to `low`. -/
def countdown (low high : Nat) : List Nat :=
  (List.range (high + 1)).reverse.filter (low ≤ ·)

def matchItems : List Item → List Char → Option Match
  | [], s => some ⟨[], [], s⟩
  | .lit text :: items, s =>
    if text.isPrefixOf s then
      (matchItems items (s.drop text.length)).map (·.prepend text false)
    else none
  | .rep chars least most captured :: items, s =>
    (countdown least (runLength chars most s)).findSome? fun n =>
      (matchItems items (s.drop n)).map (·.prepend (s.take n) captured)

def matchAt (re : Pattern) (s : List Char) : Option Match :=
  re.findSome? fun items => matchItems items s

/-- The matches in a text, and the characters between them. -/
def pieces (re : Pattern) : Nat → List Char → List (Char ⊕ Match)
  | 0, _ => []
  | _ + 1, [] => []
  | n + 1, c :: s =>
    match matchAt re (c :: s) with
    | some m => if m.text = [] then .inl c :: pieces re n s else .inr m :: pieces re n m.rest
    | none => .inl c :: pieces re n s

/-- The matches from left to right, with the characters between them. -/
def find (re : Pattern) (s : List Char) : List (Char ⊕ Match) :=
  pieces re s.length s

def pieceText : Char ⊕ Match → List Char
  | .inl c => [c]
  | .inr m => m.text

/-- `Regexp.FindAllStringSubmatch`. -/
def findAll (re : Pattern) (s : String) : List Match :=
  (find re s.toList).filterMap Sum.getRight?

/-- `Regexp.ReplaceAllStringFunc`, for a function that may fail: the first failure counts. -/
def replaceAll {ε : Type} (re : Pattern) (f : String → Except ε String) (s : String) :
    Except ε String := do
  let parts ← (find re s.toList).mapM fun piece =>
    match piece with
    | .inl c => pure [c]
    | .inr m => do return (← f (String.ofList m.text)).toList
  return String.ofList parts.flatten

/-! ## Matching at the beginning -/

variable {m : Match} {s : List Char} {re : Pattern}

theorem matchItems_lit_eq_none {text : List Char}
    (h : ¬text <+: s) (items : List Item) : matchItems (.lit text :: items) s = none := by
  simp only [matchItems]
  exact if_neg fun hpre => h (List.isPrefixOf_iff_prefix.mp hpre)

theorem matchItems_lit (text s : List Char) (items : List Item) :
    matchItems (.lit text :: items) (text ++ s) =
      (matchItems items s).map (·.prepend text false) := by
  have hpre := List.isPrefixOf_iff_prefix.mpr (List.prefix_append text s)
  simp only [matchItems]
  rw [if_pos hpre, List.drop_left]

theorem matchItems_rep (chars : Char → Bool) (least : Nat) (most : Option Nat) (captured : Bool)
    (items : List Item) (s : List Char) :
    matchItems (.rep chars least most captured :: items) s =
      (countdown least (runLength chars most s)).findSome? fun n =>
        (matchItems items (s.drop n)).map (·.prepend (s.take n) captured) := rfl

theorem mem_countdown {low high n : Nat} : n ∈ countdown low high ↔ low ≤ n ∧ n ≤ high := by
  simp only [countdown, List.mem_filter, List.mem_reverse, List.mem_range, decide_eq_true_eq]
  omega

theorem countdown_of_le {low high : Nat} (h : low ≤ high) :
    countdown low high = high :: (List.range high).reverse.filter (low ≤ ·) := by
  simp [countdown, List.range_succ, h]

theorem countdown_of_lt {low high : Nat} (h : high < low) : countdown low high = [] := by
  rw [List.eq_nil_iff_forall_not_mem]
  intro n hn
  have := mem_countdown.mp hn
  omega

theorem take_length_takeWhile (chars : Char → Bool) (s : List Char) :
    s.take (s.takeWhile chars).length = s.takeWhile chars := by
  have hpre := List.takeWhile_prefix (l := s) chars
  exact (List.prefix_iff_eq_take.mp hpre).symm

theorem drop_length_takeWhile (chars : Char → Bool) (s : List Char) :
    s.drop (s.takeWhile chars).length = s.dropWhile chars := by
  have hsplit := List.take_append_drop (s.takeWhile chars).length s
  rw [take_length_takeWhile] at hsplit
  exact List.append_cancel_left (hsplit.trans List.takeWhile_append_dropWhile.symm)

theorem findSome?_countdown {α : Type} {low high : Nat} {f : Nat → Option α}
    (hfail : ∀ n < high, f n = none) :
    (countdown low high).findSome? f = if low ≤ high then f high else none := by
  by_cases hle : low ≤ high
  · have hrest : ((List.range high).reverse.filter (low ≤ ·)).findSome? f = none := by
      rw [List.findSome?_eq_none_iff]
      intro n hn
      have hmem := (List.mem_filter.mp hn).1
      exact hfail n (List.mem_range.mp (List.mem_reverse.mp hmem))
    rw [if_pos hle, countdown_of_le hle, List.findSome?_cons, hrest]
    cases f high <;> rfl
  · rw [if_neg hle, countdown_of_lt (Nat.lt_of_not_le hle)]
    rfl

/-- **A class before a literal text** that begins outside it takes all it can. -/
theorem matchItems_rep_lit {chars : Char → Bool} {c : Char} (hc : chars c = false)
    (cs : List Char) (least : Nat) (captured : Bool) (items : List Item) (s : List Char) :
    matchItems (.rep chars least none captured :: .lit (c :: cs) :: items) s =
      if least ≤ (s.takeWhile chars).length then
        (matchItems (.lit (c :: cs) :: items) (s.dropWhile chars)).map
          (·.prepend (s.takeWhile chars) captured)
      else none := by
  rw [matchItems_rep, findSome?_countdown]
  · simp only [runLength, take_length_takeWhile, drop_length_takeWhile]
  · intro n hn
    simp only [runLength] at hn
    -- The next character is still in the class, so it does not begin the literal text.
    have hnext : ∃ d rest, s.drop n = d :: rest ∧ chars d = true := by
      have hpre := List.takeWhile_prefix (l := s) chars
      have hlen : n < s.length := lt_of_lt_of_le hn hpre.length_le
      refine ⟨s[n], s.drop (n + 1), List.drop_eq_getElem_cons hlen, ?_⟩
      rw [← hpre.getElem hn]
      exact List.mem_takeWhile_imp (List.getElem_mem hn)
    obtain ⟨d, rest, hdrop, hd⟩ := hnext
    rw [hdrop, matchItems_lit_eq_none, Option.map_none]
    rw [List.cons_prefix_cons]
    rintro ⟨rfl, -⟩
    rw [hc] at hd
    cases hd

/-! ## The parts of a match -/

/-- The parts of a text that the items of a pattern read, one for each. -/
inductive Reads : List Item → List (List Char) → Prop
  | nil : Reads [] []
  | lit {items parts} (text : List Char) (later : Reads items parts) :
      Reads (.lit text :: items) (text :: parts)
  | rep {items parts chars least most captured part} (hchars : ∀ c ∈ part, chars c = true)
      (hleast : least ≤ part.length) (hmost : ∀ n, most = some n → part.length ≤ n)
      (later : Reads items parts) :
      Reads (.rep chars least most captured :: items) (part :: parts)

/-- The captured ones of the parts. -/
def captures : List Item → List (List Char) → List (List Char)
  | .rep _ _ _ true :: items, part :: parts => part :: captures items parts
  | _ :: items, _ :: parts => captures items parts
  | _, _ => []

theorem runLength_le (chars : Char → Bool) (most : Option Nat) (s : List Char) :
    runLength chars most s ≤ (s.takeWhile chars).length := by
  cases most with
  | none => exact Nat.le_refl _
  | some n => exact Nat.min_le_right _ _

theorem runLength_le_most {chars : Char → Bool} {n : Nat} :
    runLength chars (some n) s ≤ n :=
  Nat.min_le_left _ _

theorem reads_of_matchItems {items : List Item} (h : matchItems items s = some m) :
    ∃ parts, Reads items parts ∧ m.groups = captures items parts ∧ m.text = parts.flatten ∧
      m.text ++ m.rest = s := by
  induction items generalizing s m with
  | nil =>
    obtain rfl := Option.some.inj h
    exact ⟨[], .nil, rfl, rfl, rfl⟩
  | cons item items ih =>
    cases item with
    | lit text =>
      by_cases hpre : text <+: s
      · obtain ⟨rest, rfl⟩ := hpre
        rw [matchItems_lit] at h
        obtain ⟨later, hlater, rfl⟩ := Option.map_eq_some_iff.mp h
        obtain ⟨parts, hreads, hgroups, htext, hsplit⟩ := ih hlater
        exact ⟨text :: parts, .lit text hreads, hgroups, by simp [Match.prepend, htext],
          by simp [Match.prepend, hsplit]⟩
      · rw [matchItems_lit_eq_none hpre] at h
        cases h
    | rep chars least most captured =>
      rw [matchItems_rep] at h
      obtain ⟨n, hn, hmatch⟩ := List.exists_of_findSome?_eq_some h
      obtain ⟨later, hlater, rfl⟩ := Option.map_eq_some_iff.mp hmatch
      obtain ⟨parts, hreads, hgroups, htext, hsplit⟩ := ih hlater
      obtain ⟨hleast, hrun⟩ := mem_countdown.mp hn
      have hlongest := runLength_le chars most s
      have hrunpre := List.takeWhile_prefix (l := s) chars
      have hlength : (s.take n).length = n := by
        have hle := hrunpre.length_le
        rw [List.length_take]
        omega
      refine ⟨s.take n :: parts, .rep ?_ (by omega) ?_ hreads, ?_, ?_, ?_⟩
      · intro c hc
        -- A run as long as this one is a part of the longest run.
        have hpre : s.take n <+: s.takeWhile chars :=
          List.prefix_of_prefix_length_le (List.take_prefix n s) hrunpre (by omega)
        exact List.mem_takeWhile_imp (hpre.subset hc)
      · rintro k rfl
        have hmost : runLength chars (some k) s ≤ k := runLength_le_most
        omega
      · cases captured <;> simp [Match.prepend, captures, hgroups]
      · simp [Match.prepend, htext]
      · simp [Match.prepend, hsplit]

theorem mem_of_mem_captures {items : List Item} {parts : List (List Char)} {g : List Char}
    (h : g ∈ captures items parts) : g ∈ parts := by
  fun_induction captures items parts with
  | case1 _ _ _ items part parts ih =>
    rcases List.mem_cons.mp h with rfl | h
    · exact List.mem_cons_self
    · exact List.mem_cons_of_mem _ (ih h)
  | case2 item items part parts _ ih => exact List.mem_cons_of_mem _ (ih h)
  | case3 => cases h

theorem Reads.lit_mem {items : List Item} {parts : List (List Char)} (h : Reads items parts)
    {text : List Char} (hlit : .lit text ∈ items) : text ∈ parts := by
  induction h with
  | nil => cases hlit
  | lit first _ ih =>
    rcases List.mem_cons.mp hlit with heq | hlit
    · exact Item.lit.inj heq ▸ List.mem_cons_self
    · exact List.mem_cons_of_mem _ (ih hlit)
  | rep _ _ _ _ ih =>
    rcases List.mem_cons.mp hlit with heq | hlit
    · cases heq
    · exact List.mem_cons_of_mem _ (ih hlit)

theorem split_of_matchAt (h : matchAt re s = some m) : m.text ++ m.rest = s := by
  obtain ⟨items, -, hitems⟩ := List.exists_of_findSome?_eq_some h
  obtain ⟨parts, -, -, -, hsplit⟩ := reads_of_matchItems hitems
  exact hsplit

/-! ## The matches in a text -/

theorem pieces_of_le (re : Pattern) {n : Nat} (hn : s.length ≤ n) :
    pieces re n s = find re s := by
  induction n using Nat.strong_induction_on generalizing s with
  | _ n ih =>
    unfold find
    cases s with
    | nil => cases n <;> rfl
    | cons c s =>
      cases n with
      | zero => simp at hn
      | succ n =>
        have hs : s.length ≤ n := by simpa using hn
        have hskip : pieces re n s = pieces re s.length s := ih n (Nat.lt_succ_self n) hs
        simp only [pieces, List.length_cons]
        cases hmatch : matchAt re (c :: s) with
        | none => rw [hskip]
        | some m =>
          by_cases hempty : m.text = []
          · simp only [hempty, if_true, hskip]
          · have hrest : m.rest.length ≤ s.length := by
              have hsplit := congrArg List.length (split_of_matchAt hmatch)
              have hpos := List.length_pos_iff.mpr hempty
              simp only [List.length_append, List.length_cons] at hsplit
              omega
            simp only [hempty, if_false]
            rw [ih n (Nat.lt_succ_self n) (hrest.trans hs),
              ih s.length (Nat.lt_succ_of_le hs) hrest]

theorem find_skip {c : Char} (h : matchAt re (c :: s) = none) :
    find re (c :: s) = .inl c :: find re s := by
  rw [find, List.length_cons, pieces, h]
  rfl

theorem find_match (h : matchAt re s = some m)
    (hne : m.text ≠ []) : find re s = .inr m :: find re m.rest := by
  have hsplit := split_of_matchAt h
  cases s with
  | nil => exact absurd (List.append_eq_nil_iff.mp hsplit).1 hne
  | cons c s =>
    have hrest : m.rest.length ≤ s.length := by
      have hlength := congrArg List.length hsplit
      have hpos := List.length_pos_iff.mpr hne
      simp only [List.length_append, List.length_cons] at hlength
      omega
    rw [find, List.length_cons, pieces, h]
    simp only [hne, if_false]
    rw [pieces_of_le re hrest]

/-- **Every piece comes from the text**: it is a character, or a match at its place. -/
theorem find_induction {motive : List Char → List (Char ⊕ Match) → Prop}
    (nil : motive [] [])
    (skip : ∀ c s, motive s (find re s) → motive (c :: s) (.inl c :: find re s))
    (found : ∀ s m, matchAt re s = some m → m.text ≠ [] → motive m.rest (find re m.rest) →
      motive s (.inr m :: find re m.rest)) (s : List Char) : motive s (find re s) := by
  induction hn : s.length using Nat.strong_induction_on generalizing s with
  | _ n ih =>
    cases s with
    | nil => exact nil
    | cons c s =>
      have hs : motive s (find re s) := ih s.length (by simp [← hn]) s rfl
      cases hmatch : matchAt re (c :: s) with
      | none =>
        rw [find_skip hmatch]
        exact skip c s hs
      | some m =>
        by_cases hempty : m.text = []
        · have hskip : find re (c :: s) = .inl c :: find re s := by
            rw [find, List.length_cons, pieces, hmatch]
            simp only [hempty, if_true]
            rfl
          rw [hskip]
          exact skip c s hs
        · rw [find_match hmatch hempty]
          refine found _ m hmatch hempty (ih m.rest.length ?_ m.rest rfl)
          have hlength := congrArg List.length (split_of_matchAt hmatch)
          have hpos := List.length_pos_iff.mpr hempty
          simp only [List.length_append, List.length_cons] at hlength hn
          omega

theorem flatMap_find (re : Pattern) (s : List Char) : (find re s).flatMap pieceText = s := by
  refine find_induction (motive := fun s pieces => pieces.flatMap pieceText = s) rfl ?_ ?_ s
  · intro c s ih
    rw [List.flatMap_cons, ih]
    rfl
  · intro s m hmatch _ ih
    rw [List.flatMap_cons, ih]
    exact split_of_matchAt hmatch

theorem mem_findAll {s : String} :
    m ∈ findAll re s ↔ .inr m ∈ find re s.toList := by
  rw [findAll, List.mem_filterMap]
  constructor
  · rintro ⟨piece, hpiece, hright⟩
    cases piece with
    | inl c => cases hright
    | inr m' => exact Option.some.inj hright ▸ hpiece
  · exact fun h => ⟨.inr m, h, rfl⟩

theorem matchAt_of_mem_find (h : .inr m ∈ find re s) :
    ∃ t, matchAt re t = some m := by
  revert h
  refine find_induction (motive := fun _ pieces => .inr m ∈ pieces → ∃ t, matchAt re t = some m)
    (by simp) ?_ ?_ s
  · intro c s ih h
    exact ih (by simpa using h)
  · intro s m' hmatch _ ih h
    rcases List.mem_cons.mp h with heq | hmem
    · obtain rfl := Sum.inr.inj heq
      exact ⟨s, hmatch⟩
    · exact ih hmem

theorem isInfix_of_mem_find (h : .inr m ∈ find re s) :
    m.text <:+: s ∧ ∀ g ∈ m.groups, g <:+: m.text := by
  constructor
  · have hmem := List.mem_map_of_mem (f := pieceText) h
    have hinfix := List.infix_of_mem_flatten hmem
    rwa [← List.flatMap_def, flatMap_find] at hinfix
  · obtain ⟨t, ht⟩ := matchAt_of_mem_find h
    obtain ⟨items, -, hmatched⟩ := List.exists_of_findSome?_eq_some ht
    obtain ⟨parts, -, hgroups, htext, -⟩ := reads_of_matchItems hmatched
    rw [hgroups, htext]
    exact fun g hg => List.infix_of_mem_flatten (mem_of_mem_captures hg)

theorem lit_isInfix_of_mem_find
    (h : .inr m ∈ find re s) {text : List Char} (hlit : ∀ items ∈ re, .lit text ∈ items) :
    text <:+: s := by
  obtain ⟨t, ht⟩ := matchAt_of_mem_find h
  obtain ⟨items, hitems, hmatched⟩ := List.exists_of_findSome?_eq_some ht
  obtain ⟨parts, hreads, -, htext, -⟩ := reads_of_matchItems hmatched
  refine List.IsInfix.trans ?_ (isInfix_of_mem_find h).1
  exact htext ▸ List.infix_of_mem_flatten (hreads.lit_mem (hlit items hitems))

/-! ## Replacing -/

section Replace

variable {ε : Type} {re : Pattern} {f : String → Except ε String}

/-- What a piece is replaced by. -/
def replacePiece (f : String → Except ε String) (piece : Char ⊕ Match) : Except ε (List Char) :=
  match piece with
  | .inl c => .ok [c]
  | .inr m => (f (String.ofList m.text)).map String.toList

theorem replaceAll_eq (re : Pattern) (f : String → Except ε String) (s : String) :
    replaceAll re f s =
      ((find re s.toList).mapM (replacePiece f)).map fun parts => String.ofList parts.flatten := by
  have hpiece : (fun piece : Char ⊕ Match => (match piece with
      | .inl c => pure [c]
      | .inr m => do return (← f (String.ofList m.text)).toList : Except ε (List Char))) =
      replacePiece f := by
    funext piece
    cases piece with
    | inl c => rfl
    | inr m =>
      simp only [replacePiece]
      cases f (String.ofList m.text) <;> rfl
  unfold replaceAll
  rw [hpiece]
  cases (find re s.toList).mapM (replacePiece f) <;> rfl

theorem replaceAll_eq_ok_iff {s out : String} :
    replaceAll re f s = .ok out ↔ ∃ parts : List (List Char),
      (find re s.toList).map (replacePiece f) = parts.map .ok ∧
        out = String.ofList parts.flatten := by
  simp only [replaceAll_eq, ← mapM_eq_ok_iff]
  cases (find re s.toList).mapM (replacePiece f) with
  | error e => simp [Except.map]
  | ok parts => simp [Except.map, eq_comm]

/-- **Replacing** where no replacement fails. -/
theorem replaceAll_ok {s : String} {value : Match → List Char}
    (h : ∀ m, .inr m ∈ find re s.toList →
      f (String.ofList m.text) = .ok (String.ofList (value m))) :
    replaceAll re f s =
      .ok (String.ofList ((find re s.toList).flatMap (Sum.elim ([·]) value))) := by
  refine replaceAll_eq_ok_iff.mpr
    ⟨(find re s.toList).map (Sum.elim ([·]) value), ?_, by rw [List.flatMap_def]⟩
  rw [List.map_map]
  refine List.map_congr_left fun piece hpiece => ?_
  cases piece with
  | inl c => rfl
  | inr m => simp [replacePiece, h m hpiece, Except.map]

theorem exists_of_replaceAll {s out : String} (h : replaceAll re f s = .ok out)
    (hm : .inr m ∈ find re s.toList) : ∃ value, f (String.ofList m.text) = .ok value := by
  obtain ⟨parts, hparts, -⟩ := replaceAll_eq_ok_iff.mp h
  have hmem : replacePiece f (.inr m) ∈ parts.map .ok := hparts ▸ List.mem_map_of_mem hm
  obtain ⟨part, -, hpart⟩ := List.mem_map.mp hmem
  cases hf : f (String.ofList m.text) with
  | error e =>
    rw [replacePiece, hf] at hpart
    cases hpart
  | ok value => exact ⟨value, rfl⟩

/-- **The result of replacing**, each match on its own. -/
theorem flatMap_of_replaceAll {s out : String} (h : replaceAll re f s = .ok out) :
    out = String.ofList ((find re s.toList).flatMap (Sum.elim ([·]) fun m =>
      ((f (String.ofList m.text)).toOption.getD "").toList)) := by
  refine Except.ok.inj (h.symm.trans (replaceAll_ok fun m hm => ?_))
  obtain ⟨value, hvalue⟩ := exists_of_replaceAll h hm
  rw [hvalue, String.ofList_toList]
  rfl

/-- **The characters of the result**: those between the matches, and those of the
replacements. -/
theorem mem_replaceAll {s out : String} (h : replaceAll re f s = .ok out) (c : Char) :
    c ∈ out.toList ↔ .inl c ∈ find re s.toList ∨
      ∃ m value, .inr m ∈ find re s.toList ∧ f (String.ofList m.text) = .ok value ∧
        c ∈ value.toList := by
  rw [flatMap_of_replaceAll h, String.toList_ofList, List.mem_flatMap]
  constructor
  · rintro ⟨piece, hpiece, hc⟩
    cases piece with
    | inl d => exact .inl (List.mem_singleton.mp hc ▸ hpiece)
    | inr m =>
      obtain ⟨value, hvalue⟩ := exists_of_replaceAll h hpiece
      rw [Sum.elim_inr, hvalue] at hc
      exact .inr ⟨m, value, hpiece, hvalue, hc⟩
  · rintro (hc | ⟨m, value, hm, hvalue, hc⟩)
    · exact ⟨.inl c, hc, List.mem_singleton.mpr rfl⟩
    · refine ⟨.inr m, hm, ?_⟩
      rw [Sum.elim_inr, hvalue]
      exact hc

theorem mem_of_inl_mem_find {c : Char} (h : .inl c ∈ find re s) : c ∈ s := by
  rw [← flatMap_find re s]
  exact List.mem_flatMap.mpr ⟨.inl c, h, List.mem_singleton.mpr rfl⟩

end Replace

end Regex
end Lib
end Configd
