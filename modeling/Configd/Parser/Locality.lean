import Configd.Parser.Parser

/-!
# Directives end with their line

No parsing function of a directive looks beyond the end of its line.  So what a line does
can be told from the tokens of the line alone: on a line `l` that is followed by a token
the line stops at, a function gives the same as on `l` by itself, and it leaves the
position on the line or at its end.

The errors may differ: they name the line number of the token after the line.
-/

namespace Configd.Parser

open Lib

/-! ## Lines of tokens -/

/-- Tokens of one line. -/
def Plain (l : List Token) : Prop :=
  ∀ t ∈ l, t.type.isStop = false

/-- The position is at the end of a line. -/
def Stopped (s : List Token) : Prop :=
  ∃ t rest, s = t :: rest ∧ t.type.isStop = true

theorem plain_nil : Plain [] := by
  simp [Plain]

variable {t : Token} {l : List Token}

theorem plain_cons :
    Plain (t :: l) ↔ t.type.isStop = false ∧ Plain l := by
  simp [Plain]

@[simp] theorem current_cons (t : Token) (l : List Token) : current (t :: l) = t := rfl

@[simp] theorem current_nil : current [] = { type := .tokenEOF } := rfl

theorem not_isEnd_of_not_isStop {type : TokenType} (h : type.isStop = false) :
    type.isEnd = false := by
  simp only [TokenType.isStop, Bool.or_eq_false_iff] at h
  exact h.2

theorem ne_newline_of_not_isStop {type : TokenType} (h : type.isStop = false) :
    type ≠ .tokenNewline := by
  rintro rfl
  exact absurd h (by decide)

theorem advance_cons (ht : t.type.isStop = false) (l : List Token) :
    advance (t :: l) = l := by
  simp [advance, not_isEnd_of_not_isStop ht]

variable {s : List Token}

theorem current_type_ne (hs : Stopped s) (type : TokenType)
    (htype : type.isStop = false) : (current s).type ≠ type := by
  obtain ⟨t, rest, rfl, ht⟩ := hs
  rintro rfl
  rw [current_cons] at htype
  rw [htype] at ht
  cases ht

theorem newline_or_end (hs : Stopped s) :
    (isAtNewline s || isAtEnd s) = true := by
  obtain ⟨t, rest, rfl, ht⟩ := hs
  exact ht

theorem not_newline_or_end (ht : t.type.isStop = false) (l : List Token) :
    isAtNewline (t :: l) = false ∧ isAtEnd (t :: l) = false := by
  simp [isAtNewline, isAtEnd, ne_newline_of_not_isStop ht, not_isEnd_of_not_isStop ht]

theorem skipToNewline_append (hl : Plain l) (hs : Stopped s) :
    skipToNewline (l ++ s) = s := by
  obtain ⟨t, rest, rfl, ht⟩ := hs
  unfold skipToNewline
  rw [List.dropWhile_append_of_pos (by intro t' ht'; simp [hl t' ht']), List.dropWhile_cons]
  simp [ht]

/-! ## Paths, values and names -/

/-- A reading of the line, and of the line with what follows it. -/
structure ReadsAlike {α : Type} (p q : α × List Token) (s : List Token) : Prop where
  value : p.1 = q.1
  plain : Plain q.2
  rest : p.2 = q.2 ++ s

theorem readPath_alike (hl : Plain l) (hs : Stopped s) :
    ReadsAlike (readPath (l ++ s)) (readPath l) s := by
  cases l with
  | nil =>
    have hstop : readPath s = ("", s) := by simp [readPath, newline_or_end hs]
    rw [List.nil_append, hstop]
    exact ⟨rfl, plain_nil, rfl⟩
  | cons t l =>
    obtain ⟨ht, hl⟩ := plain_cons.mp hl
    simp only [readPath, List.cons_append, not_newline_or_end ht, current_cons, advance_cons ht,
      Bool.or_self, Bool.false_eq_true, if_false]
    by_cases hslash : startsWithSlash t = true
    · simp only [hslash, if_true]
      exact ⟨rfl, hl, rfl⟩
    · simp only [hslash, if_false, Bool.false_eq_true]
      by_cases hident : t.type = .tokenIdentifier
      · simp only [hident, if_true]
        cases l with
        | nil =>
          have hend : (!isAtNewline s && !isAtEnd s) = false := by
            have := newline_or_end hs
            revert this
            cases isAtNewline s <;> cases isAtEnd s <;> simp
          simp only [List.nil_append, hend, Bool.false_and, Bool.false_eq_true, if_false]
          exact ⟨rfl, plain_nil, rfl⟩
        | cons t' l =>
          obtain ⟨ht', hl'⟩ := plain_cons.mp hl
          simp only [List.cons_append, not_newline_or_end ht', current_cons, advance_cons ht',
            Bool.not_false, Bool.true_and]
          split
          · exact ⟨rfl, hl', rfl⟩
          · exact ⟨rfl, hl, rfl⟩
      · simp only [hident, if_false]
        split
        · exact ⟨rfl, hl, rfl⟩
        · exact ⟨rfl, plain_cons.mpr ⟨ht, hl⟩, rfl⟩

theorem advance_length_le (l : List Token) : (advance l).length ≤ l.length := by
  cases l with
  | nil => rfl
  | cons t l =>
    simp only [advance]
    split <;> simp

theorem readPath_length_le (l : List Token) : (readPath l).2.length ≤ l.length := by
  unfold readPath
  split
  · exact Nat.le_refl _
  · split
    · exact advance_length_le l
    · split
      · simp only
        split
        · exact (advance_length_le _).trans (advance_length_le l)
        · exact advance_length_le l
      · split
        · exact advance_length_le l
        · exact Nat.le_refl _

theorem lookupPart_alike (type : LookupType) (hl : Plain l) (hs : Stopped s) :
    ReadsAlike (lookupPart type (l ++ s)) (lookupPart type l) s := by
  cases l with
  | nil =>
    simp only [lookupPart, List.nil_append, current_type_ne hs .tokenIdentifier rfl,
      current_nil, if_false, reduceCtorEq]
    exact ⟨rfl, plain_nil, rfl⟩
  | cons t l =>
    obtain ⟨ht, hl⟩ := plain_cons.mp hl
    simp only [lookupPart, List.cons_append, current_cons, advance_cons ht]
    split
    · exact ⟨rfl, hl, rfl⟩
    · exact ⟨rfl, plain_cons.mpr ⟨ht, hl⟩, rfl⟩

theorem lookupPart_length_le (type : LookupType) (l : List Token) :
    (lookupPart type l).2.length ≤ l.length := by
  unfold lookupPart
  split
  · exact advance_length_le l
  · exact Nat.le_refl _

theorem valuePart_stopped (hs : Stopped s) : valuePart s = none := by
  obtain ⟨t, rest, rfl, ht⟩ := hs
  unfold valuePart
  rw [current_cons]
  revert ht
  cases t.type <;> simp [TokenType.isStop, TokenType.isEnd]

theorem valuePart_alike (hl : Plain (t :: l)) (hs : Stopped s) :
    (valuePart (t :: l ++ s) = none ∧ valuePart (t :: l) = none) ∨
      ∃ p q, valuePart (t :: l ++ s) = some p ∧ valuePart (t :: l) = some q ∧ ReadsAlike p q s ∧
        q.2.length ≤ l.length := by
  obtain ⟨ht, hl⟩ := plain_cons.mp hl
  have hlookup : ∀ type, ReadsAlike (lookupPart type (l ++ s)) (lookupPart type l) s ∧
      (lookupPart type l).2.length ≤ l.length := fun type =>
    ⟨lookupPart_alike type hl hs, lookupPart_length_le type l⟩
  unfold valuePart
  simp only [List.cons_append, current_cons, advance_cons ht]
  cases t.type with
  | tokenVar => exact Or.inr ⟨_, _, rfl, rfl, hlookup .var⟩
  | tokenLocal => exact Or.inr ⟨_, _, rfl, rfl, hlookup .localconfig⟩
  | tokenMaplocal => exact Or.inr ⟨_, _, rfl, rfl, hlookup .maplocal⟩
  | tokenFile =>
    have hpath := readPath_alike hl hs
    refine Or.inr ⟨_, _, rfl, rfl, ⟨?_, hpath.plain, hpath.rest⟩, readPath_length_le l⟩
    rw [hpath.value]
  | tokenIdentifier => exact Or.inr ⟨_, _, rfl, rfl, ⟨rfl, hl, rfl⟩, Nat.le_refl _⟩
  | tokenString => exact Or.inr ⟨_, _, rfl, rfl, ⟨rfl, hl, rfl⟩, Nat.le_refl _⟩
  | _ => exact Or.inl ⟨rfl, rfl⟩

theorem valueParts_alike (hs : Stopped s) :
    ∀ (n m : Nat) (l : List Token), Plain l → l.length ≤ n → l.length ≤ m →
      ReadsAlike (valueParts n (l ++ s)) (valueParts m l) s := by
  intro n
  induction n with
  | zero =>
    intro m l hl hn _
    obtain rfl : l = [] := List.length_eq_zero_iff.mp (Nat.le_zero.mp hn)
    cases m with
    | zero => exact ⟨rfl, plain_nil, rfl⟩
    | succ m => exact ⟨rfl, plain_nil, rfl⟩
  | succ n ih =>
    intro m l hl hn hm
    cases l with
    | nil =>
      have hnil : valueParts m [] = ([], []) := by cases m <;> rfl
      rw [hnil, List.nil_append, valueParts, valuePart_stopped hs]
      exact ⟨rfl, plain_nil, rfl⟩
    | cons t l =>
      cases m with
      | zero => exact absurd hm (by simp)
      | succ m =>
        rcases valuePart_alike hl hs with ⟨hp, hq⟩ | ⟨p, q, hp, hq, halike, hlen⟩
        · simp only [valueParts, hp, hq]
          exact ⟨rfl, hl, rfl⟩
        · have hrest := ih m q.2 halike.plain (by simp at hn; omega) (by simp at hm; omega)
          obtain ⟨parts, toks⟩ := p
          obtain ⟨parts', toks'⟩ := q
          obtain rfl : parts = parts' := halike.value
          obtain rfl : toks = toks' ++ s := halike.rest
          simp only [valueParts, hp, hq]
          refine ⟨?_, hrest.plain, hrest.rest⟩
          rw [hrest.value]

theorem parseValue_alike (hl : Plain l) (hs : Stopped s) :
    ReadsAlike (parseValue (l ++ s)) (parseValue l) s := by
  have hparts := valueParts_alike hs (l ++ s).length l.length l hl (by simp) (Nat.le_refl _)
  refine ⟨?_, hparts.plain, hparts.rest⟩
  simp only [parseValue, hparts.value]

theorem readNames_alike (hl : Plain l) (hs : Stopped s) (names : StrMap Bool) :
    ReadsAlike (readNames names (l ++ s)) (readNames names l) s := by
  induction l generalizing names with
  | nil =>
    obtain ⟨t, rest, rfl, ht⟩ := hs
    have hident : t.type ≠ .tokenIdentifier := by
      intro h
      rw [h] at ht
      exact absurd ht (by decide)
    simp only [List.nil_append, readNames, hident, if_false]
    exact ⟨rfl, plain_nil, rfl⟩
  | cons t l ih =>
    obtain ⟨ht, hl'⟩ := plain_cons.mp hl
    simp only [List.cons_append, readNames]
    split
    · exact ih hl' _
    · exact ⟨rfl, hl, rfl⟩

theorem readLookupKey_alike (cfgType : String) (exact : Bool) (hl : Plain l)
    (hs : Stopped s) :
    ReadsAlike (readLookupKey cfgType exact (l ++ s)) (readLookupKey cfgType exact l) s := by
  unfold readLookupKey
  split
  · exact readPath_alike hl hs
  · cases l with
    | nil =>
      simp only [List.nil_append, current_type_ne hs .tokenIdentifier rfl,
        current_type_ne hs .tokenString rfl, current_nil, reduceCtorEq, decide_false,
        Bool.or_self, Bool.false_eq_true, if_false]
      exact ⟨rfl, plain_nil, rfl⟩
    | cons t l =>
      obtain ⟨ht, hl⟩ := plain_cons.mp hl
      change ReadsAlike
        (if t.type = .tokenIdentifier || t.type = .tokenString then
          (t.literal, advance (t :: (l ++ s))) else ("", t :: (l ++ s)))
        (if t.type = .tokenIdentifier || t.type = .tokenString then
          (t.literal, advance (t :: l)) else ("", t :: l)) s
      rw [advance_cons ht, advance_cons ht]
      by_cases hkey : (decide (t.type = .tokenIdentifier) || decide (t.type = .tokenString)) = true
      · rw [if_pos hkey, if_pos hkey]
        exact ⟨rfl, hl, rfl⟩
      · rw [if_neg hkey, if_neg hkey]
        exact ⟨rfl, plain_cons.mpr ⟨ht, hl⟩, rfl⟩

theorem parseLiteralValue_alike (allowMapLocal : Bool)
    (hl : Plain (t :: l)) (hs : Stopped s) :
    ReadsAlike (parseLiteralValue allowMapLocal (t :: l ++ s))
      (parseLiteralValue allowMapLocal (t :: l)) s := by
  have hcases : ∀ rest : List Token, parseLiteralValue allowMapLocal (t :: rest) =
      if t.type = .tokenMaplocal && !allowMapLocal then
        (if (parseValue rest).1 = "" then t.literal
          else t.literal ++ " " ++ (parseValue rest).1, (parseValue rest).2)
      else parseValue (t :: rest) := by
    intro rest
    unfold parseLiteralValue
    rw [advance_cons (plain_cons.mp hl).1]
    rfl
  rw [List.cons_append, hcases, hcases]
  split
  · have hrest := parseValue_alike (plain_cons.mp hl).2 hs
    refine ⟨?_, hrest.plain, hrest.rest⟩
    rw [hrest.value]
  · exact parseValue_alike hl hs

/-! ## Directives -/

/-- A parsing function on the line, and on the line with what follows it: the same result,
the texts of errors apart, and the position is on the line. -/
structure ParsesAlike {α : Type} (p q : Parsed α) (s : List Token) : Prop where
  result : p.1.toOption = q.1.toOption
  rest : ∃ l, Plain l ∧ p.2 = l ++ s

variable {α : Type}

theorem parsesAlike_failAt (hl : Plain l) (l' : List Token)
    (message : String) :
    ParsesAlike (failAt (α := α) (l ++ s) message) (failAt (α := α) l' message) s :=
  ⟨rfl, l, hl, rfl⟩

theorem parsesAlike_skip (hl : Plain l) (hs : Stopped s) (a : α)
    (l' : List Token) : ParsesAlike (.ok a, skipToNewline (l ++ s)) (.ok a, l') s :=
  ⟨rfl, [], plain_nil, by rw [skipToNewline_append hl hs]; rfl⟩

theorem andThen_alike {β : Type} {f g : α → List Token → Parsed β} {p q : Parsed α}
    (h : ParsesAlike p q s)
    (hf : ∀ a l l', Plain l → ParsesAlike (f a (l ++ s)) (g a l') s) :
    ParsesAlike (andThen p f) (andThen q g) s := by
  obtain ⟨hresult, l, hl, hrest⟩ := h
  obtain ⟨_ | a, toks⟩ := p <;> obtain ⟨_ | a', toks'⟩ := q <;>
    simp only [Except.toOption, reduceCtorEq, Option.some.injEq] at hresult
  · exact ⟨rfl, l, hl, hrest⟩
  · obtain rfl := hresult
    obtain rfl : toks = l ++ s := hrest
    exact hf a l toks' hl

theorem withIdentifier_alike {f g : String → List Token → Parsed α} (errMsg : String)
    (hl : Plain l) (hs : Stopped s)
    (hf : ∀ name l, Plain l → ParsesAlike (f name (l ++ s)) (g name l) s) :
    ParsesAlike (withIdentifier errMsg (l ++ s) f) (withIdentifier errMsg l g) s := by
  cases l with
  | nil =>
    have hstop : withIdentifier errMsg s f = failAt s errMsg :=
      if_neg (current_type_ne hs _ rfl)
    rw [List.nil_append, hstop]
    exact parsesAlike_failAt plain_nil [] errMsg
  | cons t l =>
    obtain ⟨ht, hl'⟩ := plain_cons.mp hl
    have hcases : ∀ (f : String → List Token → Parsed α) rest,
        withIdentifier errMsg (t :: rest) f =
          if t.type = .tokenIdentifier then f t.literal rest
          else failAt (t :: rest) errMsg := by
      intro f rest
      unfold withIdentifier
      rw [advance_cons ht]
      rfl
    rw [List.cons_append, hcases, hcases]
    split
    · exact hf t.literal l hl'
    · exact parsesAlike_failAt hl (t :: l) errMsg

theorem parsesAlike_of_reads {β : Type} {p q : α × List Token}
    (hs : Stopped s) (h : ReadsAlike p q s) (f : α → β) :
    ParsesAlike (.ok (f p.1), skipToNewline p.2) (.ok (f q.1), skipToNewline q.2) s := by
  rw [h.value, h.rest]
  exact parsesAlike_skip h.plain hs _ _

theorem parseRequiredVarDirective_alike (type : LookupType) (errMsg : String)
    (sec : MtaConfigSection) (hl : Plain (t :: l))
    (hs : Stopped s) :
    ParsesAlike (parseRequiredVarDirective type errMsg sec (t :: l ++ s))
      (parseRequiredVarDirective type errMsg sec (t :: l)) s := by
  obtain ⟨ht, hl⟩ := plain_cons.mp hl
  unfold parseRequiredVarDirective
  rw [List.cons_append, advance_cons ht, advance_cons ht]
  refine withIdentifier_alike errMsg hl hs ?_
  intro name l hl
  exact parsesAlike_skip hl hs _ _

theorem parsePostconfValue_cons (directive : String) (allowMapLocal : Bool)
    (ht : t.type.isStop = false) (rest : List Token) :
    parsePostconfValue directive allowMapLocal (t :: rest) =
      match lookupType allowMapLocal t with
      | none =>
        (.ok ((parseLiteralValue allowMapLocal (t :: rest)).1, {}),
          (parseLiteralValue allowMapLocal (t :: rest)).2)
      | some cfgType =>
        let exact := t.type ≠ .tokenIdentifier && t.type ≠ .tokenString
        let key := readLookupKey cfgType exact rest
        if key.1 = "" then
          (.error ("expected key after " ++ cfgType ++ " in " ++ directive ++ " at line " ++
            toString t.line), key.2)
        else (.ok (formatLookup cfgType key.1 exact, ⟨key.1, cfgType⟩), key.2) := by
  unfold parsePostconfValue
  rw [(not_newline_or_end ht rest).1, (not_newline_or_end ht rest).2, advance_cons ht]
  rfl

theorem parsePostconfValue_alike (directive : String) (allowMapLocal : Bool)
    (hl : Plain l) (hs : Stopped s) :
    ParsesAlike (parsePostconfValue directive allowMapLocal (l ++ s))
      (parsePostconfValue directive allowMapLocal l) s := by
  cases l with
  | nil =>
    have hstop : parsePostconfValue directive allowMapLocal s = (.ok ("", {}), s) :=
      if_pos (newline_or_end hs)
    rw [List.nil_append, hstop]
    exact ⟨rfl, [], plain_nil, rfl⟩
  | cons t l =>
    obtain ⟨ht, hl'⟩ := plain_cons.mp hl
    rw [List.cons_append, parsePostconfValue_cons _ _ ht, parsePostconfValue_cons _ _ ht]
    cases lookupType allowMapLocal t with
    | none =>
      have hvalue := parseLiteralValue_alike allowMapLocal hl hs
      simp only [List.cons_append] at hvalue
      refine ⟨?_, _, hvalue.plain, hvalue.rest⟩
      simp only [hvalue.value]
    | some cfgType =>
      simp only
      have hkey := readLookupKey_alike cfgType
        (t.type ≠ .tokenIdentifier && t.type ≠ .tokenString) hl' hs
      rw [hkey.value]
      split
      · exact ⟨rfl, _, hkey.plain, hkey.rest⟩
      · exact ⟨rfl, _, hkey.plain, hkey.rest⟩

theorem parsePostconfLine_alike (directive : String) (allowMapLocal : Bool)
    (hl : Plain (t :: l)) (hs : Stopped s) :
    ParsesAlike (parsePostconfLine directive allowMapLocal (t :: l ++ s))
      (parsePostconfLine directive allowMapLocal (t :: l)) s := by
  obtain ⟨ht, hl⟩ := plain_cons.mp hl
  unfold parsePostconfLine
  rw [List.cons_append, advance_cons ht, advance_cons ht]
  refine withIdentifier_alike _ hl hs ?_
  intro key l hl
  refine andThen_alike (parsePostconfValue_alike directive allowMapLocal hl hs) ?_
  intro value l l' hl
  exact ⟨rfl, l, hl, rfl⟩

theorem postconf_alike (directive : String) (allowMapLocal : Bool)
    (f : PostconfLine → α) (hl : Plain (t :: l))
    (hs : Stopped s) :
    ParsesAlike
      (andThen (parsePostconfLine directive allowMapLocal (t :: l ++ s)) fun line toks =>
        (.ok (f line), skipToNewline toks))
      (andThen (parsePostconfLine directive allowMapLocal (t :: l)) fun line toks =>
        (.ok (f line), skipToNewline toks)) s := by
  refine andThen_alike (parsePostconfLine_alike directive allowMapLocal hl hs) ?_
  intro line l l' hl
  exact parsesAlike_skip hl hs _ _

theorem modeValue_alike (store : String → MtaConfigSection) (hl : Plain l)
    (hs : Stopped s) :
    ParsesAlike
      (if (current (l ++ s)).type = .tokenString || (current (l ++ s)).type = .tokenIdentifier then
        (.ok (store (current (l ++ s)).literal), skipToNewline (advance (l ++ s)))
      else failAt (l ++ s) "expected mode value at line ")
      (if (current l).type = .tokenString || (current l).type = .tokenIdentifier then
        (.ok (store (current l).literal), skipToNewline (advance l))
      else failAt l "expected mode value at line ") s := by
  cases l with
  | nil =>
    have hstring := current_type_ne hs .tokenString rfl
    have hident := current_type_ne hs .tokenIdentifier rfl
    rw [List.nil_append, if_neg (by simp [hstring, hident]), if_neg (by simp)]
    exact parsesAlike_failAt (l := []) plain_nil [] _
  | cons v l =>
    obtain ⟨hv, hl'⟩ := plain_cons.mp hl
    rw [List.cons_append, current_cons, current_cons, advance_cons hv, advance_cons hv]
    split
    · exact parsesAlike_skip hl' hs _ _
    · exact parsesAlike_failAt hl _ _

theorem parseRewrite_alike (sec : MtaConfigSection)
    (hl : Plain (t :: l)) (hs : Stopped s) :
    ParsesAlike (parseRewrite sec (t :: l ++ s)) (parseRewrite sec (t :: l)) s := by
  obtain ⟨ht, hl⟩ := plain_cons.mp hl
  unfold parseRewrite
  rw [List.cons_append, advance_cons ht, advance_cons ht]
  have hsource := readPath_alike hl hs
  simp only [hsource.value, hsource.rest]
  split
  · exact parsesAlike_failAt hsource.plain _ _
  · have hdest := readPath_alike hsource.plain hs
    simp only [hdest.value, hdest.rest]
    split
    · exact parsesAlike_failAt hdest.plain _ _
    · have hplain := hdest.plain
      revert hplain
      cases (readPath (readPath l).2).2 with
      | nil =>
        intro _
        rw [List.nil_append, if_neg (current_type_ne hs _ rfl), if_neg (by simp)]
        exact parsesAlike_skip (l := []) plain_nil hs _ _
      | cons m l =>
        intro hl
        obtain ⟨hm, hl'⟩ := plain_cons.mp hl
        rw [List.cons_append, current_cons, current_cons, advance_cons hm, advance_cons hm]
        by_cases hmode : m.type = .tokenMode
        · rw [if_pos hmode, if_pos hmode]
          exact modeValue_alike
            (fun mode => { sec with rewrites := sec.rewrites.insert _ ⟨_, mode⟩ })
            hl' hs
        · rw [if_neg hmode, if_neg hmode, ← List.cons_append]
          exact parsesAlike_skip hl hs _ _

theorem parseRestart_alike (sec : MtaConfigSection)
    (hl : Plain (t :: l)) (hs : Stopped s) :
    ParsesAlike (parseRestart sec (t :: l ++ s)) (parseRestart sec (t :: l)) s := by
  obtain ⟨ht, hl⟩ := plain_cons.mp hl
  unfold parseRestart
  rw [List.cons_append, advance_cons ht, advance_cons ht]
  exact parsesAlike_of_reads hs (readNames_alike hl hs sec.restarts)
    fun restarts => { sec with restarts := restarts }

theorem parseLdap_alike (sec : MtaConfigSection)
    (hl : Plain (t :: l)) (hs : Stopped s) :
    ParsesAlike (parseLdap sec (t :: l ++ s)) (parseLdap sec (t :: l)) s := by
  obtain ⟨ht, hl⟩ := plain_cons.mp hl
  unfold parseLdap
  rw [List.cons_append, advance_cons ht, advance_cons ht]
  refine withIdentifier_alike _ hl hs ?_
  intro key l hl
  exact parsesAlike_of_reads hs (parseValue_alike hl hs) fun value =>
    if isLdapLocalValue value then { sec with ldap := sec.ldap.insert key value } else sec

/-- **Directives end with their line.** -/
theorem parseDirective_alike (sec : MtaConfigSection)
    (hl : Plain (t :: l)) (hs : Stopped s) (hif : t.type ≠ .tokenIf) :
    ParsesAlike (parseDirective sec (t :: l ++ s)) (parseDirective sec (t :: l)) s := by
  have hplain := (plain_cons.mp hl)
  unfold parseDirective
  simp only [List.cons_append, current_cons]
  cases htype : t.type with
  | tokenRewrite => exact parseRewrite_alike sec hl hs
  | tokenVar => exact parseRequiredVarDirective_alike _ _ sec hl hs
  | tokenLocal => exact parseRequiredVarDirective_alike _ _ sec hl hs
  | tokenMapfile => exact parseRequiredVarDirective_alike _ _ sec hl hs
  | tokenMaplocal => exact parseRequiredVarDirective_alike _ _ sec hl hs
  | tokenPostconf => exact postconf_alike _ _ _ hl hs
  | tokenPostconfd => exact postconf_alike _ _ _ hl hs
  | tokenRestart => exact parseRestart_alike sec hl hs
  | tokenProxygen =>
    simp only [parseProxygen, advance_cons hplain.1]
    exact parsesAlike_skip hplain.2 hs _ _
  | tokenIf => exact absurd htype hif
  | tokenFi => exact parsesAlike_skip hl hs _ _
  | tokenIdentifier =>
    by_cases hldap : Strings.equalFold t.literal "LDAP" = true
    · simp only [hldap, if_true]
      exact parseLdap_alike sec hl hs
    · simp only [hldap, if_false, Bool.false_eq_true]
      exact parsesAlike_failAt hl _ _
  | _ => exact parsesAlike_failAt hl _ _

/-- Success leaves the position at the end of a line. -/
def EndsLine {α : Type} (p : Parsed α) : Prop :=
  ∀ a, p.1 = .ok a → ∃ toks, p.2 = skipToNewline toks

theorem endsLine_ok (a : α) (toks : List Token) :
    EndsLine (.ok a, skipToNewline toks) :=
  fun _ _ => ⟨toks, rfl⟩

theorem endsLine_failAt (toks : List Token) (message : String) :
    EndsLine (failAt (α := α) toks message) := by
  intro a h
  cases h

theorem withIdentifier_endsLine (errMsg : String) (toks : List Token)
    {f : String → List Token → Parsed α} (hf : ∀ name toks, EndsLine (f name toks)) :
    EndsLine (withIdentifier errMsg toks f) := by
  unfold withIdentifier
  split
  · exact hf _ _
  · exact endsLine_failAt _ _

theorem andThen_endsLine {β : Type} (p : Parsed α) {f : α → List Token → Parsed β}
    (hf : ∀ a toks, EndsLine (f a toks)) : EndsLine (andThen p f) := by
  obtain ⟨_ | a, toks⟩ := p
  · intro b h
    cases h
  · exact hf a toks

theorem parseRewrite_endsLine (sec : MtaConfigSection) (toks : List Token) :
    EndsLine (parseRewrite sec toks) := by
  simp only [parseRewrite]
  split
  · exact endsLine_failAt _ _
  · split
    · exact endsLine_failAt _ _
    · split
      · split
        · exact endsLine_ok _ _
        · exact endsLine_failAt _ _
      · exact endsLine_ok _ _

theorem parseDirective_endsLine (sec : MtaConfigSection) (l : List Token)
    (hif : t.type ≠ .tokenIf) : EndsLine (parseDirective sec (t :: l)) := by
  have hname : ∀ type errMsg, EndsLine (parseRequiredVarDirective type errMsg sec (t :: l)) :=
    fun type errMsg => withIdentifier_endsLine _ _ fun _ _ => endsLine_ok _ _
  unfold parseDirective
  simp only [current_cons]
  cases htype : t.type with
  | tokenRewrite => exact parseRewrite_endsLine sec _
  | tokenVar => exact hname _ _
  | tokenLocal => exact hname _ _
  | tokenMapfile => exact hname _ _
  | tokenMaplocal => exact hname _ _
  | tokenPostconf => exact andThen_endsLine _ fun _ _ => endsLine_ok _ _
  | tokenPostconfd => exact andThen_endsLine _ fun _ _ => endsLine_ok _ _
  | tokenRestart => exact endsLine_ok _ _
  | tokenProxygen => exact endsLine_ok _ _
  | tokenIf => exact absurd htype hif
  | tokenFi => exact endsLine_ok _ _
  | tokenIdentifier =>
    by_cases hldap : Strings.equalFold t.literal "LDAP" = true
    · simp only [hldap, if_true]
      exact withIdentifier_endsLine _ _ fun _ _ => endsLine_ok _ _
    · simp only [hldap, if_false, Bool.false_eq_true]
      exact endsLine_failAt _ _
  | _ => exact endsLine_failAt _ _

theorem EndsLine.line {p q : Parsed α} {rest : List Token} {a : α}
    (hends : EndsLine p) (halike : ParsesAlike p q s) (hs : Stopped s)
    (h : p = (.ok a, rest)) : rest = s ∧ q.1.toOption = some a := by
  subst h
  refine ⟨?_, halike.result.symm⟩
  obtain ⟨toks, hstop⟩ := hends a rfl
  obtain ⟨l, hl, hrest⟩ := halike.rest
  have hagain : skipToNewline rest = rest := by
    simp only at hstop
    rw [hstop]
    exact List.dropWhile_idempotent _ _
  simp only at hrest
  rw [← hagain, hrest, skipToNewline_append hl hs]

/-! ## Headers and the lines of blocks -/

theorem parseConditionalHeader_alike (hl : Plain (t :: l))
    (hs : Stopped s) :
    ParsesAlike (parseConditionalHeader (t :: l ++ s)) (parseConditionalHeader (t :: l)) s := by
  obtain ⟨ht, hl⟩ := plain_cons.mp hl
  cases l with
  | nil =>
    have hservice := current_type_ne hs .tokenService rfl
    have hvar := current_type_ne hs .tokenVar rfl
    unfold parseConditionalHeader
    rw [List.cons_append, List.nil_append, advance_cons ht, advance_cons ht,
      if_neg (by simp [hservice, hvar]), if_neg (by simp)]
    exact ⟨rfl, [], plain_nil, rfl⟩
  | cons c l =>
    obtain ⟨hc, hl'⟩ := plain_cons.mp hl
    have hcases : ∀ rest, parseConditionalHeader (t :: c :: rest) =
        if c.type = .tokenService || c.type = .tokenVar then
          withIdentifier "expected condition key at line " rest fun condKey toks =>
            (.ok ⟨if c.type = .tokenService then .service else .var,
              Strings.trimPrefix condKey "!", Strings.hasPrefix condKey "!"⟩, toks)
        else
          (.error ("expected SERVICE or VAR after IF at line " ++ toString c.line ++ ", got " ++
            c.type.text), c :: rest) := by
      intro rest
      simp only [parseConditionalHeader, advance_cons ht, advance_cons hc, current_cons]
    rw [List.cons_append, List.cons_append, hcases, hcases]
    split
    · refine withIdentifier_alike _ hl' hs ?_
      intro key l hl
      exact ⟨rfl, l, hl, rfl⟩
    · exact ⟨rfl, c :: l, hl, rfl⟩

theorem parseSectionHeader_alike (hl : Plain l) (hs : Stopped s) :
    ParsesAlike (parseSectionHeader (l ++ s)) (parseSectionHeader l) s := by
  unfold parseSectionHeader
  refine withIdentifier_alike _ hl hs ?_
  intro name l hl
  cases l with
  | nil =>
    simp only [List.nil_append]
    rw [if_neg (current_type_ne hs _ rfl), if_neg (by simp)]
    exact ⟨rfl, [], plain_nil, rfl⟩
  | cons d l =>
    obtain ⟨hd, hl'⟩ := plain_cons.mp hl
    simp only [List.cons_append]
    rw [current_cons, current_cons, advance_cons hd, advance_cons hd]
    by_cases hdepends : d.type = .tokenDepends
    · rw [if_pos hdepends, if_pos hdepends]
      have hnames := readNames_alike hl' hs ∅
      refine ⟨?_, _, hnames.plain, hnames.rest⟩
      simp only [hnames.value]
    · rw [if_neg hdepends, if_neg hdepends]
      exact ⟨rfl, d :: l, hl, rfl⟩

theorem parseConditionalLine_alike (cond : Conditional)
    (hl : Plain (t :: l)) (hs : Stopped s) :
    ParsesAlike (parseConditionalLine cond (t :: l ++ s)) (parseConditionalLine cond (t :: l))
      s := by
  obtain ⟨ht, hl'⟩ := plain_cons.mp hl
  have hvar : ParsesAlike (parseConditionalRequiredVar cond (t :: (l ++ s)))
      (parseConditionalRequiredVar cond (t :: l)) s := by
    have hcases : ∀ rest, parseConditionalRequiredVar cond (t :: rest) =
        let cfgType := if t.type = .tokenLocal then LookupType.localconfig else .var
        if (current rest).type = .tokenIdentifier then
          (.ok { cond with
            requiredVars := cond.requiredVars.insert (current rest).literal cfgType }, rest)
        else
          (.error ("expected variable name after " ++ cfgType.text ++ " at line " ++
            toString t.line), rest) := by
      intro rest
      unfold parseConditionalRequiredVar
      rw [advance_cons ht]
      rfl
    rw [hcases, hcases]
    cases l with
    | nil =>
      have hstop := current_type_ne hs .tokenIdentifier rfl
      refine ⟨?_, [], plain_nil, ?_⟩ <;> simp [hstop, Except.toOption]
    | cons v l =>
      by_cases hname : v.type = .tokenIdentifier
      · exact ⟨by simp [hname], v :: l, hl', by simp [hname]⟩
      · exact ⟨by simp [hname, Except.toOption], v :: l, hl', by simp [hname]⟩
  unfold parseConditionalLine
  simp only [List.cons_append, current_cons]
  cases t.type with
  | tokenPostconf => exact postconf_alike _ _ _ hl hs
  | tokenPostconfd => exact postconf_alike _ _ _ hl hs
  | tokenVar => exact hvar
  | tokenLocal => exact hvar
  | _ => exact parsesAlike_skip hl hs _ _

end Configd.Parser
