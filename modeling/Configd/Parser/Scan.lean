import Configd.Parser.Lexer
import Mathlib.Data.List.TakeWhile

/-!
# Tokens and characters

`Lexes` relates characters and the tokens the lexer makes of them.  A line break ends
every token, and white space every token that is neither quoted nor a comment; so the
tokens of a text are those of its lines (`scan_line`).
-/

namespace Configd.Parser

open Lib

/-- The characters are cut into these tokens, without an error. -/
inductive Lexes (u : Unicode) : List Char → List (TokenType × String) → Prop
  | done {cs rest : List Char} (hscan : scan u cs = (some (.tokenEOF, ""), rest)) : Lexes u cs []
  | token {cs rest : List Char} {k : TokenType × String} {ks : List (TokenType × String)}
      (hscan : scan u cs = (some k, rest)) (hk : k.1 ≠ .tokenEOF) (hrest : Lexes u rest ks) :
      Lexes u cs (k :: ks)

/-! ## Where a token ends -/

section Append

variable {α : Type} {p : α → Bool} {r : List α} (hr : ∀ a ∈ r.head?, p a = false)

include hr

theorem takeWhile_append_stop (xs : List α) : (xs ++ r).takeWhile p = xs.takeWhile p := by
  induction xs with
  | nil =>
    cases r with
    | nil => rfl
    | cons a r => simp [hr a rfl]
  | cons x xs ih =>
    rw [List.cons_append, List.takeWhile_cons, List.takeWhile_cons, ih]

theorem dropWhile_append_stop (xs : List α) : (xs ++ r).dropWhile p = xs.dropWhile p ++ r := by
  induction xs with
  | nil =>
    cases r with
    | nil => rfl
    | cons a r => simp [hr a rfl]
  | cons x xs ih =>
    rw [List.cons_append, List.dropWhile_cons, List.dropWhile_cons, ih]
    split <;> rfl

end Append

theorem scanHere_append (u : Unicode) {c : Char} {w r : List Char} (hc : c ≠ '\n')
    (hr : ∀ d ∈ r.head?, Strings.isSpace d = true) (hquote : c = '"' → ∀ d ∈ r.head?, d = '\n') :
    scanHere u (c :: w ++ r) = ((scanHere u (c :: w)).1, (scanHere u (c :: w)).2 ++ r) := by
  have hident : ∀ d ∈ r.head?, isIdentifierChar u d = false :=
    fun d hd => not_isIdentifierChar_of_isSpace u (hr d hd)
  have hspace : ∀ d ∈ r.head?, (!Strings.isSpace d) = false :=
    fun d hd => by rw [hr d hd]; rfl
  simp only [scanHere, List.cons_append, hc, if_false]
  split
  · split
    · rw [takeWhile_append_stop hident, dropWhile_append_stop hident]
    · rw [← List.cons_append, takeWhile_append_stop hident, dropWhile_append_stop hident]
  · split
    · split
      · rename_i hq
        have hbreak : ∀ d ∈ r.head?, (d ≠ '"' && d ≠ '\n') = false :=
          fun d hd => by rw [hquote hq d hd]; rfl
        rw [takeWhile_append_stop hbreak, dropWhile_append_stop hbreak]
        cases w.dropWhile (fun c => c ≠ '"' && c ≠ '\n') with
        | nil =>
          have hhead : r.head? ≠ some '"' := by
            intro h
            exact absurd (hquote hq '"' h) (by decide)
          simp [hhead]
        | cons d after =>
          by_cases hd : d = '"' <;> simp [hd]
      · rw [← List.cons_append, takeWhile_append_stop hspace, dropWhile_append_stop hspace]
    · rfl

/-! ## The types of tokens -/

theorem lookupKeyword_not_isStop (u : Unicode) (ident : String) :
    lookupKeyword u ident ≠ .tokenEOF ∧ lookupKeyword u ident ≠ .tokenNewline ∧
      lookupKeyword u ident ≠ .tokenError ∧ lookupKeyword u ident ≠ .tokenString := by
  have hkeywords : ∀ e ∈ keywords, e.2 ≠ .tokenEOF ∧ e.2 ≠ .tokenNewline ∧ e.2 ≠ .tokenError ∧
      e.2 ≠ .tokenString := by decide
  unfold lookupKeyword
  cases hlookup : keywords.lookup (toUpper u ident) with
  | none => simp
  | some type =>
    obtain ⟨l₁, l₂, hmem, -⟩ := List.lookup_eq_some_iff.mp hlookup
    exact hkeywords (toUpper u ident, type) (by rw [hmem]; simp)

variable {u : Unicode}

theorem toUpper_of_lookupKeyword {ident : String} {type : TokenType}
    (h : lookupKeyword u ident = type) (htype : type ≠ .tokenIdentifier) :
    toUpper u ident = type.text := by
  have hkeywords : ∀ e ∈ keywords, e.1 = e.2.text := by decide
  unfold lookupKeyword at h
  cases hlookup : keywords.lookup (toUpper u ident) with
  | none =>
    rw [hlookup] at h
    exact absurd h.symm htype
  | some found =>
    rw [hlookup] at h
    obtain ⟨l₁, l₂, hmem, -⟩ := List.lookup_eq_some_iff.mp hlookup
    have hfound := hkeywords (toUpper u ident, found) (by rw [hmem]; simp)
    rw [← h]
    exact hfound

variable {rest : List Char} {k : TokenType × String}

theorem scanHere_type {c : Char} {w : List Char}
    (hc : c ≠ '\n') (h : scanHere u (c :: w) = (some k, rest)) :
    k.1 ≠ .tokenEOF ∧ k.1 ≠ .tokenNewline ∧ k.1 ≠ .tokenError := by
  have hkeyword : ∀ ident, (lookupKeyword u ident ≠ .tokenEOF ∧
      lookupKeyword u ident ≠ .tokenNewline ∧ lookupKeyword u ident ≠ .tokenError) :=
    fun ident => ⟨(lookupKeyword_not_isStop u ident).1, (lookupKeyword_not_isStop u ident).2.1,
      (lookupKeyword_not_isStop u ident).2.2.1⟩
  simp only [scanHere, hc, if_false] at h
  split at h
  · split at h
    · rw [← Option.some.inj (Prod.mk.inj h).1]
      exact hkeyword _
    · rw [← Option.some.inj (Prod.mk.inj h).1]
      exact hkeyword _
  · split at h
    · split at h
      · rw [← Option.some.inj (Prod.mk.inj h).1]
        simp
      · rw [← Option.some.inj (Prod.mk.inj h).1]
        simp
    · cases (Prod.mk.inj h).1

/-! ## A token takes characters -/

theorem scanHere_length {c : Char} {w : List Char}
    {k : Option (TokenType × String)} (h : scanHere u (c :: w) = (k, rest)) :
    rest.length ≤ w.length := by
  have hdrop : ∀ p : Char → Bool, p c = true → ((c :: w).dropWhile p).length ≤ w.length := by
    intro p hp
    rw [List.dropWhile_cons, if_pos hp]
    exact List.length_dropWhile_le _ _
  simp only [scanHere] at h
  split at h
  · rw [← (Prod.mk.inj h).2]
  · split at h
    · rename_i hstart
      split at h
      · rw [← (Prod.mk.inj h).2]
        exact List.length_dropWhile_le _ _
      · rename_i hbang
        rw [← (Prod.mk.inj h).2]
        refine hdrop _ ?_
        simp only [isIdentifierStart, hbang, decide_false, Bool.or_false, Bool.or_eq_true] at hstart
        rcases hstart with hletter | hunder
        · simp [isIdentifierChar, hletter]
        · simp [isIdentifierChar, hunder]
    · split at h
      · rename_i hstring
        split at h
        · rw [← (Prod.mk.inj h).2]
          split
          · rw [List.length_tail]
            exact (Nat.sub_le _ _).trans (List.length_dropWhile_le _ _)
          · exact List.length_dropWhile_le _ _
        · rename_i hquote
          rw [← (Prod.mk.inj h).2]
          refine hdrop _ ?_
          cases hspace : Strings.isSpace c with
          | false => rfl
          | true =>
            rw [not_isDigit_of_isSpace u hspace] at hstring
            have hother : c ≠ '/' ∧ c ≠ '.' := by
              constructor <;> rintro rfl <;> exact absurd hspace (by decide)
            simp [hother, hquote] at hstring
      · rw [← (Prod.mk.inj h).2]

theorem scanHere_subset (u : Unicode) (cs : List Char) : (scanHere u cs).2 ⊆ cs := by
  cases cs with
  | nil => simp [scanHere]
  | cons c w =>
    have hdrop : ∀ p : Char → Bool, w.dropWhile p ⊆ c :: w :=
      fun p => ((List.dropWhile_sublist p).trans (List.sublist_cons_self c w)).subset
    simp only [scanHere]
    split
    · exact List.subset_cons_self c w
    · split
      · split
        · exact hdrop _
        · exact (List.dropWhile_sublist _).subset
      · split
        · split
          · simp only
            split
            · exact fun d hd => hdrop _ (List.mem_of_mem_tail hd)
            · exact hdrop _
          · exact (List.dropWhile_sublist _).subset
        · exact List.subset_cons_self c w

theorem scan_length {cs : List Char}
    (h : scan u cs = (some k, rest)) (hk : k.1 ≠ .tokenEOF) : rest.length < cs.length := by
  have hhere : ∀ cs' : List Char, cs'.length ≤ cs.length → scanHere u cs' = (some k, rest) →
      rest.length < cs.length := by
    intro cs' hle h
    cases cs' with
    | nil =>
      cases (Prod.mk.inj h).1
      exact absurd rfl hk
    | cons c w =>
      have hshort := scanHere_length h
      simp only [List.length_cons] at hle
      omega
  simp only [scan] at h
  split at h
  · exact hhere _ ((List.length_dropWhile_le _ _).trans
      ((List.length_dropWhile_le _ _).trans (List.length_dropWhile_le _ _))) h
  · exact hhere _ (List.length_dropWhile_le _ _) h

theorem scan_type_ne_error {cs : List Char}
    (h : scan u cs = (some k, rest)) : k.1 ≠ .tokenError := by
  have hhere : ∀ cs' : List Char, scanHere u cs' = (some k, rest) → k.1 ≠ .tokenError := by
    intro cs' h
    cases cs' with
    | nil =>
      cases (Prod.mk.inj h).1
      decide
    | cons c w =>
      by_cases hc : c = '\n'
      · simp only [scanHere, hc, if_true, Prod.mk.injEq, Option.some.injEq] at h
        rw [← h.1]
        decide
      · exact (scanHere_type hc h).2.2
  simp only [scan] at h
  split at h
  · exact hhere _ h
  · exact hhere _ h

namespace Lexer

variable {u : Unicode} {l : Lexer} {rest : List Char}

theorem tokens_none (hscan : scan u l.input = (none, rest)) (fuel : Nat) :
    ∃ t : Token, t.type = .tokenError ∧ l.tokens u (fuel + 1) = [t] := by
  have hnext := (Prod.mk.inj ((nextToken_scan u l).trans hscan)).1
  rw [tokens]
  cases h : l.nextToken u with
  | mk result l' =>
    rw [h] at hnext
    cases result with
    | error err => exact ⟨_, rfl, rfl⟩
    | ok tok => cases hnext

theorem tokens_some (hscan : scan u l.input = (some k, rest))
    (fuel : Nat) :
    ∃ (t : Token) (l' : Lexer), t.kind = k ∧ l'.input = rest ∧
      l.tokens u (fuel + 1) = if k.1 = .tokenEOF then [t] else t :: l'.tokens u fuel := by
  have hnext := Prod.mk.inj ((nextToken_scan u l).trans hscan)
  rw [tokens]
  cases h : l.nextToken u with
  | mk result l' =>
    rw [h] at hnext
    cases result with
    | error err => cases hnext.1
    | ok tok =>
      have hkind : tok.kind = k := Option.some.inj hnext.1
      refine ⟨tok, l', hkind, hnext.2, ?_⟩
      rw [← hkind]
      rfl

end Lexer

/-! ## Lines -/

theorem scan_line (u : Unicode) {line : List Char} (hline : '\n' ∉ line) (rest : List Char) :
    (scan u line = (some (.tokenEOF, ""), []) ∧
      scan u (line ++ '\n' :: rest) = (some (.tokenNewline, "\n"), rest)) ∨
    ∃ k line', scan u line = (k, line') ∧
      scan u (line ++ '\n' :: rest) = (k, line' ++ '\n' :: rest) ∧ '\n' ∉ line' ∧
      ∀ kind, k = some kind →
        kind.1 ≠ .tokenEOF ∧ kind.1 ≠ .tokenNewline ∧ kind.1 ≠ .tokenError := by
  have hblank : ∀ d ∈ ('\n' :: rest).head?, isBlank d = false := by
    rintro d ⟨⟩
    rfl
  have hbreak : ∀ d ∈ ('\n' :: rest).head?, decide (d ≠ '\n') = false := by
    rintro d ⟨⟩
    rfl
  simp only [scan, dropWhile_append_stop hblank]
  have hsub : ∀ c ∈ line.dropWhile isBlank, c ≠ '\n' := by
    rintro c hc rfl
    exact hline ((List.dropWhile_sublist _).subset hc)
  revert hsub
  cases line.dropWhile isBlank with
  | nil =>
    intro _
    exact Or.inl ⟨rfl, rfl⟩
  | cons c w =>
    intro hsub
    by_cases hcomment : c = '#'
    · -- A comment takes the rest of the line.
      have hskip : (c :: w).dropWhile (· ≠ '\n') = [] := by
        rw [List.dropWhile_eq_nil_iff]
        intro d hd
        simp [hsub d hd]
      left
      rw [if_pos (by simp [hcomment]), if_pos (by simp [hcomment]),
        dropWhile_append_stop hbreak, hskip]
      exact ⟨rfl, rfl⟩
    · right
      rw [if_neg (by simp [hcomment]), if_neg (by simp [hcomment])]
      have hspace : ∀ d ∈ ('\n' :: rest).head?, Strings.isSpace d = true := by
        rintro d ⟨⟩
        decide
      refine ⟨_, _, rfl, ?_, ?_, ?_⟩
      · refine scanHere_append u (hsub c (by simp)) hspace ?_
        rintro - d ⟨⟩
        rfl
      · intro hmem
        exact hsub '\n' (scanHere_subset u (c :: w) hmem) rfl
      · intro kind hkind
        exact scanHere_type (hsub c (by simp)) (Prod.ext hkind rfl)

/-- A token that is no string: an identifier or a keyword. -/
def IsName (u : Unicode) (k : TokenType × String) : Prop :=
  k.1 = lookupKeyword u k.2 ∧ ∀ d ∈ k.2.toList, isIdentifierChar u d = true ∨ d = '!'

theorem scanHere_isName {c : Char} {w : List Char}
    (hc : c ≠ '\n') (h : scanHere u (c :: w) = (some k, rest)) (hk : k.1 ≠ .tokenString) :
    IsName u k := by
  have htake : ∀ (cs : List Char) d, d ∈ cs.takeWhile (isIdentifierChar u) →
      isIdentifierChar u d = true := fun cs d hd => List.mem_takeWhile_imp hd
  simp only [scanHere, hc, if_false] at h
  split at h
  · split at h
    · rw [← Option.some.inj (Prod.mk.inj h).1]
      dsimp only [IsName]
      refine ⟨rfl, ?_⟩
      intro d hd
      rcases List.mem_cons.mp (by simpa using hd) with rfl | hd
      · exact Or.inr rfl
      · exact Or.inl (htake _ d hd)
    · rw [← Option.some.inj (Prod.mk.inj h).1]
      dsimp only [IsName]
      refine ⟨rfl, ?_⟩
      intro d hd
      exact Or.inl (htake _ d (by simpa using hd))
  · split at h
    · split at h
      · exact absurd (by rw [← Option.some.inj (Prod.mk.inj h).1]) hk
      · exact absurd (by rw [← Option.some.inj (Prod.mk.inj h).1]) hk
    · cases (Prod.mk.inj h).1

/-- **The tokens of a line** are neither line breaks nor errors, and all but strings are
names. -/
theorem Lexes.kinds {cs : List Char} {ks : List (TokenType × String)}
    (h : Lexes u cs ks) (hcs : '\n' ∉ cs) :
    ∀ k ∈ ks, (k.1 ≠ .tokenEOF ∧ k.1 ≠ .tokenNewline ∧ k.1 ≠ .tokenError) ∧
      (k.1 ≠ .tokenString → IsName u k) := by
  induction h with
  | done => simp
  | @token cs rest k ks hscan hk _ ih =>
    rcases scan_line u hcs [] with ⟨hend, -⟩ | ⟨k', rest', hscan', -, hrest, htype⟩
    · rw [hscan] at hend
      cases (Prod.mk.inj hend).1
      exact absurd rfl hk
    · rw [hscan] at hscan'
      obtain ⟨rfl, rfl⟩ := Prod.mk.inj hscan'
      intro k' hk'
      rcases List.mem_cons.mp hk' with rfl | hk'
      · refine ⟨htype k' rfl, ?_⟩
        -- The token stands after white space, and it is no comment.
        simp only [scan] at hscan
        split at hscan
        · rename_i hcomment
          have hskip : (cs.dropWhile isBlank).dropWhile (· ≠ '\n') = [] := by
            rw [List.dropWhile_eq_nil_iff]
            intro d hd
            have hne : d ≠ '\n' := by
              rintro rfl
              exact hcs ((List.dropWhile_sublist _).subset hd)
            simp [hne]
          rw [hskip] at hscan
          cases (Prod.mk.inj hscan).1
          exact absurd rfl hk
        · revert hscan
          cases hdrop : cs.dropWhile isBlank with
          | nil =>
            intro hscan
            cases (Prod.mk.inj hscan).1
            exact absurd rfl hk
          | cons c w =>
            intro hscan
            refine scanHere_isName ?_ hscan
            rintro rfl
            exact hcs ((List.dropWhile_sublist isBlank).subset (by rw [hdrop]; simp))
      · exact ih hrest k' hk'

end Configd.Parser
