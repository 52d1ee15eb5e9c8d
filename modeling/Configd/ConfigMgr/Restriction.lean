import Configd.Lib.Fields
import Configd.Lib.OrdMap

/-!
# The block lists in `zimbraMtaRestriction`

The restriction is a sequence of words in which a block list is a keyword followed by the
list's domain.  For each kind of list, `processRBLPatterns` collects the domains in one scan
(`extractRBLMatches`) and takes the entries out of the text in a second one
(`removeRBLEntries`).

For the first scan the word after a keyword may be a keyword itself, for the second one it is
the domain and nothing else.  They agree unless the keyword comes twice in a row with a word
behind it (`repeats`), and only then no word is lost or comes up twice.
-/

namespace Configd

open Lib

/-- `configmgr.rblType`: the keyword of an entry and the key its domains are stored under. -/
structure RblType where
  pattern : String
  dataKey : String
  deriving DecidableEq, Repr

/-! ## The two scans -/

/-- The loop of `extractRBLMatches`, over all words but the last one. -/
def rblMatches (pattern : String) : List String → List String
  | word :: next :: rest =>
    if word = pattern then next :: rblMatches pattern (next :: rest)
    else rblMatches pattern (next :: rest)
  | _ => []

def extractRBLMatches (text pattern : String) : List String :=
  rblMatches pattern (Strings.fields text)

/-- The loop of `removeRBLEntries`, with its flag `skip`. -/
def keptWords (pattern : String) : Bool → List String → List String
  | _, [] => []
  | true, _ :: rest => keptWords pattern false rest
  | false, word :: rest =>
    -- The last word is kept, whatever it is.
    if word = pattern ∧ rest ≠ [] then keptWords pattern true rest
    else word :: keptWords pattern false rest

def removeRBLEntries (text pattern : String) : String :=
  Strings.join " " (keptWords pattern false (Strings.fields text))

/-- One turn of the loop of `processRBLPatterns`. -/
def processRBLPattern (acc : StrMap (List String) × String) (t : RblType) :
    StrMap (List String) × String :=
  (acc.1.insert t.dataKey (extractRBLMatches acc.2 t.pattern), removeRBLEntries acc.2 t.pattern)

/-- `processRBLPatterns`: the domains by data key, and the restriction without the entries. -/
def processRBLPatterns (restriction : String) (types : List RblType) :
    StrMap (List String) × String :=
  types.foldl processRBLPattern ({}, restriction)

/-- The kinds of block lists of a restriction. -/
def rblTypes : List RblType :=
  [⟨"reject_rbl_client", "zimbraMtaRestrictionRBLs"⟩,
    ⟨"reject_rhsbl_client", "zimbraMtaRestrictionRHSBLCs"⟩,
    ⟨"reject_rhsbl_sender", "zimbraMtaRestrictionRHSBLSs"⟩,
    ⟨"reject_rhsbl_reverse_client", "zimbraMtaRestrictionRHSBLRCs"⟩]

/-! ## What the scans should agree on -/

/-- The words without the entries of the pattern: the pattern and the word after it go. -/
def withoutEntries (pattern : String) : List String → List String
  | word :: next :: rest =>
    if word = pattern then withoutEntries pattern rest
    else word :: withoutEntries pattern (next :: rest)
  | [word] => [word]
  | [] => []

/-- The pattern comes twice in a row with a word after it. -/
def repeats (pattern : String) : List String → Bool
  | first :: second :: third :: rest =>
    (first = pattern && second = pattern) || repeats pattern (second :: third :: rest)
  | _ => false

/-- No pattern comes twice in a row with a word after it, once the entries of the patterns
before it are left out. -/
def EntriesSeparate : List String → List String → Prop
  | [], _ => True
  | pattern :: patterns, words =>
    repeats pattern words = false ∧ EntriesSeparate patterns (withoutEntries pattern words)

instance decidableEntriesSeparate :
    ∀ patterns words, Decidable (EntriesSeparate patterns words)
  | [], _ => inferInstanceAs (Decidable True)
  | pattern :: patterns, words =>
    have := decidableEntriesSeparate patterns (withoutEntries pattern words)
    inferInstanceAs (Decidable (repeats pattern words = false ∧
      EntriesSeparate patterns (withoutEntries pattern words)))

/-- The words that the matches of a pattern stand for. -/
def entryWords (pattern : String) (domains : List String) : List String :=
  domains.flatMap fun domain => [pattern, domain]

section Scans

variable (pattern : String)

theorem keptWords_eq (words : List String) :
    keptWords pattern false words = withoutEntries pattern words := by
  induction words using withoutEntries.induct pattern with
  | case1 next rest ih => simp [keptWords, withoutEntries, ih]
  | case2 word next rest hne ih =>
    rw [keptWords, if_neg fun h => hne h.1, ih, withoutEntries, if_neg hne]
  | case3 word => simp [keptWords, withoutEntries]
  | case4 => rfl

theorem withoutEntries_sublist (words : List String) :
    (withoutEntries pattern words).Sublist words := by
  induction words using withoutEntries.induct pattern with
  | case1 next rest ih =>
    rw [withoutEntries, if_pos rfl]
    exact (ih.cons next).cons pattern
  | case2 word next rest hne ih =>
    rw [withoutEntries, if_neg hne]
    exact ih.cons_cons word
  | case3 word => exact List.Sublist.refl _
  | case4 => exact List.Sublist.refl _

theorem rblMatches_cons {word : String} {rest : List String} (h : word = pattern → rest = []) :
    rblMatches pattern (word :: rest) = rblMatches pattern rest := by
  cases rest with
  | nil => rfl
  | cons next rest =>
    have hne : word ≠ pattern := fun heq => nomatch h heq
    rw [rblMatches, if_neg hne]

theorem length_rblMatches_le (word : String) (rest : List String) :
    (rblMatches pattern rest).length ≤ (rblMatches pattern (word :: rest)).length := by
  cases rest with
  | nil => exact Nat.zero_le _
  | cons next rest =>
    rw [rblMatches]
    split
    · simp
    · exact le_refl _

theorem repeats_cons_of_ne {word : String} (hne : word ≠ pattern) (rest : List String) :
    repeats pattern (word :: rest) = repeats pattern rest := by
  match rest with
  | [] => rfl
  | [_] => rfl
  | _ :: _ :: _ => simp [repeats, hne]

theorem repeats_entry (next : String) (rest : List String) :
    repeats pattern (pattern :: next :: rest) = true ↔
      (next = pattern ∧ rest ≠ []) ∨ repeats pattern rest = true := by
  by_cases hnext : next = pattern
  · subst hnext
    match rest with
    | [] => simp [repeats]
    | _ :: _ => simp [repeats]
  · match rest with
    | [] => simp [repeats]
    | third :: rest =>
      rw [repeats, repeats_cons_of_ne pattern hnext]
      simp [hnext]

/-- **Without a repetition the scans account for every word.** -/
theorem perm_matches_of_separate (words : List String) (h : repeats pattern words = false) :
    words.Perm (withoutEntries pattern words ++ entryWords pattern (rblMatches pattern words)) := by
  induction words using withoutEntries.induct pattern with
  | case1 next rest ih =>
    have hnot := mt (repeats_entry pattern next rest).mpr (by simp [h])
    rw [not_or] at hnot
    have hlast : next = pattern → rest = [] := fun heq => by
      by_contra hne
      exact hnot.1 ⟨heq, hne⟩
    have hrest := ih (by simpa using hnot.2)
    rw [withoutEntries, if_pos rfl, rblMatches, if_pos rfl, rblMatches_cons pattern hlast]
    calc pattern :: next :: rest
      _ = [pattern, next] ++ rest := rfl
      _ |>.Perm ([pattern, next] ++ (withoutEntries pattern rest ++
            entryWords pattern (rblMatches pattern rest))) := hrest.append_left _
      _ |>.Perm (withoutEntries pattern rest ++ ([pattern, next] ++
            entryWords pattern (rblMatches pattern rest))) := List.perm_append_comm_assoc _ _ _
  | case2 word next rest hne ih =>
    rw [repeats_cons_of_ne pattern hne] at h
    rw [withoutEntries, if_neg hne, rblMatches, if_neg hne]
    exact (ih h).cons word
  | case3 word => simp [withoutEntries, rblMatches, entryWords]
  | case4 => simp [withoutEntries, rblMatches, entryWords]

@[simp] theorem length_entryWords (domains : List String) :
    (entryWords pattern domains).length = 2 * domains.length := by
  induction domains with
  | nil => rfl
  | cons domain rest ih =>
    have hcons : entryWords pattern (domain :: rest) =
        pattern :: domain :: entryWords pattern rest := rfl
    rw [hcons, List.length_cons, List.length_cons, ih, List.length_cons]
    omega

theorem length_le_matches (words : List String) :
    words.length ≤ (withoutEntries pattern words).length + 2 * (rblMatches pattern words).length ∧
      (repeats pattern words = true →
        words.length <
          (withoutEntries pattern words).length + 2 * (rblMatches pattern words).length) := by
  induction words using withoutEntries.induct pattern with
  | case1 next rest ih =>
    obtain ⟨hle, hlt⟩ := ih
    have hmono := length_rblMatches_le pattern next rest
    rw [withoutEntries, if_pos rfl, rblMatches, if_pos rfl, repeats_entry]
    simp only [List.length_cons]
    refine ⟨by omega, ?_⟩
    rintro (⟨rfl, hne⟩ | hrest)
    · -- The domain is the keyword of another match.
      obtain ⟨third, rest, rfl⟩ := List.exists_cons_of_ne_nil hne
      have hthird : (rblMatches next (next :: third :: rest)).length =
          (rblMatches next (third :: rest)).length + 1 := by
        rw [rblMatches, if_pos rfl, List.length_cons]
      simp only [List.length_cons] at hle ⊢
      omega
    · have hstrict := hlt hrest
      omega
  | case2 word next rest hne ih =>
    obtain ⟨hle, hlt⟩ := ih
    rw [withoutEntries, if_neg hne, rblMatches, if_neg hne, repeats_cons_of_ne pattern hne]
    simp only [List.length_cons] at hle hlt ⊢
    refine ⟨by omega, fun hrest => ?_⟩
    have hstrict := hlt hrest
    omega
  | case3 word => simp [withoutEntries, rblMatches, repeats]
  | case4 => simp [withoutEntries, rblMatches, repeats]

end Scans

/-! ## The loop over the kinds of block lists -/

theorem fields_removeRBLEntries (text pattern : String) :
    Strings.fields (removeRBLEntries text pattern) =
      withoutEntries pattern (Strings.fields text) := by
  have hwords : ∀ word ∈ withoutEntries pattern (Strings.fields text),
      Strings.fields word = [word] := fun word hword =>
    Strings.fields_of_mem_fields ((withoutEntries_sublist pattern _).subset hword)
  rw [removeRBLEntries, Strings.fields_join, keptWords_eq, List.flatMap_congr hwords]
  exact List.flatMap_singleton' _

/-- The words the extracted domains stand for. -/
def extractedWords (extracted : StrMap (List String)) (types : List RblType) : List String :=
  types.flatMap fun t => entryWords t.pattern (extracted[t.dataKey]?.getD [])

theorem getElem?_foldl_processRBLPattern {types : List RblType} {key : String}
    (hkey : key ∉ types.map RblType.dataKey) (acc : StrMap (List String) × String) :
    (types.foldl processRBLPattern acc).1[key]? = acc.1[key]? := by
  induction types generalizing acc with
  | nil => rfl
  | cons t types ih =>
    rw [List.map_cons, List.mem_cons, not_or] at hkey
    rw [List.foldl_cons, ih hkey.2, processRBLPattern, OrdMap.getElem?_insert_iff,
      if_neg (Ne.symm hkey.1)]

theorem extractedWords_foldl_cons {t : RblType} {types : List RblType}
    (hkey : t.dataKey ∉ types.map RblType.dataKey) (acc : StrMap (List String) × String) :
    extractedWords ((t :: types).foldl processRBLPattern acc).1 (t :: types) =
      entryWords t.pattern (rblMatches t.pattern (Strings.fields acc.2)) ++
        extractedWords (types.foldl processRBLPattern (processRBLPattern acc t)).1 types := by
  have hstored : ((t :: types).foldl processRBLPattern acc).1[t.dataKey]? =
      some (rblMatches t.pattern (Strings.fields acc.2)) := by
    rw [List.foldl_cons, getElem?_foldl_processRBLPattern hkey, processRBLPattern,
      OrdMap.getElem?_insert_iff, if_pos rfl, extractRBLMatches]
  rw [extractedWords, List.flatMap_cons, hstored]
  rfl

theorem fields_foldl_sublist (types : List RblType) (acc : StrMap (List String) × String) :
    (Strings.fields (types.foldl processRBLPattern acc).2).Sublist (Strings.fields acc.2) := by
  induction types generalizing acc with
  | nil => exact List.Sublist.refl _
  | cons t types ih =>
    have hrest := ih (processRBLPattern acc t)
    rw [processRBLPattern, fields_removeRBLEntries] at hrest
    exact hrest.trans (withoutEntries_sublist _ _)

/-- **Entries that are separate are accounted for.** -/
theorem perm_foldl_of_separate {types : List RblType} (hkeys : (types.map RblType.dataKey).Nodup)
    (acc : StrMap (List String) × String)
    (h : EntriesSeparate (types.map RblType.pattern) (Strings.fields acc.2)) :
    (Strings.fields acc.2).Perm (Strings.fields (types.foldl processRBLPattern acc).2 ++
      extractedWords (types.foldl processRBLPattern acc).1 types) := by
  induction types generalizing acc with
  | nil => simp [extractedWords]
  | cons t types ih =>
    rw [List.map_cons, List.nodup_cons] at hkeys
    obtain ⟨hfirst, hrest⟩ := h
    rw [← fields_removeRBLEntries] at hrest
    have hlater := ih hkeys.2 (processRBLPattern acc t) hrest
    have hnow := perm_matches_of_separate t.pattern _ hfirst
    rw [← fields_removeRBLEntries] at hnow
    rw [extractedWords_foldl_cons hkeys.1]
    refine hnow.trans ((hlater.append_right _).trans ?_)
    rw [List.append_assoc]
    exact List.perm_append_comm.append_left _

theorem length_le_foldl {types : List RblType} (hkeys : (types.map RblType.dataKey).Nodup)
    (acc : StrMap (List String) × String) :
    (Strings.fields acc.2).length ≤ (Strings.fields (types.foldl processRBLPattern acc).2 ++
        extractedWords (types.foldl processRBLPattern acc).1 types).length ∧
      (¬EntriesSeparate (types.map RblType.pattern) (Strings.fields acc.2) →
        (Strings.fields acc.2).length < (Strings.fields (types.foldl processRBLPattern acc).2 ++
          extractedWords (types.foldl processRBLPattern acc).1 types).length) := by
  induction types generalizing acc with
  | nil => simp [extractedWords, EntriesSeparate]
  | cons t types ih =>
    rw [List.map_cons, List.nodup_cons] at hkeys
    obtain ⟨hle, hlt⟩ := ih hkeys.2 (processRBLPattern acc t)
    obtain ⟨hle', hlt'⟩ := length_le_matches t.pattern (Strings.fields acc.2)
    have hremoved : Strings.fields (processRBLPattern acc t).2 =
        withoutEntries t.pattern (Strings.fields acc.2) := fields_removeRBLEntries _ _
    rw [extractedWords_foldl_cons hkeys.1, List.foldl_cons]
    rw [hremoved] at hle hlt
    simp only [List.length_append, length_entryWords] at hle hlt ⊢
    refine ⟨by omega, fun hnot => ?_⟩
    by_cases hfirst : repeats t.pattern (Strings.fields acc.2) = true
    · have hstrict := hlt' hfirst
      omega
    · have hstrict := hlt fun hrest => hnot ⟨by simpa using hfirst, hrest⟩
      omega

/-- No word is lost and none comes up twice: the words of the restriction are those of the
cleaned one and, for each domain under a data key, the keyword and the domain.  The cleaned
words keep their order. -/
structure WordsKept (restriction : String) (types : List RblType) : Prop where
  accounted : (Strings.fields restriction).Perm
    (Strings.fields (processRBLPatterns restriction types).2 ++
      extractedWords (processRBLPatterns restriction types).1 types)
  ordered : (Strings.fields (processRBLPatterns restriction types).2).Sublist
    (Strings.fields restriction)

/-- **Every word is kept exactly when the entries are separate.** -/
theorem processRBLPatterns_words_iff {types : List RblType}
    (hkeys : (types.map RblType.dataKey).Nodup) (restriction : String) :
    WordsKept restriction types ↔
      EntriesSeparate (types.map RblType.pattern) (Strings.fields restriction) := by
  constructor
  · intro hkept
    by_contra hnot
    have hlt := (length_le_foldl hkeys ({}, restriction)).2 hnot
    exact absurd hkept.accounted.length_eq (Nat.ne_of_lt hlt)
  · intro hseparate
    exact ⟨perm_foldl_of_separate hkeys ({}, restriction) hseparate, fields_foldl_sublist _ _⟩

theorem processRBLPatterns_words_two :
    WordsKept "permit reject_rbl_client a.example reject_rhsbl_sender b.example reject"
      rblTypes :=
  (processRBLPatterns_words_iff (by decide) _).mpr (by decide +kernel)

/-- A keyword that was typed twice is taken for a domain by both scans, and for the keyword of
the next word by the first one only. -/
theorem repeated_keyword_not_kept :
    (processRBLPatterns "reject_rbl_client reject_rbl_client a.example" rblTypes).2 =
        "a.example" ∧
      (processRBLPatterns "reject_rbl_client reject_rbl_client a.example" rblTypes).1[
        "zimbraMtaRestrictionRBLs"]? = some ["reject_rbl_client", "a.example"] ∧
      ¬WordsKept "reject_rbl_client reject_rbl_client a.example" rblTypes := by
  refine ⟨by decide +kernel, by decide +kernel, fun hkept => ?_⟩
  exact absurd hkept.accounted.length_eq (by decide +kernel)

end Configd
