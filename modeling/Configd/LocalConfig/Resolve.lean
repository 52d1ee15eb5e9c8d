import Configd.Lib.Fenced
import Configd.Lib.Fields
import Configd.Lib.OrdMap
import Configd.Lib.References

/-!
# References in the local configuration

A value of the local configuration may refer to other keys as `${name}`.  There are two ways
to follow the references (`internal/localconfig/resolve.go`): `Interpolate` replaces them in the
whole map, in place and in up to ten passes, each of them in the order in which the map happens
to be iterated; `Legacy.Expand` follows those of one key, recursively.

`interpolate_eq_expand` says that they agree for maps whose references are well written, lead
to keys of the map and go no deeper than ten.
-/

namespace Configd
namespace LocalConfig

open Lib Lib.Strings Lib.Regex

/-! ## Interpolate -/

/-- `varPattern`: a reference. -/
def varPattern : Pattern :=
  [[.lit ['$', '\x7b'], .rep (· ≠ '\x7d') 1 none true, .lit ['\x7d']]]

/-- `resolveVarRef`: what a reference is replaced by, and whether it is. -/
def resolveVarRef (config : StrMap String) (match_ : String) : String × Nat :=
  let varName := String.ofList (match_.toList.drop 2).dropLast
  match config[varName]? with
  | some replacement => if replacement ≠ match_ then (replacement, 1) else (match_, 0)
  | none => (match_, 0)

/-- A value with its references replaced, and the number of replacements. -/
def replaceRefs (config : StrMap String) (value : String) : String × Nat :=
  let pieces := find varPattern value.toList
  let resolve (m : Match) := resolveVarRef config (String.ofList m.text)
  (String.ofList (pieces.flatMap (Sum.elim ([·]) fun m => (resolve m).1.toList)),
    (pieces.map (Sum.elim (fun _ => 0) fun m => (resolve m).2)).sum)

/-- One round of the loop of `interpolatePass`: it reads the map as the rounds before left it. -/
def interpolateKey (state : StrMap String × Nat) (key : String) : StrMap String × Nat :=
  match state.1[key]? with
  | none => state
  | some value =>
    if contains value "$\x7b" then
      let (replaced, subs) := replaceRefs state.1 value
      (state.1.insert key replaced, state.2 + subs)
    else state

/-- `interpolatePass`, the keys coming in some order. -/
def interpolatePass (order : List String) (config : StrMap String) : StrMap String × Nat :=
  order.foldl interpolateKey (config, 0)

/-- The loop of `Interpolate`, with the number of passes that are left and the order of the
keys in each of them. -/
def interpolatePasses : Nat → (Nat → List String) → StrMap String → StrMap String × Nat
  | 0, _, config => (config, 0)
  | passes + 1, orders, config =>
    let (config, subs) := interpolatePass (orders 0) config
    if subs = 0 then (config, subs)
    else
      let (config, later) := interpolatePasses passes (fun i => orders (i + 1)) config
      (config, subs + later)

def maxInterpolationDepth : Nat := 10

def interpolate (orders : Nat → List String) (config : StrMap String) : StrMap String × Nat :=
  interpolatePasses maxInterpolationDepth orders config

/-! ## Expand -/

/-- `Legacy`: the configured values, over the compiled-in defaults. -/
structure Legacy where
  configured : StrMap String
  defaults : StrMap String

def Legacy.raw (lc : Legacy) (key : String) : Option String :=
  lc.configured[key]?.or lc.defaults[key]?

/-- The text of a `ConfigError`. -/
def configError (msg : String) : String :=
  "com.zimbra.common.localconfig.ConfigException: " ++ msg

/-- `strings.ReplaceAll`. -/
def replaceText (s old new : String) : String :=
  String.ofList ((find [[.lit old.toList]] s.toList).flatMap (Sum.elim ([·]) fun _ => new.toList))

/-- The name in the first reference of a text. -/
def firstRef (s : String) : Option String :=
  match cutText ['$', '\x7b'] s.toList with
  | none => none
  | some (_, after) =>
    if '\x7d' ∈ after then some (String.ofList (after.takeWhile (· ≠ '\x7d'))) else none

/-- The loop of `expandDeep`: references are replaced until there is none.  No result is a loop
that has not ended after so many rounds. -/
def expandLoop (expand : String → Option (Except String String)) :
    Nat → String → Option (Except String String)
  | 0, _ => none
  | rounds + 1, replacement =>
    match firstRef replacement with
    | none => some (.ok replacement)
    | some nested =>
      match expand nested with
      | none => none
      | some (.error err) => some (.error err)
      | some (.ok expanded) =>
        expandLoop expand rounds
          (replaceText replacement ("$\x7b" ++ nested ++ "\x7d") expanded)

/-- `Legacy.expandDeep`, with a bound on its recursion and its loops. -/
def Legacy.expandDeep (lc : Legacy) : Nat → List String → String → Option (Except String String)
  | 0, _, _ => none
  | fuel + 1, seen, key =>
    if seen.contains key then
      some (.error (configError ("recursive expansion of key '" ++ key ++ "': " ++ join " " seen)))
    else
      match lc.raw key with
      | none => some (.error (configError ("null valued key '" ++ key ++ "' referenced")))
      | some replacement =>
        expandLoop (expandDeep lc fuel (seen ++ [key])) (fuel + 1) replacement

/-- `Legacy.Expand`: no value for a key without one. -/
def Legacy.expand (lc : Legacy) (fuel : Nat) (key : String) :
    Option (Except String (Option String)) :=
  match lc.raw key with
  | none => some (.ok none)
  | some _ => (lc.expandDeep fuel [] key).map fun result => result.map some

/-! ## Well-written values -/

/-- The characters a reference is written with. -/
def refChars : List Char := ['$', '\x7b', '\x7d']

/-- A reference as it is written. -/
def refText (name : String) : List Char :=
  '$' :: '\x7b' :: (name.toList ++ ['\x7d'])

/-- A value as it is written. -/
def renderRefs (u : RefText Char String) : List Char :=
  u.flatMap (Sum.elim ([·]) refText)

/-- Text that is free of the characters of a reference, and references to names that are. -/
structure CleanText (u : RefText Char String) : Prop where
  literal : ∀ c, .inl c ∈ u → c ∉ refChars
  name_ne : ∀ name, .inr name ∈ u → name.toList ≠ []
  name_chars : ∀ name, .inr name ∈ u → ∀ c ∈ name.toList, c ∉ refChars

/-- The value of a key refers to a name. -/
def Refers (config : StrMap String) (key name : String) : Prop :=
  ∃ value, config[key]? = some value ∧ (∀ c ∈ name.toList, c ∉ refChars) ∧
    refText name <:+: value.toList

/-- The maps whose references can be followed: they are well written, lead to keys of the map,
and no path has more than ten. -/
structure Resolvable (config : StrMap String) : Prop where
  written : ∀ (key : String) value, config[key]? = some value →
    ∃ u, CleanText u ∧ value = String.ofList (renderRefs u)
  refers : ∀ key name, Refers config key name → name ∈ config
  paths : ∀ path : List String, path.IsChain (Refers config) → path.length ≤ 10 + 1

namespace CleanText

variable {u : RefText Char String}

theorem of_cons {piece : Char ⊕ String} (h : CleanText (piece :: u)) : CleanText u where
  literal c hc := h.literal c (List.mem_cons_of_mem _ hc)
  name_ne name hname := h.name_ne name (List.mem_cons_of_mem _ hname)
  name_chars name hname := h.name_chars name (List.mem_cons_of_mem _ hname)

theorem ne_dollar {c : Char} (h : CleanText (.inl c :: u)) : c ≠ '$' := by
  rintro rfl
  exact h.literal '$' List.mem_cons_self (by decide)

theorem plain {l : List Char} (h : ∀ c ∈ l, c ∉ refChars) : CleanText (l.map .inl) where
  literal c hc := by
    obtain ⟨d, hd, heq⟩ := List.mem_map.mp hc
    exact Sum.inl.inj heq ▸ h d hd
  name_ne name hname := by simp at hname
  name_chars name hname := by simp at hname

theorem ref {name : String} (hne : name.toList ≠ []) (hname : ∀ c ∈ name.toList, c ∉ refChars) :
    CleanText [.inr name] :=
  ⟨by simp, by simpa using hne, by simpa using hname⟩

theorem subst {table : Table Char String} (h : CleanText u)
    (htable : ∀ key, .inr key ∈ u → CleanText (table key)) :
    CleanText (RefText.subst table u) where
  literal c hc := by
    obtain ⟨piece, hpiece, hmem⟩ := List.mem_flatMap.mp hc
    cases piece with
    | inl d =>
      obtain rfl := Sum.inl.inj (List.mem_singleton.mp hmem)
      exact h.literal c hpiece
    | inr name => exact (htable name hpiece).literal c hmem
  name_ne name hname := by
    obtain ⟨r, hr, hmem⟩ := RefText.mem_subst.mp hname
    exact (htable r hr).name_ne name hmem
  name_chars name hname := by
    obtain ⟨r, hr, hmem⟩ := RefText.mem_subst.mp hname
    exact (htable r hr).name_chars name hmem

variable {mean : String → List Char}

theorem eval (h : CleanText u)
    (hmean : ∀ name, .inr name ∈ u → ∀ c ∈ mean name, c ∉ refChars) :
    ∀ c ∈ RefText.eval mean u, c ∉ refChars := by
  intro c hc
  obtain ⟨piece, hpiece, hmem⟩ := List.mem_flatMap.mp hc
  cases piece with
  | inl d =>
    obtain rfl := List.mem_singleton.mp hmem
    exact h.literal c hpiece
  | inr name => exact hmean name hpiece c hmem

end CleanText

@[simp] theorem renderRefs_nil : renderRefs [] = [] := rfl

@[simp] theorem renderRefs_inl (c : Char) (u : RefText Char String) :
    renderRefs (.inl c :: u) = c :: renderRefs u := rfl

@[simp] theorem renderRefs_inr (name : String) (u : RefText Char String) :
    renderRefs (.inr name :: u) = refText name ++ renderRefs u := rfl

@[simp] theorem renderRefs_append (u v : RefText Char String) :
    renderRefs (u ++ v) = renderRefs u ++ renderRefs v :=
  List.flatMap_append

@[simp] theorem renderRefs_plain (l : List Char) : renderRefs (l.map .inl) = l := by
  simp [renderRefs, List.flatMap_map]

theorem dollar_notMem {l : List Char} (h : ∀ c ∈ l, c ∉ refChars) : '$' ∉ l :=
  fun hmem => h '$' hmem (by decide)

theorem close_notMem {l : List Char} (h : ∀ c ∈ l, c ∉ refChars) : '\x7d' ∉ l :=
  fun hmem => h '\x7d' hmem (by decide)

theorem ne_close {l : List Char} (h : ∀ c ∈ l, c ∉ refChars) :
    ∀ c ∈ l, decide (c ≠ '\x7d') = true := by
  intro c hc
  rw [decide_eq_true_eq]
  rintro rfl
  exact close_notMem h hc

/-! ## What is found in a well-written value -/

theorem matchItems_eq_none_of_ne {text : List Char} (items : List Item) {c : Char} (hc : c ≠ '$')
    (s : List Char) : matchItems (.lit ('$' :: text) :: items) (c :: s) = none := by
  refine matchItems_lit_eq_none (fun h => ?_) items
  exact hc (List.cons_prefix_cons.mp h).1.symm

theorem matchAt_varPattern_of_ne {c : Char} (hc : c ≠ '$') (s : List Char) :
    matchAt varPattern (c :: s) = none := by
  rw [matchAt, varPattern, List.findSome?_cons, matchItems_eq_none_of_ne _ hc]
  rfl

theorem matchAt_lit_of_ne (name : String) {c : Char} (hc : c ≠ '$') (s : List Char) :
    matchAt [[.lit (refText name)]] (c :: s) = none := by
  rw [matchAt, List.findSome?_cons, refText, matchItems_eq_none_of_ne _ hc]
  rfl

variable {name : String}

theorem matchAt_refText (hne : name.toList ≠ [])
    (hname : ∀ c ∈ name.toList, c ∉ refChars) (s : List Char) :
    matchAt varPattern (refText name ++ s) = some ⟨refText name, [name.toList], s⟩ := by
  have hsplit : refText name ++ s = ['$', '\x7b'] ++ (name.toList ++ (['\x7d'] ++ s)) := by
    simp [refText]
  have hchars := ne_close hname
  have htake : (name.toList ++ (['\x7d'] ++ s)).takeWhile (· ≠ '\x7d') = name.toList := by
    rw [List.takeWhile_append_of_pos hchars]
    simp
  have hdrop : (name.toList ++ (['\x7d'] ++ s)).dropWhile (· ≠ '\x7d') = ['\x7d'] ++ s := by
    rw [List.dropWhile_append_of_pos hchars]
    simp
  have hlength : 1 ≤ name.toList.length := List.length_pos_iff.mpr hne
  rw [matchAt, varPattern, List.findSome?_cons, hsplit, matchItems_lit,
    matchItems_rep_lit (by decide), htake, hdrop, if_pos hlength, matchItems_lit]
  simp [matchItems, Match.prepend, refText]

variable {u : RefText Char String}

/-- **The references are found where they are.** -/
theorem seen_renderRefs (h : CleanText u) :
    seen varPattern (renderRefs u) = u.map (Sum.map id refText) := by
  induction u with
  | nil => rfl
  | cons piece u ih =>
    have hrest := ih h.of_cons
    cases piece with
    | inl c =>
      rw [renderRefs_inl, seen, find_skip (matchAt_varPattern_of_ne h.ne_dollar _), List.map_cons]
      exact congrArg (Sum.inl c :: ·) hrest
    | inr name =>
      have hmatch := matchAt_refText (h.name_ne name List.mem_cons_self)
        (h.name_chars name List.mem_cons_self) (renderRefs u)
      rw [renderRefs_inr, seen, find_match hmatch (List.cons_ne_nil _ _), List.map_cons]
      exact congrArg (Sum.inr (refText name) :: ·) hrest

theorem refText_injective : Function.Injective refText := by
  intro a b h
  have hinner := (List.cons.inj (List.cons.inj h).2).2
  exact String.toList_inj.mp (List.append_cancel_right hinner)

theorem renderRefs_inj {v : RefText Char String} (hu : CleanText u) (hv : CleanText v)
    (h : renderRefs u = renderRefs v) : u = v := by
  have hseen : u.map (Sum.map id refText) = v.map (Sum.map id refText) := by
    rw [← seen_renderRefs hu, ← seen_renderRefs hv, h]
  exact (List.map_injective_iff.mpr
    (Sum.map_injective.mpr ⟨Function.injective_id, refText_injective⟩)) hseen

theorem refText_isInfix_of_mem (h : .inr name ∈ u) :
    refText name <:+: renderRefs u := by
  obtain ⟨before, after, rfl⟩ := List.append_of_mem h
  rw [renderRefs_append, renderRefs_inr, ← List.append_assoc]
  exact ⟨renderRefs before, renderRefs after, rfl⟩

/-- **A reference that can be read in a value** is one of its references. -/
theorem mem_of_refText_isInfix (hu : CleanText u) (hname : ∀ c ∈ name.toList, c ∉ refChars)
    (h : refText name <:+: renderRefs u) : .inr name ∈ u := by
  obtain ⟨before, after, heq⟩ := h
  rw [List.append_assoc] at heq
  induction u generalizing before with
  | nil => simp [refText, renderRefs] at heq
  | cons piece u ih =>
    cases piece with
    | inl c =>
      cases before with
      | nil =>
        obtain rfl : '$' = c := (List.cons.inj heq).1
        exact absurd (by decide) (hu.literal '$' List.mem_cons_self)
      | cons d before => exact List.mem_cons_of_mem _ (ih hu.of_cons before (List.cons.inj heq).2)
    | inr other =>
      have hother := hu.name_chars other List.mem_cons_self
      cases before with
      | nil =>
        have hinner : name.toList ++ '\x7d' :: after = other.toList ++ '\x7d' :: renderRefs u := by
          simpa [refText] using heq
        obtain ⟨hsame, -⟩ := append_fence_inj (close_notMem hname) (close_notMem hother) hinner
        exact String.toList_inj.mp hsame ▸ List.mem_cons_self
      | cons d before =>
        -- What follows the `$` of a reference in it holds no other one.
        have htail : '$' ∉ '\x7b' :: (other.toList ++ ['\x7d']) := by
          simpa using dollar_notMem hother
        refine List.mem_cons_of_mem _ ?_
        rcases List.append_eq_append_iff.mp (List.cons.inj heq).2 with
          ⟨mid, hmid, hrest⟩ | ⟨mid, -, hrest⟩
        · cases mid with
          | nil => exact ih hu.of_cons [] hrest
          | cons e mid =>
            obtain rfl : '$' = e := (List.cons.inj hrest).1
            exact absurd (hmid ▸ by simp) htail
        · exact ih hu.of_cons mid hrest.symm

theorem find_refText_of_ne {other : String} (hname : ∀ c ∈ name.toList, c ∉ refChars)
    (hother : ∀ c ∈ other.toList, c ∉ refChars) (hne : other ≠ name) (s : List Char) :
    find [[.lit (refText name)]] (refText other ++ s) =
      (refText other).map .inl ++ find [[.lit (refText name)]] s := by
  have hskip : ∀ l : List Char, '$' ∉ l → find [[.lit (refText name)]] (l ++ s) =
      l.map .inl ++ find [[.lit (refText name)]] s := by
    intro l hl
    induction l with
    | nil => rfl
    | cons c l ih =>
      rw [List.mem_cons, not_or] at hl
      rw [List.cons_append, find_skip (matchAt_lit_of_ne name (Ne.symm hl.1) _), ih hl.2]
      rfl
  have hfirst : matchAt [[.lit (refText name)]] (refText other ++ s) = none := by
    have hlit : ¬refText name <+: refText other ++ s := by
      rintro ⟨rest, hrest⟩
      refine hne ?_
      have hinner : name.toList ++ '\x7d' :: rest = other.toList ++ '\x7d' :: s := by
        simpa [refText] using hrest
      have hboth := append_fence_inj (close_notMem hname) (close_notMem hother) hinner
      exact (String.toList_inj.mp hboth.1).symm
    simp [matchAt, matchItems_lit_eq_none hlit]
  have htail : '$' ∉ '\x7b' :: (other.toList ++ ['\x7d']) := by
    simpa using dollar_notMem hother
  have hcons : refText other ++ s = '$' :: ('\x7b' :: (other.toList ++ ['\x7d']) ++ s) := rfl
  rw [hcons] at hfirst ⊢
  rw [find_skip hfirst, hskip _ htail]
  rfl

/-- The references to a name replaced by text. -/
def without (name : String) (new : List Char) (u : RefText Char String) : RefText Char String :=
  RefText.subst (fun key => if key = name then new.map .inl else [.inr key]) u

theorem without_append (name : String) (new : List Char) (u v : RefText Char String) :
    without name new (u ++ v) = without name new u ++ without name new v :=
  List.flatMap_append

theorem without_inr (name : String) (new : List Char) (key : String) (u : RefText Char String) :
    without name new (.inr key :: u) =
      (if key = name then new.map .inl else [.inr key]) ++ without name new u := rfl

/-- **`strings.ReplaceAll` of a reference** replaces the references to its name. -/
theorem replaceText_renderRefs (hu : CleanText u)
    (hname : ∀ c ∈ name.toList, c ∉ refChars) (new : List Char) :
    replaceText (String.ofList (renderRefs u)) (String.ofList (refText name)) (String.ofList new) =
      String.ofList (renderRefs (without name new u)) := by
  rw [replaceText]
  simp only [String.toList_ofList]
  congr 1
  induction u with
  | nil => rfl
  | cons piece u ih =>
    have hrest := ih hu.of_cons
    cases piece with
    | inl c =>
      rw [renderRefs_inl, find_skip (matchAt_lit_of_ne name hu.ne_dollar _), List.flatMap_cons,
        hrest]
      rfl
    | inr other =>
      by_cases hother : other = name
      · subst hother
        have hmatch : matchAt [[.lit (refText other)]] (refText other ++ renderRefs u) =
            some ⟨refText other, [], renderRefs u⟩ := by
          rw [matchAt, List.findSome?_cons, matchItems_lit]
          simp [matchItems, Match.prepend]
        rw [renderRefs_inr, find_match hmatch (List.cons_ne_nil _ _), List.flatMap_cons, hrest,
          without_inr, if_pos rfl, renderRefs_append, renderRefs_plain]
        rfl
      · rw [renderRefs_inr, find_refText_of_ne hname
          (hu.name_chars other List.mem_cons_self) hother, List.flatMap_append, hrest]
        simp [without_inr, hother, List.flatMap_map]

/-! ## Expanding one key -/

theorem refName_eq (name : String) :
    "$\x7b" ++ name ++ "\x7d" = String.ofList (refText name) := by
  rw [← String.toList_inj]
  simp [refText]

theorem firstRef_cons_of_ne {c : Char} (hc : c ≠ '$') (s : List Char) :
    firstRef (String.ofList (c :: s)) = firstRef (String.ofList s) := by
  have hpre : ['$', '\x7b'].isPrefixOf (c :: s) = false := by
    rw [Bool.eq_false_iff]
    intro hpre
    have hfirst := List.isPrefixOf_iff_prefix.mp hpre
    exact hc (List.cons_prefix_cons.mp hfirst).1.symm
  simp only [firstRef, String.toList_ofList, cutText, hpre, Bool.false_eq_true, if_false]
  cases cutText ['$', '\x7b'] s <;> rfl

theorem firstRef_renderRefs (hu : CleanText u) :
    firstRef (String.ofList (renderRefs u)) = u.findSome? Sum.getRight? := by
  induction u with
  | nil => rfl
  | cons piece u ih =>
    cases piece with
    | inl c =>
      rw [renderRefs_inl, firstRef_cons_of_ne hu.ne_dollar, ih hu.of_cons]
      rfl
    | inr name =>
      have hname := hu.name_chars name List.mem_cons_self
      have hcut : cutText ['$', '\x7b'] (renderRefs (.inr name :: u)) =
          some ([], name.toList ++ '\x7d' :: renderRefs u) := by
        simp [refText, cutText, List.isPrefixOf]
      have htake : (name.toList ++ '\x7d' :: renderRefs u).takeWhile (· ≠ '\x7d') =
          name.toList := by
        rw [List.takeWhile_append_of_pos (ne_close hname)]
        simp
      simp only [firstRef, String.toList_ofList, hcut, htake]
      rw [if_pos (by simp), String.ofList_toList]
      rfl

/-- The number of references in a text. -/
def refCount (u : RefText Char String) : Nat :=
  u.countP Sum.isRight

theorem refCount_eq_zero_iff : refCount u = 0 ↔ ∀ name, .inr name ∉ u := by
  simp [refCount, List.countP_eq_zero]

theorem refCount_append (u v : RefText Char String) :
    refCount (u ++ v) = refCount u + refCount v :=
  List.countP_append

theorem refCount_plain (l : List Char) : refCount (l.map .inl) = 0 := by
  simp [refCount, List.countP_eq_zero]

theorem refCount_without_le (name : String) (new : List Char) (u : RefText Char String) :
    refCount (without name new u) ≤ refCount u := by
  induction u with
  | nil => exact le_rfl
  | cons piece u ih =>
    rw [← List.singleton_append, without_append, refCount_append, refCount_append]
    refine Nat.add_le_add ?_ ih
    cases piece with
    | inl c => exact le_rfl
    | inr key =>
      rw [without_inr]
      split
      · rw [refCount_append, refCount_plain]
        exact Nat.zero_le _
      · exact le_rfl

theorem refCount_without_lt (new : List Char)
    (h : .inr name ∈ u) : refCount (without name new u) < refCount u := by
  obtain ⟨before, after, rfl⟩ := List.append_of_mem h
  have hbefore := refCount_without_le name new before
  have hafter := refCount_without_le name new after
  have hone : refCount (.inr name :: after) = refCount after + 1 :=
    List.countP_cons_of_pos rfl
  rw [without_append, without_inr, if_pos rfl, refCount_append, refCount_append, refCount_append,
    refCount_plain, hone]
  omega

variable {key : String}

theorem mem_without {new : List Char}
    (h : .inr key ∈ without name new u) : .inr key ∈ u := by
  obtain ⟨r, hr, hmem⟩ := RefText.mem_subst.mp h
  split at hmem
  · simp at hmem
  · obtain rfl := Sum.inr.inj (List.mem_singleton.mp hmem)
    exact hr

theorem renderRefs_of_no_refs (mean : String → List Char)
    (h : ∀ name, .inr name ∉ u) : renderRefs u = RefText.eval mean u := by
  refine List.flatMap_congr fun piece hpiece => ?_
  cases piece with
  | inl c => rfl
  | inr name => exact absurd hpiece (h name)

theorem CleanText.without (hu : CleanText u) (name : String)
    {new : List Char} (hnew : ∀ c ∈ new, c ∉ refChars) :
    CleanText (LocalConfig.without name new u) := by
  refine hu.subst fun key hkey => ?_
  split
  · exact .plain hnew
  · exact .ref (hu.name_ne key hkey) (hu.name_chars key hkey)

theorem eval_without (name : String) (u : RefText Char String) :
    RefText.eval mean (without name (mean name) u) = RefText.eval mean u := by
  rw [without, RefText.eval_subst]
  refine RefText.eval_congr fun key _ => ?_
  by_cases hkey : key = name
  · simp [hkey, RefText.eval, List.flatMap_map]
  · simp [hkey, RefText.eval]

/-- **The loop of `expandDeep`** ends with the meaning of a text whose references expand. -/
theorem expandLoop_renderRefs {expand : String → Option (Except String String)}
    (hu : CleanText u)
    (hexpand : ∀ name, .inr name ∈ u → expand name = some (.ok (String.ofList (mean name))))
    (hmean : ∀ name, .inr name ∈ u → ∀ c ∈ mean name, c ∉ refChars) {rounds : Nat}
    (hrounds : refCount u < rounds) :
    expandLoop expand rounds (String.ofList (renderRefs u)) =
      some (.ok (String.ofList (RefText.eval mean u))) := by
  induction rounds generalizing u with
  | zero => omega
  | succ rounds ih =>
    rw [expandLoop, firstRef_renderRefs hu]
    cases hfirst : u.findSome? Sum.getRight? with
    | none =>
      have hnone : ∀ name, .inr name ∉ u := by
        intro name hmem
        cases List.findSome?_eq_none_iff.mp hfirst _ hmem
      rw [renderRefs_of_no_refs mean hnone]
    | some name =>
      have hmem : .inr name ∈ u := by
        obtain ⟨piece, hpiece, hright⟩ := List.exists_of_findSome?_eq_some hfirst
        cases piece with
        | inl c => cases hright
        | inr n => exact Option.some.inj hright ▸ hpiece
      have hclean : CleanText (without name (mean name) u) :=
        hu.without name (hmean name hmem)
      simp only [hexpand name hmem]
      rw [refName_eq, replaceText_renderRefs hu (hu.name_chars name hmem)]
      have hlt := refCount_without_lt (mean name) hmem
      rw [← eval_without name u]
      exact ih hclean (fun key hkey => hexpand key (mem_without hkey))
        (fun key hkey => hmean key (mem_without hkey)) (by omega)

/-! ## The map as a table of texts -/

/-- The table of a map: every value is the text of its key, and the references lead to keys. -/
structure Holds (config : StrMap String) (table : Table Char String) : Prop where
  value : ∀ key, key ∈ config → config[key]? = some (String.ofList (renderRefs (table key)))
  other : ∀ key, key ∉ config → table key = []
  clean : ∀ key, CleanText (table key)
  refers : ∀ key name, .inr name ∈ table key → name ∈ config

theorem Resolvable.exists_table {config : StrMap String} (h : Resolvable config) :
    ∃ (table : Table Char String) (depth : String → Nat), Holds config table ∧
      (∀ key name, .inr name ∈ table key → depth name < depth key) ∧ ∀ key, depth key ≤ 10 := by
  classical
  have htext : ∀ key, ∃ u, CleanText u ∧
      (∀ value, config[key]? = some value → value = String.ofList (renderRefs u)) ∧
      (key ∉ config → u = []) := by
    intro key
    cases hvalue : config[key]? with
    | none => exact ⟨[], ⟨by simp, by simp, by simp⟩, by simp, fun _ => rfl⟩
    | some value =>
      obtain ⟨u, hu, heq⟩ := h.written key value hvalue
      refine ⟨u, hu, fun _ hsome => Option.some.inj hsome ▸ heq, fun hkey => ?_⟩
      rw [Std.ExtTreeMap.getElem?_eq_none hkey] at hvalue
      cases hvalue
  choose table hclean hvalue hother using htext
  have hrefers : ∀ key name, .inr name ∈ table key → Refers config key name := by
    intro key name hmem
    cases hkey : config[key]? with
    | none =>
      have hnot : key ∉ config := by
        rw [← Std.ExtTreeMap.isSome_getElem?_iff_mem, hkey]
        exact Bool.false_ne_true
      rw [hother key hnot] at hmem
      cases hmem
    | some value =>
      refine ⟨value, hkey, (hclean key).name_chars name hmem, ?_⟩
      rw [hvalue key value hkey, String.toList_ofList]
      exact refText_isInfix_of_mem hmem
  obtain ⟨depth, hdepth, hbound⟩ := exists_depth h.paths
  refine ⟨table, depth, ⟨?_, hother, hclean, ?_⟩, ?_, hbound⟩
  · intro key hkey
    obtain ⟨value, hsome⟩ := Option.isSome_iff_exists.mp
      (Std.ExtTreeMap.isSome_getElem?_iff_mem.mpr hkey)
    rw [hsome, hvalue key value hsome]
  · exact fun key name hmem => h.refers key name (hrefers key name hmem)
  · exact fun key name hmem => hdepth key name (hrefers key name hmem)

section Expand

variable {config : StrMap String} {table : Table Char String} {depth : String → Nat}

theorem Holds.raw_eq (h : Holds config table) (defaults : StrMap String) (hkey : key ∈ config) :
    Legacy.raw ⟨config, defaults⟩ key = some (String.ofList (renderRefs (table key))) := by
  rw [Legacy.raw, h.value key hkey]
  rfl

theorem Holds.meaning_chars (h : Holds config table)
    (hdepth : ∀ key name, .inr name ∈ table key → depth name < depth key) (key : String) :
    ∀ c ∈ Table.meaning table depth key, c ∉ refChars := by
  induction hn : depth key using Nat.strong_induction_on generalizing key with
  | _ n ih =>
    rw [← Table.meaning_eq hdepth key]
    refine (h.clean key).eval fun name hname => ?_
    exact ih (depth name) (hn ▸ hdepth key name hname) name rfl

/-- **`expandDeep` gives the meaning of a key**, when none of the keys it has come through is
as deep down. -/
theorem Holds.expandDeep_eq (h : Holds config table)
    (hdepth : ∀ key name, .inr name ∈ table key → depth name < depth key)
    (defaults : StrMap String) {bound : Nat} (hbound : ∀ key, refCount (table key) ≤ bound)
    (hkey : key ∈ config) {seen : List String}
    (hseen : ∀ k ∈ seen, depth key < depth k) {fuel : Nat} (hfuel : depth key + bound < fuel) :
    Legacy.expandDeep ⟨config, defaults⟩ fuel seen key =
      some (.ok (String.ofList (Table.meaning table depth key))) := by
  induction fuel generalizing key seen with
  | zero => omega
  | succ fuel ih =>
    have hnew : seen.contains key = false := by
      rw [List.contains_eq_mem, decide_eq_false_iff_not]
      exact fun hmem => Nat.lt_irrefl _ (hseen key hmem)
    rw [Legacy.expandDeep, hnew, h.raw_eq defaults hkey, ← Table.meaning_eq hdepth key]
    refine expandLoop_renderRefs (h.clean key) (fun name hname => ?_)
      (fun name _ => h.meaning_chars hdepth name) ?_
    · have hlt := hdepth key name hname
      refine ih (h.refers key name hname) (fun k hk => ?_) (by omega)
      rcases List.mem_append.mp hk with hk | hk
      · exact lt_trans hlt (hseen k hk)
      · exact List.mem_singleton.mp hk ▸ hlt
    · have hcount := hbound key
      omega

end Expand

/-! ## Interpolating the map -/

section Interpolate

variable {config : StrMap String} {table : Table Char String} {depth : String → Nat}

theorem Holds.resolveVarRef_eq (h : Holds config table)
    (hdepth : ∀ key name, .inr name ∈ table key → depth name < depth key)
    (hname : name ∈ config) (hne : name.toList ≠ []) (hchars : ∀ c ∈ name.toList, c ∉ refChars) :
    resolveVarRef config (String.ofList (refText name)) =
      (String.ofList (renderRefs (table name)), 1) := by
  have hvarName :
      String.ofList (((String.ofList (refText name)).toList.drop 2).dropLast) = name := by
    simp [refText]
  have hdiff : String.ofList (renderRefs (table name)) ≠ String.ofList (refText name) := by
    intro heq
    have htable : table name = [.inr name] := by
      refine renderRefs_inj (h.clean name) (.ref hne hchars) ?_
      simpa using String.ofList_inj.mp heq
    have hloop := hdepth name name (htable ▸ List.mem_singleton.mpr rfl)
    exact Nat.lt_irrefl _ hloop
  simp only [resolveVarRef, hvarName, h.value name hname]
  rw [if_pos hdiff]

theorem sum_map_refs (u : RefText Char String) :
    (u.map (Sum.elim (fun _ => 0) fun _ => 1)).sum = refCount u := by
  induction u with
  | nil => rfl
  | cons piece u ih =>
    rw [List.map_cons, List.sum_cons, ih]
    cases piece with
    | inl c => simp [refCount]
    | inr name =>
      rw [refCount, refCount, List.countP_cons_of_pos rfl, Sum.elim_inr, Nat.add_comm]

theorem Holds.replaceRefs_eq (h : Holds config table)
    (hdepth : ∀ key name, .inr name ∈ table key → depth name < depth key)
    (hu : CleanText u) (hrefers : ∀ name, .inr name ∈ u → name ∈ config) :
    replaceRefs config (String.ofList (renderRefs u)) =
      (String.ofList (renderRefs (RefText.subst table u)), refCount u) := by
  have hseen : seen varPattern (String.ofList (renderRefs u)).toList =
      u.map (Sum.map id refText) := by
    rw [String.toList_ofList, seen_renderRefs hu]
  have hresolve : ∀ name, .inr name ∈ u → resolveVarRef config (String.ofList (refText name)) =
      (String.ofList (renderRefs (table name)), 1) := fun name hname =>
    h.resolveVarRef_eq hdepth (hrefers name hname) (hu.name_ne name hname)
      (hu.name_chars name hname)
  refine Prod.ext ?_ ?_
  · have htext : u.flatMap (fun piece => Sum.elim ([·])
        (fun text => (resolveVarRef config (String.ofList text)).1.toList) (piece.map id refText)) =
        renderRefs (RefText.subst table u) := by
      rw [renderRefs, RefText.subst, List.flatMap_assoc]
      refine List.flatMap_congr fun piece hpiece => ?_
      cases piece with
      | inl c => rfl
      | inr name =>
        simp only [Sum.map_inr, Sum.elim_inr, hresolve name hpiece, String.toList_ofList]
        rfl
    rw [← htext, ← List.flatMap_map, ← hseen, List.flatMap_def, ← map_find]
    rfl
  · have hcount : ((u.map (Sum.map id refText)).map (Sum.elim (fun _ => 0)
        fun text => (resolveVarRef config (String.ofList text)).2)).sum = refCount u := by
      rw [← sum_map_refs u, List.map_map]
      refine congrArg List.sum (List.map_congr_left fun piece hpiece => ?_)
      cases piece with
      | inl c => rfl
      | inr name => simp [hresolve name hpiece]
    rw [← hcount, ← hseen, ← map_find]
    rfl

theorem contains_renderRefs (hu : CleanText u) :
    contains (String.ofList (renderRefs u)) "$\x7b" = true ↔ ∃ name, .inr name ∈ u := by
  rw [contains_iff]
  simp only [String.toList_ofList]
  constructor
  · intro hinfix
    have hdollar : '$' ∈ renderRefs u := hinfix.subset (by decide)
    obtain ⟨piece, hpiece, hmem⟩ := List.mem_flatMap.mp hdollar
    cases piece with
    | inl c =>
      obtain rfl := List.mem_singleton.mp hmem
      exact absurd (by decide) (hu.literal '$' hpiece)
    | inr name => exact ⟨name, hpiece⟩
  · rintro ⟨name, hname⟩
    refine List.IsInfix.trans ?_ (refText_isInfix_of_mem hname)
    exact (List.prefix_append ['$', '\x7b'] (name.toList ++ ['\x7d'])).isInfix

theorem step_of_no_refs (h : ∀ name, .inr name ∉ table key) : Table.step table key = table := by
  have hsubst : RefText.subst table (table key) = (table key).flatMap ([·]) := by
    refine List.flatMap_congr fun piece hpiece => ?_
    cases piece with
    | inl c => rfl
    | inr name => exact absurd hpiece (h name)
  rw [Table.step, hsubst, List.flatMap_singleton', Function.update_eq_self]

/-- **One round of the loop** is one step of the table. -/
theorem Holds.interpolateKey_eq (h : Holds config table)
    (hdepth : ∀ key name, .inr name ∈ table key → depth name < depth key)
    (hkey : key ∈ config) (subs : Nat) :
    ∃ config', interpolateKey (config, subs) key = (config', subs + refCount (table key)) ∧
      Holds config' (Table.step table key) ∧ ∀ k, k ∈ config' ↔ k ∈ config := by
  by_cases hrefs : ∃ name, .inr name ∈ table key
  · have hcontains := (contains_renderRefs (h.clean key)).mpr hrefs
    have hreplaced := h.replaceRefs_eq hdepth (h.clean key) fun name => h.refers key name
    have hkeys : ∀ k, k ∈ config.insert key
        (String.ofList (renderRefs (RefText.subst table (table key)))) ↔ k ∈ config := by
      intro k
      rw [Std.ExtTreeMap.mem_insert, compare_eq_iff_eq]
      exact ⟨fun hk => hk.elim (fun heq => heq ▸ hkey) id, .inr⟩
    refine ⟨_, by simp only [interpolateKey, h.value key hkey, hcontains, hreplaced, if_true],
      ⟨?_, ?_, ?_, ?_⟩, hkeys⟩
    · intro k hk
      by_cases hkk : k = key
      · subst hkk
        rw [Table.step, Function.update_self]
        simp
      · rw [Table.step, Function.update_of_ne hkk, OrdMap.getElem?_insert_iff, if_neg (Ne.symm hkk)]
        exact h.value k ((hkeys k).mp hk)
    · intro k hk
      rw [hkeys] at hk
      have hkk : k ≠ key := fun heq => hk (heq ▸ hkey)
      rw [Table.step, Function.update_of_ne hkk]
      exact h.other k hk
    · intro k
      by_cases hkk : k = key
      · rw [hkk, Table.step, Function.update_self]
        exact (h.clean key).subst fun r _ => h.clean r
      · rw [Table.step, Function.update_of_ne hkk]
        exact h.clean k
    · intro k name hname
      rw [hkeys]
      by_cases hkk : k = key
      · rw [hkk, Table.step, Function.update_self] at hname
        obtain ⟨r, -, hmem⟩ := RefText.mem_subst.mp hname
        exact h.refers r name hmem
      · rw [Table.step, Function.update_of_ne hkk] at hname
        exact h.refers k name hname
  · have hnone : ∀ name, .inr name ∉ table key := fun name hname => hrefs ⟨name, hname⟩
    refine ⟨config, ?_, by rwa [step_of_no_refs hnone], fun _ => Iff.rfl⟩
    have hcontains : contains (String.ofList (renderRefs (table key))) "$\x7b" = false := by
      rw [Bool.eq_false_iff]
      exact fun hmem => hrefs ((contains_renderRefs (h.clean key)).mp hmem)
    simp only [interpolateKey, h.value key hkey, hcontains, refCount_eq_zero_iff.mpr hnone]
    rfl

/-- **One pass** is one round of the table; a pass without a replacement has met no reference. -/
theorem Holds.foldl_interpolateKey (h : Holds config table) {levels : Nat}
    (hbelow : ∀ key, Table.Below depth levels table key) {order : List String}
    (horder : ∀ key ∈ order, key ∈ config) (subs : Nat) :
    ∃ config' more, order.foldl interpolateKey (config, subs) = (config', subs + more) ∧
      Holds config' (Table.round order table) ∧ (∀ k, k ∈ config' ↔ k ∈ config) ∧
      (more = 0 → Table.round order table = table ∧
        ∀ key ∈ order, ∀ name, .inr name ∉ table key) := by
  induction order generalizing config table subs with
  | nil => exact ⟨config, 0, rfl, h, fun _ => Iff.rfl, fun _ => ⟨rfl, by simp⟩⟩
  | cons first order ih =>
    have hdepth : ∀ key name, .inr name ∈ table key → depth name < depth key := by
      intro key name hname
      have hlevel := hbelow key name hname
      omega
    obtain ⟨config₁, hround, hholds, hkeys⟩ :=
      h.interpolateKey_eq hdepth (horder first List.mem_cons_self) subs
    have hstep : ∀ key, Table.Below depth levels (Table.step table first) key :=
      (Table.below_round hbelow [first]).1
    obtain ⟨config₂, more, hrest, hholds₂, hkeys₂, hzero⟩ := ih hholds hstep
      (fun key hkey => (hkeys key).mpr (horder key (List.mem_cons_of_mem _ hkey)))
      (subs + refCount (table first))
    refine ⟨config₂, refCount (table first) + more, ?_, hholds₂,
      fun k => (hkeys₂ k).trans (hkeys k), ?_⟩
    · rw [List.foldl_cons, hround, hrest, Nat.add_assoc]
    · intro hsum
      have hfirst : ∀ name, .inr name ∉ table first :=
        refCount_eq_zero_iff.mp (Nat.add_eq_zero_iff.mp hsum).1
      have hsame := step_of_no_refs hfirst
      obtain ⟨hround, hnone⟩ := hzero (Nat.add_eq_zero_iff.mp hsum).2
      rw [hsame] at hround hnone
      refine ⟨?_, ?_⟩
      · rw [Table.round, List.foldl_cons, hsame]
        exact hround
      · intro key hkey
        rcases List.mem_cons.mp hkey with rfl | hkey
        · exact hfirst
        · exact hnone key hkey

/-- **The passes** leave in the map the meaning of every key. -/
theorem Holds.interpolatePasses_eq {passes levels : Nat}
    (h : Holds config table) (hmean : Table.Says mean table)
    (hbelow : ∀ key, Table.Below depth levels table key)
    (hdepth : ∀ key, depth key ≤ passes + levels)
    {orders : Nat → List String} (horders : ∀ i key, key ∈ orders i ↔ key ∈ config)
    (hkey : key ∈ config) :
    (interpolatePasses passes orders config).1[key]? = some (String.ofList (mean key)) := by
  induction passes generalizing config table levels orders with
  | zero =>
    have htable : table key = (mean key).map .inl :=
      Table.eq_meaning_of_below hmean (by simpa using hdepth key) (hbelow key)
    rw [interpolatePasses, h.value key hkey, htable, renderRefs_plain]
  | succ passes ih =>
    obtain ⟨config', subs, hpass, hholds, hkeys, hzero⟩ :=
      h.foldl_interpolateKey hbelow (fun k hk => (horders 0 k).mp hk) 0
    rw [Nat.zero_add] at hpass
    simp only [interpolatePasses, interpolatePass, hpass]
    by_cases hsubs : subs = 0
    · obtain ⟨hsame, hnone⟩ := hzero hsubs
      rw [if_pos hsubs]
      have htable : table key = (mean key).map .inl := by
        refine Table.eq_meaning_of_below hmean (le_refl (depth key)) fun name hname => ?_
        exact absurd hname (hnone key ((horders 0 key).mpr hkey) name)
      rw [hsame] at hholds
      rw [hholds.value key ((hkeys key).mpr hkey), htable, renderRefs_plain]
    · rw [if_neg hsubs]
      have hdown : ∀ k, Table.Below depth (levels + 1) (Table.round (orders 0) table) k := by
        intro k
        refine (Table.below_round hbelow (orders 0)).2 k ?_
        by_cases hk : k ∈ config
        · exact .inl ((horders 0 k).mpr hk)
        · right
          intro name hname
          rw [h.other k hk] at hname
          cases hname
      refine ih hholds (hmean.round (orders 0)) hdown (fun k => ?_) (fun i k => ?_)
        ((hkeys key).mpr hkey)
      · have hk := hdepth k
        omega
      · rw [hkeys]
        exact horders (i + 1) k

end Interpolate

theorem Holds.exists_bound {config : StrMap String} {table : Table Char String}
    (h : Holds config table) : ∃ bound, ∀ key, refCount (table key) ≤ bound := by
  refine ⟨(config.keys.map fun key => refCount (table key)).sum, fun key => ?_⟩
  by_cases hkey : key ∈ config
  · refine List.single_le_sum (fun _ _ => Nat.zero_le _) _ (List.mem_map.mpr ⟨key, ?_, rfl⟩)
    exact Std.ExtTreeMap.mem_keys.mpr hkey
  · rw [h.other key hkey]
    exact Nat.zero_le _

/-- **The two ways to follow references agree**, in whatever order the map is iterated in each
pass: every key ends up with a value without references, the one that `Expand` returns. -/
theorem interpolate_eq_expand (config defaults : StrMap String) (h : Resolvable config)
    (orders : Nat → List String) (horders : ∀ i, (orders i).Perm config.keys) (key : String)
    (hkey : key ∈ config) :
    ∃ value, (interpolate orders config).1[key]? = some value ∧
      contains value "$\x7b" = false ∧
      ∃ enough, ∀ fuel ≥ enough,
        Legacy.expand ⟨config, defaults⟩ fuel key = some (.ok (some value)) := by
  obtain ⟨table, depth, hholds, hdepth, hten⟩ := h.exists_table
  obtain ⟨bound, hbound⟩ := hholds.exists_bound
  have hchars := hholds.meaning_chars hdepth key
  refine ⟨String.ofList (Table.meaning table depth key), ?_, ?_, depth key + bound + 1, ?_⟩
  · have hbelow : ∀ k, Table.Below depth 0 table k := fun k name hname => hdepth k name hname
    have horder : ∀ i k, k ∈ orders i ↔ k ∈ config := fun i k =>
      (horders i).mem_iff.trans Std.ExtTreeMap.mem_keys
    exact hholds.interpolatePasses_eq (Table.meaning_eq hdepth) hbelow hten horder hkey
  · have hplain : CleanText ((Table.meaning table depth key).map .inl) := CleanText.plain hchars
    rw [Bool.eq_false_iff]
    intro hcontains
    rw [← renderRefs_plain (Table.meaning table depth key), contains_renderRefs hplain] at hcontains
    obtain ⟨name, hname⟩ := hcontains
    simp at hname
  · intro fuel hfuel
    rw [Legacy.expand, hholds.raw_eq defaults hkey]
    simp only []
    rw [hholds.expandDeep_eq hdepth defaults hbound hkey (by simp) (by omega)]
    rfl

/-- A value with two references: the home, a slash and the host. -/
def logPath : RefText Char String :=
  [.inr "home", .inl '/', .inr "host"]

def twoPaths : StrMap String :=
  (((∅ : StrMap String).insert "home" "/opt").insert "host" "mx").insert "log"
    (String.ofList (renderRefs logPath))

theorem twoPaths_cases {value : String} (h : twoPaths[key]? = some value) :
    key = "log" ∧ value = String.ofList (renderRefs logPath) ∨
      ∃ l : List Char, (∀ c ∈ l, c ∉ refChars) ∧ value = String.ofList l := by
  rw [twoPaths, OrdMap.getElem?_insert_iff, OrdMap.getElem?_insert_iff,
    OrdMap.getElem?_insert_iff] at h
  split_ifs at h with hlog hhost hhome
  · exact .inl ⟨hlog.symm, (Option.some.inj h).symm⟩
  · exact .inr ⟨"mx".toList, by simp [refChars], (Option.some.inj h).symm⟩
  · exact .inr ⟨"/opt".toList, by simp [refChars], (Option.some.inj h).symm⟩
  · simp at h

theorem cleanText_logPath : CleanText logPath where
  literal c hc := by
    obtain rfl : c = '/' := by simpa [logPath] using hc
    decide
  name_ne name hname := by
    rcases (by simpa [logPath] using hname : name = "home" ∨ name = "host") with rfl | rfl <;> simp
  name_chars name hname := by
    rcases (by simpa [logPath] using hname : name = "home" ∨ name = "host") with rfl | rfl <;>
      simp [refChars]

theorem refers_twoPaths (h : Refers twoPaths key name) :
    key = "log" ∧ (name = "home" ∨ name = "host") := by
  obtain ⟨value, hvalue, hname, hpart⟩ := h
  rcases twoPaths_cases hvalue with ⟨rfl, rfl⟩ | ⟨l, hl, rfl⟩
  · rw [String.toList_ofList] at hpart
    have hmem := mem_of_refText_isInfix cleanText_logPath hname hpart
    exact ⟨rfl, by simpa [logPath] using hmem⟩
  · rw [String.toList_ofList] at hpart
    exact absurd (hpart.subset List.mem_cons_self) (dollar_notMem hl)

theorem resolvable_twoPaths : Resolvable twoPaths where
  written key value h := by
    rcases twoPaths_cases h with ⟨-, rfl⟩ | ⟨l, hl, rfl⟩
    · exact ⟨logPath, cleanText_logPath, rfl⟩
    · exact ⟨l.map .inl, .plain hl, by rw [renderRefs_plain]⟩
  refers key name h := by
    obtain ⟨-, rfl | rfl⟩ := refers_twoPaths h <;> decide
  paths path hpath := by
    rcases path with _ | ⟨a, _ | ⟨b, _ | ⟨c, rest⟩⟩⟩
    · simp
    · simp
    · simp
    · obtain ⟨hfirst, hrest⟩ := List.isChain_cons_cons.mp hpath
      have hhome := (refers_twoPaths hfirst).2
      rw [(refers_twoPaths (List.isChain_cons_cons.mp hrest).1).1] at hhome
      exact absurd hhome (by decide)

theorem interpolate_eq_expand_log :
    "log" ∈ twoPaths ∧
      ∃ value, (interpolate (fun _ => twoPaths.keys) twoPaths).1["log"]? = some value ∧
        contains value "$\x7b" = false ∧
        ∃ enough, ∀ fuel ≥ enough,
          Legacy.expand ⟨twoPaths, ∅⟩ fuel "log" = some (.ok (some value)) :=
  have hkey : "log" ∈ twoPaths := by decide
  ⟨hkey, interpolate_eq_expand twoPaths ∅ resolvable_twoPaths (fun _ => twoPaths.keys)
    (fun _ => List.Perm.refl _) "log" hkey⟩

example : Legacy.expand ⟨twoPaths, ∅⟩ 4 "log" = some (.ok (some "/opt/mx")) := by decide +kernel

end LocalConfig
end Configd
