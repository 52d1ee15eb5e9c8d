import Configd.Lib.Strings

/-!
# Texts of trimmed lines

Programs that read a text line by line often trim the text, then each line, then the parts of a
line.  A function that white space at the two ends of its argument does not matter to is the same
on the trimmed argument (`trimSpace_induction`); from this rule follow

* `trimSpace_trimSpace` — trimming once is enough;
* `foldl_split_trimSpace` — a loop over lines that ignores blank lines and the white space around
  a line is the same on the trimmed text;
* `cutTrimmed_trimSpace` — the trimmed parts of a line are those of the trimmed line.

`split_ofList_append` and `split_ofList_of_not_mem` say what the lines of a text are;
`lines_induction` is the rule for what is shown line by line.
-/

namespace Configd
namespace Lib
namespace Strings

/-! ## Trimming -/

theorem trimSpace_cons {c : Char} (hc : isSpace c = true) (l : List Char) :
    trimSpace (String.ofList (c :: l)) = trimSpace (String.ofList l) := by
  simp [trimSpace, hc]

theorem trimSpace_concat {c : Char} (hc : isSpace c = true) (l : List Char) :
    trimSpace (String.ofList (l ++ [c])) = trimSpace (String.ofList l) := by
  simp only [trimSpace, String.toList_ofList, List.dropWhile_append]
  by_cases hempty : (l.dropWhile isSpace).isEmpty = true
  · rw [if_pos hempty, List.isEmpty_iff.mp hempty]
    simp [hc]
  · rw [if_neg hempty, List.rdropWhile_concat, if_pos hc]

/-- **The rule for trimming.** -/
theorem trimSpace_induction {β : Type} {f : String → β}
    (hcons : ∀ c l, isSpace c = true → f (String.ofList (c :: l)) = f (String.ofList l))
    (hconcat : ∀ c l, isSpace c = true → f (String.ofList (l ++ [c])) = f (String.ofList l))
    (s : String) : f (trimSpace s) = f s := by
  have hleft : ∀ l : List Char, f (String.ofList (l.dropWhile isSpace)) = f (String.ofList l) := by
    intro l
    induction l with
    | nil => rfl
    | cons c rest ih =>
      by_cases hc : isSpace c = true
      · rw [List.dropWhile_cons_of_pos hc, ih, hcons c rest hc]
      · rw [List.dropWhile_cons_of_neg hc]
  have hright : ∀ l : List Char,
      f (String.ofList (l.rdropWhile isSpace)) = f (String.ofList l) := by
    intro l
    induction l using List.reverseRecOn with
    | nil => rfl
    | append_singleton rest c ih =>
      rw [List.rdropWhile_concat]
      split
      · rename_i hc
        rw [ih, hconcat c rest hc]
      · rfl
  rw [trimSpace, hright, hleft, String.ofList_toList]

@[simp] theorem trimSpace_trimSpace (s : String) : trimSpace (trimSpace s) = trimSpace s :=
  trimSpace_induction (fun _ l hc => trimSpace_cons hc l) (fun _ l hc => trimSpace_concat hc l) s

theorem mem_of_mem_trimSpace {s : String} {c : Char} (h : c ∈ (trimSpace s).toList) :
    c ∈ s.toList := by
  rw [trimSpace, String.toList_ofList] at h
  exact (List.dropWhile_suffix _).subset ((List.rdropWhile_prefix _ _).subset h)

theorem exists_eq_append_trimSpace (s : String) :
    ∃ lead trail : List Char, s.toList = lead ++ ((trimSpace s).toList ++ trail) ∧
      (∀ c ∈ lead, isSpace c = true) ∧ ∀ c ∈ trail, isSpace c = true := by
  refine ⟨s.toList.takeWhile isSpace,
    ((s.toList.dropWhile isSpace).reverse.takeWhile isSpace).reverse, ?_,
    fun c hc => List.mem_takeWhile_imp hc, fun c hc => ?_⟩
  · rw [trimSpace, String.toList_ofList, List.rdropWhile, ← List.reverse_append,
      List.takeWhile_append_dropWhile, List.reverse_reverse, List.takeWhile_append_dropWhile]
  · exact List.mem_takeWhile_imp (List.mem_reverse.mp hc)

theorem trimSpace_append {lead trail : List Char} (hlead : ∀ c ∈ lead, isSpace c = true)
    (htrail : ∀ c ∈ trail, isSpace c = true) (l : List Char) :
    trimSpace (String.ofList (lead ++ (l ++ trail))) = trimSpace (String.ofList l) := by
  induction lead with
  | cons c lead ih =>
    rw [List.forall_mem_cons] at hlead
    rw [List.cons_append, trimSpace_cons hlead.1, ih hlead.2]
  | nil =>
    rw [List.nil_append]
    induction trail using List.reverseRecOn with
    | nil => rw [List.append_nil]
    | append_singleton trail c ih =>
      have hc := htrail c (List.mem_append_right _ (List.mem_singleton.mpr rfl))
      rw [← List.append_assoc, trimSpace_concat hc,
        ih fun d hd => htrail d (List.mem_append_left _ hd)]

/-! ## Lines -/

/-- **The rule for lines**: a text has no separator, or some text behind the first one. -/
theorem lines_induction {motive : List Char → Prop} (sep : Char)
    (last : ∀ l, sep ∉ l → motive l)
    (cons : ∀ before after, sep ∉ before → motive after → motive (before ++ sep :: after))
    (l : List Char) : motive l := by
  induction hlength : l.length using Nat.strong_induction_on generalizing l with
  | _ n ih =>
    by_cases hmem : sep ∈ l
    · obtain ⟨before, after, rfl, hbefore⟩ := List.eq_append_cons_of_mem hmem
      refine cons before after hbefore (ih after.length ?_ after rfl)
      simp only [List.length_append, List.length_cons] at hlength
      omega
    · exact last l hmem

theorem eq_false_of_mem_splitOnP {p : Char → Bool} {l part : List Char} (h : part ∈ l.splitOnP p) :
    ∀ c ∈ part, p c = false := by
  induction l generalizing part with
  | nil => simp_all [List.splitOnP_nil]
  | cons d l ih =>
    rw [List.splitOnP_cons_eq_if_modifyHead] at h
    split at h
    next hd =>
      rcases List.mem_cons.mp h with rfl | h
      · simp
      · exact ih h
    next hd =>
      cases hsplit : l.splitOnP p with
      | nil => exact absurd hsplit (List.splitOnP_ne_nil p l)
      | cons first rest =>
        rw [hsplit, List.modifyHead_cons] at h
        rcases List.mem_cons.mp h with rfl | h
        · simpa [hd] using ih (hsplit ▸ List.mem_cons_self)
        · exact ih (hsplit ▸ List.mem_cons_of_mem _ h)

theorem not_mem_of_mem_split {s line : String} {sep : Char} (h : line ∈ split s sep) :
    sep ∉ line.toList := by
  obtain ⟨part, hpart, rfl⟩ := List.mem_map.mp h
  rw [String.toList_ofList]
  intro hmem
  simpa using eq_false_of_mem_splitOnP hpart sep hmem

theorem split_ofList_append (before after : List Char) (sep : Char) :
    split (String.ofList (before ++ sep :: after)) sep =
      split (String.ofList before) sep ++ split (String.ofList after) sep := by
  simp [split, List.splitOn, List.splitOnP_append_cons]

theorem split_ofList_of_not_mem {l : List Char} {sep : Char} (h : sep ∉ l) :
    split (String.ofList l) sep = [String.ofList l] := by
  simp [split, List.splitOn_eq_singleton h]

section Loops

variable {σ : Type} {act : σ → String → σ} (hblank : ∀ s, act s "" = s)
  (htrim : ∀ s line, act s (trimSpace line) = act s line)

include hblank htrim

theorem foldl_split_cons {c : Char} (hc : isSpace c = true) (l : List Char) (s : σ) :
    (split (String.ofList (c :: l)) '\n').foldl act s =
      (split (String.ofList l) '\n').foldl act s := by
  have hline : ∀ line s, act s (String.ofList (c :: line)) = act s (String.ofList line) := by
    intro line s
    rw [← htrim, trimSpace_cons hc, htrim]
  by_cases hnewline : c = '\n'
  · subst hnewline
    have hempty : split (String.ofList ([] ++ '\n' :: l)) '\n' =
        "" :: split (String.ofList l) '\n' := by
      rw [split_ofList_append]
      rfl
    rw [← List.nil_append ('\n' :: l), hempty, List.foldl_cons, hblank]
  · by_cases hmem : '\n' ∈ l
    · -- The space belongs to the line up to the first line break.
      obtain ⟨before, after, rfl, hbefore⟩ := List.eq_append_cons_of_mem hmem
      have hfirst : '\n' ∉ c :: before := by
        simpa using ⟨fun h => hnewline h.symm, hbefore⟩
      rw [← List.cons_append, split_ofList_append, split_ofList_append,
        split_ofList_of_not_mem hfirst, split_ofList_of_not_mem hbefore]
      simp only [List.singleton_append, List.foldl_cons, hline]
    · have hfirst : '\n' ∉ c :: l := by
        simpa using ⟨fun h => hnewline h.symm, hmem⟩
      rw [split_ofList_of_not_mem hfirst, split_ofList_of_not_mem hmem]
      exact hline l s

theorem foldl_split_concat {c : Char} (hc : isSpace c = true) (l : List Char) (s : σ) :
    (split (String.ofList (l ++ [c])) '\n').foldl act s =
      (split (String.ofList l) '\n').foldl act s := by
  have hline : ∀ line s, act s (String.ofList (line ++ [c])) = act s (String.ofList line) := by
    intro line s
    rw [← htrim, trimSpace_concat hc, htrim]
  by_cases hnewline : c = '\n'
  · subst hnewline
    rw [split_ofList_append, List.foldl_append]
    exact hblank _
  · -- The space belongs to the line behind the last line break.
    induction l using lines_induction '\n' generalizing s with
    | last l hl =>
      have hlast : '\n' ∉ l ++ [c] := by
        simpa using ⟨hl, fun h => hnewline h.symm⟩
      rw [split_ofList_of_not_mem hlast, split_ofList_of_not_mem hl]
      exact hline l s
    | cons before after _ ih =>
      rw [List.append_assoc, List.cons_append, split_ofList_append, split_ofList_append,
        List.foldl_append, List.foldl_append]
      exact ih _

/-- **The white space around a text** does not matter to a loop over its lines that
ignores blank lines and the white space around a line. -/
theorem foldl_split_trimSpace (text : String) (s : σ) :
    (split (trimSpace text) '\n').foldl act s = (split text '\n').foldl act s :=
  trimSpace_induction (f := fun text => (split text '\n').foldl act s)
    (fun _ l hc => foldl_split_cons hblank htrim hc l s)
    (fun _ l hc => foldl_split_concat hblank htrim hc l s) text

end Loops

/-! ## The parts of a line -/

theorem cut_ofList_append {before : List Char} {sep : Char} (hbefore : sep ∉ before)
    (after : List Char) : cut (String.ofList (before ++ sep :: after)) sep =
      some (String.ofList before, String.ofList after) := by
  have happend := cut_append (String.ofList before) (String.ofList after) sep
    (by simpa using hbefore)
  rwa [← String.ofList_append, ← String.ofList_append, List.append_assoc,
    List.singleton_append] at happend

theorem cut_ofList_of_not_mem {l : List Char} {sep : Char} (h : sep ∉ l) :
    cut (String.ofList l) sep = none := by
  simp [cut, h]

/-- The parts of a text, each trimmed. -/
def cutTrimmed (s : String) (sep : Char) : Option (String × String) :=
  (cut s sep).map fun parts => (trimSpace parts.1, trimSpace parts.2)

theorem cutTrimmed_eq_some {s : String} {sep : Char} {parts : String × String}
    (h : cutTrimmed s sep = some parts) :
    trimSpace parts.1 = parts.1 ∧ sep ∉ parts.1.toList ∧
      (∀ c ∈ parts.1.toList, c ∈ s.toList) ∧ ∀ c ∈ parts.2.toList, c ∈ s.toList := by
  by_cases hmem : sep ∈ s.toList
  · simp only [cutTrimmed, cut, if_pos hmem, Option.map_some, Option.some.injEq] at h
    subst h
    refine ⟨trimSpace_trimSpace _, ?_, ?_, ?_⟩
    · intro hsep
      have hkept := List.mem_takeWhile_imp (by simpa using mem_of_mem_trimSpace hsep)
      simp at hkept
    · intro c hc
      have hcut := mem_of_mem_trimSpace hc
      rw [String.toList_ofList] at hcut
      exact (List.takeWhile_prefix _).subset hcut
    · intro c hc
      have hcut := mem_of_mem_trimSpace hc
      rw [String.toList_ofList] at hcut
      exact (List.dropWhile_suffix _).subset (List.mem_of_mem_drop hcut)
  · simp [cutTrimmed, cut, hmem] at h

/-- **The trimmed parts of a line are those of the trimmed line.** -/
theorem cutTrimmed_trimSpace {sep : Char} (hsep : isSpace sep = false) (s : String) :
    cutTrimmed (trimSpace s) sep = cutTrimmed s sep := by
  have hne : ∀ c, isSpace c = true → sep ≠ c := by
    rintro c hc rfl
    simp [hsep] at hc
  refine trimSpace_induction (f := fun s => cutTrimmed s sep) ?_ ?_ s
  · intro c l hc
    by_cases hmem : sep ∈ l
    · obtain ⟨before, after, rfl, hbefore⟩ := List.eq_append_cons_of_mem hmem
      have hfirst : sep ∉ c :: before := by simpa using ⟨hne c hc, hbefore⟩
      simp only [cutTrimmed]
      rw [← List.cons_append, cut_ofList_append hfirst, cut_ofList_append hbefore]
      simp only [Option.map_some, trimSpace_cons hc]
    · have hfirst : sep ∉ c :: l := by simpa using ⟨hne c hc, hmem⟩
      simp only [cutTrimmed]
      rw [cut_ofList_of_not_mem hfirst, cut_ofList_of_not_mem hmem]
  · intro c l hc
    by_cases hmem : sep ∈ l
    · obtain ⟨before, after, rfl, hbefore⟩ := List.eq_append_cons_of_mem hmem
      simp only [cutTrimmed]
      rw [List.append_assoc, List.cons_append, cut_ofList_append hbefore, cut_ofList_append hbefore]
      simp only [Option.map_some, trimSpace_concat hc]
    · have hlast : sep ∉ l ++ [c] := by simpa using ⟨hmem, hne c hc⟩
      simp only [cutTrimmed]
      rw [cut_ofList_of_not_mem hlast, cut_ofList_of_not_mem hmem]

end Strings
end Lib
end Configd
