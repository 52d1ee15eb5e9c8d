import Configd.Lib.Lines

/-!
# Texts up to white space

`fields` gives the words of a text.  Two texts with the same words differ in white
space only, so a function that only rearranges white space is described by the words
it keeps: those of a trimmed text (`fields_trimSpace`), of the lines of a text
(`flatMap_fields_split`) and of a text put together with blanks (`fields_join`).
`cutPrefix_append`, `cutPrefix_eq_some`, `cut_eq_some` and `cutText_append` are about a text that
is put together from its parts.
-/

namespace Configd
namespace Lib
namespace Strings

theorem cutPrefix_append (pre rest : String) : cutPrefix (pre ++ rest) pre = some rest := by
  simp [cutPrefix]

@[simp] theorem fields_empty : fields "" = [] := by decide

theorem cutPrefix_eq_some {s pre rest : String} (h : cutPrefix s pre = some rest) :
    s = pre ++ rest := by
  unfold cutPrefix at h
  split at h
  next hpre =>
    obtain ⟨tail, rfl⟩ := hasPrefix_iff.mp hpre
    obtain rfl := Option.some.inj h
    simp
  next => cases h

/-- `strings.Cut` at a longer separator. -/
def cutText (sep : List Char) : List Char → Option (List Char × List Char)
  | [] => if sep = [] then some ([], []) else none
  | c :: s =>
    if sep.isPrefixOf (c :: s) then some ([], (c :: s).drop sep.length)
    else (cutText sep s).map fun (before, after) => (c :: before, after)

theorem cutText_eq_some {sep s before after : List Char}
    (h : cutText sep s = some (before, after)) :
    s = before ++ (sep ++ after) := by
  induction s generalizing before with
  | nil =>
    simp only [cutText] at h
    split at h
    next hsep =>
      obtain ⟨rfl, rfl⟩ := Prod.mk.inj (Option.some.inj h)
      rw [hsep]
      rfl
    next => cases h
  | cons c s ih =>
    simp only [cutText] at h
    split at h
    next hpre =>
      obtain ⟨rfl, rfl⟩ := Prod.mk.inj (Option.some.inj h)
      obtain ⟨rest, hrest⟩ := List.isPrefixOf_iff_prefix.mp hpre
      rw [← hrest, List.drop_left]
      rfl
    next =>
      obtain ⟨parts, hparts, heq⟩ := Option.map_eq_some_iff.mp h
      obtain ⟨rfl, rfl⟩ := Prod.mk.inj heq
      rw [ih hparts]
      rfl

theorem cutText_append {c : Char} {sep before after : List Char} (hbefore : c ∉ before) :
    cutText (c :: sep) (before ++ (c :: sep ++ after)) = some (before, after) := by
  induction before with
  | nil =>
    have hpre : (c :: sep).isPrefixOf (c :: sep ++ after) = true :=
      List.isPrefixOf_iff_prefix.mpr (List.prefix_append _ _)
    rw [List.nil_append, List.cons_append, cutText, ← List.cons_append, if_pos hpre,
      List.drop_left]
  | cons d before ih =>
    rw [List.mem_cons, not_or] at hbefore
    have hpre : (c :: sep).isPrefixOf (d :: (before ++ (c :: sep ++ after))) = false := by
      rw [Bool.eq_false_iff]
      intro hpre
      have hfirst := List.isPrefixOf_iff_prefix.mp hpre
      exact hbefore.1 (List.cons_prefix_cons.mp hfirst).1
    rw [List.cons_append, cutText, hpre, ih hbefore.2]
    rfl

theorem cut_eq_some {s before after : String} {sep : Char} (h : cut s sep = some (before, after)) :
    s.toList = before.toList ++ sep :: after.toList ∧ sep ∉ before.toList := by
  unfold cut at h
  split at h
  · rename_i hmem
    obtain ⟨l, r, heq, hl⟩ := List.eq_append_cons_of_mem hmem
    have hs : s = String.ofList (l ++ sep :: r) := by rw [← heq, String.ofList_toList]
    have hparts := cut_ofList_append hl r
    rw [← hs] at hparts
    unfold cut at hparts
    rw [if_pos hmem, h] at hparts
    obtain ⟨rfl, rfl⟩ := Prod.mk.inj (Option.some.inj hparts)
    exact ⟨by simpa using heq, by simpa using hl⟩
  · cases h

theorem fields_ofList_append {c : Char} (hc : isSpace c = true) (before after : List Char) :
    fields (String.ofList (before ++ c :: after)) =
      fields (String.ofList before) ++ fields (String.ofList after) := by
  simp [fields, List.splitOnP_append_cons _ _ hc]

@[simp] theorem fields_trimSpace (s : String) : fields (trimSpace s) = fields s := by
  refine trimSpace_induction (f := fields) ?_ ?_ s
  · intro c l hc
    have happend := fields_ofList_append hc [] l
    simpa using happend
  · intro c l hc
    have happend := fields_ofList_append hc l []
    simpa using happend

/-- **The words of a text are those of its lines.** -/
theorem flatMap_fields_split {sep : Char} (hsep : isSpace sep = true) (s : String) :
    (split s sep).flatMap fields = fields s := by
  rw [← String.ofList_toList (s := s)]
  induction s.toList using lines_induction sep with
  | last l hl =>
    rw [split_ofList_of_not_mem hl]
    simp
  | cons before after hbefore ih =>
    rw [split_ofList_append, split_ofList_of_not_mem hbefore, List.flatMap_append, ih,
      fields_ofList_append hsep]
    simp

/-- **The words of parts put together with blanks.** -/
theorem fields_join (parts : List String) : fields (join " " parts) = parts.flatMap fields := by
  unfold join
  induction parts with
  | nil => rfl
  | cons first rest ih =>
    cases rest with
    | nil => simp
    | cons second rest =>
      have hblank : first ++ " " ++ String.intercalate " " (second :: rest) =
          String.ofList (first.toList ++
            ' ' :: (String.intercalate " " (second :: rest)).toList) := by
        rw [← String.toList_inj]
        simp
      rw [String.intercalate_cons_cons, hblank, fields_ofList_append (by decide),
        String.ofList_toList, String.ofList_toList, ih]
      simp

theorem isSpace_of_mem_fields {s field : String} (h : field ∈ fields s) :
    ∀ c ∈ field.toList, isSpace c = false := by
  obtain ⟨part, hpart, rfl⟩ := List.mem_map.mp h
  rw [String.toList_ofList]
  exact eq_false_of_mem_splitOnP (List.mem_filter.mp hpart).1

theorem fields_of_mem_fields {s field : String} (h : field ∈ fields s) :
    fields field = [field] := by
  have hspace := isSpace_of_mem_fields h
  obtain ⟨part, hpart, rfl⟩ := List.mem_map.mp h
  rw [String.toList_ofList] at hspace
  have hne : part ≠ [] := by simpa using (List.mem_filter.mp hpart).2
  rw [fields, String.toList_ofList, List.splitOnP_eq_singleton (by simpa using hspace)]
  simp [hne]

@[simp] theorem toList_join_empty (parts : List String) :
    (join "" parts).toList = parts.flatMap String.toList := by
  unfold join
  induction parts with
  | nil => rfl
  | cons first rest ih =>
    cases rest with
    | nil => simp
    | cons second rest => simpa using ih

theorem mem_join {sep : String} {parts : List String} {c : Char}
    (h : c ∈ (join sep parts).toList) : c ∈ sep.toList ∨ ∃ part ∈ parts, c ∈ part.toList := by
  unfold join at h
  induction parts with
  | nil => simp at h
  | cons first rest ih =>
    cases rest with
    | nil => exact .inr ⟨first, List.mem_singleton.mpr rfl, by simpa using h⟩
    | cons second rest =>
      rw [String.intercalate_cons_cons, String.toList_append, String.toList_append,
        List.mem_append, List.mem_append] at h
      rcases h with (hfirst | hsep) | hrest
      · exact .inr ⟨first, List.mem_cons_self, hfirst⟩
      · exact .inl hsep
      · rcases ih hrest with hsep | ⟨part, hpart, hc⟩
        · exact .inl hsep
        · exact .inr ⟨part, List.mem_cons_of_mem _ hpart, hc⟩

end Strings
end Lib
end Configd
