import Configd.Lib.Regex

/-!
# Markers between fences

A marker is a text between two fences, each of them a character written twice, as in
`%%name%%`.  `fenced` is the pattern of the markers whose content is one of some fixed heads
followed by a nonempty run of a class of characters, none of them the fence.

`Marked` is a text whose markers are known.  The pattern finds exactly those markers in the
text (`seen_render_iff`) unless somewhere between them the text itself reads as a marker
(`Unbroken`).
-/

namespace Configd
namespace Lib
namespace Regex

/-- The pattern of a marker. -/
def fenced (fence : Char) (heads : List (List Char)) (chars : Char → Bool) : Pattern :=
  heads.map fun head => [.lit (fence :: fence :: head), .rep chars 1 none true, .lit [fence, fence]]

/-- A text with the places of its markers: a character, or the text of a marker. -/
abbrev Marked := List (Char ⊕ List Char)

namespace Marked

def render (u : Marked) : List Char :=
  u.flatMap (Sum.elim ([·]) id)

def plain (s : List Char) : Marked :=
  s.map .inl

@[simp] theorem render_inl (c : Char) (u : Marked) : render (.inl c :: u) = c :: render u := rfl

@[simp] theorem render_inr (text : List Char) (u : Marked) :
    render (.inr text :: u) = text ++ render u := rfl

@[simp] theorem render_append (u v : Marked) : render (u ++ v) = render u ++ render v :=
  List.flatMap_append

theorem flatMap_plain (s : List Char) (value : List Char → List Char) :
    (plain s).flatMap (Sum.elim ([·]) value) = s := by
  simp [plain, List.flatMap_map]

@[simp] theorem inl_mem_plain {s : List Char} {c : Char} : .inl c ∈ plain s ↔ c ∈ s := by
  simp [plain]

@[simp] theorem inr_notMem_plain (s text : List Char) : .inr text ∉ plain s := by
  simp [plain]

@[simp] theorem render_plain (s : List Char) : render (plain s) = s :=
  flatMap_plain s id

end Marked

/-- The markers that a pattern finds in a text. -/
def seen (re : Pattern) (s : List Char) : Marked :=
  (find re s).map (Sum.map id Match.text)

theorem render_seen (re : Pattern) (s : List Char) : Marked.render (seen re s) = s := by
  refine Eq.trans ?_ (flatMap_find re s)
  rw [Marked.render, seen, List.flatMap_map]
  refine List.flatMap_congr fun piece _ => ?_
  cases piece <;> rfl

@[simp] theorem inl_mem_seen {re : Pattern} {s : List Char} {c : Char} :
    .inl c ∈ seen re s ↔ .inl c ∈ find re s := by
  simp [seen]

theorem inr_mem_seen {re : Pattern} {s text : List Char} :
    .inr text ∈ seen re s ↔ ∃ m, .inr m ∈ find re s ∧ m.text = text := by
  simp [seen]

section Fenced

variable (fence : Char) (heads : List (List Char)) (chars : Char → Bool)

/-- What stands in a marker. -/
def Content (content : List Char) : Prop :=
  ∃ head ∈ heads, ∃ word, word ≠ [] ∧ (∀ c ∈ word, chars c = true) ∧ content = head ++ word

def mark (content : List Char) : List Char :=
  fence :: fence :: (content ++ [fence, fence])

/-- The text between the markers never reads as the beginning of a marker that ends in it, or
at the next marker. -/
def Unbroken (u : Marked) : Prop :=
  ∀ before content after, Content heads chars content →
    u = before ++ (Marked.plain (fence :: fence :: content) ++ after) →
      ¬[fence, fence] <+: Marked.render after

variable {fence heads chars}

variable {s : List Char}

theorem append_fence_inj {a b t : List Char} (ha : fence ∉ a) (hb : fence ∉ b)
    (h : a ++ fence :: s = b ++ fence :: t) : a = b ∧ s = t := by
  induction a generalizing b with
  | nil =>
    cases b with
    | nil => exact ⟨rfl, (List.cons.inj h).2⟩
    | cons d b => exact absurd (List.cons.inj h).1 fun heq => hb (heq ▸ List.mem_cons_self)
  | cons c a ih =>
    cases b with
    | nil => exact absurd (List.cons.inj h).1.symm fun heq => ha (heq ▸ List.mem_cons_self)
    | cons d b =>
      obtain ⟨rfl, htail⟩ := List.cons.inj h
      obtain ⟨rfl, rfl⟩ := ih (fun hc => ha (List.mem_cons_of_mem _ hc))
        (fun hc => hb (List.mem_cons_of_mem _ hc)) htail
      exact ⟨rfl, rfl⟩

theorem flatMap_fence_inj {pieces pieces' : List (List Char)} (h : ∀ piece ∈ pieces, fence ∉ piece)
    (h' : ∀ piece ∈ pieces', fence ∉ piece)
    (heq : pieces.flatMap (· ++ [fence]) = pieces'.flatMap (· ++ [fence])) : pieces = pieces' := by
  induction pieces generalizing pieces' with
  | nil =>
    cases pieces' with
    | nil => rfl
    | cons piece' rest' => simp at heq
  | cons piece rest ih =>
    cases pieces' with
    | nil => simp at heq
    | cons piece' rest' =>
      simp only [List.flatMap_cons, List.append_assoc, List.singleton_append] at heq
      obtain ⟨rfl, hrest⟩ := append_fence_inj (h piece List.mem_cons_self)
        (h' piece' List.mem_cons_self) heq
      rw [ih (fun other hother => h other (List.mem_cons_of_mem _ hother))
        (fun other hother => h' other (List.mem_cons_of_mem _ hother)) hrest]

theorem mark_append_inj {a b t : List Char} (ha : fence ∉ a) (hb : fence ∉ b)
    (h : mark fence a ++ s = mark fence b ++ t) : a = b ∧ s = t := by
  have hinner : a ++ fence :: fence :: s = b ++ fence :: fence :: t := by
    simpa [mark] using h
  obtain ⟨rfl, hrest⟩ := append_fence_inj ha hb hinner
  exact ⟨rfl, (List.cons.inj hrest).2⟩

section Match

variable (hchars : chars fence = false) (hheads : ∀ head ∈ heads, fence ∉ head)

include hchars hheads in
theorem fence_notMem_of_content {content : List Char} (h : Content heads chars content) :
    fence ∉ content := by
  obtain ⟨head, hhead, word, -, hword, rfl⟩ := h
  rw [List.mem_append, not_or]
  refine ⟨hheads head hhead, fun hmem => ?_⟩
  rw [hword fence hmem] at hchars
  cases hchars

include hchars in
theorem matchItems_fenced {head : List Char} {m : Match}
    (h : matchItems [.lit (fence :: fence :: head), .rep chars 1 none true, .lit [fence, fence]] s =
      some m) :
    ∃ word rest, word ≠ [] ∧ (∀ c ∈ word, chars c = true) ∧
      s = mark fence (head ++ word) ++ rest ∧ m.text = mark fence (head ++ word) ∧
        m.rest = rest := by
  by_cases hlit : fence :: fence :: head <+: s
  · obtain ⟨s, rfl⟩ := hlit
    rw [matchItems_lit, matchItems_rep_lit hchars] at h
    by_cases hlength : 1 ≤ (s.takeWhile chars).length
    · rw [if_pos hlength] at h
      by_cases hclose : [fence, fence] <+: s.dropWhile chars
      · obtain ⟨rest, hrest⟩ := hclose
        rw [← hrest, matchItems_lit] at h
        obtain rfl := Option.some.inj h
        refine ⟨s.takeWhile chars, rest, List.ne_nil_of_length_pos hlength,
          fun c hc => List.mem_takeWhile_imp hc, ?_, ?_, rfl⟩
        · conv_lhs => rw [← List.takeWhile_append_dropWhile (p := chars) (l := s), ← hrest]
          simp [mark]
        · simp [mark, Match.prepend]
      · rw [matchItems_lit_eq_none hclose] at h
        cases h
    · rw [if_neg hlength] at h
      cases h
  · rw [matchItems_lit_eq_none hlit] at h
    cases h

include hchars in
theorem matchItems_mark {head word : List Char} (hne : word ≠ [])
    (hword : ∀ c ∈ word, chars c = true) (rest : List Char) :
    (matchItems [.lit (fence :: fence :: head), .rep chars 1 none true, .lit [fence, fence]]
      (mark fence (head ++ word) ++ rest)).isSome = true := by
  have hsplit : mark fence (head ++ word) ++ rest =
      (fence :: fence :: head) ++ (word ++ ([fence, fence] ++ rest)) := by
    simp [mark]
  have htake : (word ++ ([fence, fence] ++ rest)).takeWhile chars = word := by
    rw [List.takeWhile_append_of_pos hword]
    simp [hchars]
  have hdrop : (word ++ ([fence, fence] ++ rest)).dropWhile chars = [fence, fence] ++ rest := by
    rw [List.dropWhile_append_of_pos hword]
    simp [hchars]
  rw [hsplit, matchItems_lit, matchItems_rep_lit hchars, htake, hdrop,
    if_pos (Nat.one_le_iff_ne_zero.mpr (List.length_pos_iff.mpr hne).ne'), matchItems_lit]
  rfl

include hchars in
/-- **A match is a marker** at the beginning of the text. -/
theorem matchAt_fenced {m : Match}
    (h : matchAt (fenced fence heads chars) s = some m) :
    ∃ content, Content heads chars content ∧ m.text = mark fence content ∧
      s = mark fence content ++ m.rest := by
  obtain ⟨items, hitems, hmatch⟩ := List.exists_of_findSome?_eq_some h
  obtain ⟨head, hhead, rfl⟩ := List.mem_map.mp hitems
  obtain ⟨word, rest, hne, hword, hs, htext, hrest⟩ := matchItems_fenced hchars hmatch
  exact ⟨head ++ word, ⟨head, hhead, word, hne, hword, rfl⟩, htext, by rw [hs, hrest]⟩

include hchars hheads in
/-- **A marker is found** where it begins. -/
theorem matchAt_mark {content : List Char} (h : Content heads chars content) (rest : List Char) :
    ∃ m, matchAt (fenced fence heads chars) (mark fence content ++ rest) = some m ∧
      m.text = mark fence content ∧ m.rest = rest := by
  obtain ⟨head, hhead, word, hne, hword, rfl⟩ := id h
  have hsome : (matchAt (fenced fence heads chars) (mark fence (head ++ word) ++ rest)).isSome := by
    rw [matchAt, List.findSome?_isSome_iff]
    exact ⟨_, List.mem_map.mpr ⟨head, hhead, rfl⟩, matchItems_mark hchars hne hword rest⟩
  obtain ⟨m, hm⟩ := Option.isSome_iff_exists.mp hsome
  obtain ⟨content, hcontent, htext, hs⟩ := matchAt_fenced hchars hm
  obtain ⟨rfl, hrest⟩ := mark_append_inj (fence_notMem_of_content hchars hheads h)
    (fence_notMem_of_content hchars hheads hcontent) hs
  exact ⟨m, hm, htext, hrest.symm⟩

variable {u : Marked}

theorem exists_plain_of_mark {content : List Char} (hfree : fence ∉ content)
    (hu : ∀ text, .inr text ∈ u → ∃ inner, text = mark fence inner)
    (h : Marked.render u = content ++ fence :: s) :
    ∃ after, u = Marked.plain content ++ after ∧ Marked.render after = fence :: s := by
  induction content generalizing u with
  | nil => exact ⟨u, rfl, h⟩
  | cons c content ih =>
    rw [List.mem_cons, not_or] at hfree
    cases u with
    | nil => cases h
    | cons piece u =>
      cases piece with
      | inl d =>
        obtain ⟨rfl, htail⟩ := List.cons.inj h
        obtain ⟨after, rfl, hafter⟩ := ih hfree.2
          (fun text htext => hu text (List.mem_cons_of_mem _ htext)) htail
        exact ⟨after, rfl, hafter⟩
      | inr text =>
        -- A marker begins with the fence, which the content does not hold.
        obtain ⟨inner, rfl⟩ := hu text List.mem_cons_self
        exact absurd (List.cons.inj h).1 hfree.1

include hchars hheads in
theorem exists_of_matchAt_inl {c : Char} {m : Match}
    (hu : ∀ text, .inr text ∈ u → ∃ inner, text = mark fence inner)
    (h : matchAt (fenced fence heads chars) (c :: Marked.render u) = some m) :
    ∃ content after, Content heads chars content ∧
      .inl c :: u = Marked.plain (fence :: fence :: content) ++ after ∧
        [fence, fence] <+: Marked.render after := by
  obtain ⟨content, hcontent, -, hs⟩ := matchAt_fenced hchars h
  have hfree := fence_notMem_of_content hchars hheads hcontent
  obtain ⟨hfirst, hs⟩ := List.cons.inj hs
  have hne : content ≠ [] := by
    obtain ⟨head, -, word, hword, -, rfl⟩ := hcontent
    exact fun hnil => hword (List.append_eq_nil_iff.mp hnil).2
  cases u with
  | nil => cases hs
  | cons piece u =>
    cases piece with
    | inl d =>
      obtain ⟨hsecond, hs⟩ := List.cons.inj hs
      have htail : Marked.render u = content ++ fence :: fence :: m.rest :=
        hs.trans (List.append_assoc content [fence, fence] m.rest)
      obtain ⟨after, rfl, hafter⟩ := exists_plain_of_mark hfree
        (fun text htext => hu text (List.mem_cons_of_mem _ htext)) htail
      exact ⟨content, after, hcontent, by rw [hfirst, hsecond]; rfl,
        hafter ▸ ⟨m.rest, rfl⟩⟩
    | inr text =>
      -- The second fence would be the first of a marker, and the content begin with a fence.
      obtain ⟨inner, rfl⟩ := hu text List.mem_cons_self
      have hsecond := (List.cons.inj hs).2
      obtain ⟨d, content, rfl⟩ := List.exists_cons_of_ne_nil hne
      exact absurd (List.cons.inj hsecond).1 fun heq => hfree (heq ▸ List.mem_cons_self)

/-! ## What the pattern sees in a marked text -/

/-- The markers of a marked text are markers of the pattern. -/
def Marked.WellMarked (fence : Char) (heads : List (List Char)) (chars : Char → Bool)
    (u : Marked) : Prop :=
  ∀ text, .inr text ∈ u → ∃ content, Content heads chars content ∧ text = mark fence content

theorem Unbroken.of_cons {piece : Char ⊕ List Char}
    (h : Unbroken fence heads chars (piece :: u)) : Unbroken fence heads chars u :=
  fun before content after hcontent heq =>
    h (piece :: before) content after hcontent (by rw [heq, List.cons_append])

include hchars hheads in
theorem seen_mark {content : List Char} (h : Content heads chars content) (rest : List Char) :
    seen (fenced fence heads chars) (mark fence content ++ rest) =
      .inr (mark fence content) :: seen (fenced fence heads chars) rest := by
  obtain ⟨m, hm, htext, hrest⟩ := matchAt_mark hchars hheads h rest
  have hne : m.text ≠ [] := by
    rw [htext]
    exact List.cons_ne_nil _ _
  rw [seen, find_match hm hne, List.map_cons, hrest]
  exact congrArg (Sum.inr · :: _) htext

include hchars hheads in
/-- **The pattern sees exactly the markers of a marked text**, when nothing between them reads
as one. -/
theorem seen_render_of_unbroken (hu : Marked.WellMarked fence heads chars u)
    (h : Unbroken fence heads chars u) : seen (fenced fence heads chars) (Marked.render u) = u := by
  induction u with
  | nil => rfl
  | cons piece u ih =>
    have hrest := ih (fun text htext => hu text (List.mem_cons_of_mem _ htext)) h.of_cons
    cases piece with
    | inl c =>
      have hnone : matchAt (fenced fence heads chars) (c :: Marked.render u) = none := by
        rw [Option.eq_none_iff_forall_ne_some]
        intro m hm
        obtain ⟨content, after, hcontent, heq, hclose⟩ := exists_of_matchAt_inl hchars hheads
          (fun text htext => by
            obtain ⟨inner, -, heq⟩ := hu text (List.mem_cons_of_mem _ htext)
            exact ⟨inner, heq⟩) hm
        exact h [] content after hcontent heq hclose
      rw [Marked.render_inl, seen, find_skip hnone, List.map_cons]
      exact congrArg (Sum.inl c :: ·) hrest
    | inr text =>
      obtain ⟨content, hcontent, rfl⟩ := hu text List.mem_cons_self
      rw [Marked.render_inr, seen_mark hchars hheads hcontent, hrest]

include hchars hheads in
theorem unbroken_of_seen_render (hu : Marked.WellMarked fence heads chars u)
    (h : seen (fenced fence heads chars) (Marked.render u) = u) : Unbroken fence heads chars u := by
  intro before content after hcontent heq hclose
  induction before generalizing u with
  | nil =>
    obtain ⟨rest, hrest⟩ := hclose
    have hrender : Marked.render u = mark fence content ++ rest := by
      rw [heq, List.nil_append, Marked.render_append, Marked.render_plain, ← hrest]
      simp [mark]
    rw [hrender, seen_mark hchars hheads hcontent, heq] at h
    cases h
  | cons piece before ih =>
    subst heq
    have hwell : Marked.WellMarked fence heads chars
        (before ++ (Marked.plain (fence :: fence :: content) ++ after)) :=
      fun text htext => hu text (List.mem_cons_of_mem _ htext)
    cases piece with
    | inl c =>
      rw [List.cons_append, Marked.render_inl, seen] at h
      cases hm : matchAt (fenced fence heads chars) (c :: Marked.render
          (before ++ (Marked.plain (fence :: fence :: content) ++ after))) with
      | none =>
        rw [find_skip hm, List.map_cons] at h
        exact ih hwell (List.cons.inj h).2 rfl
      | some m =>
        have hne : m.text ≠ [] := by
          obtain ⟨_, -, htext, -⟩ := matchAt_fenced hchars hm
          rw [htext]
          exact List.cons_ne_nil _ _
        rw [find_match hm hne] at h
        cases h
    | inr text =>
      obtain ⟨inner, hinner, rfl⟩ := hu text List.mem_cons_self
      rw [List.cons_append, Marked.render_inr, seen_mark hchars hheads hinner] at h
      exact ih hwell (List.cons.inj h).2 rfl

include hchars hheads in
theorem seen_render_iff (hu : Marked.WellMarked fence heads chars u) :
    seen (fenced fence heads chars) (Marked.render u) = u ↔ Unbroken fence heads chars u :=
  ⟨unbroken_of_seen_render hchars hheads hu, seen_render_of_unbroken hchars hheads hu⟩

include hchars in
theorem content_of_mem_find {m : Match}
    (h : .inr m ∈ find (fenced fence heads chars) s) :
    ∃ content, Content heads chars content ∧ m.text = mark fence content := by
  obtain ⟨t, ht⟩ := matchAt_of_mem_find h
  obtain ⟨content, hcontent, htext, -⟩ := matchAt_fenced hchars ht
  exact ⟨content, hcontent, htext⟩

include hchars in
theorem seen_append {p : List Char} (h : fence ∉ p) (s : List Char) :
    seen (fenced fence heads chars) (p ++ s) =
      Marked.plain p ++ seen (fenced fence heads chars) s := by
  induction p with
  | nil => rfl
  | cons c p ih =>
    rw [List.mem_cons, not_or] at h
    have hnone : matchAt (fenced fence heads chars) (c :: (p ++ s)) = none := by
      rw [Option.eq_none_iff_forall_ne_some]
      intro m hm
      obtain ⟨content, -, -, hs⟩ := matchAt_fenced hchars hm
      exact h.1 (List.cons.inj hs).1.symm
    rw [List.cons_append, seen, find_skip hnone, List.map_cons]
    exact congrArg (Sum.inl c :: ·) (ih h.2)

include hchars in
theorem seen_of_notMem (h : fence ∉ s) :
    seen (fenced fence heads chars) s = Marked.plain s := by
  conv_lhs => rw [← List.append_nil s, seen_append hchars h]
  exact List.append_nil _

theorem close_of_append {l t : List Char} (ht : fence ∉ t) (h : [fence, fence] <+: l ++ t) :
    [fence, fence] <+: l := by
  rcases l with _ | ⟨a, _ | ⟨b, l⟩⟩
  · exact absurd (h.subset List.mem_cons_self) ht
  · rw [List.cons_append, List.cons_prefix_cons] at h
    exact absurd (h.2.subset List.mem_cons_self) ht
  · simp only [List.cons_append, List.cons_prefix_cons] at h ⊢
    exact ⟨h.1, h.2.1, List.nil_prefix⟩

include hchars hheads in
/-- **Text without a fence** around a text adds no marker to it. -/
theorem seen_surround {p t : List Char} (hp : fence ∉ p) (ht : fence ∉ t) :
    seen (fenced fence heads chars) (p ++ (s ++ t)) =
      Marked.plain p ++ (seen (fenced fence heads chars) s ++ Marked.plain t) := by
  obtain ⟨u, hu⟩ : ∃ u, seen (fenced fence heads chars) s = u := ⟨_, rfl⟩
  have hrender : Marked.render u = s := hu ▸ render_seen _ s
  have hwell : Marked.WellMarked fence heads chars u := by
    intro text htext
    obtain ⟨m, hm, rfl⟩ := inr_mem_seen.mp (hu ▸ htext)
    exact content_of_mem_find hchars hm
  have hunbroken := unbroken_of_seen_render hchars hheads hwell (by rw [hrender, hu])
  have happend : s ++ t = Marked.render (u ++ Marked.plain t) := by
    rw [Marked.render_append, Marked.render_plain, hrender]
  rw [seen_append hchars hp, hu, happend]
  refine congrArg _ (seen_render_of_unbroken hchars hheads ?_ ?_)
  · intro text htext
    exact hwell text ((List.mem_append.mp htext).resolve_right (Marked.inr_notMem_plain t text))
  · intro before content after hcontent heq hclose
    rw [← List.append_assoc] at heq
    rcases List.append_eq_append_iff.mp heq with ⟨mid, -, hplain⟩ | ⟨mid, hmid, rfl⟩
    · have htext := congrArg Marked.render hplain
      rw [Marked.render_plain, Marked.render_append] at htext
      exact ht (htext ▸ List.mem_append_right _ (hclose.subset List.mem_cons_self))
    · rw [Marked.render_append, Marked.render_plain] at hclose
      exact hunbroken before content mid hcontent (by rw [hmid, List.append_assoc])
        (close_of_append ht hclose)

end Match

end Fenced

theorem map_find {β : Type} (re : Pattern) (s : List Char) (f : Char → β) (g : List Char → β) :
    (find re s).map (Sum.elim f fun m => g m.text) = (seen re s).map (Sum.elim f g) := by
  rw [seen, List.map_map]
  refine List.map_congr_left fun piece _ => ?_
  cases piece <;> rfl

section Replace

variable {ε : Type} {re : Pattern} {f : String → Except ε String} {s out : String}

theorem replaceAll_of_seen (value : List Char → List Char) (hseen : seen re s.toList = u)
    (h : ∀ text, .inr text ∈ u → f (String.ofList text) = .ok (String.ofList (value text))) :
    replaceAll re f s = .ok (String.ofList (u.flatMap (Sum.elim ([·]) value))) := by
  subst hseen
  rw [List.flatMap_def, ← map_find, ← List.flatMap_def]
  exact replaceAll_ok fun m hm => h m.text (inr_mem_seen.mpr ⟨m, hm, rfl⟩)

/-- **The result of replacing**, each marker replaced on its own. -/
theorem eq_of_replaceAll (h : replaceAll re f s = .ok out) :
    out = String.ofList ((seen re s.toList).flatMap
      (Sum.elim ([·]) fun text => ((f (String.ofList text)).toOption.getD "").toList)) := by
  rw [flatMap_of_replaceAll h, List.flatMap_def, List.flatMap_def, ← map_find]

theorem replaceAll_of_seen_plain (h : seen re s.toList = Marked.plain s.toList) :
    replaceAll re f s = .ok s := by
  rw [replaceAll_of_seen id h fun text htext => absurd htext (Marked.inr_notMem_plain _ text),
    Marked.flatMap_plain, String.ofList_toList]

end Replace

end Regex
end Lib
end Configd
