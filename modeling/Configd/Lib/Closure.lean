import Mathlib

/-!
# The closure of a list of items

A breadth-first search from a list of roots, which keeps what it has found and
puts every new item on a queue once.  `search_ends` says that it comes to an end,
`search_fresh` that it finds no root and nothing twice, and `mem_search_iff` that it
finds exactly what the roots reach, when it may make one turn for every root and one
for every item that something leads to.
-/

namespace Configd
namespace Lib
namespace Closure

open Relation

variable {α : Type} [DecidableEq α]

/-- The state of a search: the items that are still to be expanded, and those that
were found beside the roots. -/
structure Search (α : Type) where
  queue : List α
  out : List α := []

/-- An item that was not seen before is found and queued. -/
def push (roots : List α) (s : Search α) (item : α) : Search α :=
  if item ∈ roots ∨ item ∈ s.out then s else ⟨s.queue ++ [item], s.out ++ [item]⟩

/-- The search, with at most `fuel` turns. -/
def search (next : α → List α) (roots : List α) : Nat → Search α → List α
  | 0, s => s.out
  | fuel + 1, s =>
    match s.queue with
    | [] => s.out
    | item :: rest =>
      search next roots fuel ((next item).foldl (push roots) { s with queue := rest })

/-- The search comes to an empty queue within `fuel` turns. -/
def Ends (next : α → List α) (roots : List α) : Nat → Search α → Prop
  | 0, s => s.queue = []
  | fuel + 1, s =>
    match s.queue with
    | [] => True
    | item :: rest => Ends next roots fuel ((next item).foldl (push roots) { s with queue := rest })

theorem search_induction {P : List α → Prop} {roots : List α}
    (hpush : ∀ s item, P s.out → P (push roots s item).out) (next : α → List α) (fuel : Nat)
    {s : Search α} (hs : P s.out) : P (search next roots fuel s) := by
  induction fuel generalizing s with
  | zero => exact hs
  | succ fuel ih =>
    rw [search]
    split
    · exact hs
    · refine ih ?_
      exact List.foldlRecOn (motive := fun s : Search α => P s.out) _ _ hs
        fun s hs item _ => hpush s item hs

theorem search_fresh (next : α → List α) (roots : List α) (fuel : Nat) :
    (search next roots fuel ⟨roots, []⟩).Nodup ∧
      ∀ x ∈ search next roots fuel ⟨roots, []⟩, x ∉ roots := by
  refine search_induction (P := fun out => out.Nodup ∧ ∀ x ∈ out, x ∉ roots) ?_ next fuel (by simp)
  rintro s item ⟨hnodup, hroots⟩
  unfold push
  split
  · exact ⟨hnodup, hroots⟩
  · rename_i hseen
    push Not at hseen
    refine ⟨?_, ?_⟩
    · exact List.nodup_append.mpr ⟨hnodup, by simp, by
        rintro x hx y hy rfl
        exact hseen.2 (by simpa [List.mem_singleton.mp hy] using hx)⟩
    · intro x hx
      rcases List.mem_append.mp hx with hx | hx
      · exact hroots x hx
      · rw [List.mem_singleton.mp hx]
        exact hseen.1

theorem foldl_push (roots items : List α) (s : Search α) :
    ∃ new : List α, items.foldl (push roots) s = ⟨s.queue ++ new, s.out ++ new⟩ ∧ new.Nodup ∧
      (∀ x ∈ new, x ∉ s.out ∧ x ∈ items) ∧ ∀ x ∈ items, x ∈ roots ∨ x ∈ s.out ++ new := by
  induction items generalizing s with
  | nil => exact ⟨[], by simp, by simp, by simp, by simp⟩
  | cons item rest ih =>
    rw [List.foldl_cons, push]
    by_cases hseen : item ∈ roots ∨ item ∈ s.out
    · rw [if_pos hseen]
      obtain ⟨new, heq, hnodup, hnew, hall⟩ := ih s
      refine ⟨new, heq, hnodup, fun x hx => ⟨(hnew x hx).1, by simp [(hnew x hx).2]⟩, ?_⟩
      intro x hx
      rcases List.mem_cons.mp hx with rfl | hrest
      · exact hseen.imp_right fun h => by simp [h]
      · exact hall x hrest
    · rw [if_neg hseen]
      push Not at hseen
      obtain ⟨new, heq, hnodup, hnew, hall⟩ := ih ⟨s.queue ++ [item], s.out ++ [item]⟩
      refine ⟨item :: new, by simpa using heq, ?_, ?_, ?_⟩
      · exact List.nodup_cons.mpr ⟨fun hmem => (hnew item hmem).1 (by simp), hnodup⟩
      · intro x hx
        rcases List.mem_cons.mp hx with rfl | hrest
        · exact ⟨hseen.2, by simp⟩
        · exact ⟨fun hout => (hnew x hrest).1 (by simp [hout]), by simp [(hnew x hrest).2]⟩
      · intro x hx
        rcases List.mem_cons.mp hx with rfl | hrest
        · exact Or.inr (by simp)
        · simpa using hall x hrest

structure Inv (next : α → List α) (targets : Finset α) (roots : List α) (fuel : Nat)
    (s : Search α) : Prop where
  nodup : s.out.Nodup
  within : ∀ x ∈ s.out, x ∈ targets
  queue : ∀ x ∈ s.queue, x ∈ roots ∨ x ∈ s.out
  /-- Every item was reached. -/
  sound : ∀ x ∈ s.out, ∃ root ∈ roots, ReflTransGen (fun a b => b ∈ next a) root x
  /-- An item that is not on the queue was expanded. -/
  closed : ∀ x, x ∈ roots ∨ x ∈ s.out → x ∈ s.queue ∨ ∀ y ∈ next x, y ∈ roots ∨ y ∈ s.out
  fuel : s.queue.length + targets.card ≤ fuel + s.out.length

section Rules

variable {next : α → List α} {targets : Finset α} {roots : List α} {fuel : Nat} {s : Search α}

theorem Inv.length_le (h : Inv next targets roots fuel s) : s.out.length ≤ targets.card := by
  rw [← List.toFinset_card_of_nodup h.nodup]
  exact Finset.card_le_card fun x hx => h.within x (List.mem_toFinset.mp hx)

theorem inv_turn (htargets : ∀ x, ∀ y ∈ next x, y ∈ targets) {item : α} {rest : List α}
    (hqueue : s.queue = item :: rest) (h : Inv next targets roots (fuel + 1) s) :
    Inv next targets roots fuel ((next item).foldl (push roots) { s with queue := rest }) := by
  obtain ⟨new, heq, hnodup, hnew, hall⟩ := foldl_push roots (next item) { s with queue := rest }
  rw [heq]
  have hitem : item ∈ roots ∨ item ∈ s.out := h.queue item (by simp [hqueue])
  refine ⟨?_, ?_, ?_, ?_, ?_, ?_⟩
  · exact List.nodup_append.mpr ⟨h.nodup, hnodup, by
      rintro x hx y hy rfl
      exact (hnew x hy).1 hx⟩
  · intro x hx
    rcases List.mem_append.mp hx with hold | hx
    · exact h.within x hold
    · exact htargets item x (hnew x hx).2
  · intro x hx
    rcases List.mem_append.mp hx with hold | hx
    · exact (h.queue x (by simp [hqueue, hold])).imp_right fun hout => by simp [hout]
    · exact Or.inr (by simp [hx])
  · intro x hx
    rcases List.mem_append.mp hx with hold | hx
    · exact h.sound x hold
    · have hedge := (hnew x hx).2
      rcases hitem with hroot | hout
      · exact ⟨item, hroot, .single hedge⟩
      · obtain ⟨root, hroot, hreach⟩ := h.sound item hout
        exact ⟨root, hroot, hreach.tail hedge⟩
  · intro x hx
    by_cases hsame : x = item
    · exact Or.inr fun y hy => hall y (hsame ▸ hy)
    · have hx' : x ∈ roots ∨ x ∈ s.out ∨ x ∈ new := by simpa using hx
      by_cases hxnew : x ∈ new
      · exact Or.inl (by simp [hxnew])
      · rcases h.closed x (hx'.imp_right fun h => h.resolve_right hxnew) with hold | hdone
        · rw [hqueue] at hold
          exact Or.inl (by simp [(List.mem_cons.mp hold).resolve_left hsame])
        · exact Or.inr fun y hy => (hdone y hy).imp_right fun hout => by simp [hout]
  · have hfuel := h.fuel
    rw [hqueue] at hfuel
    simp only [List.length_cons, List.length_append] at hfuel ⊢
    omega

theorem mem_search_of_inv (htargets : ∀ x, ∀ y ∈ next x, y ∈ targets)
    (h : Inv next targets roots fuel s) (x : α) :
    x ∈ roots ∨ x ∈ search next roots fuel s ↔
      ∃ root ∈ roots, ReflTransGen (fun a b => b ∈ next a) root x := by
  induction fuel generalizing s with
  | zero =>
    have hlength := h.length_le
    have hfuel := h.fuel
    have hempty : s.queue = [] := List.length_eq_zero_iff.mp (by omega)
    exact mem_out_of_inv h hempty x
  | succ fuel ih =>
    rw [search]
    split
    · rename_i hempty
      exact mem_out_of_inv h hempty x
    · rename_i item rest hqueue
      exact ih (inv_turn htargets hqueue h)
where
  mem_out_of_inv {fuel : Nat} {s : Search α} (h : Inv next targets roots fuel s)
      (hempty : s.queue = []) (x : α) : x ∈ roots ∨ x ∈ s.out ↔
        ∃ root ∈ roots, ReflTransGen (fun a b => b ∈ next a) root x := by
    constructor
    · rintro (hroot | hout)
      · exact ⟨x, hroot, .refl⟩
      · exact h.sound x hout
    · rintro ⟨root, hroot, hreach⟩
      induction hreach with
      | refl => exact Or.inl hroot
      | tail _ hedge hmem =>
        have hdone := (h.closed _ hmem).resolve_left (by simp [hempty])
        exact hdone _ hedge

theorem ends_of_inv (htargets : ∀ x, ∀ y ∈ next x, y ∈ targets)
    (h : Inv next targets roots fuel s) : Ends next roots fuel s := by
  induction fuel generalizing s with
  | zero =>
    have hlength := h.length_le
    have hfuel := h.fuel
    exact List.length_eq_zero_iff.mp (by omega)
  | succ fuel ih =>
    rw [Ends]
    split
    · trivial
    · rename_i item rest hqueue
      exact ih (inv_turn htargets hqueue h)

omit [DecidableEq α] in
theorem inv_init (hfuel : roots.length + targets.card ≤ fuel) :
    Inv next targets roots fuel ⟨roots, []⟩ :=
  ⟨by simp, by simp, fun _ => Or.inl, by simp, fun _ h => Or.inl (by simpa using h),
    by simpa using hfuel⟩

/-- **A search ends.** -/
theorem search_ends (htargets : ∀ x, ∀ y ∈ next x, y ∈ targets)
    (hfuel : roots.length + targets.card ≤ fuel) : Ends next roots fuel ⟨roots, []⟩ :=
  ends_of_inv htargets (inv_init hfuel)

/-- **A search finds exactly what the roots reach.** -/
theorem mem_search_iff (htargets : ∀ x, ∀ y ∈ next x, y ∈ targets)
    (hfuel : roots.length + targets.card ≤ fuel) (x : α) :
    x ∈ roots ∨ x ∈ search next roots fuel ⟨roots, []⟩ ↔
      ∃ root ∈ roots, ReflTransGen (fun a b => b ∈ next a) root x :=
  mem_search_of_inv htargets (inv_init hfuel) x

end Rules

end Closure
end Lib
end Configd
