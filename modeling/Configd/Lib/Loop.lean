import Mathlib

/-!
# Rules for loops

A loop of the modelled language is a left fold over the list it ranges over.  These rules describe
what a whole loop does to one part of the state, the *view* of a key, from what one round does:

* `foldl_view_of_not_mem`, `foldl_view_of_mem` — when a round touches only the view of its own key
  and no key comes twice, the loop changes the view of each key as one round does;
* `foldl_of_idempotent` — a loop whose rounds do the same idempotent thing, or nothing, to a view
  does it at most once;
* `view_of_foldlM` — a loop that may fail, if it does not, acts on a view as the loop of what its
  rounds do to the view, and none of its rounds fails (`round_of_foldlM`);
* `bind_eq_ok` — a computation that does not fail passes through a value of each step;
* `foldlM_invariant` — what every round of a loop keeps, if it does not fail, holds at the end.
-/

namespace Configd
namespace Lib

section KeyedLoop

variable {S K E A : Type} (view : S → K → A) (step : S → E → S) (key : E → K)
  (hother : ∀ state item k, key item ≠ k → view (step state item) k = view state k)

include hother

theorem foldl_view_of_not_mem (items : List E) (state : S) (k : K)
    (hk : k ∉ items.map key) : view (items.foldl step state) k = view state k := by
  induction items generalizing state with
  | nil => rfl
  | cons item rest ih =>
    simp only [List.map_cons, List.mem_cons, not_or] at hk
    rw [List.foldl_cons, ih _ hk.2, hother]
    exact fun h => hk.1 h.symm

theorem foldl_view_of_mem (rel : E → A → A → Prop)
    (hself : ∀ state item, rel item (view state (key item)) (view (step state item) (key item)))
    {items : List E} (hitems : (items.map key).Nodup) (state : S) {item : E}
    (hmem : item ∈ items) :
    rel item (view state (key item)) (view (items.foldl step state) (key item)) := by
  induction items generalizing state with
  | nil => simp at hmem
  | cons head rest ih =>
    simp only [List.map_cons, List.nodup_cons] at hitems
    rw [List.foldl_cons]
    rcases List.mem_cons.mp hmem with rfl | hrest
    · rw [foldl_view_of_not_mem view step key hother rest _ _ hitems.1]
      exact hself state item
    · have hne : key head ≠ key item := by
        intro heq
        exact hitems.1 (List.mem_map.mpr ⟨item, hrest, heq.symm⟩)
      have hround := ih hitems.2 (step state head) hrest
      rwa [hother state head (key item) hne] at hround

end KeyedLoop

theorem foldl_of_idempotent {S E A : Type} (view : S → A) (step : S → E → S) (acts : E → Bool)
    (change : A → A) (hidem : ∀ a, change (change a) = change a)
    (hstep : ∀ state item, view (step state item) =
      if acts item then change (view state) else view state)
    (items : List E) (state : S) :
    view (items.foldl step state) =
      if items.any acts then change (view state) else view state := by
  induction items generalizing state with
  | nil => rfl
  | cons item rest ih =>
    rw [List.foldl_cons, ih, hstep, List.any_cons]
    cases hitem : acts item <;> cases hrest : rest.any acts <;> simp [hidem]

section FailingLoop

variable {S E A : Type} {step : S → E → Option S} {items : List E} {s s' : S}

theorem view_of_foldlM (view : S → A) (act : A → E → A)
    (hstep : ∀ item ∈ items, ∀ s s', step s item = some s' → view s' = act (view s) item)
    (h : items.foldlM step s = some s') : view s' = items.foldl act (view s) := by
  induction items generalizing s with
  | nil =>
    obtain rfl : s = s' := by simpa using h
    rfl
  | cons item rest ih =>
    rw [List.foldlM_cons] at h
    obtain ⟨s₁, hfirst, hrest⟩ := Option.bind_eq_some_iff.mp h
    rw [List.foldl_cons, ← hstep item List.mem_cons_self s s₁ hfirst]
    exact ih (fun item hitem => hstep item (List.mem_cons_of_mem _ hitem)) hrest

theorem round_of_foldlM (h : items.foldlM step s = some s') :
    ∀ item ∈ items, ∃ s₁ s₂, step s₁ item = some s₂ := by
  induction items generalizing s with
  | nil => simp
  | cons item rest ih =>
    rw [List.foldlM_cons] at h
    obtain ⟨s₁, hfirst, hrest⟩ := Option.bind_eq_some_iff.mp h
    intro item' hitem'
    rcases List.mem_cons.mp hitem' with rfl | hitem'
    · exact ⟨s, s₁, hfirst⟩
    · exact ih hrest item' hitem'

end FailingLoop

theorem bind_eq_ok {A B E : Type} {first : Except E A} {next : A → Except E B} {out : B}
    (hok : (first >>= next) = .ok out) : ∃ value, first = .ok value ∧ next value = .ok out := by
  cases first with
  | error err => cases hok
  | ok value => exact ⟨value, rfl, hok⟩

section Except

variable {S E Err : Type}

theorem foldlM_invariant {step : S → E → Except Err S} {motive : S → Prop} {items : List E}
    {s s' : S} (hs : motive s) (hstep : ∀ s item s', motive s → step s item = .ok s' → motive s')
    (h : items.foldlM step s = .ok s') : motive s' := by
  induction items generalizing s with
  | nil =>
    obtain rfl := Except.ok.inj h
    exact hs
  | cons item rest ih =>
    rw [List.foldlM_cons] at h
    obtain ⟨next, hfirst, hrest⟩ := bind_eq_ok h
    exact ih (hstep s item next hs hfirst) hrest

theorem mapM_eq_ok_iff {f : S → Except Err E} {items : List S} {out : List E} :
    items.mapM f = .ok out ↔ items.map f = out.map .ok := by
  induction items generalizing out with
  | nil => cases out <;> simp [pure, Except.pure]
  | cons item rest ih =>
    rw [List.mapM_cons, List.map_cons]
    cases hfirst : f item with
    | error e => cases out <;> simp [bind, Except.bind]
    | ok y =>
      cases out with
      | nil => cases hrest : rest.mapM f <;> simp [bind, Except.bind, pure, Except.pure]
      | cons z out =>
        rw [List.map_cons, List.cons.injEq, ← ih]
        cases hrest : rest.mapM f <;> simp [bind, Except.bind, pure, Except.pure]

theorem exists_of_mem_mapM {f : S → Except Err E} {items : List S} {out : List E}
    (h : items.mapM f = .ok out) : ∀ y ∈ out, ∃ item, f item = .ok y := by
  intro y hy
  have hmem : .ok y ∈ items.map f := mapM_eq_ok_iff.mp h ▸ List.mem_map_of_mem hy
  obtain ⟨item, -, hitem⟩ := List.mem_map.mp hmem
  exact ⟨item, hitem⟩

end Except

end Lib
end Configd
