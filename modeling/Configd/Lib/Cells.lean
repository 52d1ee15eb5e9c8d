import Mathlib.Data.List.Infix

/-!
# A heap of cells that are written and cells that are not

Data that is shared by reference is safe to read when nobody writes it any more.  A heap
here is a list of cells, a reference is the place of a cell, and each cell is either open or
frozen: `make` makes an open cell, `write` changes an open cell, and `clone` copies what a
cell holds into a new frozen one.

`Keeps` is what all of them have in common: a frozen cell stays as it is.  So what was read
through references to frozen cells can be read again at any later time (`Keeps.read_eq`).
-/

namespace Configd
namespace Lib
namespace Cells

variable {α : Type*}

/-- A cell, and whether it is frozen. -/
structure Cell (α : Type*) where
  content : α
  frozen : Bool

/-- What the cell holds, if there is one. -/
def read (h : List (Cell α)) (ref : Nat) : Option α :=
  h[ref]?.map Cell.content

/-- A new open cell, at the end of the heap. -/
def make (h : List (Cell α)) (content : α) : List (Cell α) :=
  h ++ [⟨content, false⟩]

def write (h : List (Cell α)) (ref : Nat) (content : α) : List (Cell α) :=
  match h[ref]? with
  | some ⟨_, false⟩ => h.set ref ⟨content, false⟩
  | _ => h

/-- A frozen copy of a cell, with its reference.  Without a cell it is a copy of nothing. -/
def clone [EmptyCollection α] (h : List (Cell α)) (ref : Nat) : List (Cell α) × Nat :=
  (h ++ [⟨(read h ref).getD ∅, true⟩], h.length)

def Frozen (h : List (Cell α)) (ref : Nat) : Prop :=
  ∃ content, h[ref]? = some ⟨content, true⟩

/-- Frozen cells stay as they are. -/
structure Keeps (h h' : List (Cell α)) : Prop where
  length_le : h.length ≤ h'.length
  frozen : ∀ (ref : Nat) (content : α), h[ref]? = some ⟨content, true⟩ →
    h'[ref]? = some ⟨content, true⟩

namespace Keeps

variable {h h' h'' : List (Cell α)} {ref : Nat}

theorem refl (h : List (Cell α)) : Keeps h h :=
  ⟨le_refl _, fun _ _ hcell => hcell⟩

theorem trans (hfirst : Keeps h h') (hsecond : Keeps h' h'') : Keeps h h'' :=
  ⟨hfirst.length_le.trans hsecond.length_le, fun ref content hcell =>
    hsecond.frozen ref content (hfirst.frozen ref content hcell)⟩

theorem frozen_of (hkeeps : Keeps h h') (hfrozen : Frozen h ref) : Frozen h' ref := by
  obtain ⟨content, hcell⟩ := hfrozen
  exact ⟨content, hkeeps.frozen ref content hcell⟩

theorem read_eq (hkeeps : Keeps h h') (hfrozen : Frozen h ref) : read h' ref = read h ref := by
  obtain ⟨content, hcell⟩ := hfrozen
  rw [read, read, hcell, hkeeps.frozen ref content hcell]

end Keeps

theorem keeps_append (h cells : List (Cell α)) : Keeps h (h ++ cells) := by
  refine ⟨by simp, fun ref content hcell => ?_⟩
  obtain ⟨hlt, -⟩ := List.getElem?_eq_some_iff.mp hcell
  rw [List.getElem?_append_left hlt, hcell]

theorem keeps_write (h : List (Cell α)) (ref : Nat) (content : α) :
    Keeps h (write h ref content) := by
  unfold write
  split
  · next old hopen =>
      refine ⟨by simp, fun other kept hcell => ?_⟩
      have hne : ref ≠ other := by
        rintro rfl
        rw [hopen] at hcell
        cases hcell
      rw [List.getElem?_set_ne hne, hcell]
  · exact Keeps.refl h

section Clone

variable [EmptyCollection α] (h : List (Cell α)) (ref : Nat)

theorem keeps_clone : Keeps h (clone h ref).1 := keeps_append h _

theorem frozen_clone : Frozen (clone h ref).1 (clone h ref).2 :=
  ⟨(read h ref).getD ∅, by simp [clone]⟩

@[simp] theorem read_clone : read (clone h ref).1 (clone h ref).2 = some ((read h ref).getD ∅) := by
  simp [read, clone]

theorem read_clone_of_lt {other : Nat} (hlt : other < h.length) :
    read (clone h ref).1 other = read h other := by
  rw [read, read, clone, List.getElem?_append_left hlt]

end Clone

end Cells
end Lib
end Configd
