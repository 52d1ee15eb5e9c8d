import Configd.Lib.Strings

/-!
# Numbers as text

`strconv.Atoi`, and what the text of a number is made of.
-/

namespace Configd
namespace Lib
namespace Strings

/-- The digits `strconv.Atoi` reads. -/
def digits (s : List Char) : Option Int :=
  if s ≠ [] ∧ s.all Char.isDigit then
    some (s.foldl (fun n c => n * 10 + (c.toNat - '0'.toNat : Int)) 0)
  else none

/-- `strconv.Atoi`: a decimal number with an optional sign, in the range of `int`. -/
def atoi (s : String) : Option Int := do
  let n ← match s.toList with
    | '-' :: rest => (digits rest).map Neg.neg
    | '+' :: rest => digits rest
    | rest => digits rest
  if -2 ^ 63 ≤ n ∧ n < 2 ^ 63 then some n else none

theorem isDigit_of_mem_toString {n : Int} {c : Char} (h : c ∈ (toString n).toList) :
    c.isDigit = true ∨ c = '-' := by
  have hnat : ∀ n : Nat, c ∈ n.repr.toList → c.isDigit = true := by
    intro n hmem
    exact Nat.isDigit_of_mem_toDigits (b := 10) (by decide) (by decide)
      (by simpa [Nat.repr] using hmem)
  cases n with
  | ofNat n => exact .inl (hnat n h)
  | negSucc n =>
    have hmem : c ∈ ("-" ++ (n + 1).repr).toList := h
    rw [String.toList_append, List.mem_append] at hmem
    rcases hmem with hsign | hdigits
    · exact .inr (List.mem_singleton.mp hsign)
    · exact .inl (hnat (n + 1) hdigits)

end Strings
end Lib
end Configd
