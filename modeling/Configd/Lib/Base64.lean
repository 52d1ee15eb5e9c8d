import Mathlib

/-!
# Base 64

The standard encoding of the Go package `encoding/base64` (`StdEncoding`), with
padding.  `decode` ignores line breaks, wherever they stand, and refuses every other
character outside the alphabet, a wrong padding and an incomplete group; the bits of
the last character that belong to no byte are not looked at.  What was encoded is
decoded to what it was (`decode_encode`).
-/

namespace Configd
namespace Lib
namespace Base64

def alphabet : List Char :=
  "ABCDEFGHIJKLMNOPQRSTUVWXYZabcdefghijklmnopqrstuvwxyz0123456789+/".toList

/-- The character of six bits. -/
def digit (n : Nat) : Char :=
  alphabet[n % 64]?.getD 'A'

/-- The six bits of a character of the alphabet. -/
def value (c : Char) : Option Nat :=
  let index := alphabet.idxOf c
  if index < 64 then some index else none

/-- `EncodeToString`, group by group. -/
def encodeGroups : List UInt8 → List Char
  | [] => []
  | [a] =>
    let bits := a.toNat * 2 ^ 16
    [digit (bits / 2 ^ 18), digit (bits / 2 ^ 12), '=', '=']
  | [a, b] =>
    let bits := a.toNat * 2 ^ 16 + b.toNat * 2 ^ 8
    [digit (bits / 2 ^ 18), digit (bits / 2 ^ 12), digit (bits / 2 ^ 6), '=']
  | a :: b :: c :: rest =>
    let bits := a.toNat * 2 ^ 16 + b.toNat * 2 ^ 8 + c.toNat
    digit (bits / 2 ^ 18) :: digit (bits / 2 ^ 12) :: digit (bits / 2 ^ 6) :: digit bits ::
      encodeGroups rest

def encode (bytes : List UInt8) : String :=
  String.ofList (encodeGroups bytes)

/-- `DecodeString` of a text without line breaks, group by group. -/
def decodeGroups : List Char → Option (List UInt8)
  | [] => some []
  | [a, b, '=', '='] => do
      let bits := (← value a) * 2 ^ 18 + (← value b) * 2 ^ 12
      return [UInt8.ofNat (bits / 2 ^ 16)]
  | [a, b, c, '='] => do
      let bits := (← value a) * 2 ^ 18 + (← value b) * 2 ^ 12 + (← value c) * 2 ^ 6
      return [UInt8.ofNat (bits / 2 ^ 16), UInt8.ofNat (bits / 2 ^ 8)]
  | a :: b :: c :: d :: rest => do
      let bits := (← value a) * 2 ^ 18 + (← value b) * 2 ^ 12 + (← value c) * 2 ^ 6 + (← value d)
      let later ← decodeGroups rest
      return UInt8.ofNat (bits / 2 ^ 16) :: UInt8.ofNat (bits / 2 ^ 8) :: UInt8.ofNat bits :: later
  | _ => none

def decode (text : String) : Option (List UInt8) :=
  decodeGroups (text.toList.filter fun c => c ≠ '\n' && c ≠ '\r')

/-! ## The round trip -/

theorem value_digit (n : Nat) : value (digit n) = some (n % 64) := by
  have hall : ∀ k : Fin 64, value (alphabet[k.val]?.getD 'A') = some k.val := by decide +kernel
  exact hall ⟨n % 64, Nat.mod_lt _ (by decide)⟩

theorem digit_ne (n : Nat) : digit n ≠ '\n' ∧ digit n ≠ '\r' ∧ digit n ≠ '=' := by
  have hall : ∀ k : Fin 64, alphabet[k.val]?.getD 'A' ≠ '\n' ∧
      alphabet[k.val]?.getD 'A' ≠ '\r' ∧ alphabet[k.val]?.getD 'A' ≠ '=' := by decide +kernel
  exact hall ⟨n % 64, Nat.mod_lt _ (by decide)⟩

theorem decodeGroups_cons {a b c d : Char} (hd : d ≠ '=') (rest : List Char) :
    decodeGroups (a :: b :: c :: d :: rest) = (do
      let bits := (← value a) * 2 ^ 18 + (← value b) * 2 ^ 12 + (← value c) * 2 ^ 6 + (← value d)
      let later ← decodeGroups rest
      return UInt8.ofNat (bits / 2 ^ 16) :: UInt8.ofNat (bits / 2 ^ 8) :: UInt8.ofNat bits ::
        later) := by
  rw [decodeGroups]
  · simp_all
  · simp_all

theorem decodeGroups_encodeGroups (bytes : List UInt8) :
    decodeGroups (encodeGroups bytes) = some bytes := by
  induction bytes using encodeGroups.induct with
  | case1 => rfl
  | case2 a =>
    have ha := a.toNat_lt
    simp only [encodeGroups, decodeGroups, value_digit, Option.bind_eq_bind, Option.bind_some]
    refine congrArg some (List.cons_eq_cons.mpr ⟨?_, rfl⟩)
    rw [← UInt8.toNat_inj, UInt8.toNat_ofNat']
    omega
  | case3 a b =>
    have ha := a.toNat_lt
    have hb := b.toNat_lt
    have hpad := (digit_ne ((a.toNat * 2 ^ 16 + b.toNat * 2 ^ 8) / 2 ^ 6)).2.2
    rw [encodeGroups, decodeGroups]
    · simp only [value_digit, Option.bind_eq_bind, Option.bind_some]
      refine congrArg some (List.cons_eq_cons.mpr ⟨?_, List.cons_eq_cons.mpr ⟨?_, rfl⟩⟩)
      · rw [← UInt8.toNat_inj, UInt8.toNat_ofNat']
        omega
      · rw [← UInt8.toNat_inj, UInt8.toNat_ofNat']
        omega
    · exact hpad
  | case4 a b c rest ih =>
    have ha := a.toNat_lt
    have hb := b.toNat_lt
    have hc := c.toNat_lt
    rw [encodeGroups, decodeGroups_cons (digit_ne _).2.2]
    simp only [value_digit, ih, Option.bind_eq_bind, Option.bind_some]
    refine congrArg some (List.cons_eq_cons.mpr ⟨?_, List.cons_eq_cons.mpr ⟨?_,
      List.cons_eq_cons.mpr ⟨?_, rfl⟩⟩⟩)
    · rw [← UInt8.toNat_inj, UInt8.toNat_ofNat']
      omega
    · rw [← UInt8.toNat_inj, UInt8.toNat_ofNat']
      omega
    · rw [← UInt8.toNat_inj, UInt8.toNat_ofNat']
      omega

theorem not_break_of_mem_encodeGroups (bytes : List UInt8) :
    ∀ c ∈ encodeGroups bytes, c ≠ '\n' ∧ c ≠ '\r' := by
  have hdigit : ∀ n, digit n ≠ '\n' ∧ digit n ≠ '\r' := fun n => ⟨(digit_ne n).1, (digit_ne n).2.1⟩
  induction bytes using encodeGroups.induct with
  | case1 => simp [encodeGroups]
  | case2 a => simp [encodeGroups, hdigit]
  | case3 a b => simp [encodeGroups, hdigit]
  | case4 a b c rest ih => simpa [encodeGroups, hdigit] using ih

/-- **The round trip.** -/
theorem decode_encode (bytes : List UInt8) : decode (encode bytes) = some bytes := by
  have hkept : (encodeGroups bytes).filter (fun c => c ≠ '\n' && c ≠ '\r') =
      encodeGroups bytes := by
    rw [List.filter_eq_self]
    intro c hc
    simpa using not_break_of_mem_encodeGroups bytes c hc
  rw [decode, encode, String.toList_ofList, hkept, decodeGroups_encodeGroups]

example : decode "TWFu\r\nTQ==\n" = some [77, 97, 110, 77] := by decide +kernel

example : encode [77, 97, 110, 77] = "TWFuTQ==" := by decide +kernel

end Base64
end Lib
end Configd
