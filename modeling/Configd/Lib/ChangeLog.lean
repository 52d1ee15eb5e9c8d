import Mathlib.Data.List.Basic

/-!
# Unreported changes in a log of samples

A program samples a keyed value from time to time and now and then reports what has changed.  A
sample says when it was taken, what it saw of each key and whether a report followed it.

A key is *pending* when two consecutive samples differ in it and no report has followed the later
of the two (`Pending`); the *change times* are those of the samples that saw such a difference
(`ChangeTime`).  `pending_concat` and `changeTime_concat` say what a log gains with one more
sample.
-/

namespace Configd
namespace Lib
namespace ChangeLog

variable {ρ K V : Type} (view : ρ → K → Option V) (reported : ρ → Bool) (time : ρ → Nat)

/-- Sample `i + 1` of the log differs from the one before it in `key`, and no report has
followed since. -/
def Unreported (log : List ρ) (i : Nat) (key : K) : Prop :=
  (∃ earlier later, log[i]? = some earlier ∧ log[i + 1]? = some later ∧
    view earlier key ≠ view later key) ∧
    ∀ j sample, i < j → log[j]? = some sample → reported sample = false

/-- The key has changed since the last report. -/
def Pending (log : List ρ) (key : K) : Prop :=
  ∃ i, Unreported view reported log i key

/-- A sample taken at this time saw a change that is not reported yet. -/
def ChangeTime (log : List ρ) (t : Nat) : Prop :=
  ∃ i key sample, Unreported view reported log i key ∧ log[i + 1]? = some sample ∧
    time sample = t

theorem not_pending_of_length_le_one {log : List ρ} (h : log.length ≤ 1) (key : K) :
    ¬ Pending view reported log key := by
  rintro ⟨i, ⟨earlier, later, -, hlater, -⟩, -⟩
  have hlt := (List.getElem?_eq_some_iff.mp hlater).1
  omega

theorem pending_iff_changeTime (log : List ρ) :
    (∃ key, Pending view reported log key) ↔ ∃ t, ChangeTime view reported time log t := by
  constructor
  · rintro ⟨key, i, hi⟩
    obtain ⟨⟨earlier, later, hearlier, hlater, hne⟩, hquiet⟩ := hi
    exact ⟨time later, i, key, later,
      ⟨⟨earlier, later, hearlier, hlater, hne⟩, hquiet⟩, hlater, rfl⟩
  · rintro ⟨t, i, key, sample, hi, -⟩
    exact ⟨key, i, hi⟩

section Concat

variable {log : List ρ} {last : ρ} (hlast : log.getLast? = some last) (sample : ρ)

include hlast

theorem unreported_concat (i : Nat) (key : K) :
    Unreported view reported (log ++ [sample]) i key ↔
      reported sample = false ∧ (Unreported view reported log i key ∨
        i + 1 = log.length ∧ view last key ≠ view sample key) := by
  have hne : log ≠ [] := by
    rintro rfl
    simp at hlast
  have hpos : 0 < log.length := List.length_pos_iff.mpr hne
  have hlastAt : log[log.length - 1]? = some last := by
    rw [← List.getLast?_eq_getElem?, hlast]
  have hat : (log ++ [sample])[log.length]? = some sample := List.getElem?_concat_length
  constructor
  · rintro ⟨⟨earlier, later, hearlier, hlater, hdiffer⟩, hquiet⟩
    have hi : i + 1 < (log ++ [sample]).length := (List.getElem?_eq_some_iff.mp hlater).1
    rw [List.length_append, List.length_singleton] at hi
    refine ⟨hquiet log.length sample (by omega) hat, ?_⟩
    rw [List.getElem?_append_left (by omega)] at hearlier
    by_cases hnew : i + 1 = log.length
    · -- The change was seen by the new sample, the earlier one is the last of the log.
      right
      have hprev : log[i]? = some last := by
        rw [show i = log.length - 1 by omega]
        exact hlastAt
      rw [hnew, hat] at hlater
      cases hlater
      rw [hprev] at hearlier
      cases hearlier
      exact ⟨hnew, hdiffer⟩
    · left
      rw [List.getElem?_append_left (by omega)] at hlater
      refine ⟨⟨earlier, later, hearlier, hlater, hdiffer⟩, ?_⟩
      intro j other hj hother
      have hlt := (List.getElem?_eq_some_iff.mp hother).1
      exact hquiet j other hj (by rwa [List.getElem?_append_left hlt])
  · rintro ⟨hsample, hchange⟩
    have hquietOf : (∀ j other, i < j → log[j]? = some other → reported other = false) →
        ∀ j other, i < j → (log ++ [sample])[j]? = some other → reported other = false := by
      intro hquiet j other hj hother
      by_cases hlt : j < log.length
      · rw [List.getElem?_append_left hlt] at hother
        exact hquiet j other hj hother
      · have hend := (List.getElem?_eq_some_iff.mp hother).1
        rw [List.length_append, List.length_singleton] at hend
        rw [show j = log.length by omega, hat] at hother
        cases hother
        exact hsample
    rcases hchange with ⟨⟨earlier, later, hearlier, hlater, hdiffer⟩, hquiet⟩ | ⟨hi, hdiffer⟩
    · have hlt := (List.getElem?_eq_some_iff.mp hlater).1
      refine ⟨⟨earlier, later, ?_, ?_, hdiffer⟩, hquietOf hquiet⟩
      · rwa [List.getElem?_append_left (by omega)]
      · rwa [List.getElem?_append_left hlt]
    · refine ⟨⟨last, sample, ?_, ?_, hdiffer⟩, hquietOf ?_⟩
      · rw [List.getElem?_append_left (by omega), show i = log.length - 1 by omega]
        exact hlastAt
      · rw [hi, hat]
      · intro j other hj hother
        have hlt := (List.getElem?_eq_some_iff.mp hother).1
        omega

/-- **What is pending after one more sample.** -/
theorem pending_concat (key : K) :
    Pending view reported (log ++ [sample]) key ↔
      reported sample = false ∧
        (Pending view reported log key ∨ view last key ≠ view sample key) := by
  simp only [Pending, unreported_concat view reported hlast sample]
  have hpos : 0 < log.length := by
    apply List.length_pos_iff.mpr
    rintro rfl
    simp at hlast
  constructor
  · rintro ⟨i, hsample, hold | hnew⟩
    · exact ⟨hsample, Or.inl ⟨i, hold⟩⟩
    · exact ⟨hsample, Or.inr hnew.2⟩
  · rintro ⟨hsample, ⟨i, hold⟩ | hnew⟩
    · exact ⟨i, hsample, Or.inl hold⟩
    · exact ⟨log.length - 1, hsample, Or.inr ⟨by omega, hnew⟩⟩

/-- **The change times after one more sample.** -/
theorem changeTime_concat (t : Nat) :
    ChangeTime view reported time (log ++ [sample]) t ↔
      reported sample = false ∧ (ChangeTime view reported time log t ∨
        t = time sample ∧ ∃ key, view last key ≠ view sample key) := by
  have hat : (log ++ [sample])[log.length]? = some sample := List.getElem?_concat_length
  have hpos : 0 < log.length := by
    apply List.length_pos_iff.mpr
    rintro rfl
    simp at hlast
  simp only [ChangeTime, unreported_concat view reported hlast sample]
  constructor
  · rintro ⟨i, key, found, ⟨hsample, hold | ⟨hi, hdiffer⟩⟩, hfound, rfl⟩
    · obtain ⟨⟨earlier, later, hearlier, hlater, hdiffer⟩, hquiet⟩ := hold
      have hlt := (List.getElem?_eq_some_iff.mp hlater).1
      rw [List.getElem?_append_left hlt] at hfound
      exact ⟨hsample, Or.inl ⟨i, key, found, ⟨⟨earlier, later, hearlier, hlater, hdiffer⟩, hquiet⟩,
        hfound, rfl⟩⟩
    · rw [hi, hat] at hfound
      cases hfound
      exact ⟨hsample, Or.inr ⟨rfl, key, hdiffer⟩⟩
  · rintro ⟨hsample, ⟨i, key, found, hold, hfound, rfl⟩ | ⟨rfl, key, hdiffer⟩⟩
    · have hlt := (List.getElem?_eq_some_iff.mp hfound).1
      exact ⟨i, key, found, ⟨hsample, Or.inl hold⟩, by rwa [List.getElem?_append_left hlt], rfl⟩
    · refine ⟨log.length - 1, key, sample, ⟨hsample, Or.inr ⟨by omega, hdiffer⟩⟩, ?_, rfl⟩
      rw [show log.length - 1 + 1 = log.length by omega, hat]

end Concat

end ChangeLog
end Lib
end Configd
