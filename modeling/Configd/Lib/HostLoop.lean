import Mathlib

/-!
# Loops of fallible operations

A loop that performs an operation on each entry of a list.  The operation can
succeed, fail, or panic.  A failure does not stop the loop; a panic does, and so
does a cancellation, which is looked for before each operation.

`runLoop_spec` splits the list into the entries that were processed and the rest,
and says how the loop ended in terms of the rest.
-/

namespace Configd
namespace Lib

/-- How an operation on the host ended. -/
inductive HostOutcome
  | ok
  | failed
  | panicked
  deriving DecidableEq

/-- A recovered panic counts as a failure. -/
def HostOutcome.recovered : HostOutcome → HostOutcome
  | .ok => .ok
  | _ => .failed

/-- One operation after another. -/
def HostOutcome.andThen : HostOutcome → HostOutcome → HostOutcome
  | .ok, second => second
  | first, _ => first

inductive LoopEnding (T : Type)
  | finished
  /-- Cancelled, with the entries that were not processed. -/
  | cancelled (rest : List T)
  | panicked
  deriving DecidableEq

structure LoopRun (T : Type) where
  applied : List T
  failed : List T
  ending : LoopEnding T

variable {T : Type}

/-- The entries a cancelled loop did not come to. -/
def LoopRun.rest (run : LoopRun T) : List T :=
  match run.ending with
  | .cancelled rest => rest
  | _ => []

/-- Perform `op` on each entry; `cancelled i` says whether the context is
cancelled before the operation number `i`. -/
def runLoop (cancelled : Nat → Bool) (op : T → HostOutcome) : Nat → List T → LoopRun T
  | _, [] => ⟨[], [], .finished⟩
  | i, e :: rest =>
    if cancelled i then ⟨[], [], .cancelled (e :: rest)⟩
    else
      match op e with
      | .ok =>
        let r := runLoop cancelled op (i + 1) rest
        { r with applied := e :: r.applied }
      | .failed =>
        let r := runLoop cancelled op (i + 1) rest
        { r with failed := e :: r.failed }
      | .panicked => ⟨[], [], .panicked⟩

/-- How the ending of a loop depends on what it left. -/
def LoopEnding.Leaves (op : T → HostOutcome) (rest : List T) : LoopEnding T → Prop
  | .finished => rest = []
  | .cancelled left => left = rest
  | .panicked => ∃ e tail, rest = e :: tail ∧ op e = .panicked

/-- **What a loop does**: it processes a first part of the list, none of whose
operations panics, and stops at the rest. -/
theorem runLoop_spec (cancelled : Nat → Bool) (op : T → HostOutcome) (i : Nat)
    (entries : List T) :
    ∃ processed rest, entries = processed ++ rest ∧
      (runLoop cancelled op i entries).applied = processed.filter (fun e => op e = .ok) ∧
      (runLoop cancelled op i entries).failed = processed.filter (fun e => op e = .failed) ∧
      (∀ e ∈ processed, op e ≠ .panicked) ∧
      (runLoop cancelled op i entries).ending.Leaves op rest := by
  induction entries generalizing i with
  | nil => exact ⟨[], [], rfl, rfl, rfl, by simp, rfl⟩
  | cons e rest ih =>
    by_cases hcancel : cancelled i = true
    · exact ⟨[], e :: rest, rfl, by simp [runLoop, hcancel], by simp [runLoop, hcancel],
        by simp, by simp [runLoop, hcancel, LoopEnding.Leaves]⟩
    · obtain ⟨processed, left, hsplit, happlied, hfailed, hnopanic, hleaves⟩ := ih (i + 1)
      cases hop : op e with
      | ok =>
        refine ⟨e :: processed, left, by simp [hsplit], ?_, ?_, ?_, ?_⟩
        · simp [runLoop, hcancel, hop, happlied]
        · simp [runLoop, hcancel, hop, hfailed]
        · simpa [hop] using hnopanic
        · simpa [runLoop, hcancel, hop] using hleaves
      | failed =>
        refine ⟨e :: processed, left, by simp [hsplit], ?_, ?_, ?_, ?_⟩
        · simp [runLoop, hcancel, hop, happlied]
        · simp [runLoop, hcancel, hop, hfailed]
        · simpa [hop] using hnopanic
        · simpa [runLoop, hcancel, hop] using hleaves
      | panicked =>
        refine ⟨[], e :: rest, rfl, by simp [runLoop, hcancel, hop],
          by simp [runLoop, hcancel, hop], by simp, ?_⟩
        simp only [runLoop, hcancel, hop]
        exact ⟨e, rest, rfl, hop⟩

theorem ending_ne_cancelled_of_never (op : T → HostOutcome) (i : Nat) (entries rest : List T) :
    (runLoop (fun _ => false) op i entries).ending ≠ .cancelled rest := by
  induction entries generalizing i with
  | nil => simp [runLoop]
  | cons e tail ih =>
    unfold runLoop
    cases op e with
    | ok => exact ih (i + 1)
    | failed => exact ih (i + 1)
    | panicked => simp

theorem applied_sublist (cancelled : Nat → Bool) (op : T → HostOutcome) (i : Nat)
    (entries : List T) : (runLoop cancelled op i entries).applied.Sublist entries := by
  obtain ⟨processed, rest, hsplit, happlied, -⟩ := runLoop_spec cancelled op i entries
  rw [happlied, hsplit]
  exact List.filter_sublist.trans (List.sublist_append_left processed rest)

variable {cancelled : Nat → Bool}

/-- **What a loop leaves unapplied**: when it did not panic, the entries that
failed and those it did not come to. -/
theorem filter_not_applied [DecidableEq T] {op : T → HostOutcome}
    {i : Nat} {entries : List T} (hnodup : entries.Nodup)
    (hending : (runLoop cancelled op i entries).ending ≠ .panicked) :
    entries.filter (fun e => decide (e ∉ (runLoop cancelled op i entries).applied)) =
      (runLoop cancelled op i entries).failed ++ (runLoop cancelled op i entries).rest := by
  obtain ⟨processed, rest, hsplit, happlied, hfailed, hnopanic, hleaves⟩ :=
    runLoop_spec cancelled op i entries
  have hrest : (runLoop cancelled op i entries).rest = rest := by
    unfold LoopRun.rest
    cases hend : (runLoop cancelled op i entries).ending with
    | finished =>
      rw [hend] at hleaves
      exact hleaves.symm
    | cancelled left =>
      rw [hend] at hleaves
      exact hleaves
    | panicked => exact absurd hend hending
  have hdisjoint : ∀ e ∈ rest, e ∉ processed := by
    rw [hsplit] at hnodup
    exact fun e hr hp => List.disjoint_of_nodup_append hnodup hp hr
  rw [hrest, happlied, hfailed, hsplit, List.filter_append]
  congr 1
  · apply List.filter_congr
    intro e he
    have hpanic := hnopanic e he
    cases hop : op e <;> simp_all
  · rw [List.filter_eq_self]
    intro e he
    simp [hdisjoint e he]

theorem exists_not_applied_of_panicked {op : T → HostOutcome} {i : Nat}
    {entries : List T} (hending : (runLoop cancelled op i entries).ending = .panicked) :
    ∃ e ∈ entries, e ∉ (runLoop cancelled op i entries).applied := by
  obtain ⟨processed, left, hsplit, happlied, -, hnopanic, hleaves⟩ :=
    runLoop_spec cancelled op i entries
  rw [hending] at hleaves
  obtain ⟨e, tail, rfl, hpanic⟩ := hleaves
  refine ⟨e, by simp [hsplit], ?_⟩
  rw [happlied]
  intro hmem
  exact hnopanic e (List.mem_filter.mp hmem).1 hpanic

/-! ## When a loop panics -/

/-- The loop is not cancelled before any of its entries. -/
def Uncancelled (cancelled : Nat → Bool) (entries : List T) : Prop :=
  ∀ j < entries.length, cancelled j = false

/-- The loop comes to an operation that panics. -/
def PanicReached (cancelled : Nat → Bool) (op : T → HostOutcome) (entries : List T) : Prop :=
  ∃ k e, entries[k]? = some e ∧ op e = .panicked ∧ ∀ j ≤ k, cancelled j = false

theorem panicReached_cons (cancelled : Nat → Bool) (op : T → HostOutcome) (e : T)
    (rest : List T) :
    PanicReached cancelled op (e :: rest) ↔
      cancelled 0 = false ∧
        (op e = .panicked ∨ PanicReached (fun j => cancelled (j + 1)) op rest) := by
  constructor
  · rintro ⟨k, x, hx, hpanic, hcancel⟩
    refine ⟨hcancel 0 (Nat.zero_le k), ?_⟩
    cases k with
    | zero =>
      have hsame : e = x := by simpa using hx
      exact Or.inl (hsame ▸ hpanic)
    | succ k =>
      exact Or.inr ⟨k, x, by simpa using hx, hpanic, fun j hj => hcancel (j + 1) (by omega)⟩
  · rintro ⟨hfirst, hpanic | ⟨k, x, hx, hpanic, hcancel⟩⟩
    · exact ⟨0, e, rfl, hpanic, fun j hj => by rw [Nat.le_zero.mp hj]; exact hfirst⟩
    · refine ⟨k + 1, x, by simpa using hx, hpanic, ?_⟩
      intro j hj
      cases j with
      | zero => exact hfirst
      | succ j => exact hcancel j (by omega)

/-- **When a loop panics**: it comes to an operation that does. -/
theorem ending_panicked_iff (cancelled : Nat → Bool) (op : T → HostOutcome) (i : Nat)
    (entries : List T) :
    (runLoop cancelled op i entries).ending = .panicked ↔
      PanicReached (fun j => cancelled (i + j)) op entries := by
  induction entries generalizing i with
  | nil => simp [runLoop, PanicReached]
  | cons e rest ih =>
    have hshift : (fun j => cancelled (i + (j + 1))) = fun j => cancelled (i + 1 + j) := by
      funext j
      congr 1
      omega
    rw [panicReached_cons, hshift, ← ih, Nat.add_zero]
    by_cases hcancel : cancelled i = true
    · simp [runLoop, hcancel]
    · cases hop : op e <;> simp [runLoop, hcancel, hop]

theorem uncancelled_cons (cancelled : Nat → Bool) (e : T) (rest : List T) :
    Uncancelled cancelled (e :: rest) ↔
      cancelled 0 = false ∧ Uncancelled (fun j => cancelled (j + 1)) rest := by
  constructor
  · intro hall
    refine ⟨hall 0 (by simp), ?_⟩
    intro j hj
    exact hall (j + 1) (by simpa using hj)
  · rintro ⟨hfirst, hrest⟩ j hj
    cases j with
    | zero => exact hfirst
    | succ j => exact hrest j (by simpa using hj)

theorem ending_finished_iff (cancelled : Nat → Bool) (op : T → HostOutcome) (i : Nat)
    (entries : List T) :
    (runLoop cancelled op i entries).ending = .finished ↔
      Uncancelled (fun j => cancelled (i + j)) entries ∧ ∀ e ∈ entries, op e ≠ .panicked := by
  induction entries generalizing i with
  | nil => simp [runLoop, Uncancelled]
  | cons e rest ih =>
    have hshift : (fun j => cancelled (i + (j + 1))) = fun j => cancelled (i + 1 + j) := by
      funext j
      congr 1
      omega
    rw [uncancelled_cons, hshift, List.forall_mem_cons, Nat.add_zero]
    by_cases hcancel : cancelled i = true
    · simp [runLoop, hcancel]
    · cases hop : op e <;> simp [runLoop, hcancel, hop, ih]

theorem applied_of_finished {op : T → HostOutcome} {i : Nat}
    {entries : List T} (hending : (runLoop cancelled op i entries).ending = .finished) :
    (runLoop cancelled op i entries).applied = entries.filter (fun e => op e = .ok) := by
  obtain ⟨processed, rest, hsplit, happlied, -, -, hleaves⟩ := runLoop_spec cancelled op i entries
  rw [hending] at hleaves
  have hnil : rest = [] := hleaves
  rw [happlied, hsplit, hnil, List.append_nil]

theorem applied_of_no_failure {op : T → HostOutcome} {i : Nat}
    {entries : List T} (hending : (runLoop cancelled op i entries).ending = .finished)
    (hfailed : (runLoop cancelled op i entries).failed = []) :
    (runLoop cancelled op i entries).applied = entries := by
  obtain ⟨processed, rest, hsplit, happlied, hfailures, hnopanic, hleaves⟩ :=
    runLoop_spec cancelled op i entries
  rw [hending] at hleaves
  have hnil : rest = [] := hleaves
  rw [hfailures, List.filter_eq_nil_iff] at hfailed
  rw [happlied, hsplit, hnil, List.append_nil, List.filter_eq_self]
  intro e he
  have hnot := hfailed e he
  have hpanic := hnopanic e he
  cases hop : op e <;> simp_all

end Lib
end Configd
