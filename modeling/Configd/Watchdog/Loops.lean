import Configd.Lib.Runs
import Mathlib

/-!
# The loops of the watchdog

`Watchdog.Start` creates a loop in a goroutine of its own and `Watchdog.Stop` ends the current one.
A `Stop` whose context is done returns before the loop has exited, so that a loop may still be in
its last cycle (`checkServices`) when the next `Start` creates another.  The new loop waits for the
channel its predecessor closes when it exits, so that two loops never check at once.

A loop can also leave that wait: when it is stopped itself, or its context is done.  It then exits,
and closes its own channel, while its predecessor may still be checking.  The next loop waits for
this channel only, so it goes ahead (`overlap_after_early_stop`).  The loops are exclusive in every
run in which `Start` finds no loop but the one it replaces still checking (`loops_exclusive`).

Calls of `Start` and `Stop` follow one another.  With an arbitrary context a `Stop` can return at
any time, so its wait is no step; closing the stop channel is one, because a loop can run between
the two halves of `Stop`.
-/

namespace Configd

open Lib

inductive LoopStage
  | absent
  /-- At the first `select`, which waits for the previous loop. -/
  | waiting
  /-- At the `select` of the loop. -/
  | idle
  | checking
  /-- Returned: its running channel is closed. -/
  | exited
  deriving DecidableEq

/-- A loop of the watchdog, with the channels `run` was given. -/
structure WatchdogLoop where
  stage : LoopStage := .absent
  /-- Its stop channel is closed. -/
  stopped : Bool := false
  /-- Its context is done. -/
  cancelled : Bool := false
  /-- The loop whose running channel it waits for. -/
  previous : Option Nat := none
  deriving DecidableEq

/-- The watchdog with all loops it ever created, numbered in that order. -/
structure Watchdog where
  enabled : Bool := false
  /-- The loop that `stopChan` and `runningChan` belong to. -/
  current : Option Nat := none
  /-- A call of `Stop` has not closed the stop channel yet. -/
  closing : Bool := false
  /-- How many loops were created. -/
  started : Nat := 0
  loops : Nat → WatchdogLoop := fun _ => {}

inductive WatchdogAct
  | start
  | stop
  /-- The second half of `Stop`: `close(stopChan)`. -/
  | closeStopChan
  /-- The context of a loop is cancelled. -/
  | cancel (n : Nat)
  /-- The loop finds its predecessor's running channel closed. -/
  | proceed (n : Nat)
  /-- The loop leaves its wait because it is stopped, or its context is done. -/
  | giveUp (n : Nat)
  /-- The ticker fires, and the loop is not stopped. -/
  | tick (n : Nat)
  /-- `checkServices` returns. -/
  | checked (n : Nat)
  /-- The loop finds its stop channel closed. -/
  | quit (n : Nat)
  deriving DecidableEq

namespace Watchdog

def setLoop (w : Watchdog) (n : Nat) (loop : WatchdogLoop) : Watchdog :=
  { w with loops := Function.update w.loops n loop }

def isExited (w : Watchdog) (n : Nat) : Bool :=
  (w.loops n).stage = .exited

/-- The running channel the loop waits for is closed, or there is none. -/
def previousExited (w : Watchdog) (n : Nat) : Bool :=
  (w.loops n).previous.elim true w.isExited

/-- `Watchdog.Start`, on a host without systemd units. -/
def start (w : Watchdog) : Watchdog :=
  { w with
    enabled := true
    current := some w.started
    started := w.started + 1 }.setLoop w.started { stage := .waiting, previous := w.current }

/-- `Watchdog.Stop`, up to closing the stop channel. -/
def stop (w : Watchdog) : Watchdog :=
  { w with enabled := false, closing := true }

def closeStopChan (w : Watchdog) : Watchdog :=
  match w.current with
  | none => { w with closing := false }
  | some n => { w with closing := false }.setLoop n { w.loops n with stopped := true }

def goTo (w : Watchdog) (n : Nat) (stage : LoopStage) : Watchdog :=
  w.setLoop n { w.loops n with stage := stage }

def step (w : Watchdog) : WatchdogAct → Watchdog
  | .start => if w.closing || w.enabled then w else w.start
  | .stop => if w.closing || !w.enabled then w else w.stop
  | .closeStopChan => if w.closing then w.closeStopChan else w
  | .cancel n => w.setLoop n { w.loops n with cancelled := true }
  | .proceed n =>
    if (w.loops n).stage = .waiting ∧ w.previousExited n = true then w.goTo n .idle else w
  | .giveUp n =>
    if (w.loops n).stage = .waiting ∧ ((w.loops n).stopped || (w.loops n).cancelled) = true then
      w.goTo n .exited
    else w
  | .tick n =>
    -- A stop wins over a tick that fired at the same time.
    if (w.loops n).stage = .idle ∧ (w.loops n).stopped = false then w.goTo n .checking else w
  | .checked n => if (w.loops n).stage = .checking then w.goTo n .idle else w
  | .quit n =>
    if (w.loops n).stage = .idle ∧ (w.loops n).stopped = true then w.goTo n .exited else w

/-- Two loops never execute `checkServices` at once. -/
def Exclusive (w : Watchdog) : Prop :=
  ∀ i j, (w.loops i).stage = .checking → (w.loops j).stage = .checking → i = j

/-- The call of `Start`, if it takes effect, finds no loop but the one it replaces
still checking. -/
def StartsClear (w : Watchdog) (a : WatchdogAct) : Prop :=
  a = .start → w.closing = false → w.enabled = false →
    ∀ i, w.current ≠ some i → (w.loops i).stage ≠ .checking

/-! ## What a step can do -/

/-- The steps of a loop, with the stage they lead to. -/
inductive LoopMoves (w : Watchdog) (n : Nat) : LoopStage → Prop
  | proceed (hstage : (w.loops n).stage = .waiting) (hprevious : w.previousExited n = true) :
      LoopMoves w n .idle
  | giveUp (hstage : (w.loops n).stage = .waiting) : LoopMoves w n .exited
  | tick (hstage : (w.loops n).stage = .idle) (hstopped : (w.loops n).stopped = false) :
      LoopMoves w n .checking
  | checked (hstage : (w.loops n).stage = .checking) : LoopMoves w n .idle
  | quit (hstage : (w.loops n).stage = .idle) (hstopped : (w.loops n).stopped = true) :
      LoopMoves w n .exited

/-- **What a step can do.** -/
theorem step_cases (w : Watchdog) (a : WatchdogAct) :
    w.step a = w ∨
      (a = .start ∧ w.closing = false ∧ w.enabled = false ∧ w.step a = w.start) ∨
      (w.closing = false ∧ w.enabled = true ∧ w.step a = w.stop) ∨
      (w.closing = true ∧ w.step a = w.closeStopChan) ∨
      (∃ n, w.step a = w.setLoop n { w.loops n with cancelled := true }) ∨
      ∃ n stage, LoopMoves w n stage ∧ w.step a = w.goTo n stage := by
  cases a with
  | start => cases hclosing : w.closing <;> cases henabled : w.enabled <;> simp [step, *]
  | stop => cases hclosing : w.closing <;> cases henabled : w.enabled <;> simp [step, *]
  | closeStopChan => cases hclosing : w.closing <;> simp [step, *]
  | cancel n => exact Or.inr (Or.inr (Or.inr (Or.inr (Or.inl ⟨n, rfl⟩))))
  | proceed n =>
    by_cases h : (w.loops n).stage = .waiting ∧ w.previousExited n = true
    · exact Or.inr (Or.inr (Or.inr (Or.inr (Or.inr ⟨n, _, .proceed h.1 h.2, if_pos h⟩))))
    · exact Or.inl (if_neg h)
  | giveUp n =>
    by_cases h : (w.loops n).stage = .waiting ∧
        ((w.loops n).stopped || (w.loops n).cancelled) = true
    · exact Or.inr (Or.inr (Or.inr (Or.inr (Or.inr ⟨n, _, .giveUp h.1, if_pos h⟩))))
    · exact Or.inl (if_neg h)
  | tick n =>
    by_cases h : (w.loops n).stage = .idle ∧ (w.loops n).stopped = false
    · exact Or.inr (Or.inr (Or.inr (Or.inr (Or.inr ⟨n, _, .tick h.1 h.2, if_pos h⟩))))
    · exact Or.inl (if_neg h)
  | checked n =>
    by_cases h : (w.loops n).stage = .checking
    · exact Or.inr (Or.inr (Or.inr (Or.inr (Or.inr ⟨n, _, .checked h, if_pos h⟩))))
    · exact Or.inl (if_neg h)
  | quit n =>
    by_cases h : (w.loops n).stage = .idle ∧ (w.loops n).stopped = true
    · exact Or.inr (Or.inr (Or.inr (Or.inr (Or.inr ⟨n, _, .quit h.1 h.2, if_pos h⟩))))
    · exact Or.inl (if_neg h)

/-! ## The invariant -/

/-- What holds of the loops in every run in which each `Start` finds the earlier
loops done checking. -/
structure Inv (w : Watchdog) : Prop where
  current : ∀ n, w.current = some n ↔ n + 1 = w.started
  absent : ∀ n, (w.loops n).stage = .absent ↔ w.started ≤ n
  previous : ∀ n < w.started, ∀ m, (w.loops n).previous = some m ↔ m + 1 = n
  /-- Every loop but the last one was stopped before its successor was created. -/
  stopped : ∀ n, n + 1 < w.started → (w.loops n).stopped = true
  last : w.enabled = false → w.closing = false → ∀ n, n + 1 = w.started →
    (w.loops n).stopped = true
  /-- Only the last two loops can be checking. -/
  settled : ∀ n, n + 2 < w.started → (w.loops n).stage ≠ .checking
  /-- A loop past its wait is one whose predecessor has exited. -/
  begun : ∀ n, (w.loops (n + 1)).stage = .idle ∨ (w.loops (n + 1)).stage = .checking →
    (w.loops n).stage = .exited

theorem inv_init : Inv {} where
  current n := by simp
  absent n := by simp
  previous n hn := by simp at hn
  stopped n hn := by simp at hn
  last _ _ n hn := by simp at hn
  settled n hn := by simp at hn
  begun n h := by simp at h

variable {w : Watchdog}

theorem Inv.exclusive (h : w.Inv) : w.Exclusive := by
  -- It is enough to look at the older loop first.
  have hnever : ∀ i j, i < j → (w.loops i).stage = .checking → (w.loops j).stage ≠ .checking := by
    intro i j hlt hi hj
    have hstarted : j < w.started := by
      by_contra hge
      have habsent := (h.absent j).mpr (by omega)
      simp [habsent] at hj
    by_cases hnext : i + 1 = j
    · subst hnext
      have hexited := h.begun i (Or.inr hj)
      simp [hexited] at hi
    · exact h.settled i (by omega) hi
  intro i j hi hj
  rcases lt_trichotomy i j with hlt | heq | hgt
  · exact absurd hj (hnever i j hlt hi)
  · exact heq
  · exact absurd hi (hnever j i hgt hj)

theorem inv_start (h : w.Inv) (hclosing : w.closing = false)
    (henabled : w.enabled = false)
    (hclear : ∀ i, w.current ≠ some i → (w.loops i).stage ≠ .checking) : w.start.Inv := by
  -- The new loop is the only one that changes.
  have hloop : ∀ n, n ≠ w.started → w.start.loops n = w.loops n := fun n hne =>
    Function.update_of_ne hne _ _
  have hnew : w.start.loops w.started = { stage := .waiting, previous := w.current } :=
    Function.update_self _ _ _
  refine ⟨?_, ?_, ?_, ?_, ?_, ?_, ?_⟩
  · intro n
    show some w.started = some n ↔ n + 1 = w.started + 1
    simp only [Option.some.injEq]
    omega
  · intro n
    show (w.start.loops n).stage = .absent ↔ w.started + 1 ≤ n
    by_cases heq : n = w.started
    · subst heq
      simp [hnew]
    · rw [hloop n heq, h.absent n]
      omega
  · intro n hn m
    have hlt : n < w.started + 1 := hn
    by_cases heq : n = w.started
    · subst heq
      rw [hnew]
      exact h.current m
    · rw [hloop n heq]
      exact h.previous n (by omega) m
  · intro n hn
    have hlt : n + 1 < w.started + 1 := hn
    rw [hloop n (by omega)]
    by_cases hlast : n + 1 = w.started
    · exact h.last henabled hclosing n hlast
    · exact h.stopped n (by omega)
  · intro hdisabled
    exact absurd hdisabled (by simp [start, setLoop])
  · intro n hn
    have hlt : n + 2 < w.started + 1 := hn
    rw [hloop n (by omega)]
    refine hclear n ?_
    rw [ne_eq, h.current n]
    omega
  · intro n hbegun
    by_cases heq : n + 1 = w.started
    · rw [heq, hnew] at hbegun
      simp at hbegun
    · rw [hloop (n + 1) heq] at hbegun
      have hexited := h.begun n hbegun
      by_cases hself : n = w.started
      · have habsent := (h.absent n).mpr (by omega)
        simp [habsent] at hexited
      · rwa [hloop n hself]

theorem Inv.flags {w' : Watchdog} (h : w.Inv) (hcurrent : w'.current = w.current)
    (hstarted : w'.started = w.started) (hstage : ∀ n, (w'.loops n).stage = (w.loops n).stage)
    (hprevious : ∀ n, (w'.loops n).previous = (w.loops n).previous)
    (hstopped : ∀ n, (w.loops n).stopped = true → (w'.loops n).stopped = true)
    (hlast : w'.enabled = false → w'.closing = false → ∀ n, n + 1 = w.started →
      (w'.loops n).stopped = true) : w'.Inv := by
  refine ⟨?_, ?_, ?_, ?_, ?_, ?_, ?_⟩
  · simpa [hcurrent, hstarted] using h.current
  · simpa [hstarted, hstage] using h.absent
  · simpa [hstarted, hprevious] using h.previous
  · rw [hstarted]
    exact fun n hn => hstopped n (h.stopped n hn)
  · simpa [hstarted] using hlast
  · simpa [hstarted, hstage] using h.settled
  · simpa [hstage] using h.begun

theorem inv_closeStopChan (h : w.Inv) : w.closeStopChan.Inv := by
  cases hcurrent : w.current with
  | none =>
    have heq : w.closeStopChan = { w with closing := false } := by
      simp [closeStopChan, hcurrent]
    rw [heq]
    refine h.flags rfl rfl (fun _ => rfl) (fun _ => rfl) (fun _ => id) ?_
    -- Without a current loop none was started.
    intro _ _ n hn
    have hsome := (h.current n).mpr hn
    simp [hcurrent] at hsome
  | some k =>
    have heq : w.closeStopChan =
        { w with closing := false }.setLoop k { w.loops k with stopped := true } := by
      simp [closeStopChan, hcurrent]
    rw [heq]
    have hloop : ∀ n, ({ w with closing := false }.setLoop k
        { w.loops k with stopped := true }).loops n =
          if n = k then { w.loops k with stopped := true } else w.loops n := by
      intro n
      simp [setLoop, Function.update_apply]
    refine h.flags rfl rfl ?_ ?_ ?_ ?_
    · intro n
      rw [hloop n]
      split <;> simp_all
    · intro n
      rw [hloop n]
      split <;> simp_all
    · intro n hn
      rw [hloop n]
      split <;> simp_all
    · intro _ _ n hn
      have hk : w.current = some n := (h.current n).mpr hn
      have heqn : k = n := by simpa [hcurrent] using hk
      rw [hloop n, if_pos heqn.symm]

theorem inv_cancel (h : w.Inv) (k : Nat) :
    (w.setLoop k { w.loops k with cancelled := true }).Inv := by
  have hloop : ∀ n, (w.setLoop k { w.loops k with cancelled := true }).loops n =
      if n = k then { w.loops k with cancelled := true } else w.loops n := by
    intro n
    simp [setLoop, Function.update_apply]
  refine h.flags rfl rfl ?_ ?_ ?_ ?_
  · intro n
    rw [hloop n]
    split <;> simp_all
  · intro n
    rw [hloop n]
    split <;> simp_all
  · intro n hn
    rw [hloop n]
    split <;> simp_all
  · intro henabled hclosing n hn
    have hstopped := h.last henabled hclosing n hn
    rw [hloop n]
    split <;> simp_all

/-! ## The steps of a loop -/

@[simp] theorem goTo_stage (w : Watchdog) (k n : Nat) (stage : LoopStage) :
    ((w.goTo k stage).loops n).stage = if n = k then stage else (w.loops n).stage := by
  by_cases heq : n = k <;> simp [goTo, setLoop, heq]

@[simp] theorem goTo_stopped (w : Watchdog) (k n : Nat) (stage : LoopStage) :
    ((w.goTo k stage).loops n).stopped = (w.loops n).stopped := by
  by_cases heq : n = k <;> simp [goTo, setLoop, heq]

@[simp] theorem goTo_previous (w : Watchdog) (k n : Nat) (stage : LoopStage) :
    ((w.goTo k stage).loops n).previous = (w.loops n).previous := by
  by_cases heq : n = k <;> simp [goTo, setLoop, heq]

theorem Inv.goTo (h : w.Inv) {k : Nat} {stage : LoopStage}
    (hcreated : (w.loops k).stage ≠ .absent) (hleft : (w.loops k).stage ≠ .exited)
    (hstage : stage ≠ .absent)
    (hchecking : stage = .checking → k + 1 = w.started)
    (hbegun : stage = .idle ∨ stage = .checking → ∀ m, m + 1 = k → (w.loops m).stage = .exited) :
    (w.goTo k stage).Inv := by
  have hstarted : (w.goTo k stage).started = w.started := rfl
  refine ⟨h.current, ?_, ?_, ?_, ?_, ?_, ?_⟩
  · intro n
    rw [goTo_stage, hstarted, ← h.absent n]
    split
    · rename_i heq
      simp [hstage, heq, hcreated]
    · rfl
  · simpa [hstarted] using h.previous
  · simpa [hstarted] using h.stopped
  · intro henabled hclosing n hn
    rw [goTo_stopped]
    exact h.last henabled hclosing n hn
  · intro n hn
    rw [goTo_stage]
    split
    · rename_i heq
      intro hcheck
      have hlast := hchecking hcheck
      rw [hstarted] at hn
      omega
    · exact h.settled n hn
  · intro n hnext
    rw [goTo_stage] at hnext
    -- The predecessor of the loop that moved, or of another one.
    have hexited : (w.loops n).stage = .exited := by
      split at hnext
      · rename_i heq
        exact hbegun hnext n heq
      · exact h.begun n hnext
    rw [goTo_stage, if_neg (fun heq : n = k => hleft (heq ▸ hexited))]
    exact hexited

theorem inv_loopMoves (h : w.Inv) {k : Nat} {stage : LoopStage}
    (hmoves : LoopMoves w k stage) : (w.goTo k stage).Inv := by
  -- A loop that is past its wait is one whose predecessor has exited.
  have hpast : (w.loops k).stage = .idle ∨ (w.loops k).stage = .checking →
      ∀ m, m + 1 = k → (w.loops m).stage = .exited := by
    rintro hstage m rfl
    exact h.begun m hstage
  have hexists : (w.loops k).stage ≠ .absent → k < w.started := by
    intro hne
    by_contra hge
    exact hne ((h.absent k).mpr (by omega))
  cases hmoves with
  | proceed hstage hprevious =>
    refine h.goTo (by simp [hstage]) (by simp [hstage]) (by simp) (by simp) ?_
    rintro - m rfl
    have hchannel := (h.previous (m + 1) (hexists (by simp [hstage])) m).mpr rfl
    simpa [previousExited, hchannel, isExited] using hprevious
  | giveUp hstage =>
    exact h.goTo (by simp [hstage]) (by simp [hstage]) (by simp) (by simp) (by simp)
  | tick hstage hstopped =>
    refine h.goTo (by simp [hstage]) (by simp [hstage]) (by simp) ?_ fun _ => hpast (Or.inl hstage)
    -- Only the last loop is not stopped.
    intro _
    have hlt := hexists (by simp [hstage])
    by_contra hne
    have hclosed := h.stopped k (by omega)
    simp [hclosed] at hstopped
  | checked hstage =>
    exact h.goTo (by simp [hstage]) (by simp [hstage]) (by simp) (by simp)
      fun _ => hpast (Or.inr hstage)
  | quit hstage hstopped =>
    exact h.goTo (by simp [hstage]) (by simp [hstage]) (by simp) (by simp) (by simp)

theorem inv_step (h : w.Inv) {a : WatchdogAct} (hclear : w.StartsClear a) :
    (w.step a).Inv := by
  rcases w.step_cases a with heq | ⟨hact, hclosing, henabled, heq⟩ | ⟨hclosing, henabled, heq⟩ |
    ⟨hclosing, heq⟩ | ⟨n, heq⟩ | ⟨n, stage, hmoves, heq⟩
  · rwa [heq]
  · rw [heq]
    exact inv_start h hclosing henabled (hclear hact hclosing henabled)
  · rw [heq]
    exact h.flags rfl rfl (fun _ => rfl) (fun _ => rfl) (fun _ => id) (by simp [stop])
  · rw [heq]
    exact inv_closeStopChan h
  · rw [heq]
    exact inv_cancel h n
  · rw [heq]
    exact inv_loopMoves h hmoves

/-! ## Exclusion -/

/-- A first loop that is checking, stopped by a call that does not wait for it. -/
def stoppedWhileChecking : List WatchdogAct :=
  [.start, .proceed 0, .tick 0, .stop, .closeStopChan]

/-- **The loops are exclusive.**  In every run in which each `Start` that takes
effect finds no loop but the one it replaces still checking, no two loops are in
`checkServices` at once. -/
theorem loops_exclusive (acts : List WatchdogAct) (hclear : Along step StartsClear {} acts) :
    (run step {} acts).Exclusive :=
  (run_invariant_along (motive := Inv) inv_init (fun _ _ h hcond => inv_step h hcond)
    hclear).exclusive

theorem loops_exclusive_after_stop :
    (run step {} (stoppedWhileChecking ++
      [.start, .checked 0, .quit 0, .proceed 1, .tick 1])).Exclusive ∧
      ((run step {} (stoppedWhileChecking ++
        [.start, .checked 0, .quit 0, .proceed 1, .tick 1])).loops 1).stage = .checking := by
  refine ⟨loops_exclusive _ ?_, by decide⟩
  simp only [stoppedWhileChecking, List.cons_append, List.nil_append, Along, StartsClear]
  refine ⟨?_, by simp, by simp, by simp, by simp, ?_, by simp, by simp, by simp, by simp, trivial⟩
  · simp
  · intro _ _ _ i hi
    have hne : i ≠ 0 := by
      rintro rfl
      exact hi (by decide)
    simp [step, start, stop, closeStopChan, goTo, setLoop, previousExited, hne]

/-- The second loop is stopped while it waits for the first, which is still
checking: the third one does not wait for the first. -/
theorem overlap_after_early_stop :
    ¬ (run step {} (stoppedWhileChecking ++ [.start, .stop, .closeStopChan, .giveUp 1, .start,
      .proceed 2, .tick 2])).Exclusive := by
  intro hexclusive
  have hsame := hexclusive 0 2 (by decide) (by decide)
  omega

end Watchdog
end Configd
