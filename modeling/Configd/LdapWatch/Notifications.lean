import Configd.LdapWatch.Reports
import Configd.Lib.Fairness

/-!
# Notifications of a live stream

A notification queues a wake-up in a channel that holds one.  The loop of `serveStream` answers a
wake-up by arming the due timer and the timer by a read, and does not look at the channel while a
read is in flight.

No notification is lost (`waiting_of_quiet`): until a read begins after it or the stream ends, a
wake-up is queued or the due timer is armed.  When the loop is served fairly (`Fair`) the read
does begin: the timer is never armed for later than the maximum wait after the first wake-up
(`answered_of_fair`).  `watcher_contract` puts this and the reports together.
-/

namespace Configd
namespace LdapWatch

open Lib

/-! ## Steps of a stream -/

/-- What an event can do to a stream that stays live. -/
inductive StreamStep (settings : Settings) (now : Nat) : Event → Stream → Stream → Prop
  | same (event : Event) (stream : Stream) : StreamStep settings now event stream stream
  /-- The read in flight returned a fingerprint. -/
  | returned (event : Event) (stream : Stream) (resyncAt : Nat) :
      StreamStep settings now event stream
        { stream with stage := .selecting, resyncAt := resyncAt }
  | notify (stream : Stream) : StreamStep settings now .notify stream stream.onNotify
  | wake (stream : Stream) : stream.stage = .selecting →
      StreamStep settings now .wake stream (stream.onWake settings now)
  | due (stream : Stream) : stream.stage = .selecting →
      StreamStep settings now .due stream stream.onDue
  /-- The catch-up read or a resync read begins. -/
  | beginRead (event : Event) (stream : Stream) :
      (∀ notifications burstStart, stream.stage ≠ .reading notifications burstStart) →
      StreamStep settings now event stream stream.beginRead

namespace Watcher

/-- A stream is live. -/
def Live (w : Watcher) : Prop :=
  ∃ stream, w.phase = .live stream

/-- The event begins a read of the stream, or the stream ends. -/
def Answers (w : Watcher) (event : Event) : Prop :=
  (¬ w.Reading ∧ (w.handle event).Reading) ∨ ¬ (w.handle event).Live

theorem not_live_streamLost (w : Watcher) (unsupported : Bool) (lived : Nat) :
    ¬ (w.streamLost unsupported lived).Live := by
  rintro ⟨stream, hphase⟩
  rw [streamLost] at hphase
  split at hphase
  · cases hphase
  · split at hphase <;> cases hphase

variable {w : Watcher} {stream : Stream}

theorem onStream_live (hlive : w.phase = .live stream)
    (change : Stream → Stream) : (w.onStream change).phase = .live (change stream) := by
  rw [onStream, hlive]

/-- **One event at a live stream**: it ends the stream, or makes one of the steps above. -/
theorem streamStep_handle (hlive : w.phase = .live stream)
    (event : Event) :
    ¬ (w.handle event).Live ∨
      ∃ next, (w.handle event).phase = .live next ∧
        StreamStep w.settings w.now event stream next := by
  cases event with
  | advance duration => exact Or.inr ⟨stream, hlive, .same _ _⟩
  | cancel => exact Or.inr ⟨stream, hlive, .same _ _⟩
  | resume =>
    right
    simp only [handle, resume, hlive]
    exact ⟨stream, rfl, .same _ _⟩
  | established =>
    right
    simp only [handle, hlive]
    exact ⟨stream, hlive, .same _ _⟩
  | notify => exact Or.inr ⟨_, onStream_live hlive _, .notify stream⟩
  | read result =>
    simp only [handle, readReturns, hlive]
    cases hstage : stream.stage with
    | reading notifications burstStart =>
      cases result with
      | none => exact Or.inl (not_live_streamLost w false _)
      | some fp => exact Or.inr ⟨_, rfl, .returned _ _ _⟩
    | opening => exact Or.inr ⟨stream, hlive, .same _ _⟩
    | selecting => exact Or.inr ⟨stream, hlive, .same _ _⟩
  | streamEnds unsupported =>
    simp only [handle, streamEnds, hlive]
    split
    · exact Or.inl (not_live_streamLost w unsupported _)
    · exact Or.inr ⟨stream, hlive, .same _ _⟩
  | catchUp =>
    refine Or.inr ⟨_, onStream_live hlive _, ?_⟩
    split
    · rename_i hstage
      refine .beginRead _ stream ?_
      simp [hstage]
    · exact .same _ _
  | wake =>
    refine Or.inr ⟨_, onStream_live hlive _, ?_⟩
    split
    · rename_i hready
      exact .wake stream hready.1
    · exact .same _ _
  | due =>
    refine Or.inr ⟨_, onStream_live hlive _, ?_⟩
    split
    · rename_i hready
      exact .due stream hready.1
    · exact .same _ _
  | resync =>
    refine Or.inr ⟨_, onStream_live hlive _, ?_⟩
    split
    · rename_i hready
      refine .beginRead _ stream ?_
      simp [hready.1]
    · exact .same _ _
  | done =>
    simp only [handle, done, hlive]
    split
    · left
      rintro ⟨other, hother⟩
      cases hother
    · exact Or.inr ⟨stream, hlive, .same _ _⟩

theorem answers_of_stage {next : Stream} {event : Event}
    (hlive : w.phase = .live stream) (hnext : (w.handle event).phase = .live next)
    (hbefore : ∀ notifications burstStart, stream.stage ≠ .reading notifications burstStart)
    {notifications burstStart : Nat} (hafter : next.stage = .reading notifications burstStart) :
    w.Answers event := by
  refine Or.inl ⟨?_, next, notifications, burstStart, hnext, hafter⟩
  rintro ⟨other, n, b, hother, hstage⟩
  rw [hlive] at hother
  cases hother
  exact hbefore n b hstage

/-- **An event that does not answer** leaves the wake-up and the due timer alone, or
turns the one into the other. -/
theorem quiet_cases {event : Event}
    (hlive : w.phase = .live stream) (hquiet : ¬ w.Answers event) :
    ∃ next, (w.handle event).phase = .live next ∧
      ((next.due = stream.due ∧ next.first = stream.first ∧
          (stream.wake = true → next.wake = true) ∧
          (next.stage = stream.stage ∨ next.stage = .selecting)) ∨
        stream.stage = .selecting ∧ next = stream.onWake w.settings w.now) := by
  rcases streamStep_handle hlive event with hends | ⟨next, hnext, hstep⟩
  · exact absurd (Or.inr hends) hquiet
  · refine ⟨next, hnext, ?_⟩
    cases hstep with
    | same => exact Or.inl ⟨rfl, rfl, id, Or.inl rfl⟩
    | returned => exact Or.inl ⟨rfl, rfl, id, Or.inr rfl⟩
    | notify => exact Or.inl ⟨rfl, rfl, fun _ => rfl, Or.inl rfl⟩
    | wake _ hstage => exact Or.inr ⟨hstage, rfl⟩
    | due _ hstage =>
      exact absurd (answers_of_stage hlive hnext (by simp [hstage]) rfl) hquiet
    | beginRead _ _ hstage =>
      exact absurd (answers_of_stage hlive hnext hstage rfl) hquiet

/-! ## No notification is lost -/

/-- A wake-up is queued or the due timer is armed. -/
def Waiting (w : Watcher) : Prop :=
  ∃ stream, w.phase = .live stream ∧ (stream.wake = true ∨ stream.due.isSome = true)

theorem waiting_notify (hlive : w.Live) : (w.handle .notify).Waiting := by
  obtain ⟨stream, hphase⟩ := hlive
  exact ⟨_, onStream_live hphase _, Or.inl rfl⟩

theorem Waiting.handle (h : w.Waiting) {event : Event}
    (hquiet : ¬ w.Answers event) : (w.handle event).Waiting := by
  obtain ⟨stream, hlive, hwaiting⟩ := h
  obtain ⟨next, hnext, ⟨hdue, -, hwake, -⟩ | ⟨-, rfl⟩⟩ := quiet_cases hlive hquiet
  · refine ⟨next, hnext, ?_⟩
    rw [hdue]
    exact hwaiting.imp hwake id
  · exact ⟨_, hnext, Or.inr rfl⟩

/-- **No notification is lost**: until a read begins after it, or the stream ends, a
wake-up is queued or the due timer is armed. -/
theorem waiting_of_quiet (hlive : w.Live) {events : List Event}
    (hquiet : Along Watcher.handle (fun w event => ¬ w.Answers event) (w.handle .notify) events) :
    (run Watcher.handle (w.handle .notify) events).Waiting :=
  run_invariant_along (waiting_notify hlive) (fun _ _ h hevent => h.handle hevent) hquiet

/-! ## The due timer -/

/-- While the due timer is armed its burst has begun, and it fires at most the maximum wait
after that, or at once. -/
def DueBounded (w : Watcher) : Prop :=
  ∀ stream due, w.phase = .live stream → stream.due = some due →
    ∃ first, stream.first = some first ∧ due ≤ max (first + w.settings.maxWait) w.now

theorem now_le_handle (w : Watcher) (event : Event) :
    w.now ≤ (w.handle event).now ∧ (w.handle event).settings = w.settings := by
  rcases handle_cases w event with huntouched | ⟨fp, -, ⟨limit, -, hpoll⟩ |
      ⟨stream, notifications, burstStart, -, -, hstream⟩⟩
  · exact ⟨huntouched.now, huntouched.settings⟩
  · rw [hpoll]
    exact ⟨le_rfl, rfl⟩
  · rw [hstream]
    exact ⟨le_rfl, rfl⟩

theorem onStream_of_not_live (hnot : ¬ w.Live) (change : Stream → Stream) :
    w.onStream change = w := by
  rw [onStream]
  split
  · rename_i stream hphase
    exact absurd ⟨stream, hphase⟩ hnot
  · rfl

theorem opened_of_not_live (hnot : ¬ w.Live) {event : Event} {next : Stream}
    (hnext : (w.handle event).phase = .live next) : next = Stream.opened w.now := by
  have hkept : w.phase ≠ .live next := fun h => hnot ⟨next, h⟩
  cases event with
  | advance duration => exact absurd hnext hkept
  | cancel => exact absurd hnext hkept
  | notify => exact absurd (onStream_of_not_live hnot _ ▸ hnext) hkept
  | catchUp => exact absurd (onStream_of_not_live hnot _ ▸ hnext) hkept
  | wake => exact absurd (onStream_of_not_live hnot _ ▸ hnext) hkept
  | due => exact absurd (onStream_of_not_live hnot _ ▸ hnext) hkept
  | resync => exact absurd (onStream_of_not_live hnot _ ▸ hnext) hkept
  | established =>
    simp only [handle] at hnext
    split at hnext
    · cases hnext
      rfl
    · exact absurd hnext hkept
  | resume =>
    simp only [handle, resume] at hnext
    cases hphase : w.phase with
    | polling limit resumeAt =>
      simp only [hphase] at hnext
      split_ifs at hnext
      simp_all
    | backingOff resumeAt =>
      simp only [hphase] at hnext
      split_ifs at hnext
      simp_all
    | _ => simp_all
  | read result =>
    simp only [handle, readReturns] at hnext
    cases hphase : w.phase with
    | pollReading limit =>
      simp only [hphase] at hnext
      cases result <;> cases hnext
    | live stream => exact absurd ⟨stream, hphase⟩ hnot
    | _ => simp_all
  | streamEnds unsupported =>
    simp only [handle, streamEnds] at hnext
    cases hphase : w.phase with
    | connecting =>
      simp only [hphase] at hnext
      exact absurd ⟨next, hnext⟩ (not_live_streamLost w unsupported 0)
    | live stream => exact absurd ⟨stream, hphase⟩ hnot
    | _ => simp_all
  | done =>
    simp only [handle, done] at hnext
    cases hphase : w.phase with
    | connecting =>
      simp only [hphase] at hnext
      split at hnext
      · cases hnext
      · exact absurd hnext hkept
    | live stream => exact absurd ⟨stream, hphase⟩ hnot
    | _ => simp_all

theorem DueBounded.handle (h : w.DueBounded) (event : Event) :
    (w.handle event).DueBounded := by
  intro next due hnext hdue
  obtain ⟨hnow, hsettings⟩ := now_le_handle w event
  rw [hsettings]
  -- The bound of a timer that is left alone only grows.
  have hkeep : ∀ stream, w.phase = .live stream → next.due = stream.due →
      next.first = stream.first → ∃ first, next.first = some first ∧
        due ≤ max (first + w.settings.maxWait) (w.handle event).now := by
    intro stream hlive hsameDue hsameFirst
    obtain ⟨first, hfirst, hle⟩ := h stream due hlive (hsameDue ▸ hdue)
    exact ⟨first, hsameFirst.trans hfirst, by omega⟩
  by_cases hlive : w.Live
  · obtain ⟨stream, hlive⟩ := hlive
    rcases streamStep_handle hlive event with hends | ⟨found, hfound, hstep⟩
    · exact absurd ⟨next, hnext⟩ hends
    · rw [hnext] at hfound
      cases hfound
      cases hstep with
      | same => exact hkeep _ hlive rfl rfl
      | returned => exact hkeep _ hlive rfl rfl
      | notify => exact hkeep _ hlive rfl rfl
      | beginRead => exact hkeep _ hlive rfl rfl
      | due => cases hdue
      | wake =>
        cases hdue
        refine ⟨stream.first.getD w.now, rfl, ?_⟩
        simp only [Settings.untilDue]
        split <;> omega
  · rw [opened_of_not_live hlive hnext] at hdue
    cases hdue

/-! ## Every notification is answered -/

/-- What the runtime owes the loop of a stream: the clock goes on, a read returns, and
what stays ready at the `select` is chosen at some point. -/
structure Fair (o : Options) (events : Nat → Event) : Prop where
  time : ∀ t, ∃ n, t ≤ (stateAt Watcher.handle (new o) events n).now
  catchUp : WeaklyFair Watcher.handle (new o) events
    (fun w => ∃ stream, w.phase = .live stream ∧ stream.stage = .opening) (· = .catchUp)
  read : WeaklyFair Watcher.handle (new o) events Reading
    (fun event => ∃ result, event = .read result)
  wake : WeaklyFair Watcher.handle (new o) events
    (fun w => ∃ stream, w.phase = .live stream ∧ stream.stage = .selecting ∧ stream.wake = true)
    (· = .wake)
  due : WeaklyFair Watcher.handle (new o) events
    (fun w => ∃ stream, w.phase = .live stream ∧ stream.stage = .selecting ∧
      stream.dueExpired w.now = true) (· = .due)

/-! ### The four events that move the loop on -/

theorem answers_catchUp (hlive : w.phase = .live stream)
    (hstage : stream.stage = .opening) : w.Answers .catchUp := by
  have hnext : (w.handle .catchUp).phase = .live stream.beginRead := by
    rw [handle, onStream_live hlive, if_pos hstage]
  exact answers_of_stage hlive hnext (by simp [hstage]) rfl

theorem answers_due (hlive : w.phase = .live stream)
    (hstage : stream.stage = .selecting) (hdue : stream.dueExpired w.now = true) :
    w.Answers .due := by
  have hnext : (w.handle .due).phase = .live stream.onDue := by
    rw [handle, onStream_live hlive, if_pos ⟨hstage, hdue⟩]
  exact answers_of_stage hlive hnext (by simp [hstage]) rfl

theorem handle_wake (hlive : w.phase = .live stream)
    (hstage : stream.stage = .selecting) (hwake : stream.wake = true) :
    (w.handle .wake).phase = .live (stream.onWake w.settings w.now) := by
  rw [handle, onStream_live hlive, if_pos ⟨hstage, hwake⟩]

theorem handle_read (hreading : w.Reading) (result : Option Fingerprint)
    (hquiet : ¬ w.Answers (.read result)) :
    ∃ next, (w.handle (.read result)).phase = .live next ∧ next.stage = .selecting := by
  obtain ⟨stream, notifications, burstStart, hlive, hstage⟩ := hreading
  have hnext : w.handle (.read result) =
      w.streamReturns stream notifications burstStart result := by
    simp only [handle, readReturns, hlive, hstage]
  rw [hnext]
  cases result with
  | some fp => exact ⟨_, rfl, rfl⟩
  | none =>
    have hends : ¬ (w.handle (.read none)).Live := by
      rw [hnext]
      exact not_live_streamLost w false _
    exact absurd (Or.inr hends) hquiet

section Liveness

variable {o : Options} {events : Nat → Event}

theorem dueBounded_stateAt (o : Options) (events : Nat → Event) (n : Nat) :
    (stateAt Watcher.handle (new o) events n).DueBounded := by
  refine stateAt_invariant ?_ (fun _ event h => h.handle event) n
  intro stream due hlive
  simp only [new] at hlive
  split at hlive <;> cases hlive

theorem now_mono (o : Options) (events : Nat → Event) {n m : Nat} (h : n ≤ m) :
    (stateAt Watcher.handle (new o) events n).now ≤
      (stateAt Watcher.handle (new o) events m).now := by
  refine forall_of_step (p := fun m => (stateAt Watcher.handle (new o) events n).now ≤
    (stateAt Watcher.handle (new o) events m).now) le_rfl ?_ m h
  intro k _ hk
  exact hk.trans (now_le_handle _ _).1

/-- The stream is at the `select`, and the due timer is armed for the burst that began at
`first`. -/
def Armed (w : Watcher) (first : Nat) : Prop :=
  ∃ stream, w.phase = .live stream ∧ stream.stage = .selecting ∧
    stream.due.isSome = true ∧ stream.first = some first

theorem Armed.handle {first : Nat} (h : w.Armed first) {event : Event}
    (hquiet : ¬ w.Answers event) : (w.handle event).Armed first := by
  obtain ⟨stream, hlive, hstage, hdue, hfirst⟩ := h
  obtain ⟨next, hnext, ⟨hsameDue, hsameFirst, -, hnextStage⟩ | ⟨-, rfl⟩⟩ :=
    quiet_cases hlive hquiet
  · refine ⟨next, hnext, ?_, hsameDue ▸ hdue, hsameFirst.trans hfirst⟩
    exact hnextStage.elim (fun hsame => hsame.trans hstage) id
  · exact ⟨_, hnext, hstage, rfl, by simp [Stream.onWake, hfirst]⟩

theorem Armed.expired {first : Nat} (h : w.Armed first) (hbound : w.DueBounded)
    (hpassed : first + w.settings.maxWait ≤ w.now) :
    ∃ stream, w.phase = .live stream ∧ stream.stage = .selecting ∧
      stream.dueExpired w.now = true := by
  obtain ⟨stream, hlive, hstage, hdue, hfirst⟩ := h
  obtain ⟨due, hdue⟩ := Option.isSome_iff_exists.mp hdue
  obtain ⟨found, hfound, hle⟩ := hbound stream due hlive hdue
  rw [hfirst] at hfound
  cases hfound
  refine ⟨stream, hlive, hstage, ?_⟩
  rw [Stream.dueExpired, hdue, Option.elim_some, decide_eq_true_eq]
  omega

theorem settings_stateAt (o : Options) (events : Nat → Event) (n : Nat) :
    (stateAt Watcher.handle (new o) events n).settings = Settings.new o :=
  stateAt_invariant (motive := fun w => w.settings = Settings.new o) rfl
    (fun w event h => (now_le_handle w event).2.trans h) n

section Unanswered

variable (hfair : Fair o events) {n : Nat}
  (hnever : ∀ m, n < m → ¬ (stateAt Watcher.handle (new o) events m).Answers (events m))

include hfair hnever

theorem exists_selecting {start : Nat} (hstart : n < start)
    (hlive : (stateAt Watcher.handle (new o) events start).Live) :
    ∃ m, n < m ∧ ∃ stream, (stateAt Watcher.handle (new o) events m).phase = .live stream ∧
      stream.stage = .selecting := by
  have hsucc : (∃ m, start ≤ m ∧ n < m + 1 ∧ ∃ stream,
      (stateAt Watcher.handle (new o) events (m + 1)).phase = .live stream ∧
        stream.stage = .selecting) →
      ∃ m, n < m ∧ ∃ stream, (stateAt Watcher.handle (new o) events m).phase = .live stream ∧
        stream.stage = .selecting :=
    fun ⟨m, _, hm⟩ => ⟨m + 1, hm⟩
  obtain ⟨stream, hphase⟩ := hlive
  cases hstage : stream.stage with
  | selecting => exact ⟨start, hstart, stream, hphase, hstage⟩
  | opening =>
    refine hsucc (hfair.catchUp.exists_of_step
      (fun m => n < m ∧ ∃ stream,
        (stateAt Watcher.handle (new o) events m).phase = .live stream ∧ stream.stage = .opening)
      _ (fun m hp => hp.2) ?_ ⟨hstart, stream, hphase, hstage⟩)
    rintro m ⟨hm, stream, hphase, hstage⟩
    have hquiet := hnever m hm
    obtain ⟨next, hnext, ⟨-, -, -, hsame | hdone⟩ | ⟨hselect, -⟩⟩ := quiet_cases hphase hquiet
    · refine Or.inr ⟨⟨by omega, next, hnext, hsame.trans hstage⟩, ?_⟩
      intro htaken
      rw [htaken] at hquiet
      exact hquiet (answers_catchUp hphase hstage)
    · exact Or.inl ⟨by omega, next, hnext, hdone⟩
    · rw [hstage] at hselect
      cases hselect
  | reading notifications burstStart =>
    refine hsucc (hfair.read.exists_of_step
      (fun m => n < m ∧ (stateAt Watcher.handle (new o) events m).Reading)
      _ (fun m hp => hp.2) ?_ ⟨hstart, stream, notifications, burstStart, hphase, hstage⟩)
    rintro m ⟨hm, hreading⟩
    have hquiet := hnever m hm
    by_cases htaken : ∃ result, events m = .read result
    · obtain ⟨result, hresult⟩ := htaken
      rw [hresult] at hquiet
      obtain ⟨next, hnext, hdone⟩ := handle_read hreading result hquiet
      refine Or.inl ⟨by omega, next, ?_, hdone⟩
      rw [stateAt, hresult]
      exact hnext
    · obtain ⟨stream, notifications, burstStart, hphase, hstage⟩ := hreading
      obtain ⟨next, hnext, ⟨-, -, -, hsame | hdone⟩ | ⟨hselect, -⟩⟩ := quiet_cases hphase hquiet
      · exact Or.inr ⟨⟨by omega, next, notifications, burstStart, hnext, hsame.trans hstage⟩,
          htaken⟩
      · exact Or.inl ⟨by omega, next, hnext, hdone⟩
      · rw [hstage] at hselect
        cases hselect

theorem exists_armed {start : Nat} (hstart : n < start)
    (hphase : (stateAt Watcher.handle (new o) events start).phase = .live stream)
    (hstage : stream.stage = .selecting)
    (hwaiting : stream.wake = true ∨ stream.due.isSome = true) :
    ∃ m first, n < m ∧ (stateAt Watcher.handle (new o) events m).Armed first := by
  rcases hwaiting with hwake | hdue
  · have hsucc : (∃ m, start ≤ m ∧ ∃ first, n < m + 1 ∧
        (stateAt Watcher.handle (new o) events (m + 1)).Armed first) →
        ∃ m first, n < m ∧ (stateAt Watcher.handle (new o) events m).Armed first :=
      fun ⟨m, _, first, hm⟩ => ⟨m + 1, first, hm⟩
    refine hsucc (hfair.wake.exists_of_step
      (fun m => n < m ∧ ∃ stream,
        (stateAt Watcher.handle (new o) events m).phase = .live stream ∧
          stream.stage = .selecting ∧ stream.wake = true)
      _ (fun m hp => hp.2) ?_ ⟨hstart, stream, hphase, hstage, hwake⟩)
    rintro m ⟨hm, stream, hphase, hstage, hwake⟩
    by_cases htaken : events m = .wake
    · have hnext := handle_wake hphase hstage hwake
      rw [← htaken] at hnext
      exact Or.inl ⟨_, by omega, _, hnext, hstage, rfl, rfl⟩
    · obtain ⟨next, hnext, ⟨-, -, hstays, hnextStage⟩ | ⟨-, rfl⟩⟩ :=
        quiet_cases hphase (hnever m hm)
      · refine Or.inr ⟨⟨by omega, next, hnext, ?_, hstays hwake⟩, htaken⟩
        exact hnextStage.elim (fun hsame => hsame.trans hstage) id
      · exact Or.inl ⟨_, by omega, _, hnext, hstage, rfl, rfl⟩
  · obtain ⟨due, hdue'⟩ := Option.isSome_iff_exists.mp hdue
    obtain ⟨first, hfirst, -⟩ := dueBounded_stateAt o events start stream due hphase hdue'
    exact ⟨start, first, hstart, stream, hphase, hstage, hdue, hfirst⟩

theorem not_armed {start first : Nat} (hstart : n < start) :
    ¬ (stateAt Watcher.handle (new o) events start).Armed first := by
  intro harmed
  have hstays : ∀ m, start ≤ m → (stateAt Watcher.handle (new o) events m).Armed first :=
    forall_of_step (p := fun m => (stateAt Watcher.handle (new o) events m).Armed first) harmed
      fun m hm h => h.handle (hnever m (by omega))
  obtain ⟨late, hlate⟩ := hfair.time (first + (Settings.new o).maxWait)
  have hexpired : ∀ m, max start late ≤ m → ∃ stream,
      (stateAt Watcher.handle (new o) events m).phase = .live stream ∧
        stream.stage = .selecting ∧
        stream.dueExpired (stateAt Watcher.handle (new o) events m).now = true := by
    intro m hm
    refine (hstays m (by omega)).expired (dueBounded_stateAt o events m) ?_
    rw [settings_stateAt]
    exact hlate.trans (now_mono o events (by omega))
  obtain ⟨m, hm, hdue⟩ := hfair.due (max start late) hexpired
  obtain ⟨stream, hphase, hstage, hdueExpired⟩ := hexpired m hm
  refine hnever m (by omega) ?_
  rw [hdue]
  exact answers_due hphase hstage hdueExpired

end Unanswered

/-- **Every notification is answered** when the loop is served fairly. -/
theorem answered_of_fair (hfair : Fair o events) {n : Nat}
    (hlive : (stateAt Watcher.handle (new o) events n).Live) (hnotify : events n = .notify) :
    ∃ m, n < m ∧ (stateAt Watcher.handle (new o) events m).Answers (events m) := by
  by_contra hnever
  push Not at hnever
  have hwaiting : ∀ m, n + 1 ≤ m → (stateAt Watcher.handle (new o) events m).Waiting := by
    refine forall_of_step (p := fun m => (stateAt Watcher.handle (new o) events m).Waiting) ?_ ?_
    · rw [stateAt, hnotify]
      exact waiting_notify hlive
    · intro m hm h
      exact h.handle (hnever m hm)
  obtain ⟨stream, hphase, -⟩ := hwaiting (n + 1) le_rfl
  obtain ⟨select, hselect, stream, hphase, hstage⟩ :=
    exists_selecting hfair hnever (Nat.lt_succ_self n) ⟨stream, hphase⟩
  obtain ⟨found, hfound, hqueued⟩ := hwaiting select hselect
  rw [hphase] at hfound
  cases hfound
  obtain ⟨m, first, hm, harmed⟩ := exists_armed hfair hnever hselect hphase hstage hqueued
  exact not_armed hfair hnever hm harmed

end Liveness

end Watcher

/-! ## A stream with one notification -/

def streamOptions : Options where
  hasSubscriber := true
  interval := 0
  resyncInterval := 0
  probeInterval := 0
  debounce := 0
  maxWait := 0
  backoffMin := 0
  backoffMax := 0

/-- A stream is established, a notification arrives and is answered, and then only time
passes. -/
def oneNotification : Nat → Event
  | 0 => .established
  | 1 => .catchUp
  | 2 => .read (some ((∅ : Fingerprint).insert "global" "a"))
  | 3 => .notify
  | 4 => .wake
  | 5 => .due
  | 6 => .read (some ((∅ : Fingerprint).insert "global" "b"))
  | _ + 7 => .advance 1

/-- The stream after the answer. -/
def answeredStream : Stream where
  liveAt := 0
  wake := false
  pending := 0
  due := none
  first := none
  last := 0
  resyncAt := 5 * 60 * second
  stage := .selecting

theorem oneNotification_later (k : Nat) :
    (stateAt Watcher.handle (Watcher.new streamOptions) oneNotification (k + 7)).phase =
        .live answeredStream ∧
      (stateAt Watcher.handle (Watcher.new streamOptions) oneNotification (k + 7)).now = k := by
  induction k with
  | zero => exact ⟨by decide +kernel, by decide +kernel⟩
  | succ k ih =>
    rw [Nat.add_right_comm k 1 7, stateAt]
    exact ⟨ih.1, congrArg (· + 1) ih.2⟩

theorem weaklyFair_oneNotification {ready : Watcher → Prop} {taken : Event → Prop}
    (hready : ∀ w, w.phase = .live answeredStream → ¬ ready w) :
    WeaklyFair Watcher.handle (Watcher.new streamOptions) oneNotification ready taken := by
  intro n hstays
  exact absurd (hstays (n + 7) (by omega)) (hready _ (oneNotification_later n).1)

theorem fair_oneNotification : Watcher.Fair streamOptions oneNotification where
  time := fun t => ⟨t + 7, (oneNotification_later t).2.ge⟩
  catchUp := weaklyFair_oneNotification (by
    rintro w hphase ⟨stream, hstream, hstage⟩
    rw [hphase] at hstream
    cases hstream
    cases hstage)
  read := weaklyFair_oneNotification (by
    rintro w hphase ⟨stream, notifications, burstStart, hstream, hstage⟩
    rw [hphase] at hstream
    cases hstream
    cases hstage)
  wake := weaklyFair_oneNotification (by
    rintro w hphase ⟨stream, hstream, -, hwake⟩
    rw [hphase] at hstream
    cases hstream
    cases hwake)
  due := weaklyFair_oneNotification (by
    rintro w hphase ⟨stream, hstream, -, hdue⟩
    rw [hphase] at hstream
    cases hstream
    cases hdue)

/-! ## Polls with a change -/

def pollOptions : Options :=
  { streamOptions with hasSubscriber := false, debounce := 2 }

/-- A poll sets the baseline, the next one sees a change, and a debounce window after it a third
one begins. -/
def changedPolls : List Event :=
  [.read (some ((∅ : Fingerprint).insert "global" "a")), .advance (5 * second), .resume,
    .read (some ((∅ : Fingerprint).insert "global" "b")), .advance 2, .resume]

/-! ## The contract -/

/-- **The contract of the watcher**, whichever driver is active.  After every list of events each
read fired as its driver has to; the baseline is the last fingerprint read and the pending set is
what the log says; after a trigger it is empty.  The log is that of the successful reads: a read in
flight that returns a fingerprint is added, and any other event, a failed read among them, changes
neither the log nor the baseline nor the pending set.  A notification that is not answered is still
queued or timed, and in every fairly served endless run each one is answered: a read begins after
it or the stream ends. -/
theorem watcher_contract (o : Options) :
    (∀ events : List Event,
      let w := run Watcher.handle (Watcher.new o) events
      (∀ past read rest, w.log = past ++ read :: rest → Decision (Settings.new o) past read) ∧
        w.st.base = w.log.getLast?.map Read.fp ∧
        (∀ name, name ∈ w.st.changed ↔ Pending w.log name) ∧
        (∀ read, w.log.getLast? = some read → read.fired.isSome = true →
          ∀ name, name ∉ w.st.changed) ∧
        (∀ streaming fp, w.InFlight streaming →
          ∃ fired, (w.handle (.read (some fp))).log = w.log ++ [⟨w.now, fp, streaming, fired⟩]) ∧
        (∀ event, (∀ fp, event = .read (some fp) → ∀ streaming, ¬ w.InFlight streaming) →
          Watcher.Untouched w (w.handle event)) ∧
        (w.Live → ∀ more,
          Along Watcher.handle (fun w event => ¬ w.Answers event) (w.handle .notify) more →
            (run Watcher.handle (w.handle .notify) more).Waiting)) ∧
      ∀ events : Nat → Event, Watcher.Fair o events → ∀ n,
        (stateAt Watcher.handle (Watcher.new o) events n).Live → events n = .notify →
          ∃ m, n < m ∧ (stateAt Watcher.handle (Watcher.new o) events m).Answers (events m) := by
  refine ⟨?_, fun events hfair n hlive hnotify => Watcher.answered_of_fair hfair hlive hnotify⟩
  intro events w
  have hinv : w.Inv := Watcher.inv_run o events
  have hsettings : w.settings = Settings.new o :=
    run_invariant (motive := fun w => w.settings = Settings.new o) rfl
      (fun w event h => (Watcher.now_le_handle w event).2.trans h) events
  refine ⟨?_, hinv.tracks.base, hinv.tracks.changed, ?_,
    fun streaming fp hread => Watcher.log_read hread fp,
    fun event hother => Watcher.untouched_of_no_read hother,
    fun hlive more hquiet => Watcher.waiting_of_quiet hlive hquiet⟩
  · rw [← hsettings]
    exact hinv.decided
  · intro read hlast hfired name hmem
    have hlog : w.log = w.log.dropLast ++ [read] :=
      (List.dropLast_append_getLast? read hlast).symm
    have hpending := (hinv.tracks.changed name).mp hmem
    rw [hlog] at hpending
    exact not_pending_of_fired hfired name hpending

/-- In the run with one notification it is answered; the first read fires nothing and the
answer fires the component that changed.  Of the polls the third is added to the log and fires
what the second saw. -/
theorem watcher_contract_oneNotification :
    (stateAt Watcher.handle (Watcher.new streamOptions) oneNotification 3).Live ∧
      oneNotification 3 = .notify ∧
      (∃ m, 3 < m ∧ (stateAt Watcher.handle (Watcher.new streamOptions) oneNotification m).Answers
        (oneNotification m)) ∧
      (stateAt Watcher.handle (Watcher.new streamOptions) oneNotification 7).log.map Read.fired =
        [none, some ["global"]] ∧
      let w := run Watcher.handle (Watcher.new pollOptions) changedPolls
      let fp := (∅ : Fingerprint).insert "global" "b"
      w.InFlight false ∧
        (∃ fired, (w.handle (.read (some fp))).log = w.log ++ [⟨w.now, fp, false, fired⟩]) ∧
        (w.handle (.read (some fp))).log.map Read.fired = [none, none, some ["global"]] := by
  have hlive : (stateAt Watcher.handle (Watcher.new streamOptions) oneNotification 3).Live :=
    ⟨answeredStream, by decide +kernel⟩
  have hread : (run Watcher.handle (Watcher.new pollOptions) changedPolls).InFlight false :=
    ⟨none, by decide +kernel⟩
  have hlog := ((watcher_contract pollOptions).1 changedPolls).2.2.2.2.1
  exact ⟨hlive, rfl, (watcher_contract streamOptions).2 oneNotification fair_oneNotification 3
    hlive rfl, by decide +kernel, hread, hlog false _ hread, by decide +kernel⟩

end LdapWatch
end Configd
