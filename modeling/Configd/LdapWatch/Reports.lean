import Configd.LdapWatch.Watcher
import Mathlib

/-!
# What the watcher reports

The log of successful reads says what the watcher should have pending: the components
in which two consecutive reads differ and that no trigger has reported since
(`Pending`).  Here this is what the shared state holds in every run, whichever driver
made the reads (`Watcher.inv_run`), and each read fires as its driver promises
(`Decision`).

The proof follows one read through the state: `Tracks` is what the state has to know
about a log, and `observe`, the first baseline and `fire` keep it.
-/

namespace Configd
namespace LdapWatch

open Lib

/-! ## The log -/

/-- The component differs between two consecutive reads, and no trigger has followed the
later one. -/
def Pending (log : List Read) (name : String) : Prop :=
  ChangeLog.Pending (fun (read : Read) (name : String) => read.fp[name]?)
    (fun read => read.fired.isSome) log name

/-- A read made at this time saw a change that no trigger has reported yet. -/
def ChangeTime (log : List Read) (t : Nat) : Prop :=
  ChangeLog.ChangeTime (fun (read : Read) (name : String) => read.fp[name]?)
    (fun read => read.fired.isSome) Read.time log t

/-- A read before its trigger. -/
def Read.unfired (read : Read) : Read :=
  { read with fired := none }

/-- **When and what a read fires**, given the reads before it. -/
structure Decision (settings : Settings) (past : List Read) (read : Read) : Prop where
  /-- The first read only sets the baseline. -/
  baseline : past = [] → read.fired = none
  /-- What is fired is what is pending. -/
  exact : ∀ components, read.fired = some components →
    ∀ name, name ∈ components ↔ Pending (past ++ [read.unfired]) name
  /-- A stream fires whatever is pending. -/
  streaming : read.streaming = true →
    (read.fired.isSome = true ↔ ∃ name, Pending (past ++ [read.unfired]) name)
  /-- A poll fires a debounce window after the last change, or a maximum wait after the
  first. -/
  polling : read.streaming = false →
    (read.fired.isSome = true ↔ (∃ name, Pending (past ++ [read.unfired]) name) ∧
      ((∀ t, ChangeTime (past ++ [read.unfired]) t → t + settings.debounce ≤ read.time) ∨
        ∃ t, ChangeTime (past ++ [read.unfired]) t ∧ t + settings.maxWait ≤ read.time))

theorem not_pending_of_fired {past : List Read} {read : Read} (hfired : read.fired.isSome = true)
    (name : String) : ¬ Pending (past ++ [read]) name := by
  cases hlast : past.getLast? with
  | none =>
    obtain rfl : past = [] := List.getLast?_eq_none_iff.mp hlast
    exact ChangeLog.not_pending_of_length_le_one _ _ (by simp) name
  | some last =>
    rw [Pending, ChangeLog.pending_concat _ _ hlast]
    simp [hfired]

/-! ## Fingerprints -/

theorem mem_changedComponents_iff (prev cur : Fingerprint) (name : String) :
    name ∈ changedComponents prev cur ↔ prev[name]? ≠ cur[name]? := by
  simp only [changedComponents, List.mem_mergeSort, List.mem_append, List.mem_filterMap,
    List.mem_filter, Std.ExtTreeMap.mem_keys, decide_eq_true_eq, Prod.exists,
    Std.ExtTreeMap.mem_toList_iff_getElem?_eq_some]
  constructor
  · rintro (⟨found, digest, hcur, hprev⟩ | ⟨hprev, hcur⟩)
    · split at hprev
      · cases hprev
      · rename_i hdiffer
        cases hprev
        rw [hcur]
        exact hdiffer
    · rw [(OrdMap.getElem?_eq_none_iff cur name).mpr hcur]
      obtain ⟨value, hvalue⟩ := (OrdMap.mem_iff_getElem?_isSome prev name).mp hprev
      simp [hvalue]
  · intro hdiffer
    cases hcur : cur[name]? with
    | some digest =>
      rw [hcur] at hdiffer
      exact Or.inl ⟨name, digest, hcur, by rw [if_neg hdiffer]⟩
    | none =>
      right
      refine ⟨?_, (OrdMap.getElem?_eq_none_iff cur name).mp hcur⟩
      rw [hcur] at hdiffer
      by_contra hprev
      exact hdiffer ((OrdMap.getElem?_eq_none_iff prev name).mpr hprev)

theorem changedComponents_eq_nil_iff (prev cur : Fingerprint) :
    changedComponents prev cur = [] ↔ prev = cur := by
  rw [List.eq_nil_iff_forall_not_mem]
  simp only [mem_changedComponents_iff, not_not]
  constructor
  · exact Std.ExtTreeMap.ext_getElem?
  · rintro rfl name
    rfl

/-! ## The state and the log -/

theorem mem_foldl_insert_iff (names : List String) (changed : StrMap Unit) (name : String) :
    name ∈ names.foldl (fun changed name => changed.insert name ()) changed ↔
      name ∈ changed ∨ name ∈ names := by
  induction names generalizing changed with
  | nil => simp
  | cons first rest ih =>
    rw [List.foldl_cons, ih]
    simp only [Std.ExtTreeMap.mem_insert, Std.LawfulEqCmp.compare_eq_iff_eq, List.mem_cons]
    tauto

/-- What the shared state knows about the log. -/
structure Tracks (st : RunState) (log : List Read) (now : Nat) : Prop where
  base : st.base = log.getLast?.map Read.fp
  changed : ∀ name, name ∈ st.changed ↔ Pending log name
  first : (∃ name, Pending log name) →
    ChangeTime log st.first ∧ ∀ t, ChangeTime log t → st.first ≤ t
  last : (∃ name, Pending log name) →
    ChangeTime log st.last ∧ ∀ t, ChangeTime log t → t ≤ st.last
  past : ∀ t, ChangeTime log t → t ≤ now

theorem Tracks.pending_iff {st : RunState} {log : List Read} {now : Nat} (h : Tracks st log now) :
    st.pending = true ↔ ∃ name, Pending log name := by
  simp only [← h.changed]
  rw [RunState.pending, Bool.not_eq_true', ← Bool.not_eq_true, Std.ExtTreeMap.isEmpty_iff,
    Std.ExtTreeMap.eq_empty_iff_forall_not_mem]
  push Not
  rfl

theorem Tracks.mono {st : RunState} {log : List Read} {now later : Nat} (h : Tracks st log now)
    (hle : now ≤ later) : Tracks st log later where
  base := h.base
  changed := h.changed
  first := h.first
  last := h.last
  past := fun t ht => (h.past t ht).trans hle

theorem Tracks.baseline {st : RunState} {now : Nat} (h : Tracks st [] now) (fp : Fingerprint)
    (streaming : Bool) :
    Tracks { st with base := some fp } [⟨now, fp, streaming, none⟩] now := by
  have hnone : ∀ (log : List Read), log.length ≤ 1 → ∀ name, ¬ Pending log name :=
    fun log hlog name => ChangeLog.not_pending_of_length_le_one _ _ hlog name
  have hempty : ∀ name, ¬ Pending [⟨now, fp, streaming, none⟩] name := hnone _ (by simp)
  have htimes : ∀ t, ¬ ChangeTime [⟨now, fp, streaming, none⟩] t := by
    intro t ht
    obtain ⟨name, hname⟩ := (ChangeLog.pending_iff_changeTime _ _ _ _).mpr ⟨t, ht⟩
    exact hempty name hname
  refine ⟨rfl, ?_, ?_, ?_, ?_⟩
  · intro name
    have hold := h.changed name
    exact ⟨fun hmem => absurd (hold.mp hmem) (hnone [] (by simp) name),
      fun hpending => absurd hpending (hempty name)⟩
  · rintro ⟨name, hname⟩
    exact absurd hname (hempty name)
  · rintro ⟨name, hname⟩
    exact absurd hname (hempty name)
  · intro t ht
    exact absurd ht (htimes t)

section Observe

variable {st : RunState} {log : List Read} {last : Read} (now : Nat)

theorem pending_unfired_iff (hlast : log.getLast? = some last) (fp : Fingerprint)
    (streaming : Bool) (name : String) :
    Pending (log ++ [⟨now, fp, streaming, none⟩]) name ↔
      Pending log name ∨ last.fp[name]? ≠ fp[name]? := by
  rw [Pending, ChangeLog.pending_concat _ _ hlast]
  simp [Pending]

theorem changeTime_unfired_iff (hlast : log.getLast? = some last) (fp : Fingerprint)
    (streaming : Bool) (t : Nat) :
    ChangeTime (log ++ [⟨now, fp, streaming, none⟩]) t ↔
      ChangeTime log t ∨ t = now ∧ ∃ name : String, last.fp[name]? ≠ fp[name]? := by
  rw [ChangeTime, ChangeLog.changeTime_concat _ _ _ hlast]
  simp [ChangeTime]

theorem Tracks.observe_same {now : Nat} (h : Tracks st log now) (hlast : log.getLast? = some last)
    {fp : Fingerprint} (hsame : last.fp = fp) (streaming : Bool) :
    Tracks st (log ++ [⟨now, fp, streaming, none⟩]) now := by
  have hpending : ∀ name, Pending (log ++ [⟨now, fp, streaming, none⟩]) name ↔
      Pending log name := by
    intro name
    rw [pending_unfired_iff now hlast fp streaming, hsame]
    simp
  have htime : ∀ t, ChangeTime (log ++ [⟨now, fp, streaming, none⟩]) t ↔ ChangeTime log t := by
    intro t
    rw [changeTime_unfired_iff now hlast fp streaming, hsame]
    simp
  refine ⟨?_, ?_, ?_, ?_, ?_⟩
  · rw [h.base, hlast, List.getLast?_concat]
    exact congrArg some hsame
  · intro name
    rw [hpending]
    exact h.changed name
  · simp only [hpending, htime]
    exact h.first
  · simp only [hpending, htime]
    exact h.last
  · simp only [htime]
    exact h.past

theorem Tracks.observe_changed {now : Nat} (h : Tracks st log now)
    (hlast : log.getLast? = some last) {fp : Fingerprint}
    (hdiff : changedComponents last.fp fp ≠ []) (streaming : Bool) :
    Tracks (st.observe last.fp fp now) (log ++ [⟨now, fp, streaming, none⟩]) now := by
  have hdiffers : ∃ name : String, last.fp[name]? ≠ fp[name]? := by
    obtain ⟨name, hname⟩ := List.exists_mem_of_ne_nil _ hdiff
    exact ⟨name, (mem_changedComponents_iff _ _ _).mp hname⟩
  have htime : ∀ t, ChangeTime (log ++ [⟨now, fp, streaming, none⟩]) t ↔
      ChangeTime log t ∨ t = now := by
    intro t
    rw [changeTime_unfired_iff now hlast fp streaming]
    simp [hdiffers]
  rw [RunState.observe]
  simp only [hdiff, if_false]
  refine ⟨?_, ?_, ?_, ?_, ?_⟩
  · rw [List.getLast?_concat]
    rfl
  · intro name
    rw [pending_unfired_iff now hlast fp streaming, mem_foldl_insert_iff, h.changed,
      mem_changedComponents_iff]
  · intro _
    simp only [htime]
    by_cases hburst : st.pending = true
    · -- The burst goes on.
      obtain ⟨hfirst, hle⟩ := h.first (h.pending_iff.mp hburst)
      simp only [hburst, if_true]
      refine ⟨Or.inl hfirst, ?_⟩
      rintro t (ht | rfl)
      · exact hle t ht
      · exact h.past _ hfirst
    · simp only [hburst, Bool.false_eq_true, if_false]
      refine ⟨Or.inr trivial, ?_⟩
      rintro t (ht | rfl)
      · have hpend := (ChangeLog.pending_iff_changeTime _ _ _ _).mpr ⟨t, ht⟩
        exact absurd (h.pending_iff.mpr hpend) hburst
      · exact le_rfl
  · intro _
    simp only [htime]
    refine ⟨Or.inr trivial, ?_⟩
    rintro t (ht | rfl)
    · exact h.past t ht
    · exact le_rfl
  · intro t ht
    rcases (htime t).mp ht with hold | rfl
    · exact h.past t hold
    · exact le_rfl

/-- **`observe` takes in one more read.** -/
theorem Tracks.observe {now : Nat} (h : Tracks st log now) (hlast : log.getLast? = some last)
    (fp : Fingerprint) (streaming : Bool) :
    Tracks (st.observe last.fp fp now) (log ++ [⟨now, fp, streaming, none⟩]) now := by
  by_cases hdiff : changedComponents last.fp fp = []
  · have hsame : last.fp = fp := (changedComponents_eq_nil_iff _ _).mp hdiff
    have hobserve : st.observe last.fp fp now = st := by
      rw [RunState.observe, hdiff]
      rfl
    rw [hobserve]
    exact h.observe_same hlast hsame streaming
  · exact h.observe_changed hlast hdiff streaming

end Observe

/-- **`fire` empties the pending set**, and what it reports is that set; the counter and
the beginning of the burst do not matter. -/
theorem Tracks.fire {st : RunState} {past : List Read} {now : Nat} (read : Read)
    (h : Tracks st (past ++ [read.unfired]) now) (bursts first : Nat) :
    Tracks { st with bursts := bursts, first := first }.fire.1
        (past ++ [{ read with fired := some st.changed.keys }]) now ∧
      ∀ name, name ∈ st.changed.keys ↔ Pending (past ++ [read.unfired]) name := by
  have hnone : ∀ name, ¬ Pending (past ++ [{ read with fired := some st.changed.keys }]) name :=
    not_pending_of_fired rfl
  have htimes : ∀ t, ¬ ChangeTime (past ++ [{ read with fired := some st.changed.keys }]) t := by
    intro t ht
    obtain ⟨name, hname⟩ := (ChangeLog.pending_iff_changeTime _ _ _ _).mpr ⟨t, ht⟩
    exact hnone name hname
  refine ⟨⟨?_, ?_, ?_, ?_, ?_⟩, ?_⟩
  · have hbase := h.base
    rw [List.getLast?_concat] at hbase ⊢
    exact hbase
  · intro name
    exact ⟨fun hmem => absurd hmem (by simp [RunState.fire]),
      fun hpending => absurd hpending (hnone name)⟩
  · rintro ⟨name, hname⟩
    exact absurd hname (hnone name)
  · rintro ⟨name, hname⟩
    exact absurd hname (hnone name)
  · intro t ht
    exact absurd ht (htimes t)
  · intro name
    rw [Std.ExtTreeMap.mem_keys]
    exact h.changed name

/-! ## One read -/

/-- How both drivers take a fingerprint in. -/
def RunState.takeIn (st : RunState) (fp : Fingerprint) (now : Nat) : RunState :=
  match st.base with
  | none => { st with base := some fp }
  | some base => st.observe base fp now

theorem Tracks.takeIn {st : RunState} {log : List Read} {now : Nat} (h : Tracks st log now)
    (fp : Fingerprint) (streaming : Bool) :
    Tracks (st.takeIn fp now) (log ++ [⟨now, fp, streaming, none⟩]) now := by
  have hbase := h.base
  rw [RunState.takeIn]
  cases hlast : log.getLast? with
  | none =>
    obtain rfl : log = [] := List.getLast?_eq_none_iff.mp hlast
    rw [hlast] at hbase
    rw [hbase]
    exact h.baseline fp streaming
  | some last =>
    rw [hlast] at hbase
    rw [hbase]
    exact h.observe hlast fp streaming

theorem Tracks.due_iff {st : RunState} {log : List Read} {now : Nat} (h : Tracks st log now)
    (settings : Settings) (hpending : ∃ name, Pending log name) :
    st.due settings now = true ↔
      (∀ t, ChangeTime log t → t + settings.debounce ≤ now) ∨
        ∃ t, ChangeTime log t ∧ t + settings.maxWait ≤ now := by
  obtain ⟨hfirst, hleast⟩ := h.first hpending
  obtain ⟨hlast, hgreatest⟩ := h.last hpending
  have hfirstPast := h.past _ hfirst
  have hlastPast := h.past _ hlast
  simp only [RunState.due, Bool.or_eq_true, decide_eq_true_eq]
  constructor
  · rintro ((hzero | hquiet) | hwaited)
    · left
      intro t ht
      have hpast := h.past t ht
      omega
    · left
      intro t ht
      have hle := hgreatest t ht
      omega
    · right
      exact ⟨st.first, hfirst, by omega⟩
  · rintro (hquiet | ⟨t, ht, hwaited⟩)
    · have hle := hquiet _ hlast
      left
      right
      omega
    · have hle := hleast t ht
      right
      omega

theorem not_pending_baseline (read : Read) (name : String) :
    ¬ Pending ([] ++ [read]) name :=
  ChangeLog.not_pending_of_length_le_one _ _ (by simp) name

theorem Tracks.pollRecovered {st : RunState} {log : List Read} {now : Nat} (h : Tracks st log now)
    (settings : Settings) : Tracks (st.pollRecovered settings) log now :=
  ⟨h.base, h.changed, h.first, h.last, h.past⟩

/-- **A poll that returned a fingerprint.** -/
theorem Tracks.step {st : RunState} {log : List Read} {now : Nat} (h : Tracks st log now)
    (settings : Settings) (fp : Fingerprint) :
    Tracks (st.step settings fp now).st
        (log ++ [⟨now, fp, false, (st.step settings fp now).fired⟩]) now ∧
      Decision settings log ⟨now, fp, false, (st.step settings fp now).fired⟩ := by
  have htaken := (h.pollRecovered settings).takeIn fp false
  have hstep : st.step settings fp now =
      (let st := (st.pollRecovered settings).takeIn fp now
      if !st.pending then ⟨st, none, settings.interval⟩
      else if st.due settings now then ⟨st.fire.1, some st.fire.2, settings.interval⟩
      else ⟨st, none, min settings.debounce settings.interval⟩) := rfl
  rw [hstep]
  generalize (st.pollRecovered settings).takeIn fp now = taken at htaken
  have hpending := htaken.pending_iff
  by_cases hburst : taken.pending = true
  · have hsome := hpending.mp hburst
    have hdue := htaken.due_iff settings hsome
    by_cases hnow : taken.due settings now = true
    · obtain ⟨hfired, hexact⟩ := Tracks.fire ⟨now, fp, false, none⟩ htaken
        taken.bursts taken.first
      simp only [hburst, hnow, Bool.not_true, Bool.false_eq_true, if_false, if_true]
      refine ⟨hfired, ?_, ?_, ?_, ?_⟩
      · rintro rfl
        obtain ⟨name, hname⟩ := hsome
        exact absurd hname (not_pending_baseline _ name)
      · rintro components hcomponents
        cases hcomponents
        exact hexact
      · simp
      · intro _
        exact ⟨fun _ => ⟨hsome, hdue.mp hnow⟩, fun _ => rfl⟩
    · simp only [hburst, hnow, Bool.not_true, Bool.false_eq_true, if_false]
      refine ⟨htaken, fun _ => rfl, by simp, by simp, ?_⟩
      intro _
      exact ⟨fun hsome => absurd hsome (by simp), fun hboth => absurd (hdue.mpr hboth.2) hnow⟩
  · simp only [hburst, Bool.not_false, if_true]
    refine ⟨htaken, fun _ => rfl, by simp, by simp, ?_⟩
    intro _
    exact ⟨fun hsome => absurd hsome (by simp), fun hboth => absurd (hpending.mpr hboth.1) hburst⟩

theorem readFingerprint_eq {st : RunState} (hbaseline : st.base = none → st.pending = false)
    (fp : Fingerprint) (now notifications burstStart : Nat) :
    ∃ bursts first, st.readFingerprint fp now notifications burstStart =
      if (st.takeIn fp now).pending then
        ({ st.takeIn fp now with bursts := bursts, first := first }.fire.1,
          some (st.takeIn fp now).changed.keys)
      else (st.takeIn fp now, none) := by
  cases hbase : st.base with
  | none =>
    have htake : st.takeIn fp now = { st with base := some fp } := by
      rw [RunState.takeIn, hbase]
    have hquiet : (st.takeIn fp now).pending = false := by
      rw [htake]
      exact hbaseline hbase
    refine ⟨0, 0, ?_⟩
    rw [hquiet, htake, RunState.readFingerprint, hbase]
    rfl
  | some base =>
    have htake : st.takeIn fp now = st.observe base fp now := by
      rw [RunState.takeIn, hbase]
    rw [htake, RunState.readFingerprint, hbase]
    simp only
    generalize st.observe base fp now = taken
    by_cases hpending : taken.pending = true
    · by_cases hnotified : 0 < notifications
      · exact ⟨notifications, burstStart, by simp [hpending, hnotified, RunState.fire]⟩
      · exact ⟨taken.bursts, taken.first, by simp [hpending, hnotified, RunState.fire]⟩
    · exact ⟨0, 0, by simp [hpending]⟩

theorem Tracks.not_pending_of_baseline {st : RunState} {log : List Read} {now : Nat}
    (h : Tracks st log now) (hbase : st.base = none) : st.pending = false := by
  have hlast : log.getLast? = none := by
    have heq := h.base
    rw [hbase] at heq
    exact Option.map_eq_none_iff.mp heq.symm
  obtain rfl : log = [] := List.getLast?_eq_none_iff.mp hlast
  rw [← Bool.not_eq_true, h.pending_iff]
  rintro ⟨name, hname⟩
  exact ChangeLog.not_pending_of_length_le_one _ _ (by simp) name hname

/-- **A read of a stream that returned a fingerprint.** -/
theorem Tracks.readFingerprint {st : RunState} {log : List Read} {now : Nat}
    (h : Tracks st log now) (settings : Settings) (fp : Fingerprint)
    (notifications burstStart : Nat) :
    Tracks (st.readFingerprint fp now notifications burstStart).1
        (log ++ [⟨now, fp, true, (st.readFingerprint fp now notifications burstStart).2⟩]) now ∧
      Decision settings log
        ⟨now, fp, true, (st.readFingerprint fp now notifications burstStart).2⟩ := by
  have htaken := h.takeIn fp true
  obtain ⟨bursts, first, heq⟩ :=
    readFingerprint_eq h.not_pending_of_baseline fp now notifications burstStart
  rw [heq]
  generalize st.takeIn fp now = taken at htaken
  have hpending := htaken.pending_iff
  by_cases hburst : taken.pending = true
  · obtain ⟨hfired, hexact⟩ := Tracks.fire ⟨now, fp, true, none⟩ htaken bursts first
    have hsome := hpending.mp hburst
    simp only [hburst, if_true]
    refine ⟨hfired, ?_, ?_, ?_, by simp⟩
    · rintro rfl
      obtain ⟨name, hname⟩ := hsome
      exact absurd hname (not_pending_baseline _ name)
    · rintro components hcomponents
      cases hcomponents
      exact hexact
    · intro _
      exact ⟨fun _ => hsome, fun _ => rfl⟩
  · simp only [hburst, Bool.false_eq_true, if_false]
    refine ⟨htaken, fun _ => rfl, by simp, ?_, by simp⟩
    intro _
    exact ⟨fun hsome => absurd hsome (by simp), fun hsome => absurd (hpending.mpr hsome) hburst⟩

/-! ## One event -/

namespace Watcher

/-- Neither the log nor what the state knows about it changes. -/
structure Untouched (w next : Watcher) : Prop where
  settings : next.settings = w.settings
  log : next.log = w.log
  base : next.st.base = w.st.base
  changed : next.st.changed = w.st.changed
  first : next.st.first = w.st.first
  last : next.st.last = w.st.last
  now : w.now ≤ next.now

theorem Untouched.of_phase (w : Watcher) (phase : Phase) (streamBackoff : Nat) :
    Untouched w { w with phase := phase, streamBackoff := streamBackoff } :=
  ⟨rfl, rfl, rfl, rfl, rfl, rfl, le_rfl⟩

theorem Untouched.refl (w : Watcher) : Untouched w w :=
  .of_phase w w.phase w.streamBackoff

theorem untouched_onStream (w : Watcher) (change : Stream → Stream) :
    Untouched w (w.onStream change) := by
  rw [onStream]
  split
  · exact .of_phase w _ w.streamBackoff
  · exact .refl w

theorem untouched_streamLost (w : Watcher) (unsupported : Bool) (lived : Nat) :
    Untouched w (w.streamLost unsupported lived) := by
  rw [streamLost]
  split
  · exact .of_phase w _ w.streamBackoff
  · split
    · exact .of_phase w _ w.streamBackoff
    · exact .of_phase w _ _

theorem untouched_resume (w : Watcher) : Untouched w w.resume := by
  rw [resume]
  split
  · split
    · exact .of_phase w _ w.streamBackoff
    · split
      · exact .refl w
      · split
        · exact .of_phase w _ _
        · exact .of_phase w _ w.streamBackoff
  · split
    · exact .of_phase w _ w.streamBackoff
    · split
      · exact .refl w
      · exact .of_phase w _ _
  · exact .refl w

theorem untouched_streamEnds (w : Watcher) (unsupported : Bool) :
    Untouched w (w.streamEnds unsupported) := by
  rw [streamEnds]
  split
  · exact untouched_streamLost w unsupported 0
  · split
    · exact untouched_streamLost w unsupported _
    · exact .refl w
  · exact .refl w

theorem untouched_done (w : Watcher) : Untouched w w.done := by
  rw [done]
  split
  · split
    · exact .of_phase w _ w.streamBackoff
    · exact .refl w
  · split
    · exact .of_phase w _ w.streamBackoff
    · exact .refl w
  · exact .refl w

/-- A read of the live stream is in flight. -/
def Reading (w : Watcher) : Prop :=
  ∃ stream notifications burstStart,
    w.phase = .live stream ∧ stream.stage = .reading notifications burstStart

/-- A read is in flight, of the stream or of the poll loop. -/
def InFlight (w : Watcher) : (streaming : Bool) → Prop
  | true => w.Reading
  | false => ∃ limit, w.phase = .pollReading limit

/-- **What an event can do to the log**: nothing, or it is a poll or a read of a stream
that returns a fingerprint. -/
theorem handle_cases (w : Watcher) (event : Event) :
    Untouched w (w.handle event) ∨ ∃ fp, event = .read (some fp) ∧
      ((∃ limit, w.phase = .pollReading limit ∧
          w.handle event = w.pollReturns limit (some fp)) ∨
        ∃ stream notifications burstStart, w.phase = .live stream ∧
          stream.stage = .reading notifications burstStart ∧
          w.handle event = w.streamReturns stream notifications burstStart (some fp)) := by
  cases event with
  | advance duration => exact Or.inl ⟨rfl, rfl, rfl, rfl, rfl, rfl, Nat.le_add_right _ _⟩
  | cancel => exact Or.inl ⟨rfl, rfl, rfl, rfl, rfl, rfl, le_rfl⟩
  | resume => exact Or.inl (untouched_resume w)
  | streamEnds unsupported => exact Or.inl (untouched_streamEnds w unsupported)
  | catchUp => exact Or.inl (untouched_onStream w _)
  | notify => exact Or.inl (untouched_onStream w _)
  | wake => exact Or.inl (untouched_onStream w _)
  | due => exact Or.inl (untouched_onStream w _)
  | resync => exact Or.inl (untouched_onStream w _)
  | done => exact Or.inl (untouched_done w)
  | established =>
    left
    simp only [handle]
    split
    · exact .of_phase w _ w.streamBackoff
    · exact .refl w
  | read result =>
    simp only [handle, readReturns]
    split
    · rename_i limit hphase
      cases result with
      | none =>
        simp only [pollReturns, RunState.pollFailed]
        split <;> exact Or.inl ⟨rfl, rfl, rfl, rfl, rfl, rfl, le_rfl⟩
      | some fp => exact Or.inr ⟨fp, rfl, Or.inl ⟨limit, hphase, rfl⟩⟩
    · rename_i stream hphase
      split
      · rename_i notifications burstStart hstage
        cases result with
        | none => exact Or.inl (untouched_streamLost w false _)
        | some fp =>
          exact Or.inr ⟨fp, rfl, Or.inr ⟨stream, notifications, burstStart, hphase, hstage, rfl⟩⟩
      · exact Or.inl (.refl w)
    · exact Or.inl (.refl w)

theorem log_read {w : Watcher} {streaming : Bool} (h : w.InFlight streaming) (fp : Fingerprint) :
    ∃ fired, (w.handle (.read (some fp))).log = w.log ++ [⟨w.now, fp, streaming, fired⟩] := by
  cases streaming with
  | false =>
    obtain ⟨limit, hphase⟩ := h
    refine ⟨(w.st.step w.settings fp w.now).fired, ?_⟩
    simp only [handle, readReturns, hphase, pollReturns]
  | true =>
    obtain ⟨stream, notifications, burstStart, hphase, hstage⟩ := h
    refine ⟨(w.st.readFingerprint fp w.now notifications burstStart).2, ?_⟩
    simp only [handle, readReturns, hphase, hstage, streamReturns]

theorem untouched_of_no_read {w : Watcher} {event : Event}
    (h : ∀ fp, event = .read (some fp) → ∀ streaming, ¬ w.InFlight streaming) :
    Untouched w (w.handle event) := by
  rcases handle_cases w event with huntouched | ⟨fp, hread, ⟨limit, hphase, -⟩ |
      ⟨stream, notifications, burstStart, hphase, hstage, -⟩⟩
  · exact huntouched
  · exact absurd ⟨limit, hphase⟩ (h fp hread false)
  · exact absurd ⟨stream, notifications, burstStart, hphase, hstage⟩ (h fp hread true)

/-! ## Every run -/

structure Inv (w : Watcher) : Prop where
  tracks : Tracks w.st w.log w.now
  decided : ∀ past read rest, w.log = past ++ read :: rest → Decision w.settings past read

theorem decided_concat {settings : Settings} {log : List Read} {read : Read}
    (hlog : ∀ past read rest, log = past ++ read :: rest → Decision settings past read)
    (hread : Decision settings log read) (past : List Read) (other : Read) (rest : List Read)
    (h : log ++ [read] = past ++ other :: rest) : Decision settings past other := by
  cases hrest : rest.reverse with
  | nil =>
    obtain rfl : rest = [] := by simpa using hrest
    obtain ⟨rfl, hlast⟩ := List.append_inj' h rfl
    cases hlast
    exact hread
  | cons tail init =>
    have hsplit : rest = init.reverse ++ [tail] := by
      rw [← List.reverse_reverse rest, hrest, List.reverse_cons]
    rw [hsplit, ← List.cons_append, ← List.append_assoc] at h
    exact hlog past other init.reverse (List.append_inj' h rfl).1

theorem inv_handle {w : Watcher} (h : w.Inv) (event : Event) : (w.handle event).Inv := by
  rcases handle_cases w event with huntouched | ⟨fp, -, ⟨limit, -, hpoll⟩ |
      ⟨stream, notifications, burstStart, -, -, hstream⟩⟩
  · refine ⟨?_, ?_⟩
    · have htracks := h.tracks.mono huntouched.now
      rw [huntouched.log]
      exact ⟨huntouched.base ▸ htracks.base, huntouched.changed ▸ htracks.changed,
        huntouched.first ▸ htracks.first, huntouched.last ▸ htracks.last, htracks.past⟩
    · rw [huntouched.log, huntouched.settings]
      exact h.decided
  · obtain ⟨htracks, hdecision⟩ := h.tracks.step w.settings fp
    rw [hpoll]
    exact ⟨htracks, decided_concat h.decided hdecision⟩
  · obtain ⟨htracks, hdecision⟩ :=
      h.tracks.readFingerprint w.settings fp notifications burstStart
    rw [hstream]
    exact ⟨htracks, decided_concat h.decided hdecision⟩

theorem inv_new (o : Options) : (new o).Inv := by
  have hnone : ∀ name, ¬ Pending [] name :=
    fun name => ChangeLog.not_pending_of_length_le_one _ _ (by simp) name
  have htimes : ∀ t, ¬ ChangeTime [] t := by
    intro t ht
    obtain ⟨name, hname⟩ := (ChangeLog.pending_iff_changeTime _ _ _ _).mpr ⟨t, ht⟩
    exact hnone name hname
  refine ⟨⟨rfl, ?_, ?_, ?_, ?_⟩, ?_⟩
  · intro name
    exact ⟨fun hmem => absurd hmem (by simp [new]), fun hpending => absurd hpending (hnone name)⟩
  · rintro ⟨name, hname⟩
    exact absurd hname (hnone name)
  · rintro ⟨name, hname⟩
    exact absurd hname (hnone name)
  · intro t ht
    exact absurd ht (htimes t)
  · intro past read rest hlog
    simp [new] at hlog

/-- **In every run** the pending set is what the log says, and every read was decided
correctly. -/
theorem inv_run (o : Options) (events : List Event) : (run handle (new o) events).Inv :=
  run_invariant (inv_new o) (fun _ event h => inv_handle h event) events

end Watcher

end LdapWatch
end Configd
