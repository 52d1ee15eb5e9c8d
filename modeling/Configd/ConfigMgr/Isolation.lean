import Configd.ConfigMgr.Staging

/-!
# Load attempts are isolated

What holds of the loads of `Configd.ConfigMgr.Staging` in every order of the events.  `Effect`
says what an event can do; every event keeps `Sound`, so all maps of all snapshots are frozen.
After any run (`loads_isolated`)

* an attempt is published as the snapshot of before with the parts replaced that had been
  delivered when its staging area was applied, and without the observed lookups, which describe
  the data they were looked up in (`observed_lookups_dropped`);
* a reader sees one published snapshot as a whole;
* nothing a loader does changes a snapshot or which one is published.
-/

namespace Configd

open Lib

/-! ## What an event can do -/

/-- The delivery of the event, with the attempt it is for. -/
def LoadEvent.delivery : LoadEvent → Option (Nat × Delivery)
  | .loader stage _ (.deliver d) => some (stage, d)
  | _ => none

/-- What the event makes of the staging area of an attempt. -/
def LoadEvent.stagedAfter (e : LoadEvent) (stage : Nat) (st : StagedRefs) : StagedRefs :=
  match e.delivery with
  | some (other, d) => if other = stage then st.set d else st
  | none => st

/-- What a run delivers into the staging area of an attempt. -/
def delivered (stage : Nat) (events : List LoadEvent) : StagedRefs :=
  events.foldl (fun st e => e.stagedAfter stage st) {}

/-- The events that may change the pointer to the published snapshot. -/
def LoadEvent.Publishes : LoadEvent → Prop
  | .swap | .direct _ | .observe _ => True
  | _ => False

namespace LoadState

variable {s s' s'' : LoadState}

/-- Nothing that a snapshot shows is taken away. -/
structure Grows (s s' : LoadState) : Prop where
  heap : Cells.Keeps s.heap s'.heap
  snaps : s.snaps <+: s'.snaps

theorem Grows.of_eq (hheap : s'.heap = s.heap) (hsnaps : s'.snaps = s.snaps) : Grows s s' :=
  ⟨hheap ▸ Cells.Keeps.refl _, hsnaps ▸ List.prefix_rfl⟩

theorem Grows.trans (hfirst : Grows s s') (hsecond : Grows s' s'') : Grows s s'' :=
  ⟨hfirst.heap.trans hsecond.heap, hfirst.snaps.trans hsecond.snaps⟩

/-- The pointers that the load holds are those of snapshots, and the snapshot to swap in shows
what `apply` makes of the one to be replaced. -/
def PcSound (s : LoadState) : LoadPc → Prop
  | .loaded _ old => old < s.snaps.length
  | .swapping _ old new load =>
    old < s.snaps.length ∧ new < s.snaps.length ∧ s.view new = load.apply (s.view old)
  | _ => True

/-- What holds in every state. -/
structure Sound (s : LoadState) : Prop where
  owned : ∀ snap ∈ s.snaps, snap.Owned s.heap
  current : s.current < s.snaps.length
  staged : ∀ stage, ∀ ref ∈ (s.staged stage).refs, ref < s.heap.length
  pc : s.PcSound s.pc

/-- **Every snapshot shows the same at all later times.** -/
theorem view_eq_of_grows (hs : s.Sound) (hgrows : Grows s s') {snap : Nat}
    (hsnap : snap < s.snaps.length) : s'.view snap = s.view snap := by
  obtain ⟨more, hmore⟩ := hgrows.snaps
  have hsame : s'.snaps[snap]? = s.snaps[snap]? := by
    rw [← hmore, List.getElem?_append_left hsnap]
  have howned := hs.owned _ (List.getElem_mem hsnap)
  rw [view, view, hsame, List.getElem?_eq_getElem hsnap, Option.map_some, Option.map_some,
    howned.view_eq hgrows.heap]

theorem PcSound.grows (hs : s.Sound) (hgrows : Grows s s') {pc : LoadPc} (hpc : s.PcSound pc) :
    s'.PcSound pc := by
  have hlength := hgrows.snaps.length_le
  cases pc with
  | loaded vars old => exact lt_of_lt_of_le hpc hlength
  | swapping vars old new load =>
    obtain ⟨hold, hnew, hview⟩ := hpc
    refine ⟨hold.trans_le hlength, hnew.trans_le hlength, ?_⟩
    rw [view_eq_of_grows hs hgrows hnew, view_eq_of_grows hs hgrows hold, hview]
  | idle => trivial
  | waiting => trivial
  | publishing => trivial
  | evaluating => trivial
  | sleeping => trivial

/-- **What an event can do.** -/
inductive Effect (s : LoadState) : LoadEvent → LoadState → Prop
  /-- Only the load moves on. -/
  | moves {e : LoadEvent} {pc : LoadPc} (hdelivery : e.delivery = none) (hpc : s.PcSound pc)
      (hswapping : ∀ vars old new load, pc ≠ .swapping vars old new load) :
      Effect s e { s with pc := pc }
  | starts {e : LoadEvent} (hdelivery : e.delivery = none) (attempt maxRetries : Nat) :
      Effect s e (s.startAttempt attempt maxRetries)
  /-- A loader works on its maps. -/
  | writes {e : LoadEvent} {heap : MapHeap} (hdelivery : e.delivery = none)
      (hkeeps : Cells.Keeps s.heap heap) : Effect s e { s with heap := heap }
  | delivers {stage : Nat} {l : Loader} {d : Delivery} (hrunning : s.running stage l = true)
      (hrefs : ∀ ref ∈ d.refs, ref < s.heap.length) :
      Effect s (.loader stage l (.deliver d)) { s with
        attempts := s.attempts.modify stage fun a => { a with staged := a.staged.set d } }
  | finishes {stage : Nat} {l : Loader} (failed : Bool) :
      Effect s (.loader stage l (.finish failed)) { s with
        attempts := s.attempts.modify stage fun a =>
          { a with finished := Function.update a.finished l (some failed) } }
  | applies {vars : AttemptVars} {old : Nat} {snap : SnapshotRefs} (hpc : s.pc = .loaded vars old)
      (hsnap : s.snaps[old]? = some snap) : Effect s .apply (s.applyStage vars old snap)
  | swaps {vars : AttemptVars} {new : Nat} {load : StagedLoad}
      (hpc : s.pc = .swapping vars s.current new load) :
      Effect s .swap { s with current := new, pc := .evaluating vars }
  /-- Somebody else publishes. -/
  | publishes {e : LoadEvent} {out : MapHeap × SnapshotRefs} {snap : Snapshot}
      (hdelivery : e.delivery = none) (he : e.Publishes)
      (hbuilds : SnapshotRefs.Builds s.heap out snap) : Effect s e (s.publish out)

theorem builds_replacePart {h : MapHeap} {snap : SnapshotRefs} {d : Delivery} (hsnap : snap.Owned h)
    (hrefs : ∀ ref ∈ d.refs, ref < h.length) :
    ∃ shown, SnapshotRefs.Builds h (replacePart (h, snap) d) shown := by
  have hstart := SnapshotRefs.Builds.start hsnap
  cases d with
  | setLocal data => exact ⟨_, hstart.withLocal (hrefs data (by simp [Delivery.refs]))⟩
  | setGlobal data => exact ⟨_, hstart.withGlobal (hrefs data (by simp [Delivery.refs]))⟩
  | setMisc data => exact ⟨_, hstart.withMisc (hrefs data (by simp [Delivery.refs]))⟩
  | setServer data services =>
    exact ⟨_, hstart.withServer (hrefs data (by simp [Delivery.refs]))
      (hrefs services (by simp [Delivery.refs]))⟩

theorem effect_act {stage : Nat} {l : Loader} {act : LoaderAct}
    (hrunning : s.running stage l = true) (h : s.act stage l act = some s') :
    Effect s (.loader stage l act) s' := by
  cases act with
  | make data =>
    obtain rfl := Option.some.inj h
    exact .writes rfl (Cells.keeps_append _ _)
  | write ref data =>
    obtain rfl := Option.some.inj h
    exact .writes rfl (Cells.keeps_write _ _ _)
  | deliver d =>
    rw [LoadState.act, Option.ite_none_right_eq_some] at h
    obtain ⟨⟨-, hrefs⟩, hs'⟩ := h
    obtain rfl := Option.some.inj hs'
    exact .delivers hrunning hrefs
  | finish failed =>
    obtain rfl := Option.some.inj h
    exact .finishes failed

variable {e : LoadEvent}

theorem step_effect (hs : s.Sound) (h : s.step e = some s') : Effect s e s' := by
  have howned : ∀ {snap}, s.snaps[s.current]? = some snap → snap.Owned s.heap := fun hsnap =>
    hs.owned _ (List.mem_of_getElem? hsnap)
  cases e with
  | call maxRetries =>
    simp only [step] at h
    split at h
    · next hpc =>
        obtain rfl := Option.some.inj h
        split
        · have hsame : s = { s with pc := .idle } := by rw [← hpc]
          rw [hsame]
          exact .moves rfl trivial nofun
        · exact .starts rfl 1 maxRetries
    · cases h
  | loader stage l act =>
    rw [step, Option.ite_none_right_eq_some] at h
    exact effect_act h.1 h.2
  | allDone =>
    simp only [step] at h
    split at h
    · rw [Option.ite_none_right_eq_some] at h
      obtain rfl := Option.some.inj h.2
      exact .moves rfl trivial nofun
    · cases h
  | timer =>
    simp only [step] at h
    split at h
    · obtain rfl := Option.some.inj h
      exact .moves rfl trivial nofun
    · obtain rfl := Option.some.inj h
      exact .moves rfl trivial nofun
    · cases h
  | load =>
    simp only [step] at h
    split at h
    · obtain rfl := Option.some.inj h
      exact .moves rfl hs.current nofun
    · cases h
  | apply =>
    simp only [step] at h
    split at h
    · next vars old hpc =>
        obtain ⟨snap, hsnap, rfl⟩ := Option.map_eq_some_iff.mp h
        exact .applies hpc hsnap
    · cases h
  | swap =>
    simp only [step] at h
    split at h
    · next vars old new load hpc =>
        obtain rfl := Option.some.inj h
        split
        · next hcurrent =>
            subst hcurrent
            exact .swaps hpc
        · exact .moves rfl trivial nofun
    · cases h
  | evaluate =>
    simp only [step] at h
    split at h
    · obtain rfl := Option.some.inj h
      split
      · exact .moves rfl trivial nofun
      · exact .moves rfl trivial nofun
    · cases h
  | wake =>
    simp only [step] at h
    split at h
    · obtain rfl := Option.some.inj h
      exact .starts rfl _ _
    · cases h
  | direct d =>
    rw [step, Option.ite_none_right_eq_some] at h
    obtain ⟨hrefs, hsome⟩ := h
    obtain ⟨snap, hsnap, rfl⟩ := Option.map_eq_some_iff.mp hsome
    obtain ⟨shown, hbuilds⟩ := builds_replacePart (howned hsnap) hrefs
    exact .publishes rfl trivial hbuilds
  | observe obs =>
    simp only [step] at h
    split at h
    · obtain ⟨snap, hsnap, rfl⟩ := Option.map_eq_some_iff.mp h
      exact .publishes rfl trivial ((SnapshotRefs.Builds.start (howned hsnap)).withObserved obs)
    · cases h

theorem staged_startAttempt (s : LoadState) (attempt maxRetries stage : Nat) :
    (s.startAttempt attempt maxRetries).staged stage = s.staged stage := by
  rw [staged, staged, startAttempt]
  rcases lt_trichotomy stage s.attempts.length with hlt | heq | hgt
  · rw [List.getElem?_append_left hlt]
  · simp [heq]
  · have hnone : s.attempts[stage]? = none := List.getElem?_eq_none hgt.le
    have hnone' : (s.attempts ++ [({} : Attempt)])[stage]? = none :=
      List.getElem?_eq_none (by simpa using hgt)
    rw [hnone, hnone']

theorem staged_modify (s : LoadState) (stage : Nat) (f : Attempt → Attempt) (other : Nat) :
    LoadState.staged { s with attempts := s.attempts.modify stage f } other =
      if stage = other then (s.attempts[other]?.map fun a => (f a).staged).getD {}
      else s.staged other := by
  rw [staged, staged, List.getElem?_modify]
  split
  · cases s.attempts[other]? <;> rfl
  · cases s.attempts[other]? <;> rfl

theorem staged_deliver {stage : Nat} {l : Loader} (hrunning : s.running stage l = true)
    (d : Delivery) (other : Nat) :
    LoadState.staged { s with
        attempts := s.attempts.modify stage fun a => { a with staged := a.staged.set d } } other =
      if stage = other then (s.staged other).set d else s.staged other := by
  rw [staged_modify]
  split
  · next heq =>
      subst heq
      unfold running at hrunning
      cases hattempt : s.attempts[stage]? with
      | none => simp [hattempt] at hrunning
      | some attempt => simp [staged, hattempt]
  · rfl

theorem staged_finish (stage : Nat) (finished : Attempt → Loader → Option Bool) (other : Nat) :
    LoadState.staged { s with
        attempts := s.attempts.modify stage fun a => { a with finished := finished a } } other =
      s.staged other := by
  rw [staged_modify]
  split
  · rfl
  · rfl

/-- **The staging areas change by deliveries only**, each by those of its own loaders. -/
theorem Effect.staged (heffect : Effect s e s') (stage : Nat) :
    s'.staged stage = e.stagedAfter stage (s.staged stage) := by
  have hquiet : e.delivery = none → ∀ st, e.stagedAfter stage st = st := by
    intro hnone st
    rw [LoadEvent.stagedAfter, hnone]
  cases heffect with
  | moves hdelivery => exact (hquiet hdelivery _).symm
  | starts hdelivery =>
    rw [hquiet hdelivery]
    exact staged_startAttempt _ _ _ _
  | writes hdelivery => exact (hquiet hdelivery _).symm
  | delivers hrunning => exact staged_deliver hrunning _ _
  | finishes => exact staged_finish _ _ _
  | applies =>
    unfold applyStage
    dsimp only
    split <;> rfl
  | swaps => rfl
  | publishes hdelivery => exact (hquiet hdelivery _).symm

theorem mem_refs_set {st : StagedRefs} {d : Delivery} {ref : Nat} (h : ref ∈ (st.set d).refs) :
    ref ∈ st.refs ∨ ref ∈ d.refs := by
  rw [StagedRefs.mem_refs] at h ⊢
  cases d <;> simp only [StagedRefs.set, Delivery.refs, Option.some.injEq, List.mem_cons,
    List.not_mem_nil, or_false] at h ⊢ <;> grind

theorem Effect.current_eq (heffect : Effect s e s') (he : ¬e.Publishes) :
    s'.current = s.current := by
  cases heffect with
  | moves => rfl
  | starts => rfl
  | writes => rfl
  | delivers => rfl
  | finishes => rfl
  | applies =>
    unfold applyStage
    dsimp only
    split <;> rfl
  | swaps => exact absurd trivial he
  | publishes _ hpublishes => exact absurd hpublishes he

theorem Effect.grows (hs : s.Sound) (heffect : Effect s e s') : Grows s s' := by
  cases heffect with
  | moves => exact Grows.of_eq rfl rfl
  | starts => exact Grows.of_eq rfl rfl
  | writes _ hkeeps => exact ⟨hkeeps, List.prefix_rfl⟩
  | delivers => exact Grows.of_eq rfl rfl
  | finishes => exact Grows.of_eq rfl rfl
  | applies _ hsnap =>
    unfold applyStage
    dsimp only
    split
    · next hload =>
        have hbuilds := StagedRefs.builds_apply (hs.owned _ (List.mem_of_getElem? hsnap))
          (hs.staged _) hload
        exact ⟨hbuilds.keeps, List.prefix_append _ _⟩
    · exact Grows.of_eq rfl rfl
  | swaps => exact Grows.of_eq rfl rfl
  | publishes _ _ hbuilds => exact ⟨hbuilds.keeps, List.prefix_append _ _⟩

theorem Effect.staged_lt (hs : s.Sound) (heffect : Effect s e s') (stage ref : Nat)
    (href : ref ∈ (s'.staged stage).refs) : ref < s'.heap.length := by
  have hlength := (heffect.grows hs).heap.length_le
  have hbefore : ref ∈ (s.staged stage).refs → ref < s'.heap.length := fun hmem =>
    (hs.staged stage ref hmem).trans_le hlength
  rw [heffect.staged, LoadEvent.stagedAfter] at href
  split at href
  · next other d hdelivery =>
      split at href
      · rcases mem_refs_set href with hold | hnew
        · exact hbefore hold
        · cases heffect with
          | delivers hrunning hrefs =>
            obtain ⟨-, rfl⟩ := Prod.mk.inj (Option.some.inj hdelivery)
            exact hrefs ref hnew
          | _ => simp_all [LoadEvent.delivery]
      · exact hbefore href
  · exact hbefore href

theorem Sound.of_effect (hs : s.Sound) (heffect : Effect s e s')
    (hsnaps : ∀ snap ∈ s'.snaps, snap ∈ s.snaps ∨ snap.Owned s'.heap)
    (hcurrent : s'.current < s'.snaps.length) (hpc : s'.PcSound s'.pc) : s'.Sound where
  owned := fun snap hsnap => (hsnaps snap hsnap).elim
    (fun hold => (hs.owned snap hold).keeps (heffect.grows hs).heap) id
  current := hcurrent
  staged := heffect.staged_lt hs
  pc := hpc

theorem mem_concat_owned {snaps : List SnapshotRefs} {h : MapHeap} {new : SnapshotRefs}
    (hnew : new.Owned h) : ∀ snap ∈ snaps ++ [new], snap ∈ snaps ∨ snap.Owned h := by
  intro snap hsnap
  rcases List.mem_append.mp hsnap with hold | hlast
  · exact Or.inl hold
  · obtain rfl := List.mem_singleton.mp hlast
    exact Or.inr hnew

theorem sound_applyStage (hs : s.Sound) {vars : AttemptVars} {old : Nat} {snap : SnapshotRefs}
    (hpc : s.pc = .loaded vars old) (hsnap : s.snaps[old]? = some snap) :
    (s.applyStage vars old snap).Sound := by
  have heffect := Effect.applies hpc hsnap
  have hgrows := heffect.grows hs
  have howned := hs.owned _ (List.mem_of_getElem? hsnap)
  obtain ⟨hold, hsnap'⟩ := List.getElem?_eq_some_iff.mp hsnap
  have hview : s.view old = snap.view s.heap := by simp [view, hsnap]
  have hview' := view_eq_of_grows hs hgrows hold
  by_cases hload : ((s.staged vars.stage).read s.heap).Delivers
  · have hbuilds := StagedRefs.builds_apply howned (hs.staged vars.stage) hload
    unfold applyStage at heffect hgrows hview' ⊢
    simp only [hload, if_true] at heffect hgrows hview' ⊢
    refine hs.of_effect heffect (mem_concat_owned hbuilds.owned) ?_ ?_
    · simpa using Nat.lt_succ_of_lt hs.current
    · refine ⟨by simpa using Nat.lt_succ_of_lt hold, by simp, ?_⟩
      rw [hview', hview]
      simpa [view] using hbuilds.view
  · unfold applyStage at heffect ⊢
    simp only [hload, if_false] at heffect ⊢
    refine hs.of_effect heffect (fun _ => Or.inl) hs.current ⟨hold, hold, ?_⟩
    rw [StagedLoad.apply, if_neg hload]

/-- **The step lemma.** -/
theorem Effect.sound (hs : s.Sound) (heffect : Effect s e s') : s'.Sound := by
  have hgrows := heffect.grows hs
  cases heffect with
  | moves hdelivery hpc hnot =>
    exact hs.of_effect (.moves hdelivery hpc hnot) (fun _ => Or.inl) hs.current
      (hpc.grows hs hgrows)
  | starts hdelivery attempt maxRetries =>
    exact hs.of_effect (.starts hdelivery attempt maxRetries) (fun _ => Or.inl) hs.current trivial
  | writes hdelivery hkeeps =>
    exact hs.of_effect (.writes hdelivery hkeeps) (fun _ => Or.inl) hs.current
      (hs.pc.grows hs hgrows)
  | delivers hrunning hrefs =>
    exact hs.of_effect (.delivers hrunning hrefs) (fun _ => Or.inl) hs.current
      (hs.pc.grows hs hgrows)
  | finishes failed =>
    exact hs.of_effect (.finishes failed) (fun _ => Or.inl) hs.current (hs.pc.grows hs hgrows)
  | applies hpc hsnap => exact sound_applyStage hs hpc hsnap
  | swaps hpc =>
    have hpointers := hs.pc
    rw [hpc] at hpointers
    exact hs.of_effect (.swaps hpc) (fun _ => Or.inl) hpointers.2.1 trivial
  | publishes hdelivery he hbuilds =>
    exact hs.of_effect (.publishes hdelivery he hbuilds) (mem_concat_owned hbuilds.owned)
      (by simp [publish]) (hs.pc.grows hs hgrows)

theorem sound_init (snap : Snapshot) : (init snap).Sound where
  owned := by
    intro refs hrefs
    obtain rfl := List.mem_singleton.mp hrefs
    exact ⟨⟨_, rfl⟩, ⟨_, rfl⟩, ⟨_, rfl⟩, ⟨_, rfl⟩, ⟨_, rfl⟩⟩
  current := Nat.zero_lt_one
  staged := by
    intro stage ref href
    simp [staged, init, StagedRefs.refs] at href
  pc := trivial

end LoadState

/-! ## Whole runs -/

/-- A run from the first snapshot. -/
def LoadRun (snap : Snapshot) (events : List LoadEvent) (s : LoadState) : Prop :=
  follow LoadState.step (LoadState.init snap) events = some s

/-- The run has applied the staging area of the attempt to the snapshot `old`, and `load` is
what had been delivered into it by then. -/
structure AppliedBy (snap : Snapshot) (events : List LoadEvent) (vars : AttemptVars) (old : Nat)
    (load : StagedLoad) : Prop where
  applied : ∃ before after s, events = before ++ .apply :: after ∧ LoadRun snap before s ∧
    s.pc = .loaded vars old ∧ load = (delivered vars.stage before).read s.heap

theorem AppliedBy.later {snap : Snapshot} {events : List LoadEvent} {vars : AttemptVars} {old : Nat}
    {load : StagedLoad} (h : AppliedBy snap events vars old load) (e : LoadEvent) :
    AppliedBy snap (events ++ [e]) vars old load := by
  obtain ⟨before, after, s, rfl, hrun, hpc, hload⟩ := h.applied
  exact ⟨before, after ++ [e], s, by simp, hrun, hpc, hload⟩

structure RunSound (snap : Snapshot) (events : List LoadEvent) (s : LoadState) : Prop where
  sound : s.Sound
  staged : ∀ stage, s.staged stage = delivered stage events
  swapping : ∀ vars old new load, s.pc = .swapping vars old new load →
    AppliedBy snap events vars old load

theorem RunSound.swapping_step {snap : Snapshot} {events : List LoadEvent} {s s' : LoadState}
    (hrun : LoadRun snap events s) (hs : RunSound snap events s)
    (heffect : s.Effect e s') (vars : AttemptVars) (old new : Nat) (load : StagedLoad)
    (hpc' : s'.pc = .swapping vars old new load) :
    AppliedBy snap (events ++ [e]) vars old load := by
  have hbefore : s.pc = .swapping vars old new load →
      AppliedBy snap (events ++ [e]) vars old load :=
    fun hpc => (hs.swapping vars old new load hpc).later e
  cases heffect with
  | moves _ _ hnot => exact absurd hpc' (hnot vars old new load)
  | starts => cases hpc'
  | writes => exact hbefore hpc'
  | delivers => exact hbefore hpc'
  | finishes => exact hbefore hpc'
  | @applies vars' old' snap' hpc hsnap =>
    have hfound : vars' = vars ∧ old' = old ∧ (s.staged vars'.stage).read s.heap = load := by
      unfold LoadState.applyStage at hpc'
      dsimp only at hpc'
      split at hpc' <;> cases hpc' <;> exact ⟨rfl, rfl, rfl⟩
    obtain ⟨rfl, rfl, rfl⟩ := hfound
    exact ⟨events, [], s, rfl, hrun, hpc, by rw [hs.staged]⟩
  | swaps => cases hpc'
  | publishes => exact hbefore hpc'

/-- **The run lemma.** -/
theorem runSound {snap : Snapshot} {events : List LoadEvent} {s : LoadState}
    (hrun : LoadRun snap events s) : RunSound snap events s := by
  refine follow_induction (motive := RunSound snap) ?_ ?_ hrun
  · refine ⟨LoadState.sound_init snap, fun stage => ?_, nofun⟩
    simp [LoadState.staged, LoadState.init, delivered]
  · intro events s e s' hbefore hs hstep
    have heffect := LoadState.step_effect hs.sound hstep
    refine ⟨heffect.sound hs.sound, fun stage => ?_, hs.swapping_step hbefore heffect⟩
    rw [heffect.staged, hs.staged, delivered, delivered, List.foldl_append]
    rfl

theorem grows_of_follow {s s' : LoadState} {later : List LoadEvent} (hs : s.Sound)
    (hlater : follow LoadState.step s later = some s') : s.Grows s' := by
  refine (follow_induction (motive := fun _ s' => s'.Sound ∧ s.Grows s') ?_ ?_ hlater).2
  · exact ⟨hs, LoadState.Grows.of_eq rfl rfl⟩
  · rintro _ mid e s' - ⟨hmid, hgrows⟩ hstep
    have heffect := LoadState.step_effect hmid hstep
    exact ⟨heffect.sound hmid, hgrows.trans (heffect.grows hmid)⟩

/-! ## What is published -/

/-- The snapshot with the delivered parts replaced, and everything else as it was. -/
def StagedLoad.replaceParts (load : StagedLoad) (old : Snapshot) : Snapshot where
  localMap := load.localPart.getD old.localMap
  globalMap := load.globalPart.getD old.globalMap
  miscMap := load.miscPart.getD old.miscMap
  serverMap := (load.serverPart.getD (old.serverMap, old.services)).1
  services := (load.serverPart.getD (old.serverMap, old.services)).2
  observedMap := old.observedMap

/-- The delivered parts were replaced.  If there is one, the observed lookups were dropped. -/
def StagedLoad.Replaces (load : StagedLoad) (old new : Snapshot) : Prop :=
  new = if load.Delivers then (load.replaceParts old).withObserved fun _ _ => none
    else load.replaceParts old

theorem StagedLoad.replaces_apply (load : StagedLoad) (old : Snapshot) :
    load.Replaces old (load.apply old) := by
  obtain ⟨localPart, globalPart, miscPart, serverPart⟩ := load
  unfold Replaces apply
  split
  · cases localPart <;> cases globalPart <;> cases miscPart <;> cases serverPart <;> rfl
  · next hnot =>
      simp only [Delivers, not_or, Option.not_isSome_iff_eq_none] at hnot
      obtain ⟨rfl, rfl, rfl, rfl⟩ := hnot
      rfl

/-- What the loads do to the snapshots, after a run that has led to `s`. -/
structure LoadsIsolated (snap : Snapshot) (events : List LoadEvent) (s : LoadState) : Prop where
  /-- An attempt is published: the parts that were delivered into its staging area before that
  was applied replace those of the snapshot of before. -/
  attempt : ∀ s' vars, s.step .swap = some s' → s'.pc = .evaluating vars →
    ∃ before after s₁ old, events = before ++ .apply :: after ∧ LoadRun snap before s₁ ∧
      s₁.pc = .loaded vars old ∧
      ((delivered vars.stage before).read s₁.heap).Replaces s.published s'.published
  /-- Between two publications readers get the same snapshot. -/
  between : ∀ e s', s.step e = some s' → ¬e.Publishes → s'.current = s.current ∧
    s'.published = s.published
  /-- A reader that has the pointer sees the snapshot that was published, however long it
  reads. -/
  reader : ∀ later s', follow LoadState.step s later = some s' → s'.view s.current = s.published
  /-- A loader, of whatever attempt, changes neither the pointer nor any snapshot. -/
  loader : ∀ stage l act s', s.step (.loader stage l act) = some s' → s'.current = s.current ∧
    ∀ other < s.snaps.length, s'.view other = s.view other

def observedOnce : Snapshot where
  globalMap := Std.ExtTreeMap.ofList [("zimbraSSLDHParam", "/opt/dhparam.pem")] compare
  observedMap := fun type key =>
    if type = .mapfile ∧ key = "zimbraSSLDHParam" then some "/opt/dhparam.pem" else none

/-- An attempt in which the local configuration arrives and the other loaders hang.  It waits
twice, and while it publishes the loader writes its map again. -/
def hangingLoaders : List LoadEvent :=
  [.call 1, .loader 0 .lc (.make (Std.ExtTreeMap.ofList [("ldap_port", "389")] compare)),
    .loader 0 .lc (.deliver (.setLocal 5)), .timer, .timer, .load, .apply,
    .loader 0 .lc (.write 5 (Std.ExtTreeMap.ofList [("ldap_port", "636")] compare))]

/-- **Load attempts are isolated**: from each other, from the readers and from the loaders that
outlive them. -/
theorem loads_isolated {snap : Snapshot} {events : List LoadEvent} {s : LoadState}
    (hrun : LoadRun snap events s) : LoadsIsolated snap events s := by
  have hs := runSound hrun
  have hview : ∀ e s', s.step e = some s' →
      ∀ other < s.snaps.length, s'.view other = s.view other :=
    fun e s' hstep other hother => LoadState.view_eq_of_grows hs.sound
      ((LoadState.step_effect hs.sound hstep).grows hs.sound) hother
  refine ⟨?_, ?_, ?_, ?_⟩
  · intro s' vars hstep hpc'
    have hkept := hview .swap s' hstep
    simp only [LoadState.step] at hstep
    split at hstep
    · next vars' old new load hpc =>
        obtain ⟨-, hnew, happlied⟩ : s.PcSound (.swapping vars' old new load) := hpc ▸ hs.sound.pc
        obtain ⟨before, after, s₁, hevents, hbefore, hloaded, rfl⟩ :=
          (hs.swapping _ _ _ _ hpc).applied
        obtain rfl := Option.some.inj hstep
        split at hpc'
        · next hcurrent =>
            obtain rfl := LoadPc.evaluating.inj hpc'
            refine ⟨before, after, s₁, old, hevents, hbefore, hloaded, ?_⟩
            rw [if_pos hcurrent] at hkept ⊢
            show StagedLoad.Replaces _ (s.view s.current) (LoadState.view _ new)
            rw [hkept new hnew, happlied, hcurrent]
            exact StagedLoad.replaces_apply _ _
        · cases hpc'
    · cases hstep
  · intro e s' hstep he
    have hcurrent := (LoadState.step_effect hs.sound hstep).current_eq he
    refine ⟨hcurrent, ?_⟩
    rw [LoadState.published, hcurrent]
    exact hview e s' hstep _ hs.sound.current
  · intro later s' hlater
    exact LoadState.view_eq_of_grows hs.sound (grows_of_follow hs.sound hlater) hs.sound.current
  · intro stage l act s' hstep
    exact ⟨(LoadState.step_effect hs.sound hstep).current_eq id, hview _ s' hstep⟩

/-- The port is the one that was delivered, and the global configuration is kept. -/
theorem loads_isolated_hanging :
    ∃ s, LoadRun observedOnce hangingLoaders s ∧ LoadsIsolated observedOnce hangingLoaders s ∧
      (s.step .swap).map (fun s' => (s'.published.local "ldap_port",
        s'.published.global "zimbraSSLDHParam")) = some (some "389", some "/opt/dhparam.pem") := by
  have hsome : (follow LoadState.step (LoadState.init observedOnce)
      hangingLoaders).isSome = true := by
    decide +kernel
  obtain ⟨s, hrun⟩ := Option.isSome_iff_exists.mp hsome
  refine ⟨s, hrun, loads_isolated hrun, ?_⟩
  have hswap : (follow LoadState.step (LoadState.init observedOnce) hangingLoaders).bind (fun s =>
      (s.step .swap).map fun s' => (s'.published.local "ldap_port",
        s'.published.global "zimbraSSLDHParam")) = some (some "389", some "/opt/dhparam.pem") := by
    decide +kernel
  rwa [hrun] at hswap

/-- The snapshot that is published is not the one of before with parts replaced: it has no
observed lookups any more. -/
theorem observed_lookups_dropped :
    ∃ s s', LoadRun observedOnce hangingLoaders s ∧ s.step .swap = some s' ∧
      ∀ load : StagedLoad, s'.published ≠ load.replaceParts s.published := by
  have hswap : (follow LoadState.step (LoadState.init observedOnce) hangingLoaders).bind (fun s =>
      (s.step .swap).map fun s' => (s.published.observed .mapfile "zimbraSSLDHParam",
        s'.published.observed .mapfile "zimbraSSLDHParam")) =
      some (some "/opt/dhparam.pem", none) := by
    decide +kernel
  obtain ⟨s, hrun, hmap⟩ := Option.bind_eq_some_iff.mp hswap
  obtain ⟨s', hstep, hobserved⟩ := Option.map_eq_some_iff.mp hmap
  obtain ⟨hbefore, hafter⟩ := Prod.mk.inj hobserved
  refine ⟨s, s', hrun, hstep, fun load heq => ?_⟩
  have hkept : s'.published.observed .mapfile "zimbraSSLDHParam" =
      s.published.observed .mapfile "zimbraSSLDHParam" := by
    rw [heq]
    rfl
  rw [hbefore, hafter] at hkept
  cases hkept

end Configd
