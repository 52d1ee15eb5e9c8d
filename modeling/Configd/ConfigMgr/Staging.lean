import Configd.Snapshot
import Configd.Lib.Cells
import Configd.Lib.Runs

/-!
# Load attempts and the loaders that outlive them

Each attempt of `LoadAllConfigsWithRetry` (`internal/configmgr/manager_load.go`) starts the four
loaders with a staging area of its own, waits for them twice, and publishes what was delivered
as one new snapshot.  A loader that hangs is given up on, but it goes on running, next to the
loaders of later attempts and cycles.

Maps are shared by reference, so this is a model with a heap.  A loader may make maps, write any
map that a loader made, and hand maps to the staging area of its attempt, in any order until it
ends; the loaders of the source do less.  `stagedLoad.apply` copies the delivered maps into
frozen cells, so that the snapshot it builds shows the same at all later times
(`SnapshotRefs.Owned.view_eq`): what `StagedLoad.apply` makes of the delivered data
(`StagedRefs.builds_apply`).
-/

namespace Configd

open Lib

/-- The maps of the configuration. -/
abbrev MapHeap := List (Cells.Cell (StrMap String))

/-- What a map holds; a nil map reads like the empty one. -/
def MapHeap.content (h : MapHeap) (ref : Nat) : StrMap String :=
  (Cells.read h ref).getD ∅

/-! ## Snapshots and staging areas by reference -/

/-- `snapshot.Snapshot`, with the references to its maps.  The observed lookups are copied
when they are set. -/
structure SnapshotRefs where
  localRef : Nat
  globalRef : Nat
  serverRef : Nat
  miscRef : Nat
  servicesRef : Nat
  observedMap : LookupType → String → Option String

namespace SnapshotRefs

/-- What the snapshot shows. -/
def view (h : MapHeap) (s : SnapshotRefs) : Snapshot where
  localMap := h.content s.localRef
  globalMap := h.content s.globalRef
  serverMap := h.content s.serverRef
  miscMap := h.content s.miscRef
  services := h.content s.servicesRef
  observedMap := s.observedMap

def withLocal (out : MapHeap × SnapshotRefs) (data : Nat) : MapHeap × SnapshotRefs :=
  let copy := Cells.clone out.1 data
  (copy.1, { out.2 with localRef := copy.2 })

def withGlobal (out : MapHeap × SnapshotRefs) (data : Nat) : MapHeap × SnapshotRefs :=
  let copy := Cells.clone out.1 data
  (copy.1, { out.2 with globalRef := copy.2 })

def withMisc (out : MapHeap × SnapshotRefs) (data : Nat) : MapHeap × SnapshotRefs :=
  let copy := Cells.clone out.1 data
  (copy.1, { out.2 with miscRef := copy.2 })

def withServer (out : MapHeap × SnapshotRefs) (data services : Nat) : MapHeap × SnapshotRefs :=
  let copy := Cells.clone out.1 data
  let copy' := Cells.clone copy.1 services
  (copy'.1, { out.2 with serverRef := copy.2, servicesRef := copy'.2 })

/-- All maps of the snapshot are frozen. -/
structure Owned (h : MapHeap) (s : SnapshotRefs) : Prop where
  localRef : Cells.Frozen h s.localRef
  globalRef : Cells.Frozen h s.globalRef
  serverRef : Cells.Frozen h s.serverRef
  miscRef : Cells.Frozen h s.miscRef
  servicesRef : Cells.Frozen h s.servicesRef

end SnapshotRefs

/-- What a loader hands to its sink. -/
inductive Delivery
  | setLocal (data : Nat)
  | setGlobal (data : Nat)
  | setMisc (data : Nat)
  | setServer (data services : Nat)
  deriving DecidableEq

def Delivery.refs : Delivery → List Nat
  | setLocal data => [data]
  | setGlobal data => [data]
  | setMisc data => [data]
  | setServer data services => [data, services]

/-- `stagedLoad`: the maps that were delivered.  The flags of the source say which they are. -/
structure StagedRefs where
  localRef : Option Nat := none
  globalRef : Option Nat := none
  miscRef : Option Nat := none
  serverRefs : Option (Nat × Nat) := none
  deriving DecidableEq

namespace StagedRefs

/-- The setters of `stagedLoad`. -/
def set (st : StagedRefs) : Delivery → StagedRefs
  | .setLocal data => { st with localRef := some data }
  | .setGlobal data => { st with globalRef := some data }
  | .setMisc data => { st with miscRef := some data }
  | .setServer data services => { st with serverRefs := some (data, services) }

def refs (st : StagedRefs) : List Nat :=
  st.localRef.toList ++ st.globalRef.toList ++ st.miscRef.toList ++
    st.serverRefs.toList.flatMap fun part => [part.1, part.2]

/-- What the staging area holds, by value. -/
def read (h : MapHeap) (st : StagedRefs) : StagedLoad where
  localPart := st.localRef.map h.content
  globalPart := st.globalRef.map h.content
  miscPart := st.miscRef.map h.content
  serverPart := st.serverRefs.map fun part => (h.content part.1, h.content part.2)

/-- `stagedLoad.apply` when something was delivered: each delivered part is copied, and the
observed lookups are dropped. -/
def apply (h : MapHeap) (st : StagedRefs) (old : SnapshotRefs) : MapHeap × SnapshotRefs :=
  let out := (h, old)
  let out := (st.localRef.map (SnapshotRefs.withLocal out)).getD out
  let out := (st.globalRef.map (SnapshotRefs.withGlobal out)).getD out
  let out := (st.miscRef.map (SnapshotRefs.withMisc out)).getD out
  let out := (st.serverRefs.map fun part => SnapshotRefs.withServer out part.1 part.2).getD out
  (out.1, { out.2 with observedMap := fun _ _ => none })

end StagedRefs

/-! ## The load loop -/

/-- The threads of `LoadAllConfigsWithRetry`. -/
inductive Loader
  | lc
  | gc
  | mc
  | sc
  deriving DecidableEq

def allLoaders : List Loader := [.lc, .gc, .mc, .sc]

/-- The setter that a loader calls. -/
def Delivery.loader : Delivery → Loader
  | setLocal _ => .lc
  | setGlobal _ => .gc
  | setMisc _ => .mc
  | setServer _ _ => .sc

/-- An attempt: its staging area, and for each loader that has ended whether that was with an
error.  A panic is recovered and is an error. -/
structure Attempt where
  staged : StagedRefs := {}
  finished : Loader → Option Bool := fun _ => none

/-- The variables of the loop for the attempt that is being made. -/
structure AttemptVars where
  /-- The number of the attempt in its call, from 1 on. -/
  attempt : Nat
  maxRetries : Nat
  /-- The place of the attempt among those of all calls. -/
  stage : Nat
  timedOut : Bool := false
  /-- Some loader that had ended reported an error. -/
  failed : Bool := false

/-- Where the goroutine of `LoadAllConfigsWithRetry` is. -/
inductive LoadPc
  /-- Between two calls. -/
  | idle
  /-- In `awaitLoaders`, for the first or for the second time. -/
  | waiting (vars : AttemptVars) (again : Bool)
  /-- In `UpdateSnapshot`, before it loads the pointer. -/
  | publishing (vars : AttemptVars)
  /-- It has loaded the pointer. -/
  | loaded (vars : AttemptVars) (old : Nat)
  /-- `stage.apply` has returned the pointer to swap in.  What it found in the staging area is
  noted. -/
  | swapping (vars : AttemptVars) (old new : Nat) (load : StagedLoad)
  | evaluating (vars : AttemptVars)
  | sleeping (vars : AttemptVars)

/-- The state of the manager: its maps, the snapshots that were built, the pointer to the
published one, and the attempts of all calls so far. -/
structure LoadState where
  heap : MapHeap
  snaps : List SnapshotRefs
  current : Nat
  attempts : List Attempt := []
  pc : LoadPc := .idle

inductive LoaderAct
  | make (data : StrMap String)
  | write (ref : Nat) (data : StrMap String)
  | deliver (d : Delivery)
  | finish (failed : Bool)

inductive LoadEvent
  | call (maxRetries : Nat)
  /-- A loader of the attempt does something. -/
  | loader (stage : Nat) (l : Loader) (act : LoaderAct)
  /-- The wait ends because all loaders have. -/
  | allDone
  | timer
  | load
  | apply
  | swap
  | evaluate
  | wake
  /-- A loader that runs outside an attempt writes through its `stateSink`. -/
  | direct (d : Delivery)
  /-- `Plan` publishes the snapshot with the observed lookups. -/
  | observe (obs : LookupType → String → Option String)

namespace LoadState

def staged (s : LoadState) (stage : Nat) : StagedRefs :=
  (s.attempts[stage]?.map Attempt.staged).getD {}

def running (s : LoadState) (stage : Nat) (l : Loader) : Bool :=
  s.attempts[stage]?.any fun attempt => (attempt.finished l).isNone

/-- `len(errs) > 0`: a loader that has ended reported an error. -/
def anyFailed (s : LoadState) (stage : Nat) : Bool :=
  s.attempts[stage]?.any fun attempt => allLoaders.any fun l => attempt.finished l = some true

/-- What a snapshot shows.  Where there is none it is the empty one. -/
def view (s : LoadState) (snap : Nat) : Snapshot :=
  (s.snaps[snap]?.map (SnapshotRefs.view s.heap)).getD {}

/-- `State.Snapshot`. -/
def published (s : LoadState) : Snapshot :=
  s.view s.current

/-- The attempt gets a staging area, and its loaders are started. -/
def startAttempt (s : LoadState) (attempt maxRetries : Nat) : LoadState :=
  { s with
    attempts := s.attempts ++ [{}]
    pc := .waiting { attempt, maxRetries, stage := s.attempts.length } false }

/-- `runLoadAttempt` returns. -/
def endAttempt (s : LoadState) (vars : AttemptVars) (timedOut : Bool) : LoadState :=
  { s with pc := .publishing { vars with timedOut, failed := s.anyFailed vars.stage } }

/-- What a loader does to the maps and to the staging area of its attempt.  It has no
reference to a frozen map: the accessors of a snapshot return copies. -/
def act (s : LoadState) (stage : Nat) (l : Loader) : LoaderAct → Option LoadState
  | .make data => some { s with heap := Cells.make s.heap data }
  | .write ref data => some { s with heap := Cells.write s.heap ref data }
  | .deliver d =>
    if d.loader = l ∧ ∀ ref ∈ d.refs, ref < s.heap.length then
      some { s with
        attempts := s.attempts.modify stage fun a => { a with staged := a.staged.set d } }
    else none
  | .finish failed =>
    some { s with
      attempts := s.attempts.modify stage fun a =>
        { a with finished := Function.update a.finished l (some failed) } }

/-- `stage.apply(old)`: a new snapshot, or `old` itself if nothing was delivered. -/
def applyStage (s : LoadState) (vars : AttemptVars) (old : Nat) (snap : SnapshotRefs) : LoadState :=
  let st := s.staged vars.stage
  let load := st.read s.heap
  if load.Delivers then
    let out := st.apply s.heap snap
    { s with
      heap := out.1
      snaps := s.snaps ++ [out.2]
      pc := .swapping vars old s.snaps.length load }
  else
    { s with pc := .swapping vars old old load }

/-- The snapshot that a `stateSink` puts in place of the published one. -/
def replacePart (out : MapHeap × SnapshotRefs) : Delivery → MapHeap × SnapshotRefs
  | .setLocal data => SnapshotRefs.withLocal out data
  | .setGlobal data => SnapshotRefs.withGlobal out data
  | .setMisc data => SnapshotRefs.withMisc out data
  | .setServer data services => SnapshotRefs.withServer out data services

def publish (s : LoadState) (out : MapHeap × SnapshotRefs) : LoadState :=
  { s with heap := out.1, snaps := s.snaps ++ [out.2], current := s.snaps.length }

/-- `evaluateLoadResult` asks for another attempt. -/
def shouldRetry (vars : AttemptVars) : Bool :=
  (vars.timedOut || vars.failed) && vars.attempt < vars.maxRetries

def step (s : LoadState) : LoadEvent → Option LoadState
  | .call maxRetries =>
    match s.pc with
    | .idle => some (if maxRetries = 0 then s else s.startAttempt 1 maxRetries)
    | _ => none
  | .loader stage l act => if s.running stage l then s.act stage l act else none
  | .allDone =>
    match s.pc with
    | .waiting vars _ =>
      if allLoaders.all fun l => !s.running vars.stage l then some (s.endAttempt vars false)
      else none
    | _ => none
  | .timer =>
    match s.pc with
    | .waiting vars false => some { s with pc := .waiting vars true }
    | .waiting vars true => some (s.endAttempt vars true)
    | _ => none
  | .load =>
    match s.pc with
    | .publishing vars => some { s with pc := .loaded vars s.current }
    | _ => none
  | .apply =>
    match s.pc with
    | .loaded vars old => s.snaps[old]?.map (s.applyStage vars old)
    | _ => none
  | .swap =>
    match s.pc with
    | .swapping vars old new _ =>
      -- Another pointer makes `UpdateSnapshot` start again.
      some (if s.current = old then { s with current := new, pc := .evaluating vars }
        else { s with pc := .publishing vars })
    | _ => none
  | .evaluate =>
    match s.pc with
    | .evaluating vars =>
      some { s with pc := if shouldRetry vars then .sleeping vars else .idle }
    | _ => none
  | .wake =>
    match s.pc with
    | .sleeping vars => some (s.startAttempt (vars.attempt + 1) vars.maxRetries)
    | _ => none
  | .direct d =>
    if ∀ ref ∈ d.refs, ref < s.heap.length then
      s.snaps[s.current]?.map fun snap => s.publish (replacePart (s.heap, snap) d)
    else none
  | .observe obs =>
    match s.pc with
    | .idle => s.snaps[s.current]?.map fun snap =>
      s.publish (s.heap, { snap with observedMap := obs })
    | _ => none

def init (snap : Snapshot) : LoadState where
  heap := [⟨snap.localMap, true⟩, ⟨snap.globalMap, true⟩, ⟨snap.serverMap, true⟩,
    ⟨snap.miscMap, true⟩, ⟨snap.services, true⟩]
  snaps := [⟨0, 1, 2, 3, 4, snap.observedMap⟩]
  current := 0

end LoadState

/-! ## Snapshots are built from copies -/

namespace SnapshotRefs

theorem Owned.keeps {h h' : MapHeap} {s : SnapshotRefs} (hs : s.Owned h)
    (hkeeps : Cells.Keeps h h') :
    s.Owned h' where
  localRef := hkeeps.frozen_of hs.localRef
  globalRef := hkeeps.frozen_of hs.globalRef
  serverRef := hkeeps.frozen_of hs.serverRef
  miscRef := hkeeps.frozen_of hs.miscRef
  servicesRef := hkeeps.frozen_of hs.servicesRef

/-- **A snapshot of frozen maps shows the same at all later times.** -/
theorem Owned.view_eq {h h' : MapHeap} {s : SnapshotRefs} (hs : s.Owned h)
    (hkeeps : Cells.Keeps h h') : s.view h' = s.view h := by
  unfold view MapHeap.content
  rw [hkeeps.read_eq hs.localRef, hkeeps.read_eq hs.globalRef, hkeeps.read_eq hs.serverRef,
    hkeeps.read_eq hs.miscRef, hkeeps.read_eq hs.servicesRef]

/-- The snapshot was built over the heap `h` and shows `snap`. -/
structure Builds (h : MapHeap) (out : MapHeap × SnapshotRefs) (snap : Snapshot) : Prop where
  keeps : Cells.Keeps h out.1
  content : ∀ ref < h.length, out.1.content ref = h.content ref
  owned : out.2.Owned out.1
  view : out.2.view out.1 = snap

namespace Builds

variable {h : MapHeap} {out : MapHeap × SnapshotRefs} {snap : Snapshot} {data services : Nat}

theorem start {s : SnapshotRefs} (hs : s.Owned h) : Builds h (h, s) (s.view h) :=
  ⟨Cells.Keeps.refl h, fun _ _ => rfl, hs, rfl⟩

theorem copy (hout : Builds h out snap) (hdata : data < h.length)
    (set : SnapshotRefs → Nat → SnapshotRefs) (put : Snapshot → StrMap String → Snapshot)
    (howned : ∀ h s ref, Owned h s → Cells.Frozen h ref → Owned h (set s ref))
    (hput : ∀ h s ref, SnapshotRefs.view h (set s ref) =
      put (SnapshotRefs.view h s) (MapHeap.content h ref)) :
    Builds h ((Cells.clone out.1 data).1, set out.2 (Cells.clone out.1 data).2)
      (put snap (h.content data)) := by
  have hkeeps := Cells.keeps_clone out.1 data
  refine ⟨hout.keeps.trans hkeeps, fun ref href => ?_,
    howned _ _ _ (hout.owned.keeps hkeeps) (Cells.frozen_clone _ _), ?_⟩
  · rw [MapHeap.content, Cells.read_clone_of_lt _ _ (href.trans_le hout.keeps.length_le)]
    exact hout.content ref href
  · rw [hput, hout.owned.view_eq hkeeps, hout.view, MapHeap.content, Cells.read_clone]
    exact congrArg (put snap) (hout.content data hdata)

theorem withLocal (hout : Builds h out snap) (hdata : data < h.length) :
    Builds h (SnapshotRefs.withLocal out data) (snap.withLocal (h.content data)) :=
  hout.copy hdata (fun s ref => { s with localRef := ref }) Snapshot.withLocal
    (fun _ _ _ hs href => { hs with localRef := href }) fun _ _ _ => rfl

theorem withGlobal (hout : Builds h out snap) (hdata : data < h.length) :
    Builds h (SnapshotRefs.withGlobal out data) (snap.withGlobal (h.content data)) :=
  hout.copy hdata (fun s ref => { s with globalRef := ref }) Snapshot.withGlobal
    (fun _ _ _ hs href => { hs with globalRef := href }) fun _ _ _ => rfl

theorem withMisc (hout : Builds h out snap) (hdata : data < h.length) :
    Builds h (SnapshotRefs.withMisc out data) (snap.withMisc (h.content data)) :=
  hout.copy hdata (fun s ref => { s with miscRef := ref }) Snapshot.withMisc
    (fun _ _ _ hs href => { hs with miscRef := href }) fun _ _ _ => rfl

theorem withServer (hout : Builds h out snap) (hdata : data < h.length)
    (hservices : services < h.length) :
    Builds h (SnapshotRefs.withServer out data services)
      (snap.withServer (h.content data) (h.content services)) := by
  have hserver := hout.copy hdata (fun s ref => { s with serverRef := ref })
    (fun snap data => { snap with serverMap := data })
    (fun _ _ _ hs href => { hs with serverRef := href }) fun _ _ _ => rfl
  exact hserver.copy hservices (fun s ref => { s with servicesRef := ref })
    (fun snap data => { snap with services := data })
    (fun _ _ _ hs href => { hs with servicesRef := href }) fun _ _ _ => rfl

theorem withObserved (hout : Builds h out snap) (obs : LookupType → String → Option String) :
    Builds h (out.1, { out.2 with observedMap := obs }) (snap.withObserved obs) := by
  refine ⟨hout.keeps, hout.content, ⟨hout.owned.1, hout.owned.2, hout.owned.3, hout.owned.4,
    hout.owned.5⟩, ?_⟩
  rw [← hout.view]
  rfl

theorem optional {β γ : Type} (op : MapHeap × SnapshotRefs → β → MapHeap × SnapshotRefs)
    (put : Snapshot → γ → Snapshot) (value : β → γ) {part : Option β} (hout : Builds h out snap)
    (hop : ∀ b, part = some b → Builds h (op out b) (put snap (value b))) :
    Builds h ((part.map (op out)).getD out) (((part.map value).map (put snap)).getD snap) := by
  cases part with
  | none => exact hout
  | some b => exact hop b rfl

end Builds

end SnapshotRefs

theorem StagedRefs.mem_refs {st : StagedRefs} {ref : Nat} :
    ref ∈ st.refs ↔ st.localRef = some ref ∨ st.globalRef = some ref ∨ st.miscRef = some ref ∨
      ∃ part, st.serverRefs = some part ∧ (ref = part.1 ∨ ref = part.2) := by
  simp [refs]

/-- **`apply` shows what was delivered.** -/
theorem StagedRefs.builds_apply {h : MapHeap} {st : StagedRefs} {old : SnapshotRefs}
    (hold : old.Owned h) (hrefs : ∀ ref ∈ st.refs, ref < h.length) (hload : (st.read h).Delivers) :
    SnapshotRefs.Builds h (st.apply h old) ((st.read h).apply (old.view h)) := by
  rw [StagedLoad.apply, if_pos hload]
  have hstart := SnapshotRefs.Builds.start hold
  have hlocal := hstart.optional SnapshotRefs.withLocal Snapshot.withLocal h.content fun ref href =>
    hstart.withLocal (hrefs ref (mem_refs.mpr (Or.inl href)))
  have hglobal := hlocal.optional SnapshotRefs.withGlobal Snapshot.withGlobal h.content
    fun ref href => hlocal.withGlobal (hrefs ref (mem_refs.mpr (Or.inr (Or.inl href))))
  have hmisc := hglobal.optional SnapshotRefs.withMisc Snapshot.withMisc h.content fun ref href =>
    hglobal.withMisc (hrefs ref (mem_refs.mpr (Or.inr (Or.inr (Or.inl href)))))
  have hpart : ∀ part, st.serverRefs = some part → part.1 < h.length ∧ part.2 < h.length := by
    intro part hpart
    have hmem : ∀ ref, ref = part.1 ∨ ref = part.2 → ref ∈ st.refs := fun ref href =>
      mem_refs.mpr (Or.inr (Or.inr (Or.inr ⟨part, hpart, href⟩)))
    exact ⟨hrefs _ (hmem _ (Or.inl rfl)), hrefs _ (hmem _ (Or.inr rfl))⟩
  have hserver := hmisc.optional (fun out part => SnapshotRefs.withServer out part.1 part.2)
    (fun snap (part : StrMap String × StrMap String) => snap.withServer part.1 part.2)
    (fun part => (h.content part.1, h.content part.2)) fun part hsome =>
      hmisc.withServer (hpart part hsome).1 (hpart part hsome).2
  exact hserver.withObserved _

end Configd
