import Configd.Lib.Runs
import Mathlib.Data.List.Basic
import Mathlib.Logic.Function.Basic

/-!
# Replacing a file

`AtomicWriteOwned` (`internal/fileutil/atomic_write.go`) and `CopyFile` (`copy.go`) write a
temporary file next to the path, sync it, give it its mode and owner and rename it over the path;
the first one syncs the directory, too.  Any number of calls for one path run next to each other,
each operation can fail, and the host can crash between any two of them.

A file that was not synced may have any data after a crash.  Until the directory is synced a crash
may undo the last renames; a mode or an owner that was set before a rename is there when the rename
is.  `replaced_of_run` says that nobody ever finds a part of a file at the path, and what the
results of the calls mean.
-/

namespace Configd
namespace Fileutil

open Lib

/-! ## The calls -/

inductive Op
  | openSource
  | create
  | write
  | sync
  | stat
  | chmod (perm : Nat)
  | chown (uid gid : Int)
  | close
  | rename
  | openDir
  | syncDir
  | closeDir
  deriving DecidableEq

inductive Call
  | atomicWriteOwned (data : List UInt8) (perm : Nat) (uid gid : Int)
  /-- With the content and the permission bits of the source. -/
  | copyFile (source : List UInt8) (perm : Nat)

namespace Call

def atomicWrite (data : List UInt8) (perm : Nat) : Call :=
  atomicWriteOwned data perm (-1) (-1)

def data : Call → List UInt8
  | atomicWriteOwned data .. => data
  | copyFile source _ => source

def perm : Call → Nat
  | atomicWriteOwned _ perm .. => perm
  | copyFile _ perm => perm

/-- The owner of the new file; a negative id is left as it is. -/
def owner (creator : Int × Int) : Call → Int × Int
  | atomicWriteOwned _ _ uid gid =>
    (if uid < 0 then creator.1 else uid, if gid < 0 then creator.2 else gid)
  | copyFile .. => creator

/-- The operations before the rename. -/
def before : Call → List Op
  | atomicWriteOwned _ perm uid gid =>
    [.create, .write, .sync, .chmod perm] ++
      (if 0 ≤ uid ∨ 0 ≤ gid then [.chown uid gid] else []) ++ [.close]
  | copyFile _ perm => [.openSource, .create, .write, .sync, .stat, .chmod perm, .close]

/-- The operations after the rename (`syncDir`). -/
def after : Call → List Op
  | atomicWriteOwned .. => [.openDir, .syncDir, .closeDir]
  | copyFile .. => []

def ops (c : Call) : List Op :=
  c.before ++ .rename :: c.after

/-- The text before the cause of an error. -/
def errorText : Call → Op → String
  | _, .openDir => "failed to open parent directory"
  | _, .syncDir => "failed to sync parent directory"
  | _, .closeDir => "failed to close parent directory"
  | atomicWriteOwned .., op =>
    match op with
    | .create => "failed to create temp file"
    | .write => "failed to write temp file"
    | .sync => "failed to sync temp file"
    | .chmod _ => "failed to set permissions"
    | .chown .. => "failed to set owner"
    | .close => "failed to close temp file"
    | .rename => "failed to rename temp file"
    | _ => ""
  | copyFile .., op =>
    match op with
    | .openSource => "failed to open source"
    | .create => "failed to create destination"
    | .write => "failed to copy content"
    | .sync => "failed to sync destination"
    | .stat => "failed to stat source"
    | .chmod _ => "failed to set destination mode"
    | .close => "failed to close destination"
    | .rename => "failed to rename temp file to destination"
    | _ => ""

end Call

/-! ## The disk -/

/-- A temporary file, which may get into the place of the path. -/
structure Node where
  data : List UInt8 := []
  synced : Bool := false
  mode : Nat := 0o600
  owner : Int × Int

def Op.on (c : Call) (n : Node) : Op → Node
  | write => { n with data := c.data, synced := false }
  | sync => { n with synced := true }
  | chmod perm => { n with mode := perm }
  | chown uid gid =>
    { n with owner := (if uid < 0 then n.owner.1 else uid, if gid < 0 then n.owner.2 else gid) }
  | _ => n

structure Progress where
  todo : List Op
  node : Node
  error : Option String := none

/-- The calls and the renames of the path, the last one first: those that a crash may undo, and
those before the last sync of the directory. -/
structure State where
  call : Nat → Progress
  pending : List Nat := []
  durable : List Nat := []

/-- A call makes its next operation, or fails at it; a write that fails leaves `torn`. -/
structure Act where
  call : Nat
  failure : Option String
  torn : List UInt8

def Progress.perform (p : Progress) (c : Call) (op : Op) (rest : List Op) : Progress :=
  { p with todo := rest, node := op.on c p.node }

/-- An operation that fails: the call returns.  Its temporary file is of no use any more. -/
def Progress.fail (p : Progress) (c : Call) (op : Op) (torn : List UInt8) (cause : String) :
    Progress where
  todo := []
  node := if op = .write then { p.node with data := torn, synced := false } else p.node
  error := some (c.errorText op ++ ": " ++ cause)

namespace State

def renamed (s : State) : List Nat :=
  s.pending ++ s.durable

/-- What stands at the path: first what a reader finds now, then what else a crash may leave
there.  `none` is the file of before. -/
def versions (s : State) : List (Option Nat) :=
  s.pending.map some ++ [s.durable.head?]

def set (s : State) (i : Nat) (p : Progress) : State :=
  { s with call := Function.update s.call i p }

def perform (s : State) (c : Call) (i : Nat) (op : Op) (rest : List Op) : State :=
  let next := s.set i ((s.call i).perform c op rest)
  match op with
  | .rename => { next with pending := i :: s.pending }
  | .syncDir => { next with pending := [], durable := s.renamed }
  | _ => next

def step (calls : Nat → Call) (s : State) (a : Act) : State :=
  match (s.call a.call).todo, a.failure with
  | [], _ => s
  | op :: rest, none => s.perform (calls a.call) a.call op rest
  | op :: _, some cause =>
    s.set a.call ((s.call a.call).fail (calls a.call) op a.torn cause)

/-- No call has begun.  `creator` is the user of the daemon. -/
def start (creator : Int × Int) (calls : Nat → Call) : State where
  call i := { todo := (calls i).ops, node := { owner := creator } }

end State

/-! ## The order of the operations -/

variable {c : Call} {op : Op} {done rest : List Op}

theorem notMem_before (c : Call) : Op.rename ∉ c.before ∧ Op.syncDir ∉ c.before := by
  cases c with
  | copyFile => simp [Call.before]
  | atomicWriteOwned data perm uid gid =>
    simp only [Call.before]
    split_ifs <;> simp

theorem rename_notMem_after (c : Call) : Op.rename ∉ c.after := by
  cases c <;> simp [Call.after]

theorem eq_of_ops_eq (h : c.ops = done ++ .rename :: rest) : c.before = done ∧ c.after = rest := by
  obtain ⟨hbefore, -, hafter⟩ :=
    (List.append_cons_inj_of_notMem (notMem_before c).1 (rename_notMem_after c)).mp h
  exact ⟨hbefore, hafter⟩

theorem mem_after_of_renamed (h : c.ops = done ++ op :: rest) (hrenamed : Op.rename ∈ done) :
    op ∈ c.after := by
  obtain ⟨first, last, rfl⟩ := List.append_of_mem hrenamed
  rw [List.append_assoc, List.cons_append] at h
  simp [(eq_of_ops_eq h).2]

theorem renamed_of_syncDir (h : c.ops = done ++ .syncDir :: rest) : Op.rename ∈ done := by
  have hmem : Op.rename ∈ done ++ .syncDir :: rest := by simp [← h, Call.ops]
  rcases List.mem_append.mp hmem with hdone | hrest
  · exact hdone
  · obtain ⟨first, last, rfl⟩ := List.append_of_mem (List.mem_of_ne_of_mem (by simp) hrest)
    have hbefore : c.before = done ++ .syncDir :: first :=
      (@eq_of_ops_eq c _ last (by simpa using h)).1
    exact absurd (by simp [hbefore]) (notMem_before c).2

/-- The file is complete and has reached the disk. -/
structure Whole (creator : Int × Int) (c : Call) (n : Node) : Prop where
  data : n.data = c.data
  synced : n.synced = true
  mode : n.mode = c.perm
  owner : n.owner = c.owner creator

theorem whole_before (creator : Int × Int) (c : Call) :
    Whole creator c (c.before.foldl (Op.on c) { owner := creator }) := by
  cases c with
  | copyFile => exact ⟨rfl, rfl, rfl, rfl⟩
  | atomicWriteOwned data perm uid gid =>
    simp only [Call.before]
    split_ifs with hids
    · exact ⟨rfl, rfl, rfl, rfl⟩
    · refine ⟨rfl, rfl, rfl, ?_⟩
      rw [Call.owner, if_pos (by omega), if_pos (by omega)]
      rfl

/-- The operations after the rename leave the file alone. -/
theorem on_of_mem_after (h : op ∈ c.after) (n : Node) : op.on c n = n ∧ op ≠ .write := by
  cases c with
  | copyFile => simp [Call.after] at h
  | atomicWriteOwned =>
    simp only [Call.after, List.mem_cons, List.not_mem_nil, or_false] at h
    rcases h with rfl | rfl | rfl <;> exact ⟨rfl, by simp⟩

/-! ## One call -/

/-- A call that has not failed is where its operations have brought it.  `renamed` says that it
has replaced the file, and `durable` that the directory was synced later. -/
structure Reached (creator : Int × Int) (c : Call) (p : Progress) (renamed durable : Prop)
    (done : List Op) : Prop where
  ops : c.ops = done ++ p.todo
  node : p.node = done.foldl (Op.on c) { owner := creator }
  renamed : Op.rename ∈ done ↔ renamed
  durable : Op.syncDir ∈ done → durable

/-- The error of a call that has replaced the file is one of syncing the directory. -/
def DirError (c : Call) (e : String) : Prop :=
  ∃ op ∈ c.after, ∃ cause, e = c.errorText op ++ ": " ++ cause

structure Good (creator : Int × Int) (c : Call) (p : Progress) (renamed durable : Prop) :
    Prop where
  reached : p.error = none → ∃ done, Reached creator c p renamed durable done
  failed : ∀ e, p.error = some e → p.todo = [] ∧ (renamed → DirError c e)
  whole : renamed → Whole creator c p.node

variable {creator : Int × Int} {p : Progress} {renamed durable : Prop}

theorem Good.exists_reached (h : Good creator c p renamed durable) (htodo : p.todo = op :: rest) :
    p.error = none ∧ ∃ done, Reached creator c p renamed durable done ∧
      c.ops = done ++ op :: rest := by
  cases herror : p.error with
  | some e => simp [(h.failed e herror).1] at htodo
  | none =>
    obtain ⟨done, hdone⟩ := h.reached herror
    exact ⟨rfl, done, hdone, htodo ▸ hdone.ops⟩

theorem Good.perform (h : Good creator c p renamed durable) (htodo : p.todo = op :: rest) :
    Good creator c (p.perform c op rest) (renamed ∨ op = .rename)
      (durable ∨ op = .syncDir ∧ renamed) := by
  obtain ⟨hnone, done, hdone, hops⟩ := h.exists_reached htodo
  refine ⟨fun _ => ⟨done ++ [op], ?_, ?_, ?_, ?_⟩, fun e he => ?_, ?_⟩
  · simpa [Progress.perform] using hops
  · simp [Progress.perform, hdone.node]
  · simp [← hdone.renamed, eq_comm]
  · rw [List.mem_append, List.mem_singleton]
    rintro (hsync | rfl)
    · exact .inl (hdone.durable hsync)
    · exact .inr ⟨rfl, hdone.renamed.mp (renamed_of_syncDir hops)⟩
  · simp [Progress.perform, hnone] at he
  · rintro (hrenamed | rfl)
    · have hafter := mem_after_of_renamed hops (hdone.renamed.mpr hrenamed)
      simpa [Progress.perform, (on_of_mem_after hafter _).1] using h.whole hrenamed
    · have hwhole := whole_before creator c
      rwa [(eq_of_ops_eq hops).1, ← hdone.node] at hwhole

theorem Good.fail (h : Good creator c p renamed durable) (htodo : p.todo = op :: rest)
    (torn : List UInt8) (cause : String) :
    Good creator c (p.fail c op torn cause) renamed durable := by
  obtain ⟨-, done, hdone, hops⟩ := h.exists_reached htodo
  have hafter : renamed → op ∈ c.after := fun hrenamed =>
    mem_after_of_renamed hops (hdone.renamed.mpr hrenamed)
  refine ⟨by simp [Progress.fail], fun e he => ⟨rfl, fun hrenamed => ?_⟩, fun hrenamed => ?_⟩
  · exact ⟨op, hafter hrenamed, cause, (Option.some.inj he).symm⟩
  · simpa [Progress.fail, (on_of_mem_after (hafter hrenamed) p.node).2] using h.whole hrenamed

theorem Good.mono {renamed' durable' : Prop} (h : Good creator c p renamed durable)
    (hrenamed : renamed' ↔ renamed) (hdurable : durable → durable') :
    Good creator c p renamed' durable' := by
  refine ⟨fun hnone => ?_, by simpa only [hrenamed] using h.failed, h.whole ∘ hrenamed.mp⟩
  obtain ⟨done, hdone⟩ := h.reached hnone
  exact ⟨done, hdone.ops, hdone.node, hdone.renamed.trans hrenamed.symm, hdurable ∘ hdone.durable⟩

/-! ## Runs -/

namespace State

variable {calls : Nat → Call} {s : State}

def Inv (creator : Int × Int) (calls : Nat → Call) (s : State) : Prop :=
  ∀ i, Good creator (calls i) (s.call i) (i ∈ s.renamed) (i ∈ s.durable)

theorem call_perform (c : Call) (i : Nat) (op : Op) (rest : List Op) :
    (s.perform c i op rest).call = Function.update s.call i ((s.call i).perform c op rest) := by
  cases op <;> rfl

theorem mem_renamed_perform (c : Call) (i j : Nat) (op : Op) (rest : List Op) :
    j ∈ (s.perform c i op rest).renamed ↔ j ∈ s.renamed ∨ j = i ∧ op = .rename := by
  cases op <;> simp [perform, renamed, set, or_comm]

theorem mem_durable_perform (c : Call) (i j : Nat) (op : Op) (rest : List Op) :
    j ∈ (s.perform c i op rest).durable ↔ j ∈ s.durable ∨ op = .syncDir ∧ j ∈ s.renamed := by
  cases op <;> simp +contextual [perform, renamed, set]

theorem Inv.step (a : Act) (h : Inv creator calls s) : Inv creator calls (s.step calls a) := by
  intro j
  unfold State.step
  split
  · exact h j
  · rename_i op rest htodo _
    have hdurable := fun hj => (mem_durable_perform (s := s) (calls a.call) a.call j op rest).mpr hj
    rw [call_perform]
    by_cases hj : j = a.call
    · subst hj
      rw [Function.update_self]
      exact ((h _).perform htodo).mono (by simp [mem_renamed_perform]) hdurable
    · rw [Function.update_of_ne hj]
      exact (h j).mono (by simp [mem_renamed_perform, hj]) (hdurable ∘ .inl)
  · rename_i op rest cause htodo _
    by_cases hj : j = a.call
    · subst hj
      simpa [set, State.renamed] using (h _).fail htodo a.torn cause
    · simpa [set, State.renamed, hj] using h j

theorem inv_start : Inv creator calls (start creator calls) := by
  intro i
  refine ⟨fun _ => ⟨[], rfl, rfl, ?_, ?_⟩, ?_, ?_⟩ <;> simp [start, State.renamed]

/-- What the users of the path may rely on. -/
structure Replaced (creator : Int × Int) (calls : Nat → Call) (s : State) : Prop where
  /-- Whatever stands at the path, now or after a crash, is the file of before or a whole one. -/
  whole : ∀ i, some i ∈ s.versions → Whole creator (calls i) (s.call i).node
  /-- A call that has returned no error has replaced the file. -/
  replaced : ∀ i, (s.call i).todo = [] → (s.call i).error = none → i ∈ s.renamed
  /-- If it syncs the directory, a crash leaves its file or one that has replaced it. -/
  outlives : ∀ i, Op.syncDir ∈ (calls i).after → (s.call i).todo = [] → (s.call i).error = none →
    ∃ newer older, s.renamed = newer ++ i :: older ∧
      ∀ v ∈ s.versions, ∃ j ∈ newer ++ [i], v = some j
  /-- A call that has returned an error has not replaced the file, unless it could not sync the
  directory. -/
  failed : ∀ i e, (s.call i).error = some e → i ∈ s.renamed → DirError (calls i) e

/-- **Files are replaced as a whole**, in every interleaving of the operations of any calls,
whichever of them fail. -/
theorem replaced_of_run (creator : Int × Int) (calls : Nat → Call) (acts : List Act) :
    Replaced creator calls (run (step calls) (start creator calls) acts) := by
  have hinv : Inv creator calls (run (step calls) (start creator calls) acts) :=
    run_invariant inv_start (fun _ a h => h.step a) acts
  generalize run (step calls) (start creator calls) acts = s at hinv
  have hreturned : ∀ i, (s.call i).todo = [] → (s.call i).error = none →
      Reached creator (calls i) (s.call i) (i ∈ s.renamed) (i ∈ s.durable) (calls i).ops := by
    intro i htodo herror
    obtain ⟨done, hdone⟩ := (hinv i).reached herror
    have hops := hdone.ops
    rw [htodo, List.append_nil] at hops
    rwa [hops]
  refine ⟨fun i hi => (hinv i).whole ?_, fun i htodo herror => ?_, fun i hsync htodo herror => ?_,
    fun i e h => ((hinv i).failed e h).2⟩
  · rcases List.mem_append.mp hi with hi | hi
    · exact List.mem_append_left _ (by simpa using hi)
    · exact List.mem_append_right _ (List.mem_of_mem_head? (by simpa [eq_comm] using hi))
  · exact (hreturned i htodo herror).renamed.mp (by simp [Call.ops])
  · -- The last durable rename is that of `i` or a later one.
    have hdurable := (hreturned i htodo herror).durable (by simp [Call.ops, hsync])
    obtain ⟨newer, older, heq⟩ := List.append_of_mem hdurable
    refine ⟨s.pending ++ newer, older, by simp [State.renamed, heq], fun v hv => ?_⟩
    rcases List.mem_append.mp hv with hv | hv
    · obtain ⟨j, hj, rfl⟩ := List.mem_map.mp hv
      exact ⟨j, by simp [hj], rfl⟩
    · rw [List.mem_singleton.mp hv, heq]
      cases newer with
      | nil => exact ⟨i, by simp, rfl⟩
      | cons j newer => exact ⟨j, by simp, rfl⟩

end State

end Fileutil
end Configd
