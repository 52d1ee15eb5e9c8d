import Configd.Lib.Strings

/-!
# Rewriting a file

`ConfigManager.processRewrite` (`internal/configmgr/manager_actions_rewrite.go`) renders a
template into a temporary file and replaces the target with it: by a rename or, across file
systems, by a copy.  Each operation can fail (`RewriteEnv`); a temporary file of which a write
or the close failed can have any content (`torn`).

Two failures are not handled.  A failed close is only logged, so that a file whose data never
reached the disk replaces the target; and the clean-up takes any failure of the question whether
the temporary file exists for a no.  `rewriteMeets_iff` says exactly when they matter.
-/

namespace Configd

open Lib

/-! ## The operations -/

/-- An octal number of at most 31 bits, as `strconv.ParseInt` reads it in base 8. -/
def parseOctal (s : String) : Option Int :=
  let digits := match s.toList with
    | '+' :: rest => rest
    | '-' :: rest => rest
    | all => all
  if digits.isEmpty || !digits.all (fun c => '0' ≤ c && c ≤ '7') then none
  else
    let value := digits.foldl (fun value c => 8 * value + (c.toNat - '0'.toNat)) 0
    if s.toList.head? = some '-' then
      if value ≤ 2 ^ 31 then some (-(value : Int)) else none
    else
      if value < 2 ^ 31 then some value else none

def rewriteFileMode (modeStr : String) : Option Int :=
  if modeStr = "" then some 0o440 else parseOctal modeStr

/-- What opening, reading and transforming a template gives. -/
structure TemplateEnv where
  /-- The template could be opened. -/
  opens : Bool := true
  lines : List String := []
  /-- The scanner stopped at the end of the file. -/
  reads : Bool := true
  /-- `Transformer.Transform` of the line with this number, if it succeeds. -/
  transform : Nat → String → Option String := fun _ line => some line

inductive RenameOutcome
  | ok
  /-- `EXDEV`: the target is on another file system. -/
  | crossDevice
  | failed
  deriving DecidableEq

/-- How the file operations of a rewrite end, in the order of the program. -/
structure RewriteEnv where
  template : TemplateEnv
  createTemp : Bool := true
  /-- The write of the line with this number. -/
  write : Nat → Bool := fun _ => true
  closeTemp : Bool := true
  /-- What the temporary file holds when not all of its data is known to be there. -/
  torn : String := ""
  chmodTemp : Bool := true
  rename : RenameOutcome := .ok
  copyFile : Bool := true
  chmodDest : Bool := true
  /-- The removal after the copy. -/
  remove : Bool := true
  /-- The clean-up finds out whether the temporary file exists. -/
  cleanupStat : Bool := true
  cleanupRemove : Bool := true

/-- What a rewrite is about: the paths of the template and the target, and the mode
of the `REWRITE` line. -/
structure RewriteJob where
  srcPath : String
  destPath : String
  modeStr : String := ""

inductive RewriteError
  | createTemp
  | openSource
  | transform (line : Nat)
  | write
  | read
  | mode
  | chmodTemp
  | rename
  | copy
  | chmodDest
  deriving DecidableEq

/-! ## Rendering -/

/-- A transformed line as it is written: a line that was returned untouched has lost
its newline to the scanner. -/
def endLine (transformed : String) : String :=
  if Strings.hasSuffix transformed "\n" then transformed else transformed ++ "\n"

/-- The loop of `rewriteTransform`, from the line with this number on: what was
written, and the error. -/
def transformLines (tpl : TemplateEnv) (write : Nat → Bool) :
    Nat → List String → String → String × Option RewriteError
  | _, [], out => (out, if tpl.reads then none else some .read)
  | n, line :: rest, out =>
    match tpl.transform n line with
    | none => (out, some (.transform (n + 1)))
    | some transformed =>
      if write n then transformLines tpl write (n + 1) rest (out ++ endLine transformed)
      else (out, some .write)

def rewriteTransform (tpl : TemplateEnv) (write : Nat → Bool) : String × Option RewriteError :=
  if tpl.opens then transformLines tpl write 0 tpl.lines "" else ("", some .openSource)

/-- The lines from the one with this number on, rendered, if all can be. -/
def renderLines (tpl : TemplateEnv) : Nat → List String → Option String
  | _, [] => some ""
  | n, line :: rest =>
    match tpl.transform n line, renderLines tpl (n + 1) rest with
    | some transformed, some rendered => some (endLine transformed ++ rendered)
    | _, _ => none

/-- **The complete rendering of the template**, if it has one. -/
def rendering (tpl : TemplateEnv) : Option String :=
  if tpl.opens && tpl.reads then renderLines tpl 0 tpl.lines else none

/-! ## Replacing the target -/

structure FileState where
  content : String
  mode : Int
  deriving DecidableEq

/-- The target and the temporary file, and how the attempts to remove the latter
ended. -/
structure RewriteState where
  target : Option FileState
  temp : Option FileState := none
  removals : List Bool := []

/-- `FS.Remove` of the temporary file. -/
def RewriteState.removeTemp (s : RewriteState) (ok : Bool) : RewriteState :=
  { s with temp := if ok then none else s.temp, removals := s.removals ++ [ok] }

/-- `ConfigManager.rewriteAtomicCommit`, with the temporary file `tmp`. -/
def rewriteAtomicCommit (env : RewriteEnv) (modeStr : String) (tmp : FileState)
    (s : RewriteState) : RewriteState × Option RewriteError :=
  match rewriteFileMode modeStr with
  | none => (s, some .mode)
  | some fileMode =>
    if !env.chmodTemp then (s, some .chmodTemp)
    else
      let tmp := { tmp with mode := fileMode }
      let s := { s with temp := some tmp }
      match env.rename with
      | .ok => ({ s with target := some tmp, temp := none }, none)
      | .failed => (s, some .rename)
      | .crossDevice =>
        if !env.copyFile then (s, some .copy)
        else
          let s := { s with target := some tmp }
          if !env.chmodDest then (s, some .chmodDest) else (s.removeTemp env.remove, none)

/-- `ConfigManager.cleanupRewriteFiles`: the file is removed when it is found. -/
def cleanupRewriteFiles (env : RewriteEnv) (s : RewriteState) : RewriteState :=
  match s.temp with
  | some _ => if env.cleanupStat then s.removeTemp env.cleanupRemove else s
  | none => s

/-- The mode `os.CreateTemp` gives a file. -/
def tempMode : Int := 0o600

/-- `ConfigManager.processRewrite`, from a target that is as `old` says. -/
def processRewrite (env : RewriteEnv) (job : RewriteJob) (old : Option FileState) :
    RewriteState × Option RewriteError :=
  if !env.createTemp then ({ target := old }, some .createTemp)
  else
    match rewriteTransform env.template env.write with
    | (_, some err) =>
      (cleanupRewriteFiles env { target := old, temp := some ⟨env.torn, tempMode⟩ }, some err)
    | (written, none) =>
      -- A failed close is logged; only then is the content of the file in doubt.
      let tmp : FileState := ⟨if env.closeTemp then written else env.torn, tempMode⟩
      let result := rewriteAtomicCommit env job.modeStr tmp { target := old, temp := some tmp }
      (cleanupRewriteFiles env result.1, result.2)

/-! ## What rendering gives -/

def Written (env : RewriteEnv) : Prop :=
  ∀ n < env.template.lines.length, env.write n = true

theorem transformLines_spec (tpl : TemplateEnv) (write : Nat → Bool) (n : Nat)
    (lines : List String) (out : String) :
    (∃ text, renderLines tpl n lines = some text ∧ tpl.reads = true ∧
        (∀ k < lines.length, write (n + k) = true) ∧
        transformLines tpl write n lines out = (out ++ text, none)) ∨
      ((renderLines tpl n lines = none ∨ tpl.reads = false ∨
          ∃ k < lines.length, write (n + k) = false) ∧
        ∃ err, (transformLines tpl write n lines out).2 = some err) := by
  induction lines generalizing n out with
  | nil =>
    cases hreads : tpl.reads with
    | true => exact Or.inl ⟨"", rfl, rfl, by simp, by simp [transformLines, hreads]⟩
    | false => exact Or.inr ⟨by simp, .read, by simp [transformLines, hreads]⟩
  | cons line rest ih =>
    cases htransform : tpl.transform n line with
    | none =>
      right
      exact ⟨by simp [renderLines, htransform], .transform (n + 1),
        by simp [transformLines, htransform]⟩
    | some transformed =>
      cases hwrite : write n with
      | false =>
        right
        refine ⟨Or.inr (Or.inr ⟨0, by simp, by simpa using hwrite⟩), .write, ?_⟩
        simp [transformLines, htransform, hwrite]
      | true =>
        have hstep : transformLines tpl write n (line :: rest) out =
            transformLines tpl write (n + 1) rest (out ++ endLine transformed) := by
          simp [transformLines, htransform, hwrite]
        rw [hstep]
        rcases ih (n + 1) (out ++ endLine transformed) with
          ⟨text, htext, hreads, hwrites, hloop⟩ | ⟨hbroken, err, herr⟩
        · left
          refine ⟨endLine transformed ++ text, by simp [renderLines, htransform, htext],
            hreads, ?_, by rw [hloop, String.append_assoc]⟩
          intro k hk
          cases k with
          | zero => simpa using hwrite
          | succ k =>
            have hk' : k < rest.length := by simpa using hk
            simpa [Nat.add_assoc, Nat.add_comm 1] using hwrites k hk'
        · right
          refine ⟨?_, err, herr⟩
          rcases hbroken with hnone | hreads | ⟨k, hk, hfails⟩
          · exact Or.inl (by simp [renderLines, htransform, hnone])
          · exact Or.inr (Or.inl hreads)
          · refine Or.inr (Or.inr ⟨k + 1, by simpa using hk, ?_⟩)
            simpa [Nat.add_assoc, Nat.add_comm 1] using hfails

/-- **What `rewriteTransform` does**: it writes the complete rendering, or it
reports an error. -/
theorem rewriteTransform_spec (env : RewriteEnv) :
    (∃ text, rendering env.template = some text ∧ Written env ∧
        rewriteTransform env.template env.write = (text, none)) ∨
      (¬ ((rendering env.template).isSome = true ∧ Written env) ∧
        ∃ written err, rewriteTransform env.template env.write = (written, some err)) := by
  unfold rendering rewriteTransform
  cases hopens : env.template.opens with
  | false => exact Or.inr ⟨by simp, "", .openSource, by simp⟩
  | true =>
    simp only [if_true, Bool.true_and]
    rcases transformLines_spec env.template env.write 0 env.template.lines "" with
      ⟨text, htext, hreads, hwrites, hloop⟩ | ⟨hbroken, err, herr⟩
    · refine Or.inl ⟨text, by simp [hreads, htext], ?_, by simpa using hloop⟩
      intro n hn
      simpa using hwrites n hn
    · refine Or.inr ⟨?_, _, err, Prod.ext rfl herr⟩
      rintro ⟨hsome, hwritten⟩
      rcases hbroken with hnone | hreads | ⟨k, hk, hfails⟩
      · simp [hnone] at hsome
      · simp [hreads] at hsome
      · rw [Nat.zero_add] at hfails
        simp [hwritten k hk] at hfails

/-! ## The result -/

/-- All data of the temporary file is known to be written. -/
def KnownComplete (env : RewriteEnv) : Prop :=
  Written env ∧ env.closeTemp = true

/-- What a rewrite promises, whatever operations fail. -/
structure RewriteMeets (env : RewriteEnv) (job : RewriteJob) (old : Option FileState) : Prop where
  /-- The target has its previous content or the complete rendering. -/
  target : (processRewrite env job old).1.target.map FileState.content =
      old.map FileState.content ∨
    ∃ text, rendering env.template = some text ∧
      (processRewrite env job old).1.target.map FileState.content = some text
  /-- Without an error it has a rendering that is known to be complete. -/
  error : (processRewrite env job old).2 = none → KnownComplete env ∧
    ∃ text, rendering env.template = some text ∧
      (processRewrite env job old).1.target.map FileState.content = some text
  /-- The temporary file is gone unless its removal failed. -/
  temp : (processRewrite env job old).1.temp = none ∨
    false ∈ (processRewrite env job old).1.removals

/-- The rewrite comes to the rename. -/
def ReachesRename (env : RewriteEnv) (job : RewriteJob) : Prop :=
  env.createTemp = true ∧ (rendering env.template).isSome = true ∧ Written env ∧
    (rewriteFileMode job.modeStr).isSome = true ∧ env.chmodTemp = true

/-- The rename, or the copy in its place, succeeds. -/
def Replaces (env : RewriteEnv) : Prop :=
  env.rename = .ok ∨ env.rename = .crossDevice ∧ env.copyFile = true

/-- So does what follows the copy. -/
def Commits (env : RewriteEnv) : Prop :=
  env.rename = .ok ∨ env.rename = .crossDevice ∧ env.copyFile = true ∧ env.chmodDest = true

/-- A temporary file that was not closed well does not become the target; or it
does, its content is harmless, and the rewrite fails all the same. -/
def CloseHarmless (env : RewriteEnv) (job : RewriteJob) (old : Option FileState) : Prop :=
  env.closeTemp = true ∨ ¬ (ReachesRename env job ∧ Replaces env) ∨
    ¬ Commits env ∧
      (rendering env.template = some env.torn ∨ old.map FileState.content = some env.torn)

/-- The clean-up can tell that the temporary file exists, or there is none left. -/
def StatHarmless (env : RewriteEnv) (job : RewriteJob) : Prop :=
  env.cleanupStat = true ∨ env.createTemp = false ∨ ReachesRename env job ∧ Commits env

@[simp] theorem cleanupRewriteFiles_target (env : RewriteEnv) (s : RewriteState) :
    (cleanupRewriteFiles env s).target = s.target := by
  unfold cleanupRewriteFiles
  cases s.temp with
  | none => rfl
  | some tmp =>
    simp only
    split <;> rfl

theorem cleanupRewriteFiles_temp (env : RewriteEnv) (s : RewriteState) :
    ((cleanupRewriteFiles env s).temp = none ∨ false ∈ (cleanupRewriteFiles env s).removals) ↔
      env.cleanupStat = true ∨ s.temp = none ∨ false ∈ s.removals := by
  unfold cleanupRewriteFiles
  cases htemp : s.temp with
  | none => simp [htemp]
  | some tmp =>
    cases env.cleanupStat with
    | false => simp [htemp]
    | true => cases hremove : env.cleanupRemove <;> simp [RewriteState.removeTemp]

/-- **What the commit does**: whether it replaces the target, whether it succeeds, and
that it is then done with the temporary file. -/
theorem rewriteAtomicCommit_spec (env : RewriteEnv) (modeStr : String) (tmp : FileState)
    (old : Option FileState) :
    let ready := (rewriteFileMode modeStr).isSome = true ∧ env.chmodTemp = true
    let result := rewriteAtomicCommit env modeStr tmp { target := old, temp := some tmp }
    (ready ∧ Replaces env → result.1.target.map FileState.content = some tmp.content) ∧
      (¬ (ready ∧ Replaces env) → result.1.target = old) ∧
      (result.2 = none ↔ ready ∧ Commits env) ∧
      (result.1.temp = none ∨ false ∈ result.1.removals ↔ ready ∧ Commits env) := by
  intro ready result
  cases hmode : rewriteFileMode modeStr with
  | none => simp [ready, result, rewriteAtomicCommit, hmode]
  | some fileMode =>
    cases hchmod : env.chmodTemp with
    | false => simp [ready, result, rewriteAtomicCommit, hmode, hchmod]
    | true =>
      cases hrename : env.rename with
      | ok => simp [ready, result, rewriteAtomicCommit, hmode, hchmod, hrename, Replaces, Commits]
      | failed =>
        simp [ready, result, rewriteAtomicCommit, hmode, hchmod, hrename, Replaces, Commits]
      | crossDevice =>
        cases hcopy : env.copyFile <;> cases hdest : env.chmodDest <;>
          cases hremove : env.remove <;>
          simp [ready, result, rewriteAtomicCommit, hmode, hchmod, hrename, hcopy, hdest,
            hremove, Replaces, Commits, RewriteState.removeTemp]

/-- **The whole rewrite**, in terms of the outcomes of its operations. -/
theorem processRewrite_spec (env : RewriteEnv) (job : RewriteJob) (old : Option FileState) :
    (ReachesRename env job ∧ Replaces env → ∃ text, rendering env.template = some text ∧
        (processRewrite env job old).1.target.map FileState.content =
          some (if env.closeTemp then text else env.torn)) ∧
      (¬ (ReachesRename env job ∧ Replaces env) → (processRewrite env job old).1.target = old) ∧
      ((processRewrite env job old).2 = none ↔ ReachesRename env job ∧ Commits env) ∧
      ((processRewrite env job old).1.temp = none ∨
        false ∈ (processRewrite env job old).1.removals ↔ StatHarmless env job) := by
  cases hcreate : env.createTemp with
  | false => simp [processRewrite, ReachesRename, StatHarmless, hcreate]
  | true =>
    rcases rewriteTransform_spec env with ⟨text, htext, hwritten, htransform⟩ |
      ⟨hbroken, written, err, htransform⟩
    · set tmp : FileState := ⟨if env.closeTemp then text else env.torn, tempMode⟩ with htmp
      have hrun : processRewrite env job old =
          (cleanupRewriteFiles env (rewriteAtomicCommit env job.modeStr tmp
            { target := old, temp := some tmp }).1,
            (rewriteAtomicCommit env job.modeStr tmp { target := old, temp := some tmp }).2) := by
        simp [processRewrite, hcreate, htransform, htmp]
      have hreaches : ReachesRename env job ↔
          (rewriteFileMode job.modeStr).isSome = true ∧ env.chmodTemp = true := by
        simp [ReachesRename, hcreate, htext, hwritten]
      obtain ⟨hnew, hold, herror, htemp⟩ := rewriteAtomicCommit_spec env job.modeStr tmp old
      rw [hrun, hreaches]
      refine ⟨?_, ?_, herror, ?_⟩
      · intro hreplaces
        refine ⟨text, htext, ?_⟩
        rw [cleanupRewriteFiles_target]
        exact hnew hreplaces
      · intro hkeeps
        rw [cleanupRewriteFiles_target]
        exact hold hkeeps
      · rw [cleanupRewriteFiles_temp, htemp, StatHarmless, hreaches]
        simp [hcreate]
    · have hrun : processRewrite env job old =
          (cleanupRewriteFiles env { target := old, temp := some ⟨env.torn, tempMode⟩ },
            some err) := by
        simp [processRewrite, hcreate, htransform]
      have hreaches : ¬ ReachesRename env job :=
        fun hreaches => hbroken ⟨hreaches.2.1, hreaches.2.2.1⟩
      rw [hrun]
      refine ⟨fun h => absurd h.1 hreaches, fun _ => by simp, by simp [hreaches], ?_⟩
      rw [cleanupRewriteFiles_temp, StatHarmless]
      simp [hcreate, hreaches]

/-- **When a rewrite keeps its promise.** -/
theorem rewriteMeets_iff (env : RewriteEnv) (job : RewriteJob) (old : Option FileState) :
    RewriteMeets env job old ↔ CloseHarmless env job old ∧ StatHarmless env job := by
  obtain ⟨hnew, hold, herror, htemp⟩ := processRewrite_spec env job old
  have hreplaces : Commits env → Replaces env := by
    rintro (hok | ⟨hcross, hcopy, -⟩)
    · exact Or.inl hok
    · exact Or.inr ⟨hcross, hcopy⟩
  constructor
  · intro hmeets
    refine ⟨?_, htemp.mp hmeets.temp⟩
    by_cases hclose : env.closeTemp = true
    · exact Or.inl hclose
    by_cases hreach : ReachesRename env job ∧ Replaces env
    · refine Or.inr (Or.inr ⟨?_, ?_⟩)
      · intro hcommits
        exact hclose (hmeets.error (herror.mpr ⟨hreach.1, hcommits⟩)).1.2
      · obtain ⟨text, htext, htarget⟩ := hnew hreach
        rw [if_neg hclose] at htarget
        rcases hmeets.target with hsame | ⟨text', htext', htarget'⟩
        · exact Or.inr (hsame.symm.trans htarget)
        · left
          rw [htext', ← htarget', htarget]
    · exact Or.inr (Or.inl hreach)
  · rintro ⟨hclose, hstat⟩
    refine ⟨?_, ?_, htemp.mpr hstat⟩
    · by_cases hreach : ReachesRename env job ∧ Replaces env
      · obtain ⟨text, htext, htarget⟩ := hnew hreach
        rcases hclose with hclose | hnot | ⟨-, hcomplete | hprevious⟩
        · rw [if_pos hclose] at htarget
          exact Or.inr ⟨text, htext, htarget⟩
        · exact absurd hreach hnot
        · by_cases hclosed : env.closeTemp = true
          · rw [if_pos hclosed] at htarget
            exact Or.inr ⟨text, htext, htarget⟩
          · rw [if_neg hclosed] at htarget
            exact Or.inr ⟨env.torn, hcomplete, htarget⟩
        · by_cases hclosed : env.closeTemp = true
          · rw [if_pos hclosed] at htarget
            exact Or.inr ⟨text, htext, htarget⟩
          · rw [if_neg hclosed] at htarget
            exact Or.inl (htarget.trans hprevious.symm)
      · exact Or.inl (by rw [hold hreach])
    · intro hok
      obtain ⟨hreach, hcommits⟩ := herror.mp hok
      obtain ⟨text, htext, htarget⟩ := hnew ⟨hreach, hreplaces hcommits⟩
      have hclosed : env.closeTemp = true := by
        rcases hclose with hclose | hnot | ⟨hnot, -⟩
        · exact hclose
        · exact absurd ⟨hreach, hreplaces hcommits⟩ hnot
        · exact absurd hcommits hnot
      rw [if_pos hclosed] at htarget
      exact ⟨⟨hreach.2.2.1, hclosed⟩, text, htext, htarget⟩

def mainCfJob : RewriteJob where
  srcPath := "/opt/zextras/conf/zmconfigd/main.cf.in"
  destPath := "/opt/zextras/conf/main.cf"

/-- The close reports that the data did not reach the disk; the empty file replaces
the target and no error is returned.  And a rename that fails together with the
question whether the temporary file exists leaves that file behind. -/
theorem not_rewriteMeets_of_failed_close :
    let full : RewriteEnv := { template := { lines := ["myhostname = mx"] }, closeTemp := false }
    let lost : RewriteEnv := { template := {}, rename := .failed, cleanupStat := false }
    (processRewrite full mainCfJob (some ⟨"old\n", 0o440⟩)).2 = none ∧
      (processRewrite full mainCfJob (some ⟨"old\n", 0o440⟩)).1.target = some ⟨"", 0o440⟩ ∧
      rendering full.template = some "myhostname = mx\n" ∧
      ¬ RewriteMeets full mainCfJob (some ⟨"old\n", 0o440⟩) ∧
      (processRewrite lost mainCfJob none).1.temp ≠ none ∧
      (processRewrite lost mainCfJob none).1.removals = [] := by
  intro full lost
  refine ⟨by decide +kernel, by decide +kernel, by decide +kernel, ?_, by decide +kernel,
    by decide +kernel⟩
  intro hmeets
  have hclosed := (hmeets.error (by decide +kernel)).1.2
  exact absurd hclosed (by decide)

end Configd
