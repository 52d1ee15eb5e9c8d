import Configd.Lib.HostLoop
import Configd.Plan.ComputeSpec

/-!
# Executing a plan

`ConfigManager.Execute` (`internal/configmgr/manager_plan.go` and `manager_actions_*.go`) syncs
the mapped files and then runs five steps concurrently.  They share nothing, and each owns one
field of the carry: what it returns as pending is retried by the next cycle.

A step applies its entries by operations on the host, which can succeed, fail or panic
(`ExecEnv`).  A panic in a rewrite worker is recovered and counts as a failure; any other panic
ends its step, and the field of the step is never assigned (`StepEnding.panicked`).
-/

namespace Configd

open Lib

/-- How the operations of one execution end. -/
structure ExecEnv where
  /-- Whether a mapped file was synced. -/
  mapfile : Mapfile → Bool
  mapfileCancelled : Nat → Bool
  proxygen : HostOutcome
  rewrite : Rewrite → HostOutcome
  rewriteCancelled : Nat → Bool
  resolvePostconf : Directive → HostOutcome
  postconfCancelled : Nat → Bool
  /-- The one call that sets all parameters. -/
  postconfBatch : HostOutcome
  /-- The call for one parameter, after the batch failed. -/
  postconf : Directive → HostOutcome
  postconfdCancelled : Nat → Bool
  postconfdBatch : HostOutcome
  resolveLdap : Directive → HostOutcome
  ldapWrite : Directive → HostOutcome
  ldapCancelled : Nat → Bool

inductive StepEnding (T : Type)
  /-- It returned the entries to be retried and its errors, each named by the
  entry it is about.  `left` are the entries a cancellation kept it from. -/
  | returned (pending errs left : List T)
  | panicked
  deriving DecidableEq

structure StepRun (T : Type) where
  applied : List T
  ending : StepEnding T

namespace StepRun

variable {T : Type}

/-- What the execution carries for the step (`runStep`): a step that panicked
never assigned its field. -/
def carried (run : StepRun T) : List T :=
  match run.ending with
  | .returned pending _ _ => pending
  | .panicked => []

def reported (run : StepRun T) : Bool :=
  match run.ending with
  | .returned _ errs _ => !errs.isEmpty
  | .panicked => true

def left (run : StepRun T) : List T :=
  match run.ending with
  | .returned _ _ left => left
  | .panicked => []

end StepRun

/-! ## The steps -/

/-- `ConfigManager.doRewrites`: a rewrite that is not done is pending. -/
def doRewrites (env : ExecEnv) (entries : List Rewrite) : StepRun Rewrite :=
  let run := runLoop env.rewriteCancelled (fun e => (env.rewrite e).recovered) 0 entries
  { applied := run.applied
    ending := .returned
      (entries.filter fun e => decide (e.source ∉ run.applied.map Rewrite.source))
      run.failed (run.rest) }

def retried (entries : List Directive) (retry : List Directive) : List Directive :=
  entries.filter fun e => decide (e.key ∈ retry.map Directive.key)

/-- `ConfigManager.executePostconfOps`: one call for all parameters and, when it
fails, one call for each. -/
def executePostconfOps (env : ExecEnv) (ops : List Directive) : LoopRun Directive :=
  if ops.isEmpty then ⟨[], [], .finished⟩
  else
    match env.postconfBatch with
    | .ok => ⟨ops, [], .finished⟩
    | .panicked => ⟨[], [], .panicked⟩
    | .failed => runLoop (fun _ => false) env.postconf 0 ops

def doPostconf (env : ExecEnv) (entries : List Directive) : StepRun Directive :=
  let resolved := runLoop env.postconfCancelled env.resolvePostconf 0 entries
  match resolved.ending with
  | .panicked => ⟨[], .panicked⟩
  | .cancelled _ =>
    -- Nothing was applied yet: everything stays pending.
    ⟨[], .returned entries resolved.failed
      (entries.filter fun e => decide (e ∉ resolved.failed))⟩
  | .finished =>
    let run := executePostconfOps env resolved.applied
    match run.ending with
    | .panicked => ⟨run.applied, .panicked⟩
    | _ => ⟨run.applied, .returned (retried entries (resolved.failed ++ run.failed))
        (resolved.failed ++ run.failed) []⟩

/-- `ConfigManager.doPostconfd`: one call for all parameters. -/
def doPostconfd (env : ExecEnv) (entries : List Directive) : StepRun Directive :=
  if entries.isEmpty then ⟨[], .returned [] [] []⟩
  else
    match (runLoop env.postconfdCancelled (fun _ => .ok) 0 entries).ending with
    | .cancelled _ => ⟨[], .returned entries [] entries⟩
    | _ =>
      match env.postconfdBatch with
      | .ok => ⟨entries, .returned [] [] []⟩
      | .failed => ⟨[], .returned entries entries []⟩
      | .panicked => ⟨[], .panicked⟩

/-- `ConfigManager.doLdap`: resolve and write one attribute after the other. -/
def doLdap (env : ExecEnv) (entries : List Directive) : StepRun Directive :=
  let run := runLoop env.ldapCancelled
    (fun e => (env.resolveLdap e).andThen (env.ldapWrite e)) 0 entries
  match run.ending with
  | .panicked => ⟨run.applied, .panicked⟩
  | _ => ⟨run.applied, .returned (run.failed ++ run.rest) run.failed (run.rest)⟩

def runProxygen (env : ExecEnv) (req : Option Proxygen) : StepRun Proxygen :=
  match req with
  | none => ⟨[], .returned [] [] []⟩
  | some p =>
    match env.proxygen with
    | .ok => ⟨[p], .returned [] [] []⟩
    | .failed => ⟨[], .returned [p] [p] []⟩
    | .panicked => ⟨[], .panicked⟩

/-- `ConfigManager.doMapfile`: failures are reported but not retried. -/
def doMapfile (env : ExecEnv) (entries : List Mapfile) : LoopRun Mapfile :=
  runLoop env.mapfileCancelled (fun m => if env.mapfile m then .ok else .failed) 0 entries

structure ExecuteResult where
  carry : Carry
  failed : Bool

/-- `ConfigManager.Execute`.  The restarts have not been consumed yet, so they
are carried too. -/
def execute (env : ExecEnv) (pl : Plan) : ExecuteResult where
  carry :=
    { proxygen := (runProxygen env pl.proxygen).carried.head?
      rewrites := (doRewrites env pl.rewrites).carried
      postconf := (doPostconf env pl.postconf).carried
      postconfd := (doPostconfd env pl.postconfd).carried
      ldap := (doLdap env pl.ldap).carried
      restarts := pl.restarts }
  failed := !(doMapfile env pl.mapfiles).failed.isEmpty ||
    (runProxygen env pl.proxygen).reported || (doRewrites env pl.rewrites).reported ||
    (doPostconf env pl.postconf).reported || (doPostconfd env pl.postconfd).reported ||
    (doLdap env pl.ldap).reported

end Configd
