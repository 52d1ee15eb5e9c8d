import Configd.Plan.Types
import Configd.Lib.Worklist

/-!
# The service manager's restart queue

The manager holds the services to be restarted and, in one pass (`processRestarts`), restarts them
round by round in start order.  A service that was restarted puts the enabled services that depend
on it (`DEPENDS`) on the queue, when the caller gives a lookup of the enabled services: the watchdog
does, the restart policy does not.  A service that fails stays queued, up to `maxFailedRestarts`
attempts.

The restarts of a pass are numbered; `RestartEnv` says how each of them ends and after how many of
them the context is cancelled.  The end of the loop is not evident, so it takes a bound on its
rounds.
-/

namespace Configd

open Lib

/-- `services.unknownStartOrder`: services without an order come last. -/
def unknownStartOrder : Int := 1000

def getDefaultStartOrder : StrMap Int :=
  Std.ExtTreeMap.ofList [("ldap", 0), ("configd", 10), ("service-discover", 20),
    ("appserver-db", 48), ("store", 49), ("mailbox", 50), ("memcached", 60), ("proxy", 70),
    ("amavis", 75), ("antispam-db", 79), ("antispam", 80), ("antivirus", 90), ("clamd", 91),
    ("freshclam", 92), ("opendkim", 100), ("cbpolicyd", 120), ("saslauthd", 130),
    ("milter", 140), ("mta", 150), ("stats", 160)] compare

/-- The restart-queue part of `services.ServiceManager`. -/
structure ServiceManager where
  restartQueue : StrMap Bool := {}
  restartReasons : StrMap (List String) := {}
  maxFailedRestarts : Int := 3
  startOrder : StrMap Int := getDefaultStartOrder
  dependencies : StrMap (List String) := {}
  disableRestarts : Bool := false

namespace ServiceManager

def queued (sm : ServiceManager) (service : String) : Bool :=
  sm.restartQueue[service]?.getD false

/-- `addRestartLocked`: queue the service and merge the reasons with those it is
queued for already. -/
def addRestart (sm : ServiceManager) (service : String) (reasons : List String) :
    ServiceManager :=
  let name := Strings.toLower service
  { sm with
    restartQueue := sm.restartQueue.insert name true
    restartReasons :=
      if reasons.isEmpty then sm.restartReasons
      else sm.restartReasons.upsert name [] (reasons.foldl appendUnique ·) }

/-- A service leaves the queue with its reasons. -/
def dequeue (sm : ServiceManager) (service : String) : ServiceManager :=
  { sm with
    restartQueue := sm.restartQueue.erase service
    restartReasons := sm.restartReasons.erase service }

/-- The dependent service is to be restarted: `amavis` always is, the others when
they are enabled. -/
def cascadesTo (lookup : String → String) (depService : String) : Bool :=
  depService = "amavis" ||
    isTruthy (lookup ("SERVICE_" ++ Strings.toUpper depService)) ||
    lookup ("SERVICE_" ++ Strings.toUpper depService) = "enabled"

def queueDependencyRestart (sm : ServiceManager) (depService reason : String)
    (lookup : String → String) : ServiceManager :=
  if cascadesTo lookup depService then sm.addRestart depService [reason] else sm

def addDependencyRestarts (sm : ServiceManager) (sectionName : String)
    (lookup : String → String) : ServiceManager :=
  let reason : Reason := { kind := .dependency, service := sectionName }
  (sm.dependencies[sectionName]?.getD []).foldl (fun sm depService =>
    sm.queueDependencyRestart (Strings.toLower depService) reason.text lookup) sm

def startOrderOf (sm : ServiceManager) (service : String) : Int :=
  sm.startOrder[service]?.getD unknownStartOrder

/-- `getSortedServices`: by start order, then by name. -/
def getSortedServices (sm : ServiceManager) : List String :=
  sm.restartQueue.keys.insertionSort fun a b =>
    sm.startOrderOf a < sm.startOrderOf b ∨ sm.startOrderOf a = sm.startOrderOf b ∧ a ≤ b

/-- `clearRestartsLocked`. -/
def clearRestarts (sm : ServiceManager) : ServiceManager :=
  { sm with restartQueue := {}, restartReasons := {} }

end ServiceManager

/-- How the restarts of a pass end. -/
structure RestartEnv where
  /-- Whether the restart with this number succeeds. -/
  restart : Nat → Bool
  /-- Whether the context is cancelled once so many restarts were attempted. -/
  cancelled : Nat → Bool

/-- A restart that was attempted, with the reasons that are logged. -/
structure RestartAttempt where
  service : String
  reasons : List String
  deriving DecidableEq

structure RestartPass where
  sm : ServiceManager
  failedRestarts : StrMap Int := {}
  processedThisRound : StrMap Bool := {}
  attempts : List RestartAttempt := []

inductive RestartResult
  | done
  /-- `ErrRestartsFailed`, with the names of the services. -/
  | failed (services : List String)
  /-- The context was cancelled, with the services that are still queued. -/
  | interrupted (pending : List String)
  deriving DecidableEq

namespace RestartPass

/-- `attemptServiceRestart`: try to restart the service.  The answer is whether it
left the queue. -/
def attemptServiceRestart (env : RestartEnv) (lookup : Option (String → String))
    (p : RestartPass) (service : String) : Bool × RestartPass :=
  let number := p.attempts.length
  let attempts := p.attempts ++ [⟨service, p.sm.restartReasons[service]?.getD []⟩]
  if env.restart number then
    let sm := p.sm.dequeue service
    (true, { p with
      sm := lookup.elim sm (sm.addDependencyRestarts service)
      failedRestarts := p.failedRestarts.erase service
      attempts := attempts })
  else if env.cancelled (number + 1) then
    (false, { p with attempts := attempts })
  else
    let failures := p.failedRestarts[service]?.getD 0 + 1
    let failed := p.failedRestarts.insert service failures
    if failures ≥ p.sm.maxFailedRestarts then
      (true, { p with sm := p.sm.dequeue service, failedRestarts := failed, attempts := attempts })
    else
      (false, { p with failedRestarts := failed, attempts := attempts })

/-- One service of a round; the flag is whether the round made progress so far. -/
def restartOne (env : RestartEnv) (lookup : Option (String → String))
    (acc : Bool × RestartPass) (service : String) : Bool × RestartPass :=
  -- A cancelled context ends the round: no later service is attempted either.
  if env.cancelled acc.2.attempts.length then acc
  else if !acc.2.sm.queued service || acc.2.processedThisRound[service]?.getD false then acc
  else
    let result := acc.2.attemptServiceRestart env lookup service
    if result.1 then
      (true, { result.2 with
        processedThisRound := result.2.processedThisRound.insert service true })
    else
      (acc.1, result.2)

/-- `processRestartRound`: every service that is queued when the round starts. -/
def processRestartRound (env : RestartEnv) (lookup : Option (String → String))
    (p : RestartPass) : Bool × RestartPass :=
  p.sm.getSortedServices.foldl (restartOne env lookup) (false, p)

/-- The result of a pass that was not interrupted: the services that never
recovered and those still queued. -/
def report (p : RestartPass) : RestartResult :=
  let unrecovered := (p.failedRestarts.keys ++ p.sm.restartQueue.keys).dedup.insertionSort (· ≤ ·)
  if unrecovered.isEmpty then .done else .failed unrecovered

/-- One turn of the loop of `ProcessRestarts`. -/
def turn (env : RestartEnv) (lookup : Option (String → String)) (p : RestartPass) :
    RestartPass ⊕ (RestartResult × RestartPass) :=
  if p.sm.restartQueue.isEmpty then .inr (p.report, p)
  else
    let round := p.processRestartRound env lookup
    if env.cancelled round.2.attempts.length then
      .inr (.interrupted round.2.sm.restartQueue.keys, round.2)
    else if round.1 then .inl { round.2 with processedThisRound := {} }
    else .inr (round.2.report, round.2)

end RestartPass

/-- `ProcessRestarts`, with at most `fuel` turns of its loop. -/
def ServiceManager.processRestarts (sm : ServiceManager) (env : RestartEnv)
    (lookup : Option (String → String)) (fuel : Nat) : Option (RestartResult × RestartPass) :=
  if sm.disableRestarts then some (.done, { sm := sm.clearRestarts })
  else Worklist.iterate (RestartPass.turn env lookup) fuel { sm := sm }

end Configd
