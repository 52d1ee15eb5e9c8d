import Configd.Config

/-!
# Plans

The data of `internal/plan`: actions, reasons, the entries of a plan and the
carry.  Every entry of a plan says which sections asked for it and why; the
reasons are deduplicated and kept in the order in which they were given
(`appendReasons`).  A reason shows the values of a changed variable, redacted
and shortened (`displayValue`).
-/

namespace Configd

open Lib

/-- What a restart entry asks of a service (`plan.Action`). -/
inductive Action
  | restart
  | stop
  | start
  | pendingRestart
  deriving DecidableEq, Repr

/-- A restart, executed or only flagged. -/
def Action.IsRestart : Action → Prop
  | .restart => True
  | .pendingRestart => True
  | .stop => False
  | .start => False

instance : DecidablePred Action.IsRestart := fun action => by
  cases action <;> unfold Action.IsRestart <;> infer_instance

/-- Why a plan entry exists (`plan.ReasonKind`). -/
inductive ReasonKind
  | firstRun
  | forced
  | requested
  | varChanged
  | evaluated
  | serviceEnabled
  | serviceDisabled
  | dependency
  | retry
  | drift
  | deferred
  | mapfileSync
  deriving DecidableEq, Repr

def ReasonKind.text : ReasonKind → String
  | firstRun => "first-run"
  | forced => "forced"
  | requested => "requested"
  | varChanged => "var-changed"
  | evaluated => "evaluated"
  | serviceEnabled => "service-enabled"
  | serviceDisabled => "service-disabled"
  | dependency => "dependency"
  | retry => "retry"
  | drift => "drift"
  | deferred => "deferred"
  | mapfileSync => "mapfile-sync"

/-- One reason of a plan entry (`plan.Reason`).  A field that does not apply is
empty. -/
structure Reason where
  kind : ReasonKind
  sectionName : String := ""
  type : Option LookupType := none
  key : String := ""
  old : String := ""
  new : String := ""
  service : String := ""
  detail : String := ""
  deriving DecidableEq, Repr

def secretKeyTokens : List String :=
  ["password", "passwd", "passphrase", "secret", "token", "credential", "privatekey",
    "private_key", "apikey", "api_key", "_pwd", "bindpw", "creds"]

def secretKeySuffixes : List String :=
  ["_key", "_pass", "_pw", "_pin"]

def isSecretKey (key : String) : Bool :=
  let k := Strings.toLower key
  k = "pin" || secretKeyTokens.any (Strings.contains k ·) ||
    secretKeySuffixes.any (Strings.hasSuffix k ·)

def forLog (key value : String) : String :=
  if value = "" || !isSecretKey key then value else "[REDACTED]"

def maxReasonValue : Nat := 120

/-- `plan.displayValue`: redacted, then cut to `maxReasonValue` bytes. -/
def displayValue (key val : String) : String :=
  let shown := forLog key val
  if shown.utf8ByteSize > maxReasonValue then
    Strings.utf8Truncate maxReasonValue shown ++ "..."
  else
    shown

/-- `plan.varChanged`: the reason for a changed required variable. -/
def varChanged (sectionName : String) (type : LookupType) (key oldVal newVal : String) :
    Reason :=
  { kind := .varChanged, sectionName := sectionName, type := some type, key := key,
    old := displayValue key oldVal, new := displayValue key newVal }

def quoteValue (v : String) : String :=
  if v = "" then "<unset>" else "'" ++ v ++ "'"

/-- `Reason.String`: the reason as a line of text. -/
def Reason.text (r : Reason) : String :=
  match r.kind with
  | .firstRun => "first run: section " ++ r.sectionName ++ " rendered for the first time"
  | .forced => "section " ++ r.sectionName ++ " forced by REWRITE request"
  | .requested => "section " ++ r.sectionName ++ " requested by REWRITE command"
  | .evaluated => "section " ++ r.sectionName ++ " evaluated against the host state"
  | .varChanged =>
    "section " ++ r.sectionName ++ " changed because " ++
      (r.type.map LookupType.text).getD "" ++ " " ++ r.key ++ " changed " ++
      quoteValue r.old ++ "->" ++ quoteValue r.new
  | .serviceEnabled => "service " ++ r.service ++ " was enabled"
  | .serviceDisabled => "service " ++ r.service ++ " was disabled"
  | .dependency => "dependency of " ++ r.service
  | .retry => "retry: previous attempt did not complete"
  | .drift => "drift: " ++ r.detail
  | .deferred => "restart deferred from the REWRITE of section " ++ r.sectionName
  | .mapfileSync => "mapped file kept in sync with the configuration"

/-- `plan.appendReason`: append unless an identical reason is present. -/
def appendReason (reasons : List Reason) (r : Reason) : List Reason :=
  if r ∈ reasons then reasons else reasons ++ [r]

def appendReasons (reasons add : List Reason) : List Reason :=
  add.foldl appendReason reasons

def appendUnique (list : List String) (s : String) : List String :=
  if s ∈ list then list else list ++ [s]

theorem mem_appendReason (reasons : List Reason) (r x : Reason) :
    x ∈ appendReason reasons r ↔ x ∈ reasons ∨ x = r := by
  unfold appendReason
  split
  · constructor
    · exact Or.inl
    · rintro (hx | rfl) <;> assumption
  · simp

/-! ## Entries -/

/-- A processed section with its reasons (`plan.Section`). -/
structure Section where
  name : String
  reasons : List Reason
  deriving DecidableEq

/-- A mapped-file sync (`plan.Mapfile`). -/
structure Mapfile where
  key : String
  isLocal : Bool := false
  sections : List String := []
  reasons : List Reason := []
  deriving DecidableEq

/-- A template render (`plan.Rewrite`). -/
structure Rewrite where
  source : String
  target : String := ""
  mode : String := ""
  sections : List String := []
  reasons : List Reason := []
  deriving DecidableEq

/-- A Postfix parameter to set (`plan.Postconf`), to remove (`plan.Postconfd`)
or an LDAP attribute to write (`plan.Ldap`): the three entries of the source
have the same fields. -/
structure Directive where
  key : String
  value : String := ""
  sections : List String := []
  reasons : List Reason := []
  deriving DecidableEq

/-- The request to regenerate the proxy configuration (`plan.Proxygen`). -/
structure Proxygen where
  sections : List String := []
  reasons : List Reason := []
  deriving DecidableEq

/-- A request to the restart policy to act on a service (`plan.Restart`). -/
structure Restart where
  service : String
  action : Action
  sections : List String := []
  reasons : List Reason := []
  deriving DecidableEq

/-- The actions of a previous execution that did not complete (`plan.Carry`). -/
structure Carry where
  rewrites : List Rewrite := []
  postconf : List Directive := []
  postconfd : List Directive := []
  ldap : List Directive := []
  proxygen : Option Proxygen := none
  restarts : List Restart := []
  deriving DecidableEq

def Carry.isEmpty (c : Carry) : Bool :=
  c.rewrites.isEmpty && c.postconf.isEmpty && c.postconfd.isEmpty && c.ldap.isEmpty &&
    c.proxygen.isNone && c.restarts.isEmpty

inductive TrackedStatus
  | running
  | stopped
  deriving DecidableEq

/-- The complete set of effects of one cycle (`plan.Plan`). -/
structure Plan where
  firstRun : Bool := false
  sections : List Section := []
  heal : List Mapfile := []
  mapfiles : List Mapfile := []
  rewrites : List Rewrite := []
  postconf : List Directive := []
  postconfd : List Directive := []
  ldap : List Directive := []
  proxygen : Option Proxygen := none
  restarts : List Restart := []
  deferredRestarts : List Restart := []
  /-- The service tracking map after this cycle. -/
  tracked : StrMap TrackedStatus := ∅
  enabled : List String := []
  deriving DecidableEq

end Configd
