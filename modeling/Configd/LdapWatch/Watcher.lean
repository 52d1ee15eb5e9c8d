import Configd.Lib.ChangeLog
import Configd.Lib.OrdMap
import Configd.Lib.Runs

/-!
# The LDAP change watcher

The watcher (`internal/ldapwatch`) compares fingerprints of the LDAP entries a cycle reads and
asks the main loop for a cycle when a watched component changed.  Two drivers share one state
(`runState`): the poll loop (`watcher.go`) reads at an interval, and a live content-sync stream
(`stream.go`) a debounce window after a notification, and now and then without one.

The drivers are one state machine here (`Watcher.handle`).  Its events: the clock advances, a read
in flight returns, the stream is established, notifies and ends, a timer or a queued wake-up is
chosen by the `select` of the loop, the context is cancelled.  Events that do not apply leave the
state as it is.  `Watcher.log` collects the successful reads with what was fired; no transition
reads it.  Logging and the metrics callbacks are left out.
-/

namespace Configd
namespace LdapWatch

open Lib

/-! ## Options -/

/-- `Options`, the durations in nanoseconds. -/
structure Options where
  /-- `Subscriber` is set. -/
  hasSubscriber : Bool
  interval : Int
  resyncInterval : Int
  probeInterval : Int
  debounce : Int
  maxWait : Int
  backoffMin : Int
  backoffMax : Int
  deriving DecidableEq

/-- The durations of a `Watcher`. -/
structure Settings where
  interval : Nat
  resync : Nat
  probe : Nat
  debounce : Nat
  maxWait : Nat
  backoffMin : Nat
  backoffMax : Nat
  deriving DecidableEq

def second : Nat := 1000000000

def positiveOr (v : Int) (fallback : Nat) : Nat :=
  if 0 < v then v.toNat else fallback

/-- `New`: unset durations get their defaults. -/
def Settings.new (o : Options) : Settings :=
  let debounce := (max o.debounce 0).toNat
  let backoffMin := positiveOr o.backoffMin second
  { interval := positiveOr o.interval (5 * second)
    resync := positiveOr o.resyncInterval (5 * 60 * second)
    probe := positiveOr o.probeInterval (10 * 60 * second)
    debounce := debounce
    maxWait := positiveOr o.maxWait (10 * debounce)
    backoffMin := backoffMin
    backoffMax := max (positiveOr o.backoffMax (60 * second)) backoffMin }

/-! ## Fingerprints -/

/-- The digest of each watched component. -/
abbrev Fingerprint := StrMap String

/-- `changedComponents`: the components whose digest differs, added and removed ones
included. -/
def changedComponents (prev cur : Fingerprint) : List String :=
  let differing := cur.toList.filterMap fun entry =>
    if prev[entry.1]? = some entry.2 then none else some entry.1
  let removed := prev.keys.filter fun name => name ∉ cur
  (differing ++ removed).mergeSort (· ≤ ·)

/-! ## The shared state -/

structure RunState where
  /-- The last good fingerprint, once there is one. -/
  base : Option Fingerprint
  /-- The components changed since the last trigger. -/
  changed : StrMap Unit
  bursts : Nat
  first : Nat
  last : Nat
  backoff : Nat
  failing : Bool

namespace RunState

def pending (st : RunState) : Bool :=
  !st.changed.isEmpty

/-- `observe`: the differences to the baseline join the pending burst. -/
def observe (st : RunState) (base fp : Fingerprint) (now : Nat) : RunState :=
  let diff := changedComponents base fp
  if diff = [] then
    st
  else
    { st with
      base := some fp
      first := if st.pending then st.first else now
      last := now
      bursts := st.bursts + 1
      changed := diff.foldl (fun changed name => changed.insert name ()) st.changed }

def due (st : RunState) (settings : Settings) (now : Nat) : Bool :=
  settings.debounce = 0 || settings.debounce ≤ now - st.last || settings.maxWait ≤ now - st.first

/-- `fire`: the state without the burst, and what the trigger is called with. -/
def fire (st : RunState) : RunState × List String :=
  ({ st with changed := ∅, bursts := 0 }, st.changed.keys)

/-- `pollFailed`: the state and the wait before the next poll. -/
def pollFailed (st : RunState) (settings : Settings) (cancelled : Bool) : RunState × Nat :=
  if cancelled then
    (st, 0)
  else
    ({ st with backoff := min (st.backoff * 2) settings.backoffMax, failing := true }, st.backoff)

def pollRecovered (st : RunState) (settings : Settings) : RunState :=
  { st with backoff := settings.backoffMin, failing := false }

/-- What a read that returned a fingerprint leads to. -/
structure Reaction where
  st : RunState
  /-- What the trigger was called with. -/
  fired : Option (List String)
  /-- How long to wait before the next poll. -/
  wait : Nat

/-- `step`, for a read that returned `fp`. -/
def step (st : RunState) (settings : Settings) (fp : Fingerprint) (now : Nat) : Reaction :=
  let st := st.pollRecovered settings
  let st :=
    match st.base with
    | none => { st with base := some fp }
    | some base => st.observe base fp now
  if !st.pending then
    ⟨st, none, settings.interval⟩
  else if st.due settings now then
    ⟨st.fire.1, some st.fire.2, settings.interval⟩
  else
    ⟨st, none, min settings.debounce settings.interval⟩

/-- `readFingerprint`, for a read that returned `fp`: `notifications` led to it, the
first of them at `burstStart`. -/
def readFingerprint (st : RunState) (fp : Fingerprint) (now notifications burstStart : Nat) :
    RunState × Option (List String) :=
  match st.base with
  | none => ({ st with base := some fp }, none)
  | some base =>
    let st := st.observe base fp now
    if !st.pending then
      (st, none)
    else
      let st :=
        if 0 < notifications then { st with bursts := notifications, first := burstStart }
        else st
      (st.fire.1, some st.fire.2)

end RunState

def Settings.untilDue (settings : Settings) (first last now : Nat) : Nat :=
  let quiet := last + settings.debounce
  let limit := first + settings.maxWait
  (if limit < quiet then limit else quiet) - now

/-! ## The state machine -/

/-- Where `serveStream` stands. -/
inductive Stage
  /-- The stream is live, the catch-up read has not begun. -/
  | opening
  /-- A read is in flight, after so many notifications, the first at `burstStart`. -/
  | reading (notifications burstStart : Nat)
  /-- At the `select` of the loop. -/
  | selecting
  deriving DecidableEq

/-- A live stream: the channel, the counter and the timers of `streamOnce` and
`serveStream`. -/
structure Stream where
  liveAt : Nat
  /-- A wake-up is queued in the channel, which holds one. -/
  wake : Bool
  /-- Notifications since the last read they led to. -/
  pending : Nat
  /-- When the due timer fires, while it is armed. -/
  due : Option Nat
  /-- When the first and the latest wake-up of the burst were handled. -/
  first : Option Nat
  last : Nat
  /-- When the resync timer fires. -/
  resyncAt : Nat
  stage : Stage
  deriving DecidableEq

namespace Stream

/-- A stream that was just reported live. -/
def opened (now : Nat) : Stream where
  liveAt := now
  wake := false
  pending := 0
  due := none
  first := none
  last := 0
  resyncAt := 0
  stage := .opening

/-- `changed`, the callback of `Subscribe`: the channel holds one wake-up, a second one
is dropped. -/
def onNotify (stream : Stream) : Stream :=
  { stream with pending := stream.pending + 1, wake := true }

/-- The loop receives the queued wake-up and arms the due timer. -/
def onWake (stream : Stream) (settings : Settings) (now : Nat) : Stream :=
  let first := stream.first.getD now
  { stream with
    wake := false
    first := some first
    last := now
    due := some (now + settings.untilDue first now now) }

/-- The due timer fires: it is disarmed and the read of the burst begins. -/
def onDue (stream : Stream) : Stream :=
  { stream with
    due := none
    first := none
    pending := 0
    stage := .reading stream.pending (stream.first.getD 0) }

/-- The catch-up read or a resync read begins. -/
def beginRead (stream : Stream) : Stream :=
  { stream with stage := .reading 0 0 }

/-- The due timer is armed and has expired. -/
def dueExpired (stream : Stream) (now : Nat) : Bool :=
  stream.due.elim false (· ≤ now)

end Stream

/-- Where `Run` stands. -/
inductive Phase
  /-- Asleep between two polls; with a limit, `poll` returns once it has passed. -/
  | polling (limit : Option Nat) (resumeAt : Nat)
  /-- A poll is in flight. -/
  | pollReading (limit : Option Nat)
  /-- `Subscribe` was called and the stream is not live yet. -/
  | connecting
  /-- Asleep after a lost stream. -/
  | backingOff (resumeAt : Nat)
  | live (stream : Stream)
  | stopped
  deriving DecidableEq

structure Read where
  time : Nat
  fp : Fingerprint
  streaming : Bool
  /-- What the trigger was called with after it. -/
  fired : Option (List String)

structure Watcher where
  settings : Settings
  now : Nat
  cancelled : Bool
  st : RunState
  streamBackoff : Nat
  phase : Phase
  log : List Read

/-- What happens to the watcher. -/
inductive Event
  | advance (duration : Nat)
  | cancel
  | resume
  | read (result : Option Fingerprint)
  /-- The subscriber reports the stream live. -/
  | established
  /-- `Subscribe` returned, and `streamOnce` sees it. -/
  | streamEnds (unsupported : Bool)
  | catchUp
  /-- The subscriber reports a change. -/
  | notify
  /-- The loop receives the queued wake-up. -/
  | wake
  /-- The due timer's channel is chosen. -/
  | due
  /-- The resync timer's channel is chosen. -/
  | resync
  /-- The end of the context is noticed. -/
  | done

namespace Watcher

def new (o : Options) : Watcher :=
  let settings := Settings.new o
  { settings := settings
    now := 0
    cancelled := false
    st := { base := none, changed := ∅, bursts := 0, first := 0, last := 0,
            backoff := settings.backoffMin, failing := false }
    streamBackoff := settings.backoffMin
    phase := if o.hasSubscriber then .connecting else .pollReading none
    log := [] }

/-- `stream` goes on after a stream that was live for `lived` has ended. -/
def streamLost (w : Watcher) (unsupported : Bool) (lived : Nat) : Watcher :=
  if w.cancelled then
    { w with phase := .stopped }
  else if unsupported then
    { w with phase := .pollReading (some (w.now + w.settings.probe)) }
  else
    let backoff :=
      if w.settings.backoffMax ≤ lived then w.settings.backoffMin else w.streamBackoff
    { w with streamBackoff := backoff, phase := .backingOff (w.now + backoff) }

/-- A sleep of `poll` or of `stream` ends: `poll` reads again or, past its limit, gives way
to `stream`, which opens another stream. -/
def resume (w : Watcher) : Watcher :=
  match w.phase with
  | .polling limit resumeAt =>
    if w.cancelled then { w with phase := .stopped }
    else if w.now < resumeAt then w
    else if limit.elim false (· ≤ w.now) then
      { w with phase := .connecting, streamBackoff := w.settings.backoffMin }
    else { w with phase := .pollReading limit }
  | .backingOff resumeAt =>
    if w.cancelled then { w with phase := .stopped }
    else if w.now < resumeAt then w
    else
      { w with
        phase := .connecting
        streamBackoff := min (w.streamBackoff * 2) w.settings.backoffMax }
  | _ => w

/-- The poll in flight returns. -/
def pollReturns (w : Watcher) (limit : Option Nat) : Option Fingerprint → Watcher
  | none =>
    let (st, wait) := w.st.pollFailed w.settings w.cancelled
    { w with st := st, phase := .polling limit (w.now + wait) }
  | some fp =>
    let reaction := w.st.step w.settings fp w.now
    { w with
      st := reaction.st
      phase := .polling limit (w.now + reaction.wait)
      log := w.log ++ [⟨w.now, fp, false, reaction.fired⟩] }

/-- The read of a stream returns: an error ends the stream, and otherwise the resync
timer starts anew. -/
def streamReturns (w : Watcher) (stream : Stream) (notifications burstStart : Nat) :
    Option Fingerprint → Watcher
  | none => w.streamLost false (w.now - stream.liveAt)
  | some fp =>
    let (st, fired) := w.st.readFingerprint fp w.now notifications burstStart
    { w with
      st := st
      phase := .live { stream with stage := .selecting, resyncAt := w.now + w.settings.resync }
      log := w.log ++ [⟨w.now, fp, true, fired⟩] }

/-- The read in flight, if there is one, returns. -/
def readReturns (w : Watcher) (result : Option Fingerprint) : Watcher :=
  match w.phase with
  | .pollReading limit => w.pollReturns limit result
  | .live stream =>
    match stream.stage with
    | .reading notifications burstStart =>
      w.streamReturns stream notifications burstStart result
    | _ => w
  | _ => w

/-- `streamOnce` sees that `Subscribe` has returned: while it waits for the stream to be
live, or at the `select` of the loop. -/
def streamEnds (w : Watcher) (unsupported : Bool) : Watcher :=
  match w.phase with
  | .connecting => w.streamLost unsupported 0
  | .live stream =>
    if stream.stage = .selecting then w.streamLost unsupported (w.now - stream.liveAt) else w
  | _ => w

/-- The end of the context is noticed. -/
def done (w : Watcher) : Watcher :=
  match w.phase with
  | .connecting => if w.cancelled then { w with phase := .stopped } else w
  | .live stream =>
    if w.cancelled && stream.stage = .selecting then { w with phase := .stopped } else w
  | _ => w

/-- An event within a live stream. -/
def onStream (w : Watcher) (change : Stream → Stream) : Watcher :=
  match w.phase with
  | .live stream => { w with phase := .live (change stream) }
  | _ => w

def handle (w : Watcher) : Event → Watcher
  | .advance duration => { w with now := w.now + duration }
  | .cancel => { w with cancelled := true }
  | .resume => w.resume
  | .read result => w.readReturns result
  | .established =>
    if w.phase = .connecting then { w with phase := .live (Stream.opened w.now) } else w
  | .streamEnds unsupported => w.streamEnds unsupported
  | .catchUp => w.onStream fun stream =>
    if stream.stage = .opening then stream.beginRead else stream
  | .notify => w.onStream Stream.onNotify
  | .wake => w.onStream fun stream =>
    if stream.stage = .selecting ∧ stream.wake = true then stream.onWake w.settings w.now
    else stream
  | .due => w.onStream fun stream =>
    if stream.stage = .selecting ∧ stream.dueExpired w.now = true then stream.onDue
    else stream
  | .resync => w.onStream fun stream =>
    if stream.stage = .selecting ∧ stream.resyncAt ≤ w.now then stream.beginRead else stream
  | .done => w.done

end Watcher

end LdapWatch
end Configd
