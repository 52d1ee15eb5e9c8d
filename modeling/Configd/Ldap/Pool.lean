import Configd.Lib.Custody
import Configd.Lib.Runs

/-!
# The connection pool of the LDAP client

An operation of a `Client` (`internal/ldap/client.go`) takes an idle connection from the pool or
dials a new one, uses it, and gives it back or discards it.  The lock is held only while the pool
is read or changed, so dialing, binding and the operations go on next to each other and to
`Close`, and the server may close a connection at any time.

Connections are numbered as they are dialed.  Each operation, with the connection in its hand, is
at one of the places of `OpPc`; an event is one access to what is shared.  Every connection that
was dialed is in exactly one hand, in the pool, or closing (`Inv.custody`).
-/

namespace Configd
namespace Ldap

open Lib

/-- The part of `ClientConfig` that the pool depends on. -/
structure PoolConfig where
  poolSize : Nat
  maxRetries : Nat
  /-- The number of URLs that `connect` tries. -/
  urls : Nat

/-- Where an operation is in `executeWithRetry`; `attempt` counts its attempts, `left` the URLs
that are still to be tried. -/
inductive OpPc
  /-- Before `popIdle`. -/
  | getting (attempt : Nat)
  /-- At the head of the loop of `connect`. -/
  | connecting (attempt left : Nat)
  /-- In `dialCtx`, waiting for the dial or the context. -/
  | dialing (attempt left : Nat)
  /-- StartTLS and bind, under a watchdog that may have fired. -/
  | binding (attempt left conn : Nat) (fired : Bool)
  /-- Before the connection that could not be bound is closed. -/
  | aborting (attempt left conn : Nat)
  /-- The operation itself. -/
  | operating (attempt conn : Nat)
  /-- `handleOperationError`, before the connection is closed. -/
  | discarding (attempt : Nat) (retry : Bool) (conn : Nat)
  /-- `returnConnection`, before it asks whether the connection is closing. -/
  | returning (attempt : Nat) (retry : Bool) (conn : Nat)
  /-- `returnConnection`, before it gets the lock. -/
  | locking (attempt : Nat) (retry : Bool) (conn : Nat)
  /-- In `waitRetry`. -/
  | waiting (attempt : Nat)
  | done
  deriving DecidableEq

/-- The connection in the hand of the operation. -/
def OpPc.held : OpPc → List Nat
  | binding _ _ conn _ => [conn]
  | aborting _ _ conn => [conn]
  | operating _ conn => [conn]
  | discarding _ _ conn => [conn]
  | returning _ _ conn => [conn]
  | locking _ _ conn => [conn]
  | _ => []

/-- The client, its operations, and what is left of those that were given up. -/
structure PoolClient where
  /-- The pool, with the connection that was put there last in front. -/
  pool : List Nat := []
  /-- For each connection that was dialed, whether it is closing (`IsClosing`). -/
  closing : List Bool := []
  /-- `c.closed` is closed. -/
  isClosed : Bool := false
  /-- The context of the client is done. -/
  cancelled : Bool := false
  ops : List OpPc := []
  /-- The dials that are still going on and that nobody waits for. -/
  abandoned : Nat := 0
  /-- The connections such a dial brought, before they are closed. -/
  late : List Nat := []
  /-- The calls of `Close` that have not got the lock yet. -/
  closers : Nat := 0
  /-- Some call of `Close` has returned. -/
  closeReturned : Bool := false
  deriving DecidableEq

/-- How an operation ends, and whether its error is to be retried. -/
inductive OpOutcome
  | ok
  | connectionError (retry : Bool)
  | otherError (retry : Bool)

inductive OpEvent
  | pop
  | connect
  | dialed (ok : Bool)
  /-- The context is done before the dial is. -/
  | giveUp
  /-- The watchdog fires: its time is over, or the client is closed or cancelled. -/
  | watchdog
  | bound (ok : Bool)
  | abort
  | operated (outcome : OpOutcome)
  | discard
  | check
  | giveBack
  /-- The wait before the next attempt is over, or the client was closed. -/
  | waited (elapsed : Bool)

inductive PoolEvent
  | start
  | op (i : Nat) (e : OpEvent)
  /-- A dial that was given up ends. -/
  | lateDial (ok : Bool)
  /-- The connection it brought is closed. -/
  | closeLate
  | serverCloses (conn : Nat)
  /-- The context the client was made with is cancelled. -/
  | cancel
  /-- `Close` is called: `close(c.closed)` and `cancel()` right after it are one step. -/
  | close
  /-- `Close` has the lock, closes what is in the pool, and returns. -/
  | drain

namespace PoolClient

variable (s : PoolClient)

def isClosing (conn : Nat) : Bool :=
  s.closing[conn]?.getD false

def closeConn (conn : Nat) : PoolClient :=
  { s with closing := s.closing.set conn true }

/-- `popIdle`: the connections that are closing are dropped. -/
def popIdle : List Nat → Option Nat × List Nat
  | [] => (none, [])
  | conn :: rest => if s.isClosing conn then popIdle rest else (some conn, rest)

def moveTo (i : Nat) (pc : OpPc) : PoolClient :=
  { s with ops := s.ops.set i pc }

/-- A new connection, still in nobody's hand. -/
def dial : PoolClient :=
  { s with closing := s.closing ++ [false] }

end PoolClient

/-- The operation after an attempt. -/
def OpPc.afterAttempt (cfg : PoolConfig) (attempt : Nat) (retry : Bool) : OpPc :=
  if retry ∧ attempt < cfg.maxRetries then .waiting (attempt + 1) else .done

namespace PoolClient

def opStep (cfg : PoolConfig) (s : PoolClient) (i : Nat) : OpPc → OpEvent → Option PoolClient
  | .getting attempt, .pop =>
    let found := s.popIdle s.pool
    some (PoolClient.moveTo { s with pool := found.2 } i
      (found.1.elim (.connecting attempt cfg.urls) (.operating attempt)))
  | .connecting attempt left, .connect =>
    some (s.moveTo i (if s.cancelled ∨ left = 0 then .afterAttempt cfg attempt true
      else .dialing attempt (left - 1)))
  | .dialing attempt left, .dialed ok =>
    some (if ok then s.dial.moveTo i (.binding attempt left s.closing.length false)
      else s.moveTo i (.connecting attempt left))
  | .dialing attempt left, .giveUp =>
    if s.cancelled then
      some (PoolClient.moveTo { s with abandoned := s.abandoned + 1 } i (.connecting attempt left))
    else none
  | .binding attempt left conn false, .watchdog =>
    some ((s.closeConn conn).moveTo i (.binding attempt left conn true))
  | .binding attempt left conn fired, .bound ok =>
    -- A connection that the watchdog has closed is of no use, even when it was bound.
    some (s.moveTo i (if fired then .connecting attempt left
      else if ok then .operating attempt conn else .aborting attempt left conn))
  | .aborting attempt left conn, .abort =>
    some ((s.closeConn conn).moveTo i (.connecting attempt left))
  | .operating attempt conn, .operated outcome =>
    some (s.moveTo i (match outcome with
      | .ok => .returning attempt false conn
      | .connectionError retry => .discarding attempt retry conn
      | .otherError retry => .returning attempt retry conn))
  | .discarding attempt retry conn, .discard =>
    some ((s.closeConn conn).moveTo i (.afterAttempt cfg attempt retry))
  | .returning attempt retry conn, .check =>
    some (s.moveTo i (if s.isClosing conn then .afterAttempt cfg attempt retry
      else .locking attempt retry conn))
  | .locking attempt retry conn, .giveBack =>
    let next := OpPc.afterAttempt cfg attempt retry
    some (if s.isClosed ∨ cfg.poolSize ≤ s.pool.length then (s.closeConn conn).moveTo i next
      else PoolClient.moveTo { s with pool := conn :: s.pool } i next)
  | .waiting attempt, .waited elapsed =>
    if elapsed then some (s.moveTo i (.getting attempt))
    else if s.isClosed ∨ s.cancelled then some (s.moveTo i .done)
    else none
  | _, _ => none

def step (cfg : PoolConfig) (s : PoolClient) : PoolEvent → Option PoolClient
  | .start => some { s with ops := s.ops ++ [.getting 0] }
  | .op i e => s.ops[i]?.bind fun pc => s.opStep cfg i pc e
  | .lateDial ok =>
    if s.abandoned = 0 then none
    else if ok then
      some { s.dial with abandoned := s.abandoned - 1, late := s.closing.length :: s.late }
    else some { s with abandoned := s.abandoned - 1 }
  | .closeLate =>
    match s.late with
    | [] => none
    | conn :: rest => some { s.closeConn conn with late := rest }
  | .serverCloses conn => some (s.closeConn conn)
  | .cancel => some { s with cancelled := true }
  | .close => some { s with isClosed := true, cancelled := true, closers := s.closers + 1 }
  | .drain =>
    if s.closers = 0 then none
    else some { s.pool.foldl closeConn s with
      pool := [], closers := s.closers - 1, closeReturned := true }

end PoolClient

/-! ## Custody of the connections -/

namespace PoolClient

variable {cfg : PoolConfig} {s s' : PoolClient} {i : Nat} {pc pc' : OpPc}

/-- The connections in somebody's hand: in the pool, in that of an operation, and in that of
the goroutine that closes what comes late. -/
def held (s : PoolClient) : Multiset Nat :=
  (s.pool : Multiset Nat) + (s.ops.flatMap OpPc.held : List Nat) + (s.late : Multiset Nat)

structure Inv (cfg : PoolConfig) (s : PoolClient) : Prop where
  custody : Accounted s.held s.closing.length fun conn => s.isClosing conn = true
  size : s.pool.length ≤ cfg.poolSize
  closed : 0 < s.closers ∨ s.closeReturned = true → s.isClosed = true
  drained : s.closeReturned = true → s.pool = []
  fired : ∀ attempt left conn, .binding attempt left conn true ∈ s.ops → s.isClosing conn = true

theorem isClosing_closeConn_of (conn : Nat) {other : Nat} (h : s.isClosing other = true) :
    (s.closeConn conn).isClosing other = true := by
  unfold isClosing closeConn at *
  by_cases heq : conn = other
  · subst heq
    have hlt : conn < s.closing.length := by
      by_contra hnot
      simp [List.getElem?_eq_none (not_lt.mp hnot)] at h
    simp [List.getElem?_set_self hlt]
  · rw [List.getElem?_set_ne heq]
    exact h

variable {conn : Nat}

theorem isClosing_closeConn_self (h : conn < s.closing.length) :
    (s.closeConn conn).isClosing conn = true := by
  simp [isClosing, closeConn, List.getElem?_set_self h]

theorem length_closing_closeConn (s : PoolClient) (conn : Nat) :
    (s.closeConn conn).closing.length = s.closing.length :=
  List.length_set

theorem isClosing_dial (h : s.isClosing conn = true) : s.dial.isClosing conn = true := by
  unfold isClosing dial at *
  have hlt : conn < s.closing.length := by
    by_contra hnot
    simp [List.getElem?_eq_none (not_lt.mp hnot)] at h
  rw [List.getElem?_append_left hlt]
  exact h

theorem Inv.lt_of_held (hs : Inv cfg s) (hpc : s.ops[i]? = some pc)
    (hconn : conn ∈ pc.held) : conn < s.closing.length := by
  refine hs.custody.lt conn ?_
  have hmem : conn ∈ s.ops.flatMap OpPc.held :=
    List.mem_flatMap.mpr ⟨pc, List.mem_of_getElem? hpc, hconn⟩
  simp [held, hmem]

theorem held_moveTo (hpc : s.ops[i]? = some pc) {pool : List Nat} {lost : Multiset Nat}
    (hbalance : (pool : Multiset Nat) + (pc'.held : Multiset Nat) + lost =
      (s.pool : Multiset Nat) + (pc.held : Multiset Nat)) (closing : List Bool) (abandoned : Nat) :
    PoolClient.held { s with pool, closing, abandoned, ops := s.ops.set i pc' } + lost =
      s.held := by
  have hops := flatMap_set_add OpPc.held hpc pc'
  have hcancel :
      PoolClient.held { s with pool, closing, abandoned, ops := s.ops.set i pc' } + lost +
      (pc.held : Multiset Nat) = s.held + (pc.held : Multiset Nat) := by
    unfold held
    calc _ = (pool : Multiset Nat) + lost + (s.late : Multiset Nat) +
          (((s.ops.set i pc').flatMap OpPc.held : List Nat) + (pc.held : Multiset Nat)) := by abel
      _ = ((pool : Multiset Nat) + (pc'.held : Multiset Nat) + lost) + (s.late : Multiset Nat) +
          (s.ops.flatMap OpPc.held : List Nat) := by rw [hops]; abel
      _ = _ := by rw [hbalance]; abel
  exact add_right_cancel hcancel

/-- **One step of an operation.** -/
theorem Inv.moveTo (hs : Inv cfg s) (hpc : s.ops[i]? = some pc) {pool : List Nat}
    {closing : List Bool} {lost : Multiset Nat} (abandoned : Nat)
    (hbalance : (pool : Multiset Nat) + (pc'.held : Multiset Nat) + lost =
      (s.pool : Multiset Nat) + (pc.held : Multiset Nat))
    (hlength : closing.length = s.closing.length)
    (hclosing : ∀ conn, s.isClosing conn = true → closing[conn]?.getD false = true)
    (hlost : ∀ conn ∈ lost, closing[conn]?.getD false = true)
    (hsize : pool.length ≤ cfg.poolSize) (hdrained : s.closeReturned = true → pool = [])
    (hfired : ∀ attempt left conn, pc' = .binding attempt left conn true →
      closing[conn]?.getD false = true) :
    Inv cfg { s with pool, closing, abandoned, ops := s.ops.set i pc' } where
  custody := by
    have hcustody := hs.custody.gives (held_moveTo hpc hbalance closing abandoned) hlost hclosing
    rw [← hlength] at hcustody
    exact hcustody
  size := hsize
  closed := hs.closed
  drained := hdrained
  fired := by
    intro attempt left conn hmem
    rcases List.mem_or_eq_of_mem_set hmem with hold | hnew
    · exact hclosing conn (hs.fired attempt left conn hold)
    · exact hfired attempt left conn hnew.symm

@[simp] theorem held_afterAttempt (cfg : PoolConfig) (attempt : Nat) (retry : Bool) :
    (OpPc.afterAttempt cfg attempt retry).held = [] := by
  unfold OpPc.afterAttempt
  split <;> rfl

variable {attempt : Nat}

theorem afterAttempt_ne_binding {attempt' left : Nat} {retry fired : Bool} :
    OpPc.afterAttempt cfg attempt retry ≠ .binding attempt' left conn fired := by
  unfold OpPc.afterAttempt
  split <;> nofun

theorem Inv.stays (hs : Inv cfg s) (hpc : s.ops[i]? = some pc) (hheld : pc'.held = pc.held)
    (hfired : ∀ attempt left conn, pc' = .binding attempt left conn true →
      s.isClosing conn = true) (abandoned : Nat) :
    Inv cfg { s with abandoned, ops := s.ops.set i pc' } := by
  have hbalance : (s.pool : Multiset Nat) + (pc'.held : Multiset Nat) + 0 =
      (s.pool : Multiset Nat) + (pc.held : Multiset Nat) := by
    rw [hheld, add_zero]
  exact hs.moveTo hpc abandoned hbalance rfl (fun _ => id) (by simp) hs.size hs.drained hfired

theorem Inv.letsGo (hs : Inv cfg s) (hpc : s.ops[i]? = some pc) {closing : List Bool}
    (hheld : pc.held = [conn]) (hnone : pc'.held = []) (hlength : closing.length = s.closing.length)
    (hclosing : ∀ conn, s.isClosing conn = true → closing[conn]?.getD false = true)
    (hconn : closing[conn]?.getD false = true) :
    Inv cfg { s with closing, ops := s.ops.set i pc' } := by
  have hbalance : (s.pool : Multiset Nat) + (pc'.held : Multiset Nat) + {conn} =
      (s.pool : Multiset Nat) + (pc.held : Multiset Nat) := by
    rw [hheld, hnone, Multiset.coe_nil, add_zero]
    rfl
  refine hs.moveTo hpc s.abandoned hbalance hlength hclosing ?_ hs.size hs.drained ?_
  · intro other hother
    rw [Multiset.mem_singleton.mp hother]
    exact hconn
  · rintro attempt left other rfl
    cases hnone

theorem Inv.closes (hs : Inv cfg s) (hpc : s.ops[i]? = some pc)
    (hheld : pc.held = [conn]) (hnone : pc'.held = []) :
    Inv cfg ((s.closeConn conn).moveTo i pc') := by
  have hlt := hs.lt_of_held hpc (hheld ▸ List.mem_singleton_self conn)
  exact hs.letsGo hpc hheld hnone (length_closing_closeConn s conn)
    (fun _ => isClosing_closeConn_of conn) (isClosing_closeConn_self hlt)

theorem popIdle_spec (s : PoolClient) (pool : List Nat) :
    ∃ dropped, pool = dropped ++ ((s.popIdle pool).1.toList ++ (s.popIdle pool).2) ∧
      ∀ conn ∈ dropped, s.isClosing conn = true := by
  induction pool with
  | nil => exact ⟨[], rfl, by simp⟩
  | cons conn rest ih =>
    rw [popIdle]
    split
    · next hclosing =>
        obtain ⟨dropped, heq, hdropped⟩ := ih
        refine ⟨conn :: dropped, congrArg (conn :: ·) heq, ?_⟩
        rintro other (_ | ⟨_, hmem⟩)
        · exact hclosing
        · exact hdropped other hmem
    · exact ⟨[], rfl, by simp⟩

theorem Inv.pops (hs : Inv cfg s) (hpc : s.ops[i]? = some (.getting attempt)) :
    Inv cfg (PoolClient.moveTo { s with pool := (s.popIdle s.pool).2 } i
      ((s.popIdle s.pool).1.elim (.connecting attempt cfg.urls) (.operating attempt))) := by
  obtain ⟨dropped, heq, hdropped⟩ := popIdle_spec s s.pool
  generalize s.popIdle s.pool = found at heq ⊢
  have hheld : OpPc.held (found.1.elim (.connecting attempt cfg.urls) (.operating attempt)) =
      found.1.toList := by
    cases found.1 <;> rfl
  have hbalance : (found.2 : Multiset Nat) + (OpPc.held
      (found.1.elim (.connecting attempt cfg.urls) (.operating attempt)) : Multiset Nat) +
        (dropped : Multiset Nat) =
      (s.pool : Multiset Nat) + (OpPc.held (.getting attempt) : Multiset Nat) := by
    have hnone : OpPc.held (.getting attempt) = [] := rfl
    rw [hheld, hnone, heq, ← Multiset.coe_add, ← Multiset.coe_add, Multiset.coe_nil]
    abel
  refine hs.moveTo hpc s.abandoned hbalance rfl (fun _ => id) hdropped ?_ ?_ ?_
  · have hlength := congrArg List.length heq
    have hsize := hs.size
    simp only [List.length_append] at hlength
    show found.2.length ≤ cfg.poolSize
    omega
  · intro hreturned
    have hempty := hs.drained hreturned
    rw [hempty] at heq
    simpa using (List.append_eq_nil_iff.mp (List.append_eq_nil_iff.mp heq.symm).2).2
  · cases found.1 <;> nofun

theorem Inv.dials (hs : Inv cfg s) {left : Nat}
    (hpc : s.ops[i]? = some (.dialing attempt left)) :
    Inv cfg (s.dial.moveTo i (.binding attempt left s.closing.length false)) where
  custody := by
    have hops : ((s.ops.set i (.binding attempt left s.closing.length false)).flatMap OpPc.held :
        Multiset Nat) = (s.ops.flatMap OpPc.held : List Nat) + {s.closing.length} := by
      simpa [OpPc.held] using
        flatMap_set_add OpPc.held hpc (.binding attempt left s.closing.length false)
    have hheld : PoolClient.held (s.dial.moveTo i (.binding attempt left s.closing.length false)) =
        s.closing.length ::ₘ s.held := by
      unfold held PoolClient.moveTo dial
      rw [← Multiset.singleton_add, hops]
      abel
    have hcustody := hs.custody.hands hheld fun _ => isClosing_dial
    have hlength : s.dial.closing.length = s.closing.length + 1 := by simp [dial]
    rw [← hlength] at hcustody
    exact hcustody
  size := hs.size
  closed := hs.closed
  drained := hs.drained
  fired := by
    intro attempt' left' conn hmem
    rcases List.mem_or_eq_of_mem_set hmem with hold | hnew
    · exact isClosing_dial (hs.fired attempt' left' conn hold)
    · cases hnew

theorem Inv.returns (hs : Inv cfg s) {retry : Bool}
    (hpc : s.ops[i]? = some (.locking attempt retry conn)) (hnone : pc'.held = [])
    (hopen : s.isClosed = false) (hroom : s.pool.length < cfg.poolSize) :
    Inv cfg (PoolClient.moveTo { s with pool := conn :: s.pool } i pc') := by
  have hbalance : ((conn :: s.pool : List Nat) : Multiset Nat) + (pc'.held : Multiset Nat) + 0 =
      (s.pool : Multiset Nat) + (OpPc.held (.locking attempt retry conn) : Multiset Nat) := by
    have hheld : (OpPc.held (.locking attempt retry conn) : Multiset Nat) = {conn} := rfl
    rw [hheld, hnone, ← Multiset.cons_coe, ← Multiset.singleton_add, Multiset.coe_nil]
    abel
  refine hs.moveTo hpc s.abandoned hbalance rfl (fun _ => id) (by simp) hroom ?_ ?_
  · intro hreturned
    have hclosed := hs.closed (Or.inr hreturned)
    rw [hopen] at hclosed
    cases hclosed
  · rintro attempt' left other rfl
    cases hnone

theorem Inv.fires (hs : Inv cfg s) {left : Nat}
    (hpc : s.ops[i]? = some (.binding attempt left conn false)) :
    Inv cfg ((s.closeConn conn).moveTo i (.binding attempt left conn true)) := by
  have hlt := hs.lt_of_held hpc (List.mem_singleton_self conn)
  have hself := isClosing_closeConn_self hlt
  have hbalance : (s.pool : Multiset Nat) +
      (OpPc.held (.binding attempt left conn true) : Multiset Nat) + 0 =
      (s.pool : Multiset Nat) + (OpPc.held (.binding attempt left conn false) : Multiset Nat) :=
    add_zero _
  refine hs.moveTo hpc s.abandoned hbalance (length_closing_closeConn s conn)
    (fun _ => isClosing_closeConn_of conn) (by simp) hs.size hs.drained ?_
  intro attempt' left' other heq
  obtain ⟨-, -, rfl, -⟩ := OpPc.binding.inj heq
  exact hself

theorem Inv.opStep (hs : Inv cfg s) (hpc : s.ops[i]? = some pc) {e : OpEvent}
    (h : s.opStep cfg i pc e = some s') : Inv cfg s' := by
  unfold PoolClient.opStep at h
  split at h
  · -- `popIdle`
    obtain rfl := Option.some.inj h
    exact hs.pops hpc
  · -- the head of the loop of `connect`
    obtain rfl := Option.some.inj h
    split
    · exact hs.stays hpc (held_afterAttempt _ _ _) (fun _ _ _ => afterAttempt_ne_binding.elim) _
    · exact hs.stays hpc (by rfl) (by nofun) _
  · -- the dial
    obtain rfl := Option.some.inj h
    split
    · exact hs.dials hpc
    · exact hs.stays hpc (by rfl) (by nofun) _
  · -- the dial is given up
    rw [Option.ite_none_right_eq_some] at h
    obtain rfl := Option.some.inj h.2
    exact hs.stays hpc (by rfl) (by nofun) _
  · -- the watchdog
    obtain rfl := Option.some.inj h
    exact hs.fires hpc
  · -- StartTLS and bind
    next attempt left conn fired ok =>
      obtain rfl := Option.some.inj h
      cases fired with
      | true =>
        have hclosing := hs.fired attempt left conn (List.mem_of_getElem? hpc)
        exact hs.letsGo hpc rfl rfl rfl (fun _ => id) hclosing
      | false =>
        cases ok <;> exact hs.stays hpc (by rfl) (by nofun) _
  · obtain rfl := Option.some.inj h
    exact hs.closes hpc rfl rfl
  · -- the operation
    next outcome =>
      obtain rfl := Option.some.inj h
      cases outcome <;> exact hs.stays hpc (by rfl) (by nofun) _
  · obtain rfl := Option.some.inj h
    exact hs.closes hpc rfl (held_afterAttempt _ _ _)
  · -- `returnConnection` asks whether the connection is closing
    obtain rfl := Option.some.inj h
    split
    · next hclosing =>
        exact hs.letsGo hpc rfl (held_afterAttempt _ _ _) rfl (fun _ => id) hclosing
    · exact hs.stays hpc (by rfl) (by nofun) _
  · -- `returnConnection` has the lock
    obtain rfl := Option.some.inj h
    split
    · exact hs.closes hpc rfl (held_afterAttempt _ _ _)
    · next hnot =>
        rw [not_or, not_le] at hnot
        exact hs.returns hpc (held_afterAttempt _ _ _) (by simpa using hnot.1) hnot.2
  · -- `waitRetry`
    split at h
    · obtain rfl := Option.some.inj h
      exact hs.stays hpc (by rfl) (by nofun) _
    · rw [Option.ite_none_right_eq_some] at h
      obtain rfl := Option.some.inj h.2
      exact hs.stays hpc (by rfl) (by nofun) _
  · cases h

theorem foldl_closeConn (conns : List Nat) (s : PoolClient) :
    conns.foldl closeConn s = { s with closing := (conns.foldl closeConn s).closing } := by
  induction conns generalizing s with
  | nil => rfl
  | cons conn rest ih =>
    rw [List.foldl_cons, ih]
    rfl

theorem length_closing_foldl (conns : List Nat) (s : PoolClient) :
    (conns.foldl closeConn s).closing.length = s.closing.length := by
  induction conns generalizing s with
  | nil => rfl
  | cons conn rest ih => rw [List.foldl_cons, ih, length_closing_closeConn]

theorem isClosing_foldl_of (conns : List Nat) {other : Nat} (h : s.isClosing other = true) :
    (conns.foldl closeConn s).isClosing other = true := by
  induction conns generalizing s with
  | nil => exact h
  | cons conn rest ih => exact ih (isClosing_closeConn_of conn h)

theorem isClosing_foldl_of_mem {conns : List Nat} (hmem : conn ∈ conns)
    (hlt : conn < s.closing.length) : (conns.foldl closeConn s).isClosing conn = true := by
  induction conns generalizing s with
  | nil => cases hmem
  | cons first rest ih =>
    rw [List.foldl_cons]
    rcases List.mem_cons.mp hmem with rfl | hrest
    · exact isClosing_foldl_of rest (isClosing_closeConn_self hlt)
    · exact ih hrest (by rwa [length_closing_closeConn])

theorem Inv.drains (hs : Inv cfg s) (hclosed : s.isClosed = true) :
    Inv cfg { s.pool.foldl closeConn s with
      pool := [], closers := s.closers - 1, closeReturned := true } := by
  have hlt : ∀ conn ∈ s.pool, conn < s.closing.length := fun conn hconn =>
    hs.custody.lt conn (by simp [held, hconn])
  have hpool : ∀ conn ∈ (s.pool : Multiset Nat),
      (s.pool.foldl closeConn s).isClosing conn = true := fun conn hconn =>
    isClosing_foldl_of_mem hconn (hlt conn hconn)
  have hlength := length_closing_foldl s.pool s
  have hmono : ∀ {conn}, s.isClosing conn = true →
      (s.pool.foldl closeConn s).isClosing conn = true := isClosing_foldl_of s.pool
  rw [foldl_closeConn]
  generalize s.pool.foldl closeConn s = after at hpool hlength hmono ⊢
  refine ⟨?_, Nat.zero_le _, fun _ => hclosed, fun _ => rfl, ?_⟩
  · have hheld : PoolClient.held { s with
        pool := [], closing := after.closing, closers := s.closers - 1, closeReturned := true } +
        (s.pool : Multiset Nat) = s.held := by
      unfold held
      rw [Multiset.coe_nil]
      abel
    have hcustody := hs.custody.gives hheld hpool fun _ => hmono
    rw [← hlength] at hcustody
    exact hcustody
  · intro attempt left conn hmem
    exact hmono (hs.fired attempt left conn hmem)

/-- **The step lemma.** -/
theorem Inv.step (hs : Inv cfg s) {e : PoolEvent} (h : s.step cfg e = some s') : Inv cfg s' := by
  cases e with
  | start =>
    obtain rfl := Option.some.inj h
    have hheld : PoolClient.held { s with ops := s.ops ++ [.getting 0] } = s.held := by
      simp [held, OpPc.held]
    refine ⟨hheld ▸ hs.custody, hs.size, hs.closed, hs.drained, ?_⟩
    intro attempt left conn hmem
    have hold : .binding attempt left conn true ∈ s.ops := by simpa using hmem
    exact hs.fired attempt left conn hold
  | op i e =>
    obtain ⟨pc, hpc, hstep⟩ := Option.bind_eq_some_iff.mp h
    exact hs.opStep hpc hstep
  | lateDial ok =>
    simp only [PoolClient.step] at h
    split at h
    · cases h
    · split at h
      · obtain rfl := Option.some.inj h
        have hheld : PoolClient.held { s.dial with
            abandoned := s.abandoned - 1, late := s.closing.length :: s.late } =
            s.closing.length ::ₘ s.held := by
          unfold held dial
          rw [← Multiset.cons_coe, ← Multiset.singleton_add, ← Multiset.singleton_add]
          abel
        have hcustody := hs.custody.hands hheld fun _ => isClosing_dial
        have hlength : s.dial.closing.length = s.closing.length + 1 := by simp [dial]
        rw [← hlength] at hcustody
        exact ⟨hcustody, hs.size, hs.closed, hs.drained, fun attempt left conn hmem =>
          isClosing_dial (hs.fired attempt left conn hmem)⟩
      · obtain rfl := Option.some.inj h
        exact ⟨hs.custody, hs.size, hs.closed, hs.drained, hs.fired⟩
  | closeLate =>
    simp only [PoolClient.step] at h
    split at h
    · cases h
    · next conn rest hlate =>
        obtain rfl := Option.some.inj h
        have hheld : PoolClient.held { s.closeConn conn with late := rest } + {conn} = s.held := by
          unfold held closeConn
          rw [hlate, ← Multiset.cons_coe, ← Multiset.singleton_add]
          abel
        have hlt : conn < s.closing.length := hs.custody.lt conn (by simp [held, hlate])
        have hlost : ∀ other ∈ ({conn} : Multiset Nat),
            (s.closeConn conn).isClosing other = true := by
          intro other hother
          obtain rfl := Multiset.mem_singleton.mp hother
          exact isClosing_closeConn_self hlt
        have hcustody := hs.custody.gives hheld hlost fun _ => isClosing_closeConn_of conn
        rw [← length_closing_closeConn s conn] at hcustody
        exact ⟨hcustody, hs.size, hs.closed, hs.drained, fun attempt left other hmem =>
          isClosing_closeConn_of conn (hs.fired attempt left other hmem)⟩
  | serverCloses conn =>
    obtain rfl := Option.some.inj h
    have hcustody := hs.custody.gives (add_zero _) (by simp) fun _ => isClosing_closeConn_of conn
    rw [← length_closing_closeConn s conn] at hcustody
    exact ⟨hcustody, hs.size, hs.closed, hs.drained, fun attempt left other hmem =>
      isClosing_closeConn_of conn (hs.fired attempt left other hmem)⟩
  | cancel =>
    obtain rfl := Option.some.inj h
    exact ⟨hs.custody, hs.size, hs.closed, hs.drained, hs.fired⟩
  | close =>
    obtain rfl := Option.some.inj h
    exact ⟨hs.custody, hs.size, fun _ => rfl, hs.drained, hs.fired⟩
  | drain =>
    simp only [PoolClient.step] at h
    split at h
    · cases h
    · next hclosers =>
        obtain rfl := Option.some.inj h
        exact hs.drains (hs.closed (Or.inl (Nat.pos_of_ne_zero hclosers)))

theorem inv_new (cfg : PoolConfig) : Inv cfg {} where
  custody := ⟨by simp [held], by simp [held], by simp⟩
  size := Nat.zero_le _
  closed := by simp
  drained := fun _ => rfl
  fired := by simp

/-! ## After `Close` -/

/-- An operation has the connection in its hand. -/
def Holds (s : PoolClient) (i conn : Nat) : Prop :=
  ∃ pc, s.ops[i]? = some pc ∧ conn ∈ pc.held

theorem opStep_frame {e : OpEvent} (h : s.opStep cfg i pc e = some s') :
    ∃ pc', s'.ops = s.ops.set i pc' ∧ s'.late = s.late ∧ s'.closeReturned = s.closeReturned ∧
      s.closing.length ≤ s'.closing.length := by
  have hmoves : ∀ {t : PoolClient} {pc' : OpPc}, some (t.moveTo i pc') = some s' →
      t.ops = s.ops → t.late = s.late → t.closeReturned = s.closeReturned →
      s.closing.length ≤ t.closing.length → ∃ pc', s'.ops = s.ops.set i pc' ∧ s'.late = s.late ∧
        s'.closeReturned = s.closeReturned ∧ s.closing.length ≤ s'.closing.length := by
    intro t pc' hsome hops hlate hreturned hlength
    obtain rfl := Option.some.inj hsome
    exact ⟨pc', congrArg (List.set · i pc') hops, hlate, hreturned, hlength⟩
  unfold PoolClient.opStep at h
  split at h
  · dsimp only at h
    exact hmoves h rfl rfl rfl (le_refl _)
  · exact hmoves h rfl rfl rfl (le_refl _)
  · split at h
    · exact hmoves h rfl rfl rfl (by simp [dial])
    · exact hmoves h rfl rfl rfl (le_refl _)
  · rw [Option.ite_none_right_eq_some] at h
    exact hmoves h.2 rfl rfl rfl (le_refl _)
  · exact hmoves h rfl rfl rfl (length_closing_closeConn _ _).ge
  · exact hmoves h rfl rfl rfl (le_refl _)
  · exact hmoves h rfl rfl rfl (length_closing_closeConn _ _).ge
  · exact hmoves h rfl rfl rfl (le_refl _)
  · exact hmoves h rfl rfl rfl (length_closing_closeConn _ _).ge
  · exact hmoves h rfl rfl rfl (le_refl _)
  · dsimp only at h
    split at h
    · exact hmoves h rfl rfl rfl (length_closing_closeConn _ _).ge
    · exact hmoves h rfl rfl rfl (le_refl _)
  · split at h
    · exact hmoves h rfl rfl rfl (le_refl _)
    · rw [Option.ite_none_right_eq_some] at h
      exact hmoves h.2 rfl rfl rfl (le_refl _)
  · cases h

theorem step_frame {e : PoolEvent} (h : s.step cfg e = some s') :
    (s.closeReturned = true → s'.closeReturned = true) ∧
      s.closing.length ≤ s'.closing.length ∧
      ((∃ k pc', s'.ops = s.ops.set k pc' ∧ s'.late = s.late) ∨
        ∀ (j : Nat) (pc : OpPc), s.ops[j]? = some pc → s'.ops[j]? = some pc) := by
  cases e with
  | start =>
    obtain rfl := Option.some.inj h
    refine ⟨id, le_refl _, Or.inr fun j pc hpc => ?_⟩
    obtain ⟨hlt, -⟩ := List.getElem?_eq_some_iff.mp hpc
    rw [List.getElem?_append_left hlt, hpc]
  | op k e =>
    obtain ⟨pc, -, hstep⟩ := Option.bind_eq_some_iff.mp h
    obtain ⟨pc', hops, hlate, hreturned, hlength⟩ := opStep_frame hstep
    exact ⟨fun hbefore => hreturned.trans hbefore, hlength, Or.inl ⟨k, pc', hops, hlate⟩⟩
  | lateDial ok =>
    simp only [PoolClient.step] at h
    split at h
    · cases h
    · split at h
      · obtain rfl := Option.some.inj h
        exact ⟨id, by simp [dial], Or.inr fun _ _ => id⟩
      · obtain rfl := Option.some.inj h
        exact ⟨id, le_refl _, Or.inr fun _ _ => id⟩
  | closeLate =>
    simp only [PoolClient.step] at h
    split at h
    · cases h
    · obtain rfl := Option.some.inj h
      exact ⟨id, (length_closing_closeConn _ _).ge, Or.inr fun _ _ => id⟩
  | serverCloses conn =>
    obtain rfl := Option.some.inj h
    exact ⟨id, (length_closing_closeConn _ _).ge, Or.inr fun _ _ => id⟩
  | cancel =>
    obtain rfl := Option.some.inj h
    exact ⟨id, le_refl _, Or.inr fun _ _ => id⟩
  | close =>
    obtain rfl := Option.some.inj h
    exact ⟨id, le_refl _, Or.inr fun _ _ => id⟩
  | drain =>
    simp only [PoolClient.step] at h
    split at h
    · cases h
    · obtain rfl := Option.some.inj h
      refine ⟨fun _ => rfl, (length_closing_foldl _ _).ge, Or.inr ?_⟩
      rw [foldl_closeConn]
      exact fun _ _ => id

/-- **No connection is in two hands.** -/
theorem Inv.apart (hs : Inv cfg s) :
    s.pool.Nodup ∧ (∀ i j conn, s.Holds i conn → s.Holds j conn → i = j) ∧
      ∀ i conn, s.Holds i conn → conn ∉ s.pool ∧ conn ∉ s.late := by
  obtain ⟨hleft, -, hlate⟩ := Multiset.nodup_add.mp hs.custody.nodup
  obtain ⟨hpool, hops, hpooled⟩ := Multiset.nodup_add.mp hleft
  have hmem : ∀ {i conn}, s.Holds i conn → conn ∈ s.ops.flatMap OpPc.held := by
    rintro i conn ⟨pc, hpc, hconn⟩
    exact List.mem_flatMap.mpr ⟨pc, List.mem_of_getElem? hpc, hconn⟩
  refine ⟨hpool, ?_, fun i conn hholds => ⟨fun hin => ?_, fun hin => ?_⟩⟩
  · obtain ⟨-, hapart⟩ := List.nodup_flatMap.mp (Multiset.coe_nodup.mp hops)
    rw [List.pairwise_iff_getElem] at hapart
    rintro i j conn ⟨pc, hpc, hconn⟩ ⟨pc', hpc', hconn'⟩
    obtain ⟨hi, rfl⟩ := List.getElem?_eq_some_iff.mp hpc
    obtain ⟨hj, rfl⟩ := List.getElem?_eq_some_iff.mp hpc'
    rcases lt_trichotomy i j with hlt | heq | hgt
    · exact absurd hconn' (hapart i j hi hj hlt hconn)
    · exact heq
    · exact absurd hconn (hapart j i hj hi hgt hconn')
  · exact Multiset.disjoint_left.mp hpooled hin (hmem hholds)
  · exact Multiset.disjoint_left.mp hlate (Multiset.mem_add.mpr (Or.inr (hmem hholds))) hin

/-- **After `Close` has returned, a connection that an operation lets go is closing.** -/
theorem Inv.closing_of_letGo (hs : Inv cfg s) (hreturned : s.closeReturned = true) {e : PoolEvent}
    (hstep : s.step cfg e = some s') (hholds : s.Holds i conn)
    (hgone : ¬s'.Holds i conn) : s'.isClosing conn = true := by
  have hs' := hs.step hstep
  obtain ⟨hreturned', hlength, hframe⟩ := step_frame hstep
  obtain ⟨-, hunique, hapart⟩ := hs.apart
  obtain ⟨pc, hpc, hconn⟩ := id hholds
  have hlt := (hs.lt_of_held hpc hconn).trans_le hlength
  refine (hs'.custody.all conn hlt).resolve_left fun hheld => ?_
  have hpool := hs'.drained (hreturned' hreturned)
  rcases hframe with ⟨k, pc', hops, hlate⟩ | hsame
  · -- The operation itself has moved on, and the hands of the others are as they were.
    obtain rfl : k = i := by
      by_contra hne
      refine hgone ⟨pc, ?_, hconn⟩
      rw [hops, List.getElem?_set_ne hne, hpc]
    rw [held, hpool, hlate, Multiset.coe_nil, zero_add, Multiset.mem_add] at hheld
    rcases hheld with hops' | hin
    · obtain ⟨other, hother, hconn'⟩ := List.mem_flatMap.mp hops'
      obtain ⟨j, hj⟩ := List.getElem?_of_mem hother
      have hne : k ≠ j := by
        rintro rfl
        exact hgone ⟨other, hj, hconn'⟩
      rw [hops, List.getElem?_set_ne hne] at hj
      exact hne (hunique k j conn hholds ⟨other, hj, hconn'⟩)
    · exact (hapart k conn hholds).2 hin
  · exact hgone ⟨pc, hsame i pc hpc, hconn⟩

theorem inv_follow {start : PoolClient} (hstart : Inv cfg start) {events : List PoolEvent}
    (hrun : follow (step cfg) start events = some s) : Inv cfg s :=
  follow_induction (motive := fun _ s => Inv cfg s) hstart (fun _ _ _ _ _ hs hstep => hs.step hstep)
    hrun

end PoolClient

/-! ## What is safe about the pool -/

/-- What holds of the client after every run. -/
structure PoolSafe (cfg : PoolConfig) (s : PoolClient) : Prop where
  /-- No connection is used by two operations. -/
  oneUser : ∀ i j conn, s.Holds i conn → s.Holds j conn → i = j
  /-- No connection is used while it is in the pool. -/
  notPooled : ∀ i conn, s.Holds i conn → conn ∉ s.pool
  nodup : s.pool.Nodup
  size : s.pool.length ≤ cfg.poolSize
  /-- Every connection that was dialed is in use, is about to be closed because the dial came
  late, is in the pool, or is closing. -/
  accounted : ∀ conn < s.closing.length,
    (∃ i, s.Holds i conn) ∨ conn ∈ s.late ∨ conn ∈ s.pool ∨ s.isClosing conn = true
  /-- Once `Close` has returned the pool is empty at all later times, and a connection that an
  operation gives back or discards is closing. -/
  afterClose : s.closeReturned = true → ∀ later s', follow (PoolClient.step cfg) s later = some s' →
    s'.pool = [] ∧ ∀ e s'' i conn, s'.step cfg e = some s'' → s'.Holds i conn →
      ¬s''.Holds i conn → s''.isClosing conn = true

def smallPool : PoolConfig where
  poolSize := 1
  maxRetries := 3
  urls := 1

/-- Two operations; the client is closed between the return of their connections. -/
def closedBetween : List PoolEvent :=
  [.start, .start, .op 0 .pop, .op 0 .connect, .op 0 (.dialed true), .op 1 .pop, .op 1 .connect,
    .op 1 (.dialed true), .op 0 (.bound true), .op 1 (.bound true), .op 0 (.operated .ok),
    .op 0 .check, .op 0 .giveBack, .op 1 (.operated (.otherError false)), .op 1 .check, .close,
    .drain, .op 1 .giveBack]

/-- **The pool is safe**, whatever the order of the events. -/
theorem pool_safe {cfg : PoolConfig} {events : List PoolEvent} {s : PoolClient}
    (hrun : follow (PoolClient.step cfg) {} events = some s) : PoolSafe cfg s := by
  have hs := PoolClient.inv_follow (PoolClient.inv_new cfg) hrun
  obtain ⟨hnodup, hunique, hapart⟩ := hs.apart
  refine ⟨hunique, fun i conn hholds => (hapart i conn hholds).1, hnodup, hs.size, ?_, ?_⟩
  · intro conn hconn
    rcases hs.custody.all conn hconn with hheld | hclosing
    · rw [PoolClient.held, Multiset.mem_add, Multiset.mem_add] at hheld
      rcases hheld with (hpool | hops) | hlate
      · exact Or.inr (Or.inr (Or.inl hpool))
      · obtain ⟨pc, hpc, hheld⟩ := List.mem_flatMap.mp hops
        obtain ⟨i, hi⟩ := List.getElem?_of_mem hpc
        exact Or.inl ⟨i, pc, hi, hheld⟩
      · exact Or.inr (Or.inl hlate)
    · exact Or.inr (Or.inr (Or.inr hclosing))
  · intro hreturned later s' hlater
    have hs' := PoolClient.inv_follow hs hlater
    have hreturned' := follow_induction (motive := fun _ s => s.closeReturned = true) hreturned
      (fun _ _ _ _ _ hbefore hstep => (PoolClient.step_frame hstep).1 hbefore) hlater
    exact ⟨hs'.drained hreturned', fun e s'' i conn hstep =>
      hs'.closing_of_letGo hreturned' hstep⟩

/-- The connection that was in the pool and the one that was in use are both closed. -/
theorem pool_safe_closed :
    ∃ s, follow (PoolClient.step smallPool) {} closedBetween = some s ∧ PoolSafe smallPool s ∧
      s.pool = [] ∧ s.closing = [true, true] ∧ s.ops = [.done, .done] := by
  have hrun : (follow (PoolClient.step smallPool) {} closedBetween).map
      (fun s => (s.pool, s.closing, s.ops)) = some ([], [true, true], [.done, .done]) := by
    decide +kernel
  obtain ⟨s, hs, hshape⟩ := Option.map_eq_some_iff.mp hrun
  obtain ⟨hpool, hrest⟩ := Prod.mk.inj hshape
  obtain ⟨hclosing, hops⟩ := Prod.mk.inj hrest
  exact ⟨s, hs, pool_safe hs, hpool, hclosing, hops⟩

end Ldap
end Configd
