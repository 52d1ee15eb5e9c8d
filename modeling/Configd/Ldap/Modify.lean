import Configd.Lib.Delivery
import Configd.Lib.OrdMap

/-!
# Modifying an entry of the directory

`Client.ModifyValues` (`internal/ldap/modify.go`) deletes, adds and replaces values of an entry by
one request, carried out as a whole or not at all.  The server refuses to delete what is not
there and to add what is; then the modifications are sent again, one value in a request, and
these two results are ignored.  Each request may be sent several times (`executeWithRetry`,
`internal/ldap/client.go`), also when only the reply was lost.  `modifyValues_converges` says that
a call that succeeds leaves the entry in the requested state, and that it can be repeated.
-/

namespace Configd
namespace Ldap

open Lib

/-! ## The server -/

inductive ModifyKind where
  | delete
  | add
  | replace
  deriving DecidableEq

/-- `modifyOp`: one attribute modification of a request. -/
structure ModifyOp where
  kind : ModifyKind
  attr : String
  values : List String
  deriving DecidableEq

/-- An entry: the values of each attribute.  An attribute without values is not there. -/
abbrev Entry := String → Finset String

def noSuchAttribute : Nat := 16
def attributeOrValueExists : Nat := 20

def deleteValue (attr : String) (entry : Entry) (value : String) : Except Nat Entry :=
  if value ∈ entry attr then .ok (Function.update entry attr ((entry attr).erase value))
  else .error noSuchAttribute

def addValue (attr : String) (entry : Entry) (value : String) : Except Nat Entry :=
  if value ∈ entry attr then .error attributeOrValueExists
  else .ok (Function.update entry attr (insert value (entry attr)))

/-- One modification.  To delete no value is to delete the attribute. -/
def applyOp (entry : Entry) (op : ModifyOp) : Except Nat Entry :=
  match op.kind with
  | .delete =>
    if op.values = [] then
      if entry op.attr = ∅ then .error noSuchAttribute
      else .ok (Function.update entry op.attr ∅)
    else op.values.foldlM (deleteValue op.attr) entry
  | .add => op.values.foldlM (addValue op.attr) entry
  | .replace => .ok (Function.update entry op.attr op.values.toFinset)

/-- A request: the first modification that is refused refuses it. -/
def applyRequest (ops : List ModifyOp) (entry : Entry) : Except Nat Entry :=
  ops.foldlM applyOp entry

/-! ## The client -/

/-- An error, with what it wraps. -/
inductive ModifyError where
  /-- A result of the server or, for a broken connection, of the library. -/
  | ldap (code : Nat)
  | noConnection
  | aborted (retries : Nat) (last : ModifyError)
  | failed (retries : Nat) (last : ModifyError)
  deriving DecidableEq

/-- The LDAP result in an error (`errors.As`). -/
def ModifyError.resultCode : ModifyError → Option Nat
  | .ldap code => some code
  | .noConnection => none
  | .aborted _ last => last.resultCode
  | .failed _ last => last.resultCode

def isAlreadyConverged (err : ModifyError) : Bool :=
  err.resultCode = some attributeOrValueExists || err.resultCode = some noSuchAttribute

/-- `isLDAPErrorRetryable`, of an LDAP result: no such object, invalid DN syntax, invalid
credentials, insufficient access rights and object class violation are final as well. -/
def isLDAPErrorRetryable (code : Nat) : Bool :=
  code ∉ [32, 34, 49, 50, 65, attributeOrValueExists, noSuchAttribute]

inductive Outcome where
  | noConnection
  /-- An error that says nothing about the entry (a broken connection, a busy server, …); the
  request may have been carried out. -/
  | failed (applied : Bool) (code : Nat)
      (hcode : code ≠ attributeOrValueExists ∧ code ≠ noSuchAttribute)
  /-- The server replies. -/
  | answered

/-- An attempt: whether the wait before it came to its end (`waitRetry`), and its outcome. -/
structure Attempt where
  waited : Bool
  outcome : Outcome

/-- The loop of `executeWithRetry`, with the attempts that are left, the number of those made,
and `lastErr`. -/
def retryLoop (maxRetries : Nat) (attempts : Nat → Attempt) (serve : Entry → Except Nat Entry) :
    Nat → Nat → ModifyError → Entry → Entry × Option ModifyError
  | 0, _, last, entry => (entry, some (.failed maxRetries last))
  | left + 1, attempt, last, entry =>
    if 0 < attempt ∧ (attempts attempt).waited = false then
      (entry, some (.aborted (attempt - 1) last))
    else
      match (attempts attempt).outcome with
      | .noConnection =>
        retryLoop maxRetries attempts serve left (attempt + 1) .noConnection entry
      | .failed applied code _ =>
        let entry := if applied then deliver serve entry else entry
        if isLDAPErrorRetryable code then
          retryLoop maxRetries attempts serve left (attempt + 1) (.ldap code) entry
        else (entry, some (.ldap code))
      | .answered =>
        match serve entry with
        | .ok entry => (entry, none)
        | .error code =>
          if isLDAPErrorRetryable code then
            retryLoop maxRetries attempts serve left (attempt + 1) (.ldap code) entry
          else (entry, some (.ldap code))

/-- `executeWithRetry`.  There is a first attempt, so that the error it begins with is never
seen. -/
def executeWithRetry (maxRetries : Nat) (attempts : Nat → Attempt)
    (serve : Entry → Except Nat Entry) (entry : Entry) : Entry × Option ModifyError :=
  retryLoop maxRetries attempts serve (maxRetries + 1) 0 .noConnection entry

def modify (maxRetries : Nat) (attempts : Nat → Attempt) (ops : List ModifyOp) (entry : Entry) :
    Entry × Option ModifyError :=
  executeWithRetry maxRetries attempts (applyRequest ops) entry

/-- One group of `modifyOps`: by attribute name. -/
def groupOps (kind : ModifyKind) (group : StrMap (List String)) : List ModifyOp :=
  group.toList.map fun (attr, values) => ⟨kind, attr, values⟩

/-- `modifyOps`: deletes, adds, replaces. -/
def modifyOps (add del replace : StrMap (List String)) : List ModifyOp :=
  groupOps .delete del ++ groupOps .add add ++ groupOps .replace replace

/-- The operations `singleValueOps` puts in place of one. -/
def splitOp (op : ModifyOp) : List ModifyOp :=
  if op.kind = .replace ∨ op.values.length ≤ 1 then [op]
  else op.values.map fun value => { op with values := [value] }

def singleValueOps (ops : List ModifyOp) : List ModifyOp :=
  ops.flatMap splitOp

/-- The loop of `ModifyValues` over the single values; the network is asked for the attempts of
each request. -/
def modifySingles (maxRetries : Nat) (network : Nat → Nat → Attempt) :
    Nat → List ModifyOp → Entry → Entry × Option ModifyError
  | _, [], entry => (entry, none)
  | request, op :: rest, entry =>
    match modify maxRetries (network request) [op] entry with
    | (entry, none) => modifySingles maxRetries network (request + 1) rest entry
    | (entry, some err) =>
      if isAlreadyConverged err then
        modifySingles maxRetries network (request + 1) rest entry
      else (entry, some err)

/-- `ModifyValues`: the entry that is left, and the error. -/
def modifyValues (maxRetries : Nat) (network : Nat → Nat → Attempt)
    (add del replace : StrMap (List String)) (entry : Entry) : Entry × Option ModifyError :=
  let ops := modifyOps add del replace
  if ops = [] then (entry, none)
  else
    match modify maxRetries (network 0) ops entry with
    | (entry, none) => (entry, none)
    | (entry, some err) =>
      if isAlreadyConverged err then
        modifySingles maxRetries network 1 (singleValueOps ops) entry
      else (entry, some err)

/-! ## The requested state -/

/-- The values an attribute is to have: the deletions, the additions, then the replacement. -/
def requestedValues (add del replace : StrMap (List String)) (attr : String)
    (values : Finset String) : Finset String :=
  let kept :=
    match del[attr]? with
    | none => values
    | some [] => ∅
    | some listed => values \ listed.toFinset
  let added := kept ∪ (add[attr]?.getD []).toFinset
  (replace[attr]?.map List.toFinset).getD added

/-- The entry with the modifications carried out as set operations. -/
def requested (add del replace : StrMap (List String)) (entry : Entry) : Entry :=
  fun attr => requestedValues add del replace attr (entry attr)

/-! ## Modifications as set operations -/

/-- The values an operation leaves of an attribute. -/
def opValues (kind : ModifyKind) (listed : List String) (values : Finset String) : Finset String :=
  match kind with
  | .delete => if listed = [] then ∅ else values \ listed.toFinset
  | .add => values ∪ listed.toFinset
  | .replace => listed.toFinset

def effectOp (entry : Entry) (op : ModifyOp) : Entry :=
  Function.update entry op.attr (opValues op.kind op.values (entry op.attr))

def effect (ops : List ModifyOp) (entry : Entry) : Entry :=
  ops.foldl effectOp entry

variable {entry entry' : Entry}

theorem foldl_delete_values (attr : String) (listed : List String) (entry : Entry) :
    (listed.map fun value => ModifyOp.mk .delete attr [value]).foldl effectOp entry =
      Function.update entry attr (entry attr \ listed.toFinset) := by
  induction listed generalizing entry with
  | nil => simp
  | cons value listed ih =>
    rw [List.map_cons, List.foldl_cons, ih, effectOp, opValues, if_neg (List.cons_ne_nil _ _),
      Function.update_idem, Function.update_self, List.toFinset_cons, List.toFinset_cons,
      List.toFinset_nil, Finset.sdiff_insert, Finset.sdiff_insert, Finset.sdiff_empty,
      Finset.erase_sdiff_comm]

theorem foldl_add_values (attr : String) (listed : List String) (entry : Entry) :
    (listed.map fun value => ModifyOp.mk .add attr [value]).foldl effectOp entry =
      Function.update entry attr (entry attr ∪ listed.toFinset) := by
  induction listed generalizing entry with
  | nil => simp
  | cons value listed ih =>
    rw [List.map_cons, List.foldl_cons, ih, effectOp, opValues, Function.update_idem,
      Function.update_self, List.toFinset_cons, List.toFinset_cons, List.toFinset_nil,
      Finset.union_assoc, Finset.insert_union, Finset.empty_union]

theorem eq_foldl_of_foldlM {α : Type} {step : Entry → α → Except Nat Entry}
    {act : Entry → α → Entry} {items : List α}
    (hstep : ∀ entry item entry', step entry item = .ok entry' → entry' = act entry item)
    (h : items.foldlM step entry = .ok entry') : entry' = items.foldl act entry := by
  induction items generalizing entry with
  | nil => exact (Except.ok.inj h).symm
  | cons item items ih =>
    rw [List.foldlM_cons] at h
    obtain ⟨next, hnext, hrest⟩ := bind_eq_ok h
    rw [List.foldl_cons, ← hstep entry item next hnext]
    exact ih hrest

theorem effectOp_of_deleteValue {attr value : String}
    (h : deleteValue attr entry value = .ok entry') :
    entry' = effectOp entry ⟨.delete, attr, [value]⟩ := by
  rw [deleteValue] at h
  split at h
  · rw [← Except.ok.inj h]
    simp [effectOp, opValues, Finset.sdiff_singleton_eq_erase]
  · exact nomatch h

theorem effectOp_of_addValue {attr value : String} (h : addValue attr entry value = .ok entry') :
    entry' = effectOp entry ⟨.add, attr, [value]⟩ := by
  rw [addValue] at h
  split at h
  · exact nomatch h
  · rw [← Except.ok.inj h]
    simp [effectOp, opValues]

variable {op : ModifyOp}

theorem effectOp_of_ok (h : applyOp entry op = .ok entry') :
    entry' = effectOp entry op := by
  obtain ⟨kind, attr, listed⟩ := op
  cases kind with
  | delete =>
    simp only [applyOp] at h
    by_cases hlisted : listed = []
    · rw [if_pos hlisted] at h
      split at h
      · exact absurd h (by simp)
      · rw [effectOp, opValues, if_pos hlisted]
        exact (Except.ok.inj h).symm
    · rw [if_neg hlisted] at h
      rw [effectOp, opValues, if_neg hlisted, ← foldl_delete_values, List.foldl_map]
      exact eq_foldl_of_foldlM (fun _ _ _ => effectOp_of_deleteValue) h
  | add =>
    rw [effectOp, opValues, ← foldl_add_values, List.foldl_map]
    exact eq_foldl_of_foldlM (fun _ _ _ => effectOp_of_addValue) h
  | replace => exact (Except.ok.inj h).symm

variable {ops : List ModifyOp}

theorem effect_of_ok
    (h : applyRequest ops entry = .ok entry') : entry' = effect ops entry :=
  eq_foldl_of_foldlM (fun _ _ _ => effectOp_of_ok) h

/-! ## Refusals -/

/-- The results the server refuses a modification with. -/
def Refusal (code : Nat) : Prop :=
  code = attributeOrValueExists ∨ code = noSuchAttribute

theorem error_of_foldlM {α β ε : Type} {P : ε → Prop} {step : β → α → Except ε β} {items : List α}
    (hstep : ∀ state item err, step state item = .error err → P err) {state : β} {err : ε}
    (h : items.foldlM step state = .error err) : P err := by
  induction items generalizing state with
  | nil => exact nomatch h
  | cons item items ih =>
    rw [List.foldlM_cons] at h
    cases hround : step state item with
    | error other =>
      rw [hround] at h
      obtain rfl : other = err := Except.error.inj h
      exact hstep state item other hround
    | ok next =>
      rw [hround] at h
      exact ih h

variable {code : Nat}

theorem refusal_of_deleteValue {attr : String} {value : String}
    (h : deleteValue attr entry value = .error code) : Refusal code := by
  rw [deleteValue] at h
  split at h
  · exact nomatch h
  · exact .inr (Except.error.inj h).symm

theorem refusal_of_addValue {attr : String} {value : String}
    (h : addValue attr entry value = .error code) : Refusal code := by
  rw [addValue] at h
  split at h
  · exact .inl (Except.error.inj h).symm
  · exact nomatch h

theorem refusal_of_applyOp
    (h : applyOp entry op = .error code) : Refusal code := by
  obtain ⟨kind, attr, listed⟩ := op
  cases kind with
  | delete =>
    simp only [applyOp] at h
    split at h
    · split at h
      · exact .inr (Except.error.inj h).symm
      · exact nomatch h
    · exact error_of_foldlM (fun _ _ _ => refusal_of_deleteValue) h
  | add => exact error_of_foldlM (fun _ _ _ => refusal_of_addValue) h
  | replace => exact nomatch h

/-- **A single value that is refused is where it should be.** -/
theorem effectOp_of_error
    (hsingle : op.kind = .replace ∨ op.values.length ≤ 1) (h : applyOp entry op = .error code) :
    effectOp entry op = entry := by
  obtain ⟨kind, attr, listed⟩ := op
  cases kind with
  | replace => exact nomatch h
  | delete =>
    match listed, hsingle with
    | [], _ =>
      simp only [applyOp, if_true] at h
      split at h
      next hempty =>
        rw [effectOp, opValues, if_pos rfl, ← hempty, Function.update_eq_self]
      next => exact nomatch h
    | [value], _ =>
      have hvalue : value ∉ entry attr := by
        intro hmem
        simp [applyOp, deleteValue, hmem] at h
      rw [effectOp, opValues, if_neg (List.cons_ne_nil _ _)]
      simp [hvalue]
    | _ :: _ :: _, hsingle => simp at hsingle
  | add =>
    match listed, hsingle with
    | [], _ => exact nomatch h
    | [value], _ =>
      have hvalue : value ∈ entry attr := by
        by_contra hmem
        simp [applyOp, addValue, hmem] at h
      simp [effectOp, opValues, hvalue]
    | _ :: _ :: _, hsingle => simp at hsingle

/-! ## One value at a time -/

theorem effect_append (ops ops' : List ModifyOp) (entry : Entry) :
    effect (ops ++ ops') entry = effect ops' (effect ops entry) :=
  List.foldl_append

theorem effect_splitOp (op : ModifyOp) (entry : Entry) :
    effect (splitOp op) entry = effectOp entry op := by
  obtain ⟨kind, attr, listed⟩ := op
  rw [splitOp]
  split
  · rfl
  next hmany =>
    obtain ⟨hkind, hlength⟩ : kind ≠ .replace ∧ 1 < listed.length := by simpa using hmany
    cases kind with
    | replace => exact absurd rfl hkind
    | delete =>
      have hlisted : listed ≠ [] := by
        rintro rfl
        simp at hlength
      rw [effectOp, opValues, if_neg hlisted]
      exact foldl_delete_values attr listed entry
    | add => exact foldl_add_values attr listed entry

theorem effect_singleValueOps (ops : List ModifyOp) (entry : Entry) :
    effect (singleValueOps ops) entry = effect ops entry := by
  induction ops generalizing entry with
  | nil => rfl
  | cons op ops ih =>
    rw [singleValueOps, List.flatMap_cons, effect_append, effect_splitOp]
    exact ih (effectOp entry op)

theorem single_of_mem_singleValueOps (h : op ∈ singleValueOps ops) :
    op.kind = .replace ∨ op.values.length ≤ 1 := by
  obtain ⟨whole, -, hmem⟩ := List.mem_flatMap.mp h
  rw [splitOp] at hmem
  split at hmem
  next hsingle => rwa [List.mem_singleton.mp hmem]
  next =>
    obtain ⟨value, -, rfl⟩ := List.mem_map.mp hmem
    exact .inr le_rfl

/-! ## The whole request -/

theorem effect_groupOps (kind : ModifyKind) (group : StrMap (List String)) (entry : Entry)
    (attr : String) :
    effect (groupOps kind group) entry attr =
      group[attr]?.elim (entry attr) fun listed => opValues kind listed (entry attr) := by
  have hattrs : (groupOps kind group).map ModifyOp.attr = group.toList.map Prod.fst := by
    simp [groupOps, Function.comp_def]
  have hother : ∀ (state : Entry) (op : ModifyOp) (k : String), op.attr ≠ k →
      effectOp state op k = state k := fun _ _ _ hne => by
    rw [effectOp, Function.update_of_ne (Ne.symm hne)]
  cases hgroup : group[attr]? with
  | none =>
    refine foldl_view_of_not_mem (fun (state : Entry) k => state k) effectOp ModifyOp.attr
      hother _ _ _ ?_
    rw [hattrs, Std.ExtTreeMap.map_fst_toList_eq_keys, Std.ExtTreeMap.mem_keys]
    exact (OrdMap.getElem?_eq_none_iff group attr).mp hgroup
  | some listed =>
    have hmem : ModifyOp.mk kind attr listed ∈ groupOps kind group :=
      List.mem_map.mpr ⟨(attr, listed),
        Std.ExtTreeMap.mem_toList_iff_getElem?_eq_some.mpr hgroup, rfl⟩
    exact foldl_view_of_mem (fun (state : Entry) k => state k) effectOp ModifyOp.attr hother
      (fun op values values' => values' = opValues op.kind op.values values)
      (fun state op => by rw [effectOp, Function.update_self])
      (hattrs ▸ OrdMap.nodup_map_fst_toList group) entry hmem

theorem effect_modifyOps (add del replace : StrMap (List String)) (entry : Entry) :
    effect (modifyOps add del replace) entry = requested add del replace entry := by
  funext attr
  rw [modifyOps, effect_append, effect_append, effect_groupOps, effect_groupOps, effect_groupOps,
    requested, requestedValues]
  have hkept : (del[attr]?.elim (entry attr) fun listed => opValues .delete listed (entry attr)) =
      match del[attr]? with
      | none => entry attr
      | some [] => ∅
      | some listed => entry attr \ listed.toFinset := by
    rcases del[attr]? with _ | _ | ⟨value, listed⟩
    · rfl
    · rfl
    · rw [Option.elim_some, opValues, if_neg (List.cons_ne_nil _ _)]
  rw [← hkept]
  cases add[attr]? <;> cases replace[attr]? <;> simp [opValues]

theorem sdiff_union_sdiff_union (values deleted added : Finset String) :
    ((values \ deleted ∪ added) \ deleted) ∪ added = values \ deleted ∪ added := by
  ext value
  simp only [Finset.mem_union, Finset.mem_sdiff]
  tauto

theorem requestedValues_idem (add del replace : StrMap (List String)) (attr : String)
    (values : Finset String) :
    requestedValues add del replace attr (requestedValues add del replace attr values) =
      requestedValues add del replace attr values := by
  simp only [requestedValues]
  cases replace[attr]? with
  | some listed => rfl
  | none =>
    rcases del[attr]? with _ | _ | ⟨value, listed⟩
    · exact Finset.union_assoc .. |>.trans (by rw [Finset.union_self]; rfl)
    · rfl
    · exact sdiff_union_sdiff_union _ _ _

theorem opValues_opValues (kind : ModifyKind) (listed : List String) (values : Finset String) :
    opValues kind listed (opValues kind listed values) = opValues kind listed values := by
  cases kind with
  | delete =>
    simp only [opValues]
    split
    · rfl
    · exact Finset.sdiff_idem _ _
  | add => rw [opValues, opValues, Finset.union_assoc, Finset.union_self]
  | replace => rfl

/-! ## Delivery -/

theorem does_modifyOps (add del replace : StrMap (List String)) :
    Does (applyRequest (modifyOps add del replace)) (requested add del replace) where
  of_ok h := by rw [effect_of_ok h, effect_modifyOps]
  idempotent entry := funext fun attr => requestedValues_idem add del replace attr (entry attr)

theorem does_single (op : ModifyOp) : Does (applyRequest [op]) (effectOp · op) where
  of_ok h := effect_of_ok h
  idempotent entry := by
    rw [effectOp, effectOp, Function.update_self, Function.update_idem, opValues_opValues]

@[simp] theorem isAlreadyConverged_failed (retries : Nat) (last : ModifyError) :
    isAlreadyConverged (.failed retries last) = isAlreadyConverged last := rfl

@[simp] theorem isAlreadyConverged_aborted (retries : Nat) (last : ModifyError) :
    isAlreadyConverged (.aborted retries last) = isAlreadyConverged last := rfl

theorem isAlreadyConverged_ldap
    (h : code ≠ attributeOrValueExists ∧ code ≠ noSuchAttribute) :
    isAlreadyConverged (.ldap code) = false := by
  simp [isAlreadyConverged, ModifyError.resultCode, h]

/-- How a retried request ends: it has been delivered some times without a reply, and then it is
carried out, or an error is returned.  An error that says that the entry has converged is the
reply of the server. -/
inductive Ended (serve : Entry → Except Nat Entry) (entry : Entry) :
    Entry → Option ModifyError → Prop
  | done {before entry' : Entry} (hbefore : Delivered serve entry before)
      (hserve : serve before = .ok entry') : Ended serve entry entry' none
  | error {before : Entry} {err : ModifyError} (hbefore : Delivered serve entry before)
      (hrefused : isAlreadyConverged err = true → ∃ code, serve before = .error code) :
      Ended serve entry before (some err)

section Retry

variable {maxRetries : Nat} {attempts : Nat → Attempt} {serve : Entry → Except Nat Entry}

theorem ended_retryLoop {now : Entry} (left attempt : Nat) {last : ModifyError}
    (hlast : isAlreadyConverged last = false) (hnow : Delivered serve entry now) :
    Ended serve entry (retryLoop maxRetries attempts serve left attempt last now).1
      (retryLoop maxRetries attempts serve left attempt last now).2 := by
  induction left generalizing attempt last now with
  | zero =>
    refine .error hnow fun hconverged => ?_
    simp [hlast] at hconverged
  | succ left ih =>
    rw [retryLoop]
    split
    · refine .error hnow fun hconverged => ?_
      simp [hlast] at hconverged
    · split
      · exact ih (attempt + 1) rfl hnow
      next applied code hcode _ =>
        have hnext : Delivered serve entry (if applied then deliver serve now else now) := by
          split
          · exact hnow.tail rfl
          · exact hnow
        dsimp only
        split
        · exact ih (attempt + 1) (isAlreadyConverged_ldap hcode) hnext
        · refine .error hnext fun hconverged => ?_
          simp [isAlreadyConverged_ldap hcode] at hconverged
      · split
        next hserve => exact .done hnow hserve
        next code hserve =>
          split
          next hretry =>
            refine ih (attempt + 1) (isAlreadyConverged_ldap ?_) hnow
            constructor <;> rintro rfl <;> exact absurd hretry (by decide)
          next => exact .error hnow fun _ => ⟨code, hserve⟩

/-- The request gets a reply: after some attempts that may be repeated, the server answers. -/
structure Answers (maxRetries : Nat) (attempts : Nat → Attempt) (last : Nat) : Prop where
  le : last ≤ maxRetries
  answered : (attempts last).outcome = .answered
  waited : ∀ attempt ≤ last, (attempts attempt).waited = true
  repeated : ∀ attempt < last, (attempts attempt).outcome = .noConnection ∨
    ∃ applied code hcode, (attempts attempt).outcome = .failed applied code hcode ∧
      isLDAPErrorRetryable code = true

/-- **With a reply, a request is carried out or refused.** -/
theorem retryLoop_of_answers {last : Nat} (h : Answers maxRetries attempts last)
    (hserve : ∀ entry code, serve entry = .error code → Refusal code)
    {left attempt : Nat} (hleft : last < attempt + left) (hattempt : attempt ≤ last)
    (lastErr : ModifyError) (entry : Entry) :
    ∀ err, (retryLoop maxRetries attempts serve left attempt lastErr entry).2 = some err →
      isAlreadyConverged err = true := by
  induction left generalizing attempt lastErr entry with
  | zero => omega
  | succ left ih =>
    have hwaited := h.waited attempt hattempt
    rw [retryLoop, if_neg (by simp [hwaited])]
    rcases Nat.lt_or_eq_of_le hattempt with hlt | rfl
    · have hnext : last < attempt + 1 + left := by omega
      rcases h.repeated attempt hlt with hout | ⟨applied, code, hcode, hout, hretry⟩
      · rw [hout]
        exact ih hnext hlt _ _
      · rw [hout]
        dsimp only
        rw [if_pos hretry]
        exact ih hnext hlt _ _
    · rw [h.answered]
      dsimp only
      split
      · exact fun err herr => nomatch herr
      next code hcode =>
        intro err herr
        rcases hserve entry code hcode with rfl | rfl <;> (cases herr; rfl)

end Retry

variable {maxRetries : Nat}

theorem modify_of_answers {attempts : Nat → Attempt}
    (h : ∃ last, Answers maxRetries attempts last)
    {err : ModifyError} (hmodify : modify maxRetries attempts ops entry = (entry', some err)) :
    isAlreadyConverged err = true := by
  obtain ⟨last, hlast⟩ := h
  have hleft : last < 0 + (maxRetries + 1) := by
    have := hlast.le
    omega
  refine retryLoop_of_answers hlast (fun _ _ h => ?_) hleft (Nat.zero_le _) .noConnection entry
    err (congrArg Prod.snd hmodify)
  exact error_of_foldlM (fun _ _ _ => refusal_of_applyOp) h

theorem ended_modify {attempts : Nat → Attempt}
    {result : Option ModifyError}
    (h : modify maxRetries attempts ops entry = (entry', result)) :
    Ended (applyRequest ops) entry entry' result := by
  have hended : Ended (applyRequest ops) entry (modify maxRetries attempts ops entry).1
      (modify maxRetries attempts ops entry).2 :=
    ended_retryLoop _ _ rfl Relation.ReflTransGen.refl
  rwa [h] at hended

/-! ## The call -/

theorem applyOp_of_applyRequest
    (h : applyRequest [op] entry = .error code) : applyOp entry op = .error code := by
  rw [applyRequest, List.foldlM_cons] at h
  cases hop : applyOp entry op with
  | error other =>
    rw [hop] at h
    exact congrArg _ (Except.error.inj h)
  | ok next =>
    rw [hop] at h
    exact nomatch h

theorem effectOp_of_modify {attempts : Nat → Attempt}
    (hsingle : op.kind = .replace ∨ op.values.length ≤ 1)
    {result : Option ModifyError} (h : modify maxRetries attempts [op] entry = (entry', result))
    (hresult : ∀ err, result = some err → isAlreadyConverged err = true) :
    entry' = effectOp entry op := by
  have hdoes := does_single op
  cases ended_modify h with
  | done hbefore hserve => rw [hdoes.of_ok hserve, hdoes.effect_eq hbefore]
  | error hbefore hrefused =>
    obtain ⟨code, hcode⟩ := hrefused (hresult _ rfl)
    have hstays := effectOp_of_error hsingle (applyOp_of_applyRequest hcode)
    rw [← hdoes.effect_eq hbefore, hstays]

variable {network : Nat → Nat → Attempt}

theorem effect_of_modifySingles {request : Nat}
    (hsingle : ∀ op ∈ ops, op.kind = .replace ∨ op.values.length ≤ 1)
    (h : modifySingles maxRetries network request ops entry = (entry', none)) :
    entry' = effect ops entry := by
  induction ops generalizing request entry with
  | nil => exact (Prod.mk.inj h).1.symm
  | cons op ops ih =>
    rw [modifySingles] at h
    have hop := hsingle op List.mem_cons_self
    have hrest := fun other hother => hsingle other (List.mem_cons_of_mem op hother)
    cases hmodify : modify maxRetries (network request) [op] entry with
    | mk next result =>
      rw [hmodify] at h
      cases result with
      | none =>
        have hnext := effectOp_of_modify hop hmodify (fun err herr => nomatch herr)
        rw [ih hrest h, hnext]
        rfl
      | some err =>
        dsimp only at h
        split at h
        next hconverged =>
          have hnext := effectOp_of_modify hop hmodify fun other hother =>
            Option.some.inj hother ▸ hconverged
          rw [ih hrest h, hnext]
          rfl
        next => exact nomatch h

theorem modifySingles_of_answers
    (hnetwork : ∀ request, ∃ last, Answers maxRetries (network request) last) (request : Nat)
    (ops : List ModifyOp) (entry : Entry) :
    (modifySingles maxRetries network request ops entry).2 = none := by
  induction ops generalizing request entry with
  | nil => rfl
  | cons op ops ih =>
    rw [modifySingles]
    cases hmodify : modify maxRetries (network request) [op] entry with
    | mk next result =>
      cases result with
      | none => exact ih (request + 1) next
      | some err =>
        have hconverged := modify_of_answers (hnetwork request) hmodify
        dsimp only
        rw [if_pos hconverged]
        exact ih (request + 1) next

theorem requested_of_modifyValues
    {add del replace : StrMap (List String)}
    (h : modifyValues maxRetries network add del replace entry = (entry', none)) :
    entry' = requested add del replace entry := by
  rw [modifyValues] at h
  have hdoes := does_modifyOps add del replace
  split at h
  next hnone =>
    rw [← effect_modifyOps, hnone]
    exact (Prod.mk.inj h).1.symm
  next =>
    cases hmodify : modify maxRetries (network 0) (modifyOps add del replace) entry with
    | mk next result =>
      rw [hmodify] at h
      cases ended_modify hmodify with
      | done hbefore hserve =>
        obtain rfl : next = entry' := (Prod.mk.inj h).1
        rw [hdoes.of_ok hserve, hdoes.effect_eq hbefore]
      | error hbefore hrefused =>
        dsimp only at h
        split at h
        · rw [effect_of_modifySingles (fun op hop => single_of_mem_singleValueOps hop) h,
            effect_singleValueOps, effect_modifyOps, hdoes.effect_eq hbefore]
        · exact nomatch h

theorem modifyValues_of_answers
    (hnetwork : ∀ request, ∃ last, Answers maxRetries (network request) last)
    (add del replace : StrMap (List String)) (entry : Entry) :
    (modifyValues maxRetries network add del replace entry).2 = none := by
  rw [modifyValues]
  split
  · rfl
  · cases hmodify : modify maxRetries (network 0) (modifyOps add del replace) entry with
    | mk next result =>
      cases result with
      | none => rfl
      | some err =>
        dsimp only
        rw [if_pos (modify_of_answers (hnetwork 0) hmodify)]
        exact modifySingles_of_answers hnetwork _ _ _

/-- **A call that succeeds leaves the entry in the requested state, and can be repeated**: with
a server that answers, the same call succeeds and changes nothing. -/
theorem modifyValues_converges (maxRetries : Nat) (network : Nat → Nat → Attempt)
    (add del replace : StrMap (List String)) (entry entry' : Entry)
    (h : modifyValues maxRetries network add del replace entry = (entry', none)) :
    entry' = requested add del replace entry ∧
      ∀ again : Nat → Nat → Attempt, (∀ request, ∃ last, Answers maxRetries (again request) last) →
        modifyValues maxRetries again add del replace entry' = (entry', none) := by
  have hrequested := requested_of_modifyValues h
  refine ⟨hrequested, fun again hagain => ?_⟩
  have hnone := modifyValues_of_answers hagain add del replace entry'
  have hsame := requested_of_modifyValues (Prod.ext rfl hnone)
  refine Prod.ext (hsame.trans ?_) hnone
  rw [hrequested]
  exact (does_modifyOps add del replace).idempotent entry

/-- The reply to the first request is lost, though it has been carried out. -/
def lostReply (request attempt : Nat) : Attempt where
  waited := true
  outcome := if request = 0 ∧ attempt = 0 then .failed true 200 (by decide) else .answered

/-- An entry whose value `a` is to become `b`. -/
def oldEntry : Entry := fun attr => if attr = "mail" then {"a", "c"} else ∅

def moved : Entry × Option ModifyError :=
  modifyValues 1 lostReply ((∅ : StrMap (List String)).insert "mail" ["b"])
    ((∅ : StrMap (List String)).insert "mail" ["a"]) ∅ oldEntry

theorem modifyValues_converges_moved :
    moved.2 = none ∧
      moved.1 = requested ((∅ : StrMap (List String)).insert "mail" ["b"])
        ((∅ : StrMap (List String)).insert "mail" ["a"]) ∅ oldEntry ∧
      ∀ again : Nat → Nat → Attempt, (∀ request, ∃ last, Answers 1 (again request) last) →
        modifyValues 1 again ((∅ : StrMap (List String)).insert "mail" ["b"])
          ((∅ : StrMap (List String)).insert "mail" ["a"]) ∅ moved.1 = (moved.1, none) :=
  have hnone : moved.2 = none := by decide +kernel
  ⟨hnone, modifyValues_converges 1 lostReply _ _ _ oldEntry moved.1 (Prod.ext rfl hnone)⟩

example : moved.1 "mail" = {"b", "c"} := by decide +kernel

end Ldap
end Configd
