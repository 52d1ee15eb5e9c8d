import Configd.Lib.OrdMap
import Configd.Lib.Runs
import Configd.Lib.Strings

/-!
# The configuration cache

`ConfigCache` (`internal/cache/cache.go`) keeps the results of slow queries.  Its lock is held
only while the map is read or written: `GetCachedConfig` looks the key up, calls `fetchFunc`
*outside* the lock and stores what it got.  Any number of goroutines are inside it, each at its
own `Stage`, and invalidations fall between any two of their steps.

Recorded beside that: the invalidations, and for each call and each fetch how many were over
when it began.  A call must not return data whose fetch began before an invalidation that was
over when the call began (`State.Fresh`).  The store does not look at what happened since the
fetch began; `fresh_of_stores_current` is what holds all the same.
-/

namespace Configd
namespace ConfigCache

open Lib

/-- Fetched data, with the number of invalidations that were over when the fetch
began. -/
structure Fetched (D : Type) where
  data : D
  began : Nat
  deriving DecidableEq

/-- `MemoryCacheEntry`, without the hash, which `GetCachedConfig` leaves empty.
Times are in nanoseconds. -/
structure MemoryCacheEntry (D : Type) where
  data : Fetched D
  timestamp : Nat
  ttl : Nat

/-- `config.CacheTTL`, in seconds. -/
def cacheTTL : Nat := 300

def maxMemoryItems : Nat := 20

def second : Nat := 1000000000

/-- The entry is older than its time to live. -/
def MemoryCacheEntry.expired {D : Type} (now : Nat) (entry : MemoryCacheEntry D) : Bool :=
  now - entry.timestamp > entry.ttl * second

inductive Invalidation
  | byPrefix (pre : String)
  | clear
  deriving DecidableEq

/-- The invalidation covers the key. -/
def Invalidation.covers (key : String) : Invalidation → Bool
  | byPrefix pre => Strings.hasPrefix key pre
  | clear => true

/-- A call of `GetCachedConfig`, with the number of invalidations that were over when
it began. -/
structure Call where
  key : String
  began : Nat
  deriving DecidableEq

/-- Where a goroutine is in `GetCachedConfig`. -/
inductive Stage (D : Type)
  | idle
  /-- It reads `skipCache` next. -/
  | called (call : Call)
  /-- It looks the key up next. -/
  | looking (call : Call)
  /-- It calls `fetchFunc` next. -/
  | missed (call : Call)
  /-- `fetchFunc` runs; `began` is recorded. -/
  | fetching (call : Call) (began : Nat)
  /-- It reads `skipCache` next. -/
  | fetched (call : Call) (data : Fetched D)
  /-- It stores the data next. -/
  | storing (call : Call) (data : Fetched D)

/-- A call that returned, with the data, or with the error of `fetchFunc`. -/
structure Returned (D : Type) where
  call : Call
  data : Option (Fetched D)

/-- The cache and the goroutines that use it. -/
structure State (D : Type) where
  memoryCache : StrMap (MemoryCacheEntry D) := ∅
  skipCache : Bool := false
  stages : Nat → Stage D := fun _ => .idle
  invalidations : List Invalidation := []
  returned : List (Returned D) := []

variable {D : Type}

def getFromMemoryCache (cache : StrMap (MemoryCacheEntry D)) (now : Nat) (key : String) :
    Option (MemoryCacheEntry D) :=
  match cache[key]? with
  | some entry => if entry.expired now then none else some entry
  | none => none

def setMemoryCache (cache : StrMap (MemoryCacheEntry D)) (now : Nat) (key : String)
    (data : Fetched D) : StrMap (MemoryCacheEntry D) :=
  cache.insert key { data := data, timestamp := now, ttl := cacheTTL }

/-- The order in which `runCleanup` evicts: the oldest first.  Entries of one time
come in any order, here that of `rank`. -/
def evictedBefore (rank : String → Nat) (left right : String × MemoryCacheEntry D) : Bool :=
  left.2.timestamp < right.2.timestamp ||
    (left.2.timestamp = right.2.timestamp && rank left.1 ≤ rank right.1)

/-- `ConfigCache.runCleanup`: the expired entries go, and then the oldest ones while
there are too many. -/
def runCleanup (now : Nat) (rank : String → Nat) (cache : StrMap (MemoryCacheEntry D)) :
    StrMap (MemoryCacheEntry D) :=
  let live := cache.filter fun _ entry => !entry.expired now
  if live.size > maxMemoryItems then
    ((live.toList.mergeSort (evictedBefore rank)).take (live.size - maxMemoryItems)).foldl
      (fun cache entry => cache.erase entry.1) live
  else live

/-- The map after an invalidation: `InvalidateCacheByPrefix` and `ClearCache`. -/
def Invalidation.apply (inv : Invalidation) (cache : StrMap (MemoryCacheEntry D)) :
    StrMap (MemoryCacheEntry D) :=
  cache.filter fun key _ => !inv.covers key

/-- An event: a call begins, a goroutine takes its next step, or another method of
the cache is called. -/
inductive Event (D : Type)
  | getCachedConfig (i : Nat) (key : String)
  /-- The clock, and what `fetchFunc` returns if it is its end. -/
  | advance (i : Nat) (now : Nat) (result : Option D)
  | invalidate (inv : Invalidation)
  | runCleanup (now : Nat) (rank : String → Nat)
  | setSkipCache (skip : Bool)

namespace State

def goto (s : State D) (i : Nat) (stage : Stage D) : State D :=
  { s with stages := Function.update s.stages i stage }

def finish (s : State D) (i : Nat) (call : Call) (data : Option (Fetched D)) : State D :=
  { s.goto i .idle with returned := s.returned ++ [⟨call, data⟩] }

/-- The next step of a goroutine in `ConfigCache.GetCachedConfig`. -/
def advance (s : State D) (i : Nat) (now : Nat) (result : Option D) : State D :=
  match s.stages i with
  | .idle => s
  | .called call => s.goto i (if s.skipCache then .missed call else .looking call)
  | .looking call =>
    match getFromMemoryCache s.memoryCache now call.key with
    | some entry => s.finish i call (some entry.data)
    | none => s.goto i (.missed call)
  | .missed call => s.goto i (.fetching call s.invalidations.length)
  | .fetching call began =>
    match result with
    | some data => s.goto i (.fetched call ⟨data, began⟩)
    | none => s.finish i call none
  | .fetched call data =>
    if s.skipCache then s.finish i call (some data) else s.goto i (.storing call data)
  | .storing call data =>
    { s with memoryCache := setMemoryCache s.memoryCache now call.key data }.finish i call
      (some data)

def step (s : State D) : Event D → State D
  | .getCachedConfig i key =>
    match s.stages i with
    | .idle => s.goto i (.called ⟨key, s.invalidations.length⟩)
    | _ => s
  | .advance i now result => s.advance i now result
  | .invalidate inv =>
    { s with
      memoryCache := inv.apply s.memoryCache
      invalidations := s.invalidations ++ [inv] }
  | .runCleanup now rank => { s with memoryCache := runCleanup now rank s.memoryCache }
  | .setSkipCache skip => { s with skipCache := skip }

/-- Every invalidation of the key was over when a fetch with this stamp began. -/
def Current (s : State D) (key : String) (began : Nat) : Prop :=
  ∀ n inv, s.invalidations[n]? = some inv → inv.covers key = true → n < began

/-- **No call returned data that an invalidation before the call had overtaken**: if
the invalidation was over when the call began, then it was over when the fetch of
the data began. -/
def Fresh (s : State D) : Prop :=
  ∀ r ∈ s.returned, ∀ data, r.data = some data →
    ∀ n inv, s.invalidations[n]? = some inv → inv.covers r.call.key = true →
      n < r.call.began → n < data.began

/-- An invalidation of the key came after the fetch began. -/
def overtaken (s : State D) (key : String) (data : Fetched D) : Bool :=
  (s.invalidations.drop data.began).any (·.covers key)

/-- If the event stores data then no invalidation of the key came since its fetch
began. -/
def storesCurrent (s : State D) : Event D → Bool
  | .advance i _ _ =>
    match s.stages i with
    | .storing call data => !s.overtaken call.key data
    | _ => true
  | _ => true

/-! ## What one step can do -/

variable {cache : StrMap (MemoryCacheEntry D)}

theorem of_getElem?_runCleanup {now : Nat} {rank : String → Nat}
    {key : String} {entry : MemoryCacheEntry D}
    (hentry : (runCleanup now rank cache)[key]? = some entry) : cache[key]? = some entry := by
  have hlive : ∀ entry, (cache.filter fun _ entry => !entry.expired now)[key]? = some entry →
      cache[key]? = some entry := by
    intro entry hlive
    rw [Std.ExtTreeMap.getElem?_filter'] at hlive
    exact Option.eq_some_of_filter_eq_some hlive
  have hevicted : ∀ (gone : List (String × MemoryCacheEntry D))
      (live : StrMap (MemoryCacheEntry D)),
      (gone.foldl (fun cache entry => cache.erase entry.1) live)[key]? = some entry →
      live[key]? = some entry := by
    intro gone
    induction gone with
    | nil => exact fun _ h => h
    | cons item rest ih =>
      intro live hrest
      have herased := ih (live.erase item.1) hrest
      rw [OrdMap.getElem?_erase_iff] at herased
      split at herased
      · simp at herased
      · exact herased
  unfold runCleanup at hentry
  simp only at hentry
  split at hentry
  · exact hlive entry (hevicted _ _ hentry)
  · exact hlive entry hentry

theorem of_getFromMemoryCache {now : Nat} {key : String}
    {entry : MemoryCacheEntry D} (hentry : getFromMemoryCache cache now key = some entry) :
    cache[key]? = some entry := by
  unfold getFromMemoryCache at hentry
  cases hfound : cache[key]? with
  | none => simp [hfound] at hentry
  | some found =>
    simp only [hfound] at hentry
    split at hentry
    · simp at hentry
    · exact hentry

/-! ## The invariant -/

end State

/-- The stamps of a stage: the call began before now, and its fetch after it. -/
def Stage.Stamped (now : Nat) : Stage D → Prop
  | .idle => True
  | .called call | .looking call | .missed call => call.began ≤ now
  | .fetching call began => call.began ≤ now ∧ call.began ≤ began
  | .fetched call data | .storing call data => call.began ≤ now ∧ call.began ≤ data.began

theorem Stage.Stamped.mono {stage : Stage D} {now later : Nat} (hstage : stage.Stamped now)
    (hlater : now ≤ later) : stage.Stamped later := by
  cases stage with
  | idle => trivial
  | called call | looking call | missed call => exact hstage.trans hlater
  | fetching call began => exact ⟨hstage.1.trans hlater, hstage.2⟩
  | fetched call data | storing call data => exact ⟨hstage.1.trans hlater, hstage.2⟩

namespace State

/-- What holds in every state, as long as no overtaken data is stored. -/
structure Inv (s : State D) : Prop where
  entries : ∀ (key : String) entry, s.memoryCache[key]? = some entry →
    s.Current key entry.data.began
  stages : ∀ i, (s.stages i).Stamped s.invalidations.length
  began : ∀ r ∈ s.returned, r.call.began ≤ s.invalidations.length
  fresh : s.Fresh

section Step

variable {s : State D} (hs : s.Inv)

include hs

theorem Inv.goto (i : Nat) {stage : Stage D} (hstage : stage.Stamped s.invalidations.length) :
    (s.goto i stage).Inv where
  entries := hs.entries
  stages := by
    intro j
    by_cases hj : j = i
    · subst hj
      simpa [State.goto] using hstage
    · simpa [State.goto, hj] using hs.stages j
  began := hs.began
  fresh := hs.fresh

theorem Inv.withCache
    (hcache : ∀ (key : String) entry, cache[key]? = some entry → s.Current key entry.data.began) :
    { s with memoryCache := cache }.Inv :=
  ⟨hcache, hs.stages, hs.began, hs.fresh⟩

theorem Inv.finish (i : Nat) {call : Call} {data : Option (Fetched D)}
    (hcall : call.began ≤ s.invalidations.length)
    (hdata : ∀ fetched, data = some fetched →
      ∀ n inv, s.invalidations[n]? = some inv → inv.covers call.key = true →
        n < call.began → n < fetched.began) :
    (s.finish i call data).Inv := by
  have hidle : (s.goto i .idle).Inv := hs.goto i trivial
  refine ⟨hidle.entries, hidle.stages, ?_, ?_⟩
  · intro r hr
    rcases List.mem_append.mp hr with hr | hr
    · exact hs.began r hr
    · rw [List.mem_singleton.mp hr]
      exact hcall
  · intro r hr
    rcases List.mem_append.mp hr with hr | hr
    · exact hs.fresh r hr
    · rw [List.mem_singleton.mp hr]
      exact hdata

theorem Inv.invalidate (inv : Invalidation) : (s.step (.invalidate inv)).Inv := by
  have hlength : (s.step (.invalidate inv)).invalidations.length = s.invalidations.length + 1 := by
    simp [step]
  have hget : ∀ n other, (s.invalidations ++ [inv])[n]? = some other →
      s.invalidations[n]? = some other ∨ n = s.invalidations.length ∧ other = inv := by
    intro n other hother
    rw [List.getElem?_append] at hother
    split at hother
    · exact Or.inl hother
    · rw [List.getElem?_singleton] at hother
      split at hother
      · exact Or.inr ⟨by omega, (Option.some.inj hother).symm⟩
      · simp at hother
  refine ⟨?_, ?_, ?_, ?_⟩
  · intro key entry hentry n other hother hcovers
    change (s.memoryCache.filter _)[key]? = _ at hentry
    rw [Std.ExtTreeMap.getElem?_filter', Option.filter_eq_some_iff] at hentry
    rcases hget n other hother with hold | ⟨-, rfl⟩
    · exact hs.entries key entry hentry.1 n other hold hcovers
    · simp [hcovers] at hentry
  · intro i
    exact (hs.stages i).mono (by omega)
  · intro r hr
    exact (hs.began r hr).trans (by omega)
  · intro r hr data hdata n other hother hcovers hbefore
    rcases hget n other hother with hold | ⟨hn, -⟩
    · exact hs.fresh r hr data hdata n other hold hcovers hbefore
    · have hbegan := hs.began r hr
      omega

/-- **The next step of a goroutine.**  A store keeps the entries current because the
condition holds; a hit returns an entry that is current. -/
theorem Inv.advance (i now : Nat) (result : Option D)
    (hstores : s.storesCurrent (.advance i now result) = true) :
    (s.advance i now result).Inv := by
  have hstamped := hs.stages i
  unfold State.advance
  cases hstage : s.stages i with
  | idle => exact hs
  | called call =>
    rw [hstage] at hstamped
    refine hs.goto i ?_
    cases s.skipCache <;> exact hstamped
  | looking call =>
    rw [hstage] at hstamped
    simp only
    cases hfound : getFromMemoryCache s.memoryCache now call.key with
    | none => exact hs.goto i hstamped
    | some entry =>
      refine hs.finish i hstamped ?_
      intro fetched hfetched n inv hinv hcovers _
      rw [← Option.some.inj hfetched]
      exact hs.entries call.key entry (of_getFromMemoryCache hfound) n inv hinv hcovers
  | missed call =>
    rw [hstage] at hstamped
    exact hs.goto i ⟨hstamped, hstamped⟩
  | fetching call began =>
    rw [hstage] at hstamped
    cases result with
    | none => exact hs.finish i hstamped.1 (by simp)
    | some data => exact hs.goto i hstamped
  | fetched call data =>
    rw [hstage] at hstamped
    simp only
    split
    · refine hs.finish i hstamped.1 ?_
      intro fetched hfetched n inv _ _ hbefore
      rw [← Option.some.inj hfetched]
      exact hbefore.trans_le hstamped.2
    · exact hs.goto i hstamped
  | storing call data =>
    rw [hstage] at hstamped
    have hcurrent : s.Current call.key data.began := by
      intro n inv hinv hcovers
      by_contra hlate
      simp only [storesCurrent, hstage, overtaken, Bool.not_eq_true', List.any_eq_false] at hstores
      refine hstores inv ?_ hcovers
      rw [List.mem_iff_getElem?]
      refine ⟨n - data.began, ?_⟩
      rw [List.getElem?_drop, Nat.add_sub_cancel' (by omega)]
      exact hinv
    have hstored : { s with
        memoryCache := setMemoryCache s.memoryCache now call.key data }.Inv := by
      refine hs.withCache ?_
      intro key entry hentry
      rw [setMemoryCache, OrdMap.getElem?_insert_iff] at hentry
      split at hentry
      · rename_i hkey
        rw [← Option.some.inj hentry, ← hkey]
        exact hcurrent
      · exact hs.entries key entry hentry
    refine hstored.finish i hstamped.1 ?_
    intro fetched hfetched n inv _ _ hbefore
    rw [← Option.some.inj hfetched]
    exact hbefore.trans_le hstamped.2

theorem Inv.step {e : Event D} (hstores : s.storesCurrent e = true) : (s.step e).Inv := by
  cases e with
  | getCachedConfig i key =>
    simp only [State.step]
    cases s.stages i with
    | idle =>
      have hcalled : (Stage.called ⟨key, s.invalidations.length⟩ : Stage D).Stamped
          s.invalidations.length := le_rfl
      exact hs.goto i hcalled
    | called | looking | missed | fetching | fetched | storing => exact hs
  | advance i now result => exact hs.advance i now result hstores
  | invalidate inv => exact hs.invalidate inv
  | runCleanup now rank =>
    exact hs.withCache fun key entry hentry => hs.entries key entry (of_getElem?_runCleanup hentry)
  | setSkipCache skip => exact ⟨hs.entries, hs.stages, hs.began, hs.fresh⟩

end Step

theorem inv_init (skip : Bool) : ({ skipCache := skip } : State D).Inv where
  entries := by simp
  stages := fun _ => trivial
  began := by simp
  fresh := by simp [Fresh]

/-! ## The result -/

end State

/-- A load of one key from LDAP by a goroutine, from the call to the return. -/
def loadEvents (i now : Nat) (key result : String) : List (Event String) :=
  [.getCachedConfig i key, .advance i now none, .advance i now none, .advance i now none,
    .advance i now (some result), .advance i now none, .advance i now none]

/-- A loader is abandoned while it fetches; the next cycle invalidates the cache, and
then the loader ends and stores its late result. -/
def abandonedLoader : List (Event String) :=
  (loadEvents 0 0 "ldap:global_config" "old").take 4 ++ [.invalidate (.byPrefix "ldap:")] ++
    (loadEvents 0 0 "ldap:global_config" "old").drop 4

/-- **No call returns data that an invalidation before it had overtaken**, in every
run in which no store was overtaken. -/
theorem fresh_of_stores_current (skip : Bool) (events : List (Event D))
    (hstores : Along State.step (fun s e => s.storesCurrent e = true)
      { skipCache := skip } events) :
    (run State.step ({ skipCache := skip } : State D) events).Fresh :=
  (run_invariant_along (State.inv_init skip) (fun _ _ hs hstores => hs.step hstores) hstores).fresh

theorem fresh_of_two_loads :
    (run State.step {} (loadEvents 0 0 "ldap:global_config" "old" ++
        .invalidate (.byPrefix "ldap:") :: loadEvents 0 1 "ldap:global_config" "new")).returned.map
      (fun r => (r.call.began, r.data)) = [(0, some ⟨"old", 0⟩), (1, some ⟨"new", 1⟩)] ∧
    (run State.step {} (loadEvents 0 0 "ldap:global_config" "old" ++
      .invalidate (.byPrefix "ldap:") :: loadEvents 0 1 "ldap:global_config" "new")).Fresh :=
  ⟨by decide +kernel, fresh_of_stores_current false _ (by decide +kernel)⟩

/-- The load of the next cycle, by another goroutine, gets the late result. -/
theorem not_fresh_of_abandoned_loader :
    (run State.step {} (abandonedLoader ++ loadEvents 1 1 "ldap:global_config" "new")).returned.map
        (fun r => (r.call.began, r.data)) = [(0, some ⟨"old", 0⟩), (1, some ⟨"old", 0⟩)] ∧
      ¬ (run State.step {} (abandonedLoader ++
        loadEvents 1 1 "ldap:global_config" "new")).Fresh := by
  have hreturned : (run State.step {} (abandonedLoader ++
      loadEvents 1 1 "ldap:global_config" "new")).returned[1]?.map (fun r => (r.call, r.data)) =
        some (⟨"ldap:global_config", 1⟩, some ⟨"old", 0⟩) := by decide +kernel
  obtain ⟨r, hr, hshape⟩ := Option.map_eq_some_iff.mp hreturned
  obtain ⟨hcall, hdata⟩ := Prod.mk.inj hshape
  refine ⟨by decide +kernel, fun hfresh => ?_⟩
  have hlate := hfresh r (List.mem_of_getElem? hr) _ hdata 0 (.byPrefix "ldap:")
    (by decide +kernel) (by rw [hcall]; decide +kernel) (by rw [hcall]; decide)
  exact absurd hlate (by decide)

end ConfigCache
end Configd
