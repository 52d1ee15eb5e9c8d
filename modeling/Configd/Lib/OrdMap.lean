import Configd.Lib.Loop

/-!
# Finite maps with ordered keys

A mutable map of the modelled language is the extensional tree map of the standard library, whose
enumeration in key order is what a program gets that sorts the keys of its hash map before ranging
over them.  This module adds *fetch the entry or create it, then change it* (`upsert`), and

* `getElem?_upsert` — one update touches one key;
* `mem_valuesList_iff` — the enumerated values are exactly the stored ones;
* `nodup_map_valuesList` — when every value names its own key, no name is enumerated twice;
* `find?_name_of_nodup` — a name that is listed once finds its item;
* `getElem?_foldl_toList` — a loop over the entries of one map that touches, in another map, only
  the key it is at, acts key by key;
* `getElem?_foldl_insert` — a loop that stores a value under some of its keys;
* `foldl_toList_of_single` — a loop that does something at one key only;
* `getElem?_foldl_insertOf` — of the entries a loop stores under a key the last is left.
-/

set_option linter.unusedSectionVars false

namespace Configd
namespace Lib

/-- A finite map with ordered keys, enumerated in key order. -/
abbrev OrdMap (K V : Type) [Ord K] := Std.ExtTreeMap K V compare

/-- A finite map keyed by strings. -/
abbrev StrMap (V : Type) := OrdMap String V

namespace OrdMap

variable {K V W : Type} [Ord K] [Std.TransOrd K] [Std.LawfulEqOrd K] [DecidableEq K]

/-- Fetch the entry of `key`, creating `fresh` when there is none, and replace
it by its image under `change`. -/
def upsert (map : OrdMap K V) (key : K) (fresh : V) (change : V → V) : OrdMap K V :=
  map.insert key (change (map[key]?.getD fresh))

theorem getElem?_upsert (map : OrdMap K V) (key other : K) (fresh : V) (change : V → V) :
    (map.upsert key fresh change)[other]? =
      if key = other then some (change (map[key]?.getD fresh)) else map[other]? := by
  simp [upsert, Std.ExtTreeMap.getElem?_insert]

@[simp] theorem getElem?_upsert_self (map : OrdMap K V) (key : K) (fresh : V)
    (change : V → V) :
    (map.upsert key fresh change)[key]? = some (change (map[key]?.getD fresh)) := by
  simp [getElem?_upsert]

theorem getElem?_upsert_of_ne (map : OrdMap K V) {key other : K} (fresh : V)
    (change : V → V) (hne : key ≠ other) :
    (map.upsert key fresh change)[other]? = map[other]? := by
  simp [getElem?_upsert, hne]

theorem getElem?_insert_iff (map : OrdMap K V) (key other : K) (value : V) :
    (map.insert key value)[other]? = if key = other then some value else map[other]? := by
  simp [Std.ExtTreeMap.getElem?_insert]

theorem getElem?_erase_iff (map : OrdMap K V) (key other : K) :
    (map.erase key)[other]? = if key = other then none else map[other]? := by
  simp [Std.ExtTreeMap.getElem?_erase]

theorem mem_iff_getElem?_isSome (map : OrdMap K V) (key : K) :
    key ∈ map ↔ ∃ value, map[key]? = some value := by
  rw [Std.ExtTreeMap.mem_iff_isSome_getElem?, Option.isSome_iff_exists]

theorem getElem?_eq_none_iff (map : OrdMap K V) (key : K) :
    map[key]? = none ↔ key ∉ map := by
  rw [mem_iff_getElem?_isSome]
  cases map[key]? <;> simp

theorem nodup_map_fst_toList (source : OrdMap K W) : (source.toList.map Prod.fst).Nodup := by
  rw [Std.ExtTreeMap.map_fst_toList_eq_keys]
  refine (Std.ExtTreeMap.distinct_keys (t := source)).imp ?_
  intro left right hne heq
  exact hne (Std.LawfulEqCmp.compare_eq_iff_eq.mpr heq)

/-- The values of a map in the order of their keys. -/
def valuesList (map : OrdMap K V) : List V :=
  map.toList.map Prod.snd

theorem mem_valuesList_iff (map : OrdMap K V) (value : V) :
    value ∈ map.valuesList ↔ ∃ key : K, map[key]? = some value := by
  simp only [valuesList, List.mem_map, Prod.exists]
  constructor
  · rintro ⟨key, found, hmem, rfl⟩
    exact ⟨key, Std.ExtTreeMap.mem_toList_iff_getElem?_eq_some.mp hmem⟩
  · rintro ⟨key, hkey⟩
    exact ⟨key, value, Std.ExtTreeMap.mem_toList_iff_getElem?_eq_some.mpr hkey, rfl⟩

/-- Every stored value carries the key it is stored under. -/
def Keyed (name : V → K) (map : OrdMap K V) : Prop :=
  ∀ key value, map[key]? = some value → name value = key

theorem keyed_empty (name : V → K) : Keyed name (∅ : OrdMap K V) := by
  intro key value hkey
  simp at hkey

variable {name : V → K} {map : OrdMap K V}

theorem Keyed.insert (hmap : Keyed name map)
    {key : K} {value : V} (hname : name value = key) :
    Keyed name (map.insert key value) := by
  intro other found hfound
  rw [getElem?_insert_iff] at hfound
  split at hfound
  · rename_i heq
    cases hfound
    exact hname.trans heq
  · exact hmap other found hfound

theorem Keyed.upsert (hmap : Keyed name map)
    {key : K} {fresh : V} {change : V → V} (hfresh : name fresh = key)
    (hchange : ∀ value, name (change value) = name value) :
    Keyed name (map.upsert key fresh change) := by
  apply hmap.insert
  rw [hchange]
  cases hkey : map[key]? with
  | none => simpa using hfresh
  | some value => simpa using hmap key value hkey

theorem Keyed.getElem?_of_mem (hmap : Keyed name map)
    {value : V} (hmem : value ∈ map.valuesList) : map[name value]? = some value := by
  obtain ⟨key, hkey⟩ := (mem_valuesList_iff map value).mp hmem
  rw [hmap key value hkey]
  exact hkey

theorem Keyed.map_valuesList (hmap : Keyed name map) :
    map.valuesList.map name = map.keys := by
  rw [valuesList, List.map_map, ← Std.ExtTreeMap.map_fst_toList_eq_keys]
  apply List.map_congr_left
  rintro ⟨key, value⟩ hmem
  exact hmap key value (Std.ExtTreeMap.mem_toList_iff_getElem?_eq_some.mp hmem)

theorem nodup_map_valuesList (hmap : Keyed name map) :
    (map.valuesList.map name).Nodup := by
  rw [hmap.map_valuesList, ← Std.ExtTreeMap.map_fst_toList_eq_keys]
  exact nodup_map_fst_toList map

theorem find?_name_of_nodup {items : List V} (hitems : (items.map name).Nodup)
    {item : V} (hitem : item ∈ items) :
    items.find? (fun other => name other = name item) = some item := by
  rw [List.find?_eq_some_iff_append]
  obtain ⟨before, after, rfl⟩ := List.append_of_mem hitem
  refine ⟨by simp, before, after, rfl, ?_⟩
  intro other hother
  have hne : name other ≠ name item := by
    intro heq
    rw [List.map_append, List.nodup_append] at hitems
    exact hitems.2.2 (name other) (List.mem_map_of_mem hother) (name item) (by simp) heq
  simpa using hne

/-! ## Loops over the entries of a map -/

section Loop

variable (step : OrdMap K V → K × W → OrdMap K V) (image : K → Option V → W → Option V)
  (hself : ∀ map item, (step map item)[item.1]? = image item.1 map[item.1]? item.2)
  (hother : ∀ map item key, item.1 ≠ key → (step map item)[key]? = map[key]?)

include hself hother in
/-- **A loop over the entries of a map acts key by key.** -/
theorem getElem?_foldl_toList (source : OrdMap K W) (dst : OrdMap K V) (key : K) :
    (source.toList.foldl step dst)[key]? =
      source[key]?.elim dst[key]? (image key dst[key]?) := by
  cases hkey : source[key]? with
  | some value =>
    exact foldl_view_of_mem (fun (map : OrdMap K V) k => map[k]?) step Prod.fst hother
      (fun item old new => new = image item.1 old item.2) hself (nodup_map_fst_toList source) dst
      (Std.ExtTreeMap.mem_toList_iff_getElem?_eq_some.mpr hkey)
  | none =>
    apply foldl_view_of_not_mem (fun (map : OrdMap K V) k => map[k]?) step Prod.fst hother
    rw [Std.ExtTreeMap.map_fst_toList_eq_keys, Std.ExtTreeMap.mem_keys]
    exact (getElem?_eq_none_iff source key).mp hkey

end Loop

theorem getElem?_foldl_insert (value : K → V) (test : K → Bool) (keys : List K)
    (map : OrdMap K V) (key : K) :
    (keys.foldl (fun map key => if test key then map.insert key (value key) else map) map)[key]? =
      if key ∈ keys ∧ test key = true then some (value key) else map[key]? := by
  rw [foldl_of_idempotent (fun map : OrdMap K V => map[key]?) _
    (fun item => decide (item = key) && test key) (fun _ => some (value key)) (fun _ => rfl)]
  · congr 1
    simp only [List.any_eq_true, Bool.and_eq_true, decide_eq_true_eq, eq_iff_iff]
    constructor
    · rintro ⟨item, hmem, rfl, htest⟩
      exact ⟨hmem, htest⟩
    · rintro ⟨hmem, htest⟩
      exact ⟨key, hmem, rfl, htest⟩
  · intro state item
    by_cases heq : item = key
    · subst heq
      cases htest : test item <;> simp
    · cases htest : test item <;> simp [heq, getElem?_insert_iff]

theorem foldl_toList_of_single {S : Type} {step : S → K × V → S} {source : OrdMap K V} {key : K}
    {value : V} (hkey : source[key]? = some value)
    (hother : ∀ state entry, entry.1 ≠ key → step state entry = state) (state : S) :
    source.toList.foldl step state = step state (key, value) := by
  have hskip : ∀ (entries : List (K × V)), (∀ entry ∈ entries, entry.1 ≠ key) →
      ∀ state, entries.foldl step state = state := by
    intro entries
    induction entries with
    | nil => exact fun _ _ => rfl
    | cons entry rest ih =>
      intro hne state
      rw [List.foldl_cons, hother state entry (hne entry (by simp))]
      exact ih (fun other hmem => hne other (List.mem_cons_of_mem entry hmem)) state
  obtain ⟨before, after, hlist⟩ :=
    List.append_of_mem (Std.ExtTreeMap.mem_toList_iff_getElem?_eq_some.mpr hkey)
  have hnodup := nodup_map_fst_toList source
  rw [hlist, List.map_append, List.map_cons, List.nodup_append, List.nodup_cons] at hnodup
  rw [hlist, List.foldl_append, List.foldl_cons, hskip before, hskip after]
  · intro entry hmem heq
    exact hnodup.2.1.1 (List.mem_map.mpr ⟨entry, hmem, heq⟩)
  · intro entry hmem heq
    exact hnodup.2.2 entry.1 (List.mem_map_of_mem hmem) key (by simp) heq

/-- A round that stores an entry, or nothing. -/
def insertOf (map : OrdMap K V) : Option (K × V) → OrdMap K V
  | some e => map.insert e.1 e.2
  | none => map

/-- The last entry a loop stores under a key. -/
def lastOf {α : Type} (entry : α → Option (K × V)) (items : List α) (key : K) : Option V :=
  items.reverse.findSome? fun item =>
    (entry item).bind fun e => if e.1 = key then some e.2 else none

theorem lastOf_eq_some {α : Type} {entry : α → Option (K × V)} {items : List α} {key : K} {v : V}
    (h : lastOf entry items key = some v) : ∃ item ∈ items, entry item = some (key, v) := by
  obtain ⟨item, hitem, hbind⟩ := List.exists_of_findSome?_eq_some h
  obtain ⟨e, hentry, hkey⟩ := Option.bind_eq_some_iff.mp hbind
  split at hkey
  · rename_i heq
    obtain rfl := Option.some.inj hkey
    exact ⟨item, List.mem_reverse.mp hitem, by rw [hentry, ← heq]⟩
  · cases hkey

theorem lastOf_eq_none {α : Type} {entry : α → Option (K × V)} {items : List α} {key : K}
    (h : lastOf entry items key = none) : ∀ item ∈ items, ∀ v, entry item ≠ some (key, v) := by
  intro item hitem v hentry
  have hnone := List.findSome?_eq_none_iff.mp h item (List.mem_reverse.mpr hitem)
  rw [hentry] at hnone
  simp at hnone

theorem getElem?_foldl_insertOf {α : Type} (entry : α → Option (K × V)) (items : List α)
    (map : OrdMap K V) (key : K) :
    (items.foldl (fun map item => map.insertOf (entry item)) map)[key]? =
      (lastOf entry items key).or map[key]? := by
  induction items using List.reverseRecOn with
  | nil => simp [lastOf]
  | append_singleton items item ih =>
    rw [List.foldl_append, List.foldl_cons, List.foldl_nil]
    cases hentry : entry item with
    | none => simpa [lastOf, insertOf, hentry] using ih
    | some e =>
      by_cases hkey : e.1 = key
      · simp [lastOf, insertOf, hentry, hkey]
      · simpa [lastOf, insertOf, hentry, hkey, getElem?_insert_iff] using ih

section InsertIf

variable {α : Type} {test : α → Bool} {name : α → K} {value : α → V} {items : List α} {key : K}
  {v : V}

theorem foldl_insertIf (test : α → Bool) (name : α → K) (value : α → V) (items : List α) :
    items.foldl (fun map item => if test item then map.insert (name item) (value item) else map)
        (∅ : OrdMap K V) =
      items.foldl (fun map item => map.insertOf
        (if test item then some (name item, value item) else none)) ∅ := by
  congr 1
  funext map item
  split <;> rfl

theorem exists_of_foldl_insertIf
    (h : (items.foldl (fun map item =>
      if test item then map.insert (name item) (value item) else map)
      (∅ : OrdMap K V))[key]? = some v) :
    ∃ item ∈ items, test item = true ∧ name item = key ∧ value item = v := by
  rw [foldl_insertIf, getElem?_foldl_insertOf, Std.ExtTreeMap.getElem?_empty, Option.or_none] at h
  obtain ⟨item, hitem, hentry⟩ := lastOf_eq_some h
  split at hentry
  next htest =>
    obtain ⟨hname, hvalue⟩ := Prod.mk.inj (Option.some.inj hentry)
    exact ⟨item, hitem, htest, hname, hvalue⟩
  next => exact nomatch hentry

theorem getElem?_foldl_insertIf (test : α → Bool) (name : α → K) (value : α → V) {item : α}
    (hitem : item ∈ items) (htest : test item = true)
    (hunique : ∀ other ∈ items, test other = true → name other = name item →
      value other = value item) :
    (items.foldl (fun map item => if test item then map.insert (name item) (value item) else map)
      (∅ : OrdMap K V))[name item]? = some (value item) := by
  cases h : (items.foldl (fun map item =>
      if test item then map.insert (name item) (value item) else map)
        (∅ : OrdMap K V))[name item]? with
  | some v =>
    obtain ⟨other, hother, hothertest, hname, rfl⟩ := exists_of_foldl_insertIf h
    rw [hunique other hother hothertest hname]
  | none =>
    rw [foldl_insertIf, getElem?_foldl_insertOf, Std.ExtTreeMap.getElem?_empty, Option.or_none] at h
    exact absurd (if_pos htest) (lastOf_eq_none h item hitem (value item))

end InsertIf

theorem getElem?_foldlM_insertOf {S α : Type} {step : S → α → Option S} {items : List α}
    {s s' : S} (view : S → OrdMap K V) (entry : α → Option (K × V))
    (hstep : ∀ item ∈ items, ∀ s s', step s item = some s' →
      view s' = (view s).insertOf (entry item))
    (h : items.foldlM step s = some s') (key : K) :
    (view s')[key]? = (lastOf entry items key).or (view s)[key]? := by
  rw [view_of_foldlM view (fun map item => map.insertOf (entry item)) hstep h,
    getElem?_foldl_insertOf]

theorem lastOf_filterMap {α β : Type} (entry : α → Option (K × V)) (pick : β → Option α)
    (items : List β) (key : K) :
    lastOf entry (items.filterMap pick) key =
      lastOf (fun item => (pick item).bind entry) items key := by
  unfold lastOf
  rw [← List.filterMap_reverse]
  induction items.reverse with
  | nil => rfl
  | cons item rest ih =>
    cases hpick : pick item with
    | none =>
      rw [List.filterMap_cons_none hpick, ih, List.findSome?_cons]
      simp only [hpick, Option.bind_none]
    | some a =>
      rw [List.filterMap_cons_some hpick, List.findSome?_cons, ih, List.findSome?_cons]
      simp only [hpick, Option.bind_some]

def lastNamed {α : Type} (name : α → Option K) (items : List α) (key : K) : Option α :=
  items.reverse.find? fun item => decide (name item = some key)

theorem lastNamed_eq_some {α : Type} {name : α → Option K} {items : List α} {key : K} {item : α}
    (h : lastNamed name items key = some item) : item ∈ items ∧ name item = some key := by
  refine ⟨List.mem_reverse.mp (List.mem_of_find?_eq_some h), ?_⟩
  simpa using List.find?_some h

theorem lastOf_eq_lastNamed {α : Type} {entry : α → Option (K × V)} {name : α → Option K}
    {value : α → Option V} {items : List α}
    (hentry : ∀ item ∈ items, entry item = (name item).bind fun key =>
      (value item).map fun v => (key, v))
    (hvalue : ∀ item ∈ items, name item ≠ none → value item ≠ none) (key : K) :
    lastOf entry items key = (lastNamed name items key).bind value := by
  unfold lastOf lastNamed
  have hentry' : ∀ item ∈ items.reverse, _ := fun item h => hentry item (List.mem_reverse.mp h)
  have hvalue' : ∀ item ∈ items.reverse, _ := fun item h => hvalue item (List.mem_reverse.mp h)
  generalize items.reverse = items at hentry' hvalue'
  induction items with
  | nil => rfl
  | cons item rest ih =>
    have hrest := ih (fun item h => hentry' item (List.mem_cons_of_mem _ h))
      fun item h => hvalue' item (List.mem_cons_of_mem _ h)
    rw [List.findSome?_cons, List.find?_cons, hentry' item List.mem_cons_self, hrest]
    cases hname : name item with
    | none => simp
    | some k =>
      obtain ⟨v, hv⟩ := Option.ne_none_iff_exists'.mp
        (hvalue' item List.mem_cons_self (by simp [hname]))
      by_cases hkey : k = key
      · simp [hv, hkey]
      · simp [hv, hkey]

end OrdMap
end Lib
end Configd
