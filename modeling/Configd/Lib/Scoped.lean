import Configd.Lib.OrdMap

/-!
# Entries of a map overridden for a while

A map of pointers, some of which may be nil, is changed for the length of a computation and
then put back.  The entry of a key is kept under a *shadow* of the key: `save` copies it there,
a nil pointer standing for no entry, and `restore` brings it back and drops the shadow.

`foldl_restore` is the rule: whatever happened to the keys in between, the map is the one it was,
if it had no shadows and no nil pointers under the keys.
-/

namespace Configd
namespace Lib
namespace Scoped

variable {K V : Type} [Ord K] [Std.TransOrd K] [Std.LawfulEqOrd K] [DecidableEq K]
  (shadow : K → K)

/-- The entry of a key copied to its shadow. -/
def save (map : OrdMap K (Option V)) (key : K) : OrdMap K (Option V) :=
  map.insert (shadow key) (map[key]?.getD none)

/-- The entry of a key brought back from its shadow, if there is one. -/
def restore (map : OrdMap K (Option V)) (key : K) : OrdMap K (Option V) :=
  match map[shadow key]? with
  | none => map
  | some (some original) => (map.insert key (some original)).erase (shadow key)
  | some none => (map.erase key).erase (shadow key)

/-- What a map has to hold for the keys to be put back as they were in the original: their
entries under the shadows, and everything else unchanged. -/
structure Keeps (keys : List K) (original map : OrdMap K (Option V)) : Prop where
  saved : ∀ key ∈ keys, map[shadow key]? = some (original[key]?.getD none)
  others : ∀ key, key ∉ keys → key ∉ keys.map shadow → map[key]? = original[key]?

theorem getElem?_save (map : OrdMap K (Option V)) (key other : K) :
    (save shadow map key)[other]? =
      if shadow key = other then some (map[key]?.getD none) else map[other]? :=
  OrdMap.getElem?_insert_iff map (shadow key) other _

variable {shadow}

theorem getElem?_restore {map : OrdMap K (Option V)} {key : K} {original : Option (Option V)}
    (hne : shadow key ≠ key) (hnil : original ≠ some none)
    (hsaved : map[shadow key]? = some (original.getD none)) (other : K) :
    (restore shadow map key)[other]? =
      if other = key then original else if other = shadow key then none else map[other]? := by
  have hgoal : ∀ {map' : OrdMap K (Option V)}, map'[key]? = original →
      (∀ other, key ≠ other → map'[other]? = map[other]?) →
      (map'.erase (shadow key))[other]? =
        if other = key then original else if other = shadow key then none else map[other]? := by
    intro map' hkey hothers
    rw [OrdMap.getElem?_erase_iff]
    by_cases hother : other = key
    · subst hother
      rw [if_neg hne, if_pos rfl, hkey]
    · rw [if_neg hother, hothers other (Ne.symm hother)]
      by_cases hshadow : other = shadow key
      · rw [if_pos hshadow, if_pos hshadow.symm]
      · rw [if_neg hshadow, if_neg (Ne.symm hshadow)]
  simp only [restore, hsaved]
  cases original with
  | none =>
    refine hgoal ?_ fun other hother => ?_
    · rw [OrdMap.getElem?_erase_iff, if_pos rfl]
    · rw [OrdMap.getElem?_erase_iff, if_neg hother]
  | some pointer =>
    cases pointer with
    | none => exact absurd rfl hnil
    | some value =>
      refine hgoal ?_ fun other hother => ?_
      · rw [OrdMap.getElem?_insert_iff, if_pos rfl]
      · rw [OrdMap.getElem?_insert_iff, if_neg hother]

theorem Keeps.restore {key : K} {keys : List K} {original map : OrdMap K (Option V)}
    (h : Keeps shadow (key :: keys) original map) (hnodup : (key :: keys).Nodup)
    (hinj : Function.Injective shadow)
    (hfresh : ∀ k ∈ key :: keys, ∀ j ∈ key :: keys, shadow k ≠ j)
    (hnil : ∀ k ∈ key :: keys, original[k]? ≠ some none)
    (hfree : ∀ k ∈ key :: keys, original[shadow k]? = none) :
    Keeps shadow keys original (Scoped.restore shadow map key) := by
  have hkey : key ∈ key :: keys := List.mem_cons_self
  have hstep := getElem?_restore (hfresh key hkey key hkey) (hnil key hkey) (h.saved key hkey)
  constructor
  · intro k hk
    have hk' : k ∈ key :: keys := List.mem_cons_of_mem key hk
    have hne : k ≠ key := by
      rintro rfl
      exact (List.nodup_cons.mp hnodup).1 hk
    rw [hstep, if_neg (hfresh k hk' key hkey), if_neg fun heq => hne (hinj heq), h.saved k hk']
  · intro k hk hshadow
    rw [hstep]
    by_cases hself : k = key
    · rw [if_pos hself, hself]
    · rw [if_neg hself]
      by_cases hselfShadow : k = shadow key
      · rw [if_pos hselfShadow, hselfShadow, hfree key hkey]
      · rw [if_neg hselfShadow]
        exact h.others k (by simp [hself, hk]) (by simpa [hselfShadow] using hshadow)

/-- **Restoring all the keys gives the original back.** -/
theorem foldl_restore {keys : List K} {original map : OrdMap K (Option V)}
    (h : Keeps shadow keys original map) (hnodup : keys.Nodup)
    (hinj : Function.Injective shadow) (hfresh : ∀ k ∈ keys, ∀ j ∈ keys, shadow k ≠ j)
    (hnil : ∀ k ∈ keys, original[k]? ≠ some none)
    (hfree : ∀ k ∈ keys, original[shadow k]? = none) :
    keys.foldl (restore shadow) map = original := by
  induction keys generalizing map with
  | nil =>
    refine Std.ExtTreeMap.ext_getElem? fun {k} => ?_
    exact h.others k (by simp) (by simp)
  | cons key keys ih =>
    rw [List.foldl_cons]
    exact ih (h.restore hnodup hinj hfresh hnil hfree) hnodup.of_cons
      (fun k hk j hj => hfresh k (List.mem_cons_of_mem _ hk) j (List.mem_cons_of_mem _ hj))
      (fun k hk => hnil k (List.mem_cons_of_mem _ hk))
      (fun k hk => hfree k (List.mem_cons_of_mem _ hk))

end Scoped
end Lib
end Configd
