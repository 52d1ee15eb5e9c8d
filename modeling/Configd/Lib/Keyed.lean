import Mathlib

/-!
# Lists of entries with keys

A list holds at most one entry of each key, and a further entry is combined with the one of its
key or appended (`mergeInto`).  When combining is associative, the entry of a key after a run of
merges is the `total` of all entries of that key in their order (`find_foldl_mergeInto`).  A list
in the order of its keys is told by its entries (`eq_of_find_eq`).

The sets inside of the entries are lists without order: `addNew` appends what is not there, and
adding several of them one after another is associative (`addAll_assoc`).
-/

namespace Configd
namespace Lib

/-! ## Lists as sets -/

section AddNew

variable {A : Type} [DecidableEq A]

/-- Append what is not there. -/
def addNew (list : List A) (x : A) : List A :=
  if x ∈ list then list else list ++ [x]

/-- Append all that is not there. -/
def addAll (list xs : List A) : List A :=
  xs.foldl addNew list

theorem mem_addNew {list : List A} {x y : A} : y ∈ addNew list x ↔ y ∈ list ∨ y = x := by
  unfold addNew
  split
  · constructor
    · exact Or.inl
    · rintro (hy | rfl) <;> assumption
  · simp

theorem mem_addAll {list xs : List A} {y : A} : y ∈ addAll list xs ↔ y ∈ list ∨ y ∈ xs := by
  unfold addAll
  induction xs generalizing list with
  | nil => simp
  | cons x xs ih => rw [List.foldl_cons, ih, mem_addNew, List.mem_cons, or_assoc]

theorem addAll_addNew (list xs : List A) (x : A) :
    addAll list (addNew xs x) = addNew (addAll list xs) x := by
  by_cases hx : x ∈ xs
  · have hmem : x ∈ addAll list xs := mem_addAll.mpr (Or.inr hx)
    rw [addNew, if_pos hx, addNew, if_pos hmem]
  · rw [addNew, if_neg hx, addAll, List.foldl_append]
    rfl

theorem addAll_assoc (list xs ys : List A) :
    addAll list (addAll xs ys) = addAll (addAll list xs) ys := by
  induction ys generalizing xs with
  | nil => rfl
  | cons y ys ih =>
    have hfirst : ∀ xs : List A, addAll xs (y :: ys) = addAll (addNew xs y) ys := fun _ => rfl
    rw [hfirst, ih, addAll_addNew, hfirst]

end AddNew

/-! ## Entries -/

section Entries

variable {E K : Type} [DecidableEq K] (key : E → K) (combine : E → E → E)

/-- An entry is combined with the one of its key, or appended. -/
def mergeInto : List E → E → List E
  | [], r => [r]
  | head :: rest, r =>
    if key head = key r then combine head r :: rest else head :: mergeInto rest r

/-- The entries of a key on two sides, if there are any. -/
def join : Option E → Option E → Option E
  | none, right => right
  | some left, none => some left
  | some left, some right => some (combine left right)

def find (list : List E) (k : K) : Option E :=
  list.find? (key · = k)

/-- What the entries of a key come to, one after another. -/
def total (list : List E) (k : K) : Option E :=
  (list.filter (key · = k)).foldl (fun entry r => join combine entry (some r)) none

theorem find_cons (head : E) (rest : List E) (k : K) :
    find key (head :: rest) k = if key head = k then some head else find key rest k := by
  unfold find
  by_cases h : key head = k <;> simp [h]

@[simp] theorem join_none_right (left : Option E) : join combine left none = left := by
  cases left <;> rfl

@[simp] theorem join_none_left (right : Option E) : join combine none right = right := rfl

variable {combine} (hassoc : ∀ x y z, combine (combine x y) z = combine x (combine y z))

include hassoc

theorem join_assoc (x y z : Option E) :
    join combine (join combine x y) z = join combine x (join combine y z) := by
  cases x <;> cases y <;> cases z <;> simp [join, hassoc]

theorem foldl_join (list : List E) (entry : Option E) :
    list.foldl (fun entry r => join combine entry (some r)) entry =
      join combine entry (list.foldl (fun entry r => join combine entry (some r)) none) := by
  induction list generalizing entry with
  | nil => simp
  | cons r rest ih =>
    rw [List.foldl_cons, ih, List.foldl_cons, ih (join combine none (some r)), ← join_assoc hassoc,
      join_none_left]

theorem total_append (list list' : List E) (k : K) :
    total key combine (list ++ list') k =
      join combine (total key combine list k) (total key combine list' k) := by
  unfold total
  rw [List.filter_append, List.foldl_append, foldl_join hassoc]

theorem total_cons (r : E) (rest : List E) (k : K) :
    total key combine (r :: rest) k =
      join combine (if key r = k then some r else none) (total key combine rest k) := by
  have hone : total key combine [r] k = if key r = k then some r else none := by
    unfold total
    by_cases h : key r = k <;> simp [h]
  rw [← hone, ← total_append key hassoc]
  rfl

theorem total_eq_find {list : List E} (hnodup : (list.map key).Nodup) (k : K) :
    total key combine list k = find key list k := by
  induction list with
  | nil => rfl
  | cons r rest ih =>
    obtain ⟨hnew, hrest⟩ := List.nodup_cons.mp hnodup
    rw [total_cons key hassoc, ih hrest, find_cons]
    by_cases h : key r = k
    · have hnone : find key rest k = none := by
        rw [find, List.find?_eq_none]
        intro x hx hkey
        exact hnew (List.mem_map.mpr ⟨x, hx, by simpa [h] using hkey⟩)
      rw [if_pos h, if_pos h, hnone, join_none_right]
    · rw [if_neg h, if_neg h, join_none_left]

variable {key} (hkey : ∀ x r, key (combine x r) = key x)

include hkey
omit hassoc

theorem find_mergeInto (list : List E) (r : E) (k : K) :
    find key (mergeInto key combine list r) k =
      join combine (find key list k) (if key r = k then some r else none) := by
  induction list with
  | nil => rw [mergeInto, find_cons]; rfl
  | cons head rest ih =>
    unfold mergeInto
    by_cases hsame : key head = key r
    · rw [if_pos hsame, find_cons, find_cons, hkey, hsame]
      by_cases h : key r = k
      · rw [if_pos h, if_pos h, if_pos h]
        rfl
      · rw [if_neg h, if_neg h, if_neg h, join_none_right]
    · rw [if_neg hsame, find_cons, find_cons, ih]
      by_cases h : key head = k
      · have hother : key r ≠ k := fun hr => hsame (h.trans hr.symm)
        rw [if_pos h, if_pos h, if_neg hother, join_none_right]
      · rw [if_neg h, if_neg h]

include hassoc

/-- **A run of merges**: the entry of a key is the total of its entries. -/
theorem find_foldl_mergeInto (list init : List E) (k : K) :
    find key (list.foldl (mergeInto key combine) init) k =
      join combine (find key init k) (total key combine list k) := by
  induction list generalizing init with
  | nil => simp [total]
  | cons r rest ih =>
    rw [List.foldl_cons, ih, find_mergeInto hkey, join_assoc hassoc, ← total_cons key hassoc]

omit hassoc hkey

theorem total_induction {P : List E → E → Prop} (hone : ∀ r, P [r] r)
    (hmore : ∀ list x r, P list x → P (list ++ [r]) (combine x r)) {list : List E} {k : K} {x : E}
    (h : total key combine list k = some x) : P (list.filter (key · = k)) x := by
  have hlast : ∀ (entries : List E) (r : E) (entry : Option E),
      (entries ++ [r]).foldl (fun entry r => join combine entry (some r)) entry =
        join combine (entries.foldl (fun entry r => join combine entry (some r)) entry)
          (some r) := by
    intro entries r entry
    rw [List.foldl_append]
    rfl
  unfold total at h
  generalize list.filter (key · = k) = entries at h
  induction entries using List.reverseRecOn generalizing x with
  | nil => cases h
  | append_singleton entries r ih =>
    rw [hlast] at h
    rcases List.eq_nil_or_concat entries with rfl | ⟨before, r', rfl⟩
    · obtain rfl : r = x := Option.some.inj h
      exact hone r
    · rw [List.concat_eq_append, hlast] at h ih
      obtain ⟨y, hy⟩ : ∃ y, join combine (before.foldl
          (fun entry r => join combine entry (some r)) none) (some r') = some y := by
        cases before.foldl (fun entry r => join combine entry (some r)) none
        · exact ⟨_, rfl⟩
        · exact ⟨_, rfl⟩
      rw [hy] at h
      obtain rfl : combine y r = x := Option.some.inj h
      rw [List.concat_eq_append]
      exact hmore _ y r (ih hy)

end Entries

/-! ## Lists in the order of their keys -/

section Sorted

variable {E K : Type} [Preorder K] {key : E → K} {list list' : List E}

variable (key) in
theorem eq_of_sorted (h : list.Pairwise fun a b => key a < key b)
    (h' : list'.Pairwise fun a b => key a < key b) (hmem : ∀ a, a ∈ list ↔ a ∈ list') :
    list = list' := by
  have hnodup : ∀ {list : List E}, (list.Pairwise fun a b => key a < key b) → list.Nodup := by
    intro list hsorted
    exact List.Pairwise.imp (fun hlt heq => absurd (congrArg key heq) (ne_of_lt hlt)) hsorted
  refine List.Perm.eq_of_pairwise ?_ h h'
    ((List.perm_ext_iff_of_nodup (hnodup h) (hnodup h')).mpr hmem)
  intro a b _ _ hab hba
  exact absurd hba (lt_asymm hab)

theorem nodup_map_of_sorted (h : list.Pairwise fun a b => key a < key b) : (list.map key).Nodup :=
  List.pairwise_map.mpr (h.imp fun hlt => ne_of_lt hlt)

omit [Preorder K] in
theorem find_eq_some_iff [DecidableEq K] (hnodup : (list.map key).Nodup) {a : E} :
    find key list (key a) = some a ↔ a ∈ list := by
  constructor
  · exact List.mem_of_find?_eq_some
  · intro ha
    obtain ⟨b, hb⟩ := Option.isSome_iff_exists.mp
      (List.find?_isSome (p := (key · = key a)).mpr ⟨a, ha, by simp⟩)
    have hkey : key b = key a := by simpa using List.find?_some hb
    rw [← List.inj_on_of_nodup_map hnodup (List.mem_of_find?_eq_some hb) ha hkey]
    rw [← hkey] at hb
    exact hb

omit [Preorder K] in
theorem find_eq_of_perm [DecidableEq K] (hperm : list.Perm list') (hnodup : (list.map key).Nodup)
    (k : K) : find key list k = find key list' k := by
  have hnodup' : (list'.map key).Nodup := (hperm.map key).nodup_iff.mp hnodup
  have hself : ∀ {list : List E} {a : E}, find key list k = some a → key a = k := by
    intro list a ha
    simpa using List.find?_some ha
  ext a
  constructor
  · intro ha
    obtain rfl := hself ha
    exact (find_eq_some_iff hnodup').mpr (hperm.mem_iff.mp ((find_eq_some_iff hnodup).mp ha))
  · intro ha
    obtain rfl := hself ha
    exact (find_eq_some_iff hnodup).mpr (hperm.mem_iff.mpr ((find_eq_some_iff hnodup').mp ha))

omit [Preorder K] in
theorem find_map [DecidableEq K] (f : E → E) (hf : ∀ a, key (f a) = key a) (k : K) :
    find key (list.map f) k = (find key list k).map f := by
  unfold find
  rw [List.find?_map]
  congr 2
  funext a
  simp [hf]

/-- **Lists in strict order** are told by the entries of the keys. -/
theorem eq_of_find_eq [DecidableEq K] (h : list.Pairwise fun a b => key a < key b)
    (h' : list'.Pairwise fun a b => key a < key b)
    (hfind : ∀ k, find key list k = find key list' k) : list = list' := by
  refine eq_of_sorted key h h' fun a => ?_
  rw [← find_eq_some_iff (nodup_map_of_sorted h), ← find_eq_some_iff (nodup_map_of_sorted h'),
    hfind]

end Sorted

end Lib
end Configd
