import Configd.Lib.Keyed
import Configd.Plan.Deferred

/-!
# The laws of merging restart entries

`plan.MergeRestarts` is called on what is held, on what a cycle deferred and on what it
does, one after another.  `mergeRestarts_laws` says that the grouping of these calls does
not matter, and what the entry of a service in the merged list is: what its entries come
to in their order (`find_mergeRestarts`), with the action of the last one.
-/

namespace Configd

open Lib

/-! ## Two entries of a service -/

def Restart.combine (entry r : Restart) : Restart :=
  { entry with
    action := r.action
    sections := r.sections.foldl appendUnique entry.sections
    reasons := appendReasons entry.reasons r.reasons }

theorem mergeRestart_eq (list : List Restart) (r : Restart) :
    mergeRestart list r = mergeInto Restart.service Restart.combine list r := by
  induction list with
  | nil => rfl
  | cons head rest ih => rw [mergeRestart, mergeInto, ih]; rfl

theorem foldl_appendUnique (list xs : List String) :
    xs.foldl appendUnique list = addAll list xs := rfl

theorem appendReasons_eq (reasons add : List Reason) :
    appendReasons reasons add = addAll reasons add :=
  rfl

theorem Restart.combine_assoc (x y z : Restart) :
    (x.combine y).combine z = x.combine (y.combine z) := by
  simp only [combine, foldl_appendUnique, appendReasons_eq, addAll_assoc]

theorem Restart.service_combine (x r : Restart) : (x.combine r).service = x.service := rfl

theorem classify_classify (action : Action) (service : String) (systemd : Bool) :
    classify (classify action service systemd) service systemd =
      classify action service systemd := by
  unfold classify
  split
  · simp
  · rfl

theorem Restart.classify_classify (systemd : Bool) (x : Restart) :
    (x.classify systemd).classify systemd = x.classify systemd := by
  simp only [Restart.classify, Configd.classify_classify]

/-! ## Merged lists -/

section Merged

variable (systemd : Bool) (a b c : List Restart)

/-- The total of the entries of a service. -/
def restartTotal (list : List Restart) (service : String) : Option Restart :=
  total Restart.service Restart.combine list service

theorem restartTotal_append (list list' : List Restart) (service : String) :
    restartTotal (list ++ list') service =
      join Restart.combine (restartTotal list service) (restartTotal list' service) :=
  total_append Restart.service Restart.combine_assoc list list' service

theorem service_of_total {list : List Restart} {service : String} {x : Restart}
    (h : restartTotal list service = some x) : x.service = service := by
  refine total_induction
    (P := fun list x => (∀ r ∈ list, r.service = service) → x.service = service) ?_ ?_ h ?_
  · intro r hr
    exact hr r (by simp)
  · intro list x r hlist hmore
    exact hlist fun r' hr' => hmore r' (by simp [hr'])
  · intro r hr
    simpa using (List.mem_filter.mp hr).2

theorem total_spec {list : List Restart} {service : String} {x : Restart}
    (h : restartTotal list service = some x) :
    ((list.filter (·.service = service)).getLast?.map Restart.action = some x.action) ∧
      (∀ s, s ∈ x.sections ↔ ∃ r ∈ list, r.service = service ∧ s ∈ r.sections) ∧
      ∀ reason, reason ∈ x.reasons ↔ ∃ r ∈ list, r.service = service ∧ reason ∈ r.reasons := by
  obtain ⟨hlast, hsections, hreasons⟩ := total_induction
    (P := fun list x => (list.getLast?.map Restart.action = some x.action) ∧
      (∀ s, s ∈ x.sections ↔ ∃ r ∈ list, s ∈ r.sections) ∧
      ∀ reason, reason ∈ x.reasons ↔ ∃ r ∈ list, reason ∈ r.reasons) (by simp) (by
    rintro list x r ⟨-, hsections, hreasons⟩
    refine ⟨by simp [Restart.combine], ?_, ?_⟩
    · intro s
      simp [Restart.combine, foldl_appendUnique, mem_addAll, hsections, or_and_right, exists_or]
    · intro reason
      simp [Restart.combine, appendReasons_eq, mem_addAll, hreasons, or_and_right, exists_or]) h
  simp only [List.mem_filter, decide_eq_true_eq, and_assoc] at hsections hreasons
  exact ⟨hlast, hsections, hreasons⟩

theorem sorted_mergeRestarts :
    (mergeRestarts a b systemd).Pairwise fun x y => x.service < y.service := by
  have hnodup := nodup_mergeRestarts a b systemd
  have hsorted : (mergeRestarts a b systemd).Pairwise fun x y => x.service ≤ y.service := by
    rw [mergeRestarts, List.pairwise_map]
    have htotal : Std.Total fun x y : Restart => x.service ≤ y.service :=
      ⟨fun x y => le_total x.service y.service⟩
    have htrans : IsTrans Restart fun x y : Restart => x.service ≤ y.service :=
      ⟨fun x y z => le_trans⟩
    exact List.pairwise_insertionSort _ _
  refine (hsorted.and (List.pairwise_map.mp hnodup)).imp ?_
  rintro x y ⟨hle, hne⟩
  exact lt_of_le_of_ne hle hne

/-- **The entry of a service** in a merged list. -/
theorem find_mergeRestarts (service : String) :
    find Restart.service (mergeRestarts a b systemd) service =
      (restartTotal (a ++ b) service).map (Restart.classify systemd) := by
  have hfold : b.foldl mergeRestart (a.foldl mergeRestart []) =
      (a ++ b).foldl (mergeInto Restart.service Restart.combine) [] := by
    rw [List.foldl_append, show mergeRestart = mergeInto Restart.service Restart.combine from
      funext₂ mergeRestart_eq]
  have hnodup : ((b.foldl mergeRestart (a.foldl mergeRestart [])).map Restart.service).Nodup :=
    foldl_mergeRestart_nodup b (foldl_mergeRestart_nodup a (by simp))
  rw [mergeRestarts, find_map (Restart.classify systemd) fun _ => rfl,
    ← find_eq_of_perm (List.perm_insertionSort _ _).symm hnodup, hfold,
    find_foldl_mergeInto Restart.combine_assoc Restart.service_combine]
  rfl

theorem total_mergeRestarts (service : String) :
    restartTotal (mergeRestarts a b systemd) service =
      (restartTotal (a ++ b) service).map (Restart.classify systemd) := by
  rw [restartTotal, total_eq_find _ Restart.combine_assoc (nodup_mergeRestarts a b systemd),
    find_mergeRestarts]

theorem map_classify_join_left (x y : Option Restart) :
    (join Restart.combine (x.map (Restart.classify systemd)) y).map (Restart.classify systemd) =
      (join Restart.combine x y).map (Restart.classify systemd) := by
  cases x with
  | none => rfl
  | some x =>
    cases y with
    | none => simp [join, Restart.classify_classify]
    | some y => rfl

theorem map_classify_join_right {x y : Option Restart}
    (h : ∀ r ∈ x, ∀ r' ∈ y, r.service = r'.service) :
    (join Restart.combine x (y.map (Restart.classify systemd))).map (Restart.classify systemd) =
      (join Restart.combine x y).map (Restart.classify systemd) := by
  cases x with
  | none => simp [Function.comp_def, Restart.classify_classify]
  | some x =>
    cases y with
    | none => rfl
    | some y =>
      simp [join, Restart.combine, Restart.classify, h x rfl y rfl, classify_classify]

theorem mergeRestarts_assoc :
    mergeRestarts (mergeRestarts a b systemd) c systemd =
      mergeRestarts a (mergeRestarts b c systemd) systemd := by
  refine eq_of_find_eq (sorted_mergeRestarts systemd _ _) (sorted_mergeRestarts systemd _ _) ?_
  intro service
  have hservice : ∀ r ∈ restartTotal a service, ∀ r' ∈ restartTotal (b ++ c) service,
      r.service = r'.service := fun r hr r' hr' =>
    (service_of_total hr).trans (service_of_total hr').symm
  calc find Restart.service (mergeRestarts (mergeRestarts a b systemd) c systemd) service
      = (join Restart.combine (restartTotal (a ++ b) service) (restartTotal c service)).map
          (Restart.classify systemd) := by
        rw [find_mergeRestarts, restartTotal_append, total_mergeRestarts, map_classify_join_left]
    _ = (join Restart.combine (restartTotal a service) (restartTotal (b ++ c) service)).map
          (Restart.classify systemd) := by
        rw [restartTotal_append, restartTotal_append, join_assoc Restart.combine_assoc]
    _ = find Restart.service (mergeRestarts a (mergeRestarts b c systemd) systemd) service := by
        rw [find_mergeRestarts, restartTotal_append a (mergeRestarts b c systemd),
          total_mergeRestarts, map_classify_join_right systemd hservice]

theorem mergeRestarts_eq_self {l l' : List Restart}
    (h : ∀ service, restartTotal (l ++ l') service =
      restartTotal (mergeRestarts a b systemd) service) :
    mergeRestarts l l' systemd = mergeRestarts a b systemd := by
  refine eq_of_find_eq (sorted_mergeRestarts systemd _ _) (sorted_mergeRestarts systemd _ _) ?_
  intro service
  rw [find_mergeRestarts, h, total_mergeRestarts, Option.map_map, find_mergeRestarts]
  congr 1
  funext x
  exact Restart.classify_classify systemd x

end Merged

/-- **Merging restarts.**  The grouping of merges does not matter.  A merged list is in the
order of the services and has one entry for each service of its inputs, with the action of
the last of them, classified, and all their sections and reasons.  Merging it with nothing
leaves it as it is. -/
theorem mergeRestarts_laws (systemd : Bool) (a b c : List Restart) :
    mergeRestarts (mergeRestarts a b systemd) c systemd =
        mergeRestarts a (mergeRestarts b c systemd) systemd ∧
      (mergeRestarts a b systemd).Pairwise (fun x y => x.service < y.service) ∧
      (∀ service, (∃ x ∈ mergeRestarts a b systemd, x.service = service) ↔
        ∃ r ∈ a ++ b, r.service = service) ∧
      (∀ x ∈ mergeRestarts a b systemd,
        (∃ last, ((a ++ b).filter (·.service = x.service)).getLast? = some last ∧
          x.action = classify last.action x.service systemd) ∧
        (∀ s, s ∈ x.sections ↔ ∃ r ∈ a ++ b, r.service = x.service ∧ s ∈ r.sections) ∧
        ∀ reason, reason ∈ x.reasons ↔ ∃ r ∈ a ++ b, r.service = x.service ∧ reason ∈ r.reasons) ∧
      mergeRestarts (mergeRestarts a b systemd) [] systemd = mergeRestarts a b systemd ∧
      mergeRestarts [] (mergeRestarts a b systemd) systemd = mergeRestarts a b systemd := by
  refine ⟨mergeRestarts_assoc systemd a b c, sorted_mergeRestarts systemd a b, ?_, ?_, ?_, ?_⟩
  · intro service
    rw [exists_mem_mergeRestarts]
    simp only [List.mem_append, or_and_right, exists_or]
  · intro x hx
    have hfind := (find_eq_some_iff (nodup_mergeRestarts a b systemd)).mpr hx
    rw [find_mergeRestarts] at hfind
    obtain ⟨y, hy, rfl⟩ := Option.map_eq_some_iff.mp hfind
    obtain ⟨hlast, hsections, hreasons⟩ := total_spec hy
    obtain ⟨last, hget, haction⟩ := Option.map_eq_some_iff.mp hlast
    refine ⟨⟨last, hget, ?_⟩, ?_, ?_⟩
    · rw [haction]
      rfl
    · exact hsections
    · exact hreasons
  · exact mergeRestarts_eq_self systemd a b fun service => by rw [List.append_nil]
  · exact mergeRestarts_eq_self systemd a b fun service => by rw [List.nil_append]

end Configd
