import Configd.Plan.Types

/-!
# Merging restart entries

The small calculus of restart entries (`internal/plan/heavy.go` and `internal/plan/deferred.go`):

* `classify` turns the restart of a heavy service on a systemd host into a pending one and leaves
  every other action alone;
* `mergeRestarts` merges two lists of entries, the later one deciding the action of a service that
  is in both.

`mem_mergeRestarts` says what an entry of a merged list can be, and `exists_mem_mergeRestarts` which
services have one.  A list `Owes` a service when it holds a restart of it, and is `Clean` when it
holds nothing but restarts of it.
-/

namespace Configd

open Lib

/-! ## Heavy services -/

/-- `plan.heavyServices`, with the aliases of each service. -/
def heavyServices : List String :=
  ["mailbox", "mailboxd", "service", "appserver-db", "mysql", "mariadb", "store", "ldap",
    "directory", "directory-server"]

def heavyService (service : String) : Bool :=
  Strings.toLower service ∈ heavyServices

/-- `plan.Classify`: the action a restart entry has on this host. -/
def classify (action : Action) (service : String) (systemd : Bool) : Action :=
  if systemd && action = .restart && heavyService service then .pendingRestart else action

@[simp] theorem classify_isRestart (action : Action) (service : String) (systemd : Bool) :
    (classify action service systemd).IsRestart ↔ action.IsRestart := by
  unfold classify
  split
  · rename_i h
    simp only [Bool.and_eq_true, decide_eq_true_eq] at h
    simp [h.1.2, Action.IsRestart]
  · rfl

/-- The action `classify` gives an entry of the list. -/
def Restart.classify (systemd : Bool) (r : Restart) : Restart :=
  { r with action := Configd.classify r.action r.service systemd }

/-- `plan.mergeRestart`: fold `r` into the entry of its service, or append it. -/
def mergeRestart : List Restart → Restart → List Restart
  | [], r => [r]
  | head :: rest, r =>
    if head.service = r.service then
      { head with
        action := r.action
        sections := r.sections.foldl appendUnique head.sections
        reasons := appendReasons head.reasons r.reasons } :: rest
    else
      head :: mergeRestart rest r

/-- `plan.MergeRestarts`: merge the two lists, sort the result by service and
classify the actions for this host. -/
def mergeRestarts (stale fresh : List Restart) (systemd : Bool) : List Restart :=
  let merged := fresh.foldl mergeRestart (stale.foldl mergeRestart [])
  (merged.insertionSort fun a b => a.service ≤ b.service).map (Restart.classify systemd)

/-! ### What a merged list holds -/

theorem mergeRestart_services (list : List Restart) (r : Restart) :
    (mergeRestart list r).map Restart.service =
      if r.service ∈ list.map Restart.service then list.map Restart.service
      else list.map Restart.service ++ [r.service] := by
  induction list with
  | nil => simp [mergeRestart]
  | cons head rest ih =>
    unfold mergeRestart
    by_cases hsame : head.service = r.service
    · simp [hsame]
    · have hne : r.service ≠ head.service := fun h => hsame h.symm
      simp only [if_neg hsame, List.map_cons, ih, List.mem_cons, hne, false_or]
      split <;> simp

theorem mergeRestart_nodup {list : List Restart} (r : Restart)
    (hlist : (list.map Restart.service).Nodup) :
    ((mergeRestart list r).map Restart.service).Nodup := by
  rw [mergeRestart_services]
  split
  · exact hlist
  · rename_i hnew
    exact List.nodup_append.mpr ⟨hlist, by simp, by
      rintro a ha b hb rfl
      exact hnew (by simpa [List.mem_singleton.mp hb] using ha)⟩

theorem mem_mergeRestart {list : List Restart} {r x : Restart}
    (hlist : (list.map Restart.service).Nodup) (hx : x ∈ mergeRestart list r) :
    (x.service = r.service ∧ x.action = r.action) ∨ (x.service ≠ r.service ∧ x ∈ list) := by
  induction list with
  | nil =>
    have hxr : x = r := by simpa [mergeRestart] using hx
    exact Or.inl ⟨by rw [hxr], by rw [hxr]⟩
  | cons head rest ih =>
    simp only [List.map_cons, List.nodup_cons] at hlist
    unfold mergeRestart at hx
    split at hx
    · rename_i hsame
      rcases List.mem_cons.mp hx with rfl | hrest
      · exact Or.inl ⟨hsame, rfl⟩
      · refine Or.inr ⟨?_, List.mem_cons_of_mem _ hrest⟩
        intro heq
        exact hlist.1 (List.mem_map.mpr ⟨x, hrest, heq.trans hsame.symm⟩)
    · rename_i hdiff
      rcases List.mem_cons.mp hx with rfl | hrest
      · exact Or.inr ⟨hdiff, List.mem_cons_self⟩
      · rcases ih hlist.2 hrest with hnew | ⟨hne, hold⟩
        · exact Or.inl hnew
        · exact Or.inr ⟨hne, List.mem_cons_of_mem _ hold⟩

theorem foldl_mergeRestart_nodup (fresh : List Restart) {init : List Restart}
    (hinit : (init.map Restart.service).Nodup) :
    ((fresh.foldl mergeRestart init).map Restart.service).Nodup := by
  induction fresh generalizing init with
  | nil => exact hinit
  | cons r rest ih => exact ih (mergeRestart_nodup r hinit)

theorem mem_foldl_mergeRestart {fresh init : List Restart} {x : Restart}
    (hinit : (init.map Restart.service).Nodup) (hx : x ∈ fresh.foldl mergeRestart init) :
    (∃ f ∈ fresh, f.service = x.service ∧ f.action = x.action) ∨
      ((∀ f ∈ fresh, f.service ≠ x.service) ∧ x ∈ init) := by
  induction fresh generalizing init with
  | nil => exact Or.inr ⟨by simp, hx⟩
  | cons r rest ih =>
    rcases ih (mergeRestart_nodup r hinit) hx with ⟨f, hf, hsame⟩ | ⟨hnone, hmerged⟩
    · exact Or.inl ⟨f, List.mem_cons_of_mem _ hf, hsame⟩
    · rcases mem_mergeRestart hinit hmerged with ⟨hservice, haction⟩ | ⟨hne, hold⟩
      · exact Or.inl ⟨r, List.mem_cons_self, hservice.symm, haction.symm⟩
      · refine Or.inr ⟨?_, hold⟩
        intro f hf
        rcases List.mem_cons.mp hf with rfl | hrest
        · exact fun h => hne h.symm
        · exact hnone f hrest

theorem mem_services_foldl_mergeRestart (fresh init : List Restart) (service : String) :
    service ∈ (fresh.foldl mergeRestart init).map Restart.service ↔
      service ∈ init.map Restart.service ∨ service ∈ fresh.map Restart.service := by
  induction fresh generalizing init with
  | nil => simp
  | cons r rest ih =>
    rw [List.foldl_cons, ih, mergeRestart_services, List.map_cons, List.mem_cons]
    split
    · rename_i hmem
      constructor
      · rintro (h | h)
        · exact Or.inl h
        · exact Or.inr (Or.inr h)
      · rintro (h | rfl | h)
        · exact Or.inl h
        · exact Or.inl hmem
        · exact Or.inr h
    · rw [List.mem_append, List.mem_singleton, or_assoc]

/-- **What an entry of a merged list can be.**  Its action is that of an entry
of the later list or, when the later list has no entry of its service, that of
an entry of the earlier one; in both cases classified for the host. -/
theorem mem_mergeRestarts {stale fresh : List Restart} {systemd : Bool} {x : Restart}
    (hx : x ∈ mergeRestarts stale fresh systemd) :
    (∃ f ∈ fresh, f.service = x.service ∧ x.action = classify f.action x.service systemd) ∨
      ((∀ f ∈ fresh, f.service ≠ x.service) ∧
        ∃ t ∈ stale, t.service = x.service ∧ x.action = classify t.action x.service systemd) := by
  obtain ⟨y, hy, rfl⟩ := List.mem_map.mp hx
  rw [List.mem_insertionSort] at hy
  have hstale : ((stale.foldl mergeRestart []).map Restart.service).Nodup :=
    foldl_mergeRestart_nodup stale (by simp)
  rcases mem_foldl_mergeRestart hstale hy with ⟨f, hf, hservice, haction⟩ | ⟨hnone, hold⟩
  · exact Or.inl ⟨f, hf, hservice, by rw [haction]; rfl⟩
  · have hnil : (([] : List Restart).map Restart.service).Nodup := by simp
    rcases mem_foldl_mergeRestart hnil hold with ⟨t, ht, hservice, haction⟩ | ⟨-, hmem⟩
    · exact Or.inr ⟨hnone, t, ht, hservice, by rw [haction]; rfl⟩
    · simp at hmem

theorem exists_mem_mergeRestarts (stale fresh : List Restart) (systemd : Bool)
    (service : String) :
    (∃ x ∈ mergeRestarts stale fresh systemd, x.service = service) ↔
      (∃ t ∈ stale, t.service = service) ∨ ∃ f ∈ fresh, f.service = service := by
  have hstale := mem_services_foldl_mergeRestart stale [] service
  have hfresh := mem_services_foldl_mergeRestart fresh (stale.foldl mergeRestart []) service
  rw [hstale] at hfresh
  simp only [List.map_nil, List.not_mem_nil, false_or, List.mem_map] at hfresh
  rw [← hfresh]
  simp [mergeRestarts, List.mem_insertionSort, Restart.classify]

theorem nodup_mergeRestarts (stale fresh : List Restart) (systemd : Bool) :
    ((mergeRestarts stale fresh systemd).map Restart.service).Nodup := by
  have hfold : ((fresh.foldl mergeRestart (stale.foldl mergeRestart [])).map
      Restart.service).Nodup :=
    foldl_mergeRestart_nodup fresh (foldl_mergeRestart_nodup stale (by simp))
  have hname : Restart.service ∘ Restart.classify systemd = Restart.service := rfl
  rw [mergeRestarts, List.map_map, hname]
  exact ((List.perm_insertionSort _ _).map _).nodup_iff.mpr hfold

/-! ### What a merged list owes -/

/-- The list holds a restart of `service`, to be executed or to be flagged. -/
def Owes (list : List Restart) (service : String) : Prop :=
  ∃ r ∈ list, r.service = service ∧ r.action.IsRestart

/-- Every entry of the list for `service` is a restart. -/
def Clean (list : List Restart) (service : String) : Prop :=
  ∀ r ∈ list, r.service = service → r.action.IsRestart

instance (list : List Restart) (service : String) : Decidable (Owes list service) := by
  unfold Owes
  infer_instance

instance (list : List Restart) (service : String) : Decidable (Clean list service) := by
  unfold Clean
  infer_instance

@[simp] theorem clean_nil (service : String) : Clean [] service := by
  simp [Clean]

@[simp] theorem not_owes_nil (service : String) : ¬ Owes [] service := by
  simp [Owes]

theorem owes_mergeRestarts {stale fresh : List Restart} {service : String} (systemd : Bool)
    (hfresh : Clean fresh service) (howes : Owes stale service ∧ Clean stale service ∨
      Owes fresh service) :
    Owes (mergeRestarts stale fresh systemd) service ∧
      Clean (mergeRestarts stale fresh systemd) service := by
  have hclean : Clean (mergeRestarts stale fresh systemd) service := by
    intro x hx hservice
    rcases mem_mergeRestarts hx with ⟨f, hf, hsame, haction⟩ | ⟨hnone, t, ht, hsame, haction⟩
    · rw [haction, classify_isRestart]
      exact hfresh f hf (hsame.trans hservice)
    · rw [haction, classify_isRestart]
      rcases howes with ⟨-, hstale⟩ | ⟨f, hf, hf', -⟩
      · exact hstale t ht (hsame.trans hservice)
      · exact absurd (hf'.trans hservice.symm) (hnone f hf)
  refine ⟨?_, hclean⟩
  have hsome : ∃ x ∈ mergeRestarts stale fresh systemd, x.service = service := by
    rw [exists_mem_mergeRestarts]
    rcases howes with ⟨⟨t, ht, hservice, -⟩, -⟩ | ⟨f, hf, hservice, -⟩
    · exact Or.inl ⟨t, ht, hservice⟩
    · exact Or.inr ⟨f, hf, hservice⟩
  obtain ⟨x, hx, hservice⟩ := hsome
  exact ⟨x, hx, hservice, hclean x hx hservice⟩

theorem clean_mergeRestarts {stale fresh : List Restart} {service : String} (systemd : Bool)
    (hstale : Clean stale service) (hfresh : Clean fresh service) :
    Clean (mergeRestarts stale fresh systemd) service := by
  intro x hx hservice
  rcases mem_mergeRestarts hx with ⟨f, hf, hsame, haction⟩ | ⟨-, t, ht, hsame, haction⟩
  · rw [haction, classify_isRestart]
    exact hfresh f hf (hsame.trans hservice)
  · rw [haction, classify_isRestart]
    exact hstale t ht (hsame.trans hservice)

/-- **What a merged list owes**: what the later list owes and, for the services of
which the later list has no entry, what the earlier one owes. -/
theorem owes_mergeRestarts_iff {stale fresh : List Restart} (systemd : Bool)
    (hstale : (stale.map Restart.service).Nodup) (hfresh : (fresh.map Restart.service).Nodup)
    (service : String) :
    Owes (mergeRestarts stale fresh systemd) service ↔
      Owes fresh service ∨ (∀ f ∈ fresh, f.service ≠ service) ∧ Owes stale service := by
  constructor
  · rintro ⟨x, hx, rfl, hrestart⟩
    rcases mem_mergeRestarts hx with ⟨f, hf, hsame, haction⟩ | ⟨hnone, t, ht, hsame, haction⟩
    · rw [haction, classify_isRestart] at hrestart
      exact Or.inl ⟨f, hf, hsame, hrestart⟩
    · rw [haction, classify_isRestart] at hrestart
      exact Or.inr ⟨hnone, t, ht, hsame, hrestart⟩
  · -- One entry of a service is all its entries, so each side is clean where it counts.
    have hclean : ∀ {list : List Restart}, (list.map Restart.service).Nodup →
        Owes list service → Clean list service := by
      rintro list hlist ⟨r, hr, hservice, hrestart⟩ x hx hxservice
      rwa [List.inj_on_of_nodup_map hlist hx hr (hxservice.trans hservice.symm)]
    rintro (howes | ⟨hnone, howes⟩)
    · exact (owes_mergeRestarts systemd (hclean hfresh howes) (Or.inr howes)).1
    · have hempty : Clean fresh service := fun f hf hservice => absurd hservice (hnone f hf)
      exact (owes_mergeRestarts systemd hempty (Or.inl ⟨howes, hclean hstale howes⟩)).1

end Configd
