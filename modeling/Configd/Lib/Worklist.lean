import Mathlib

/-!
# Worklists

A worklist algorithm takes an item off its list and puts the items it leads to on it.  Whether it
comes to an end depends on the relation *leads to* alone:

* `acc_handles` — when no chain of the relation that starts on the list is infinite, no sequence of
  handled items is;
* `exists_not_acc_of_handled` — when an infinite chain starts on the list, one still does after an
  item was handled with everything it leads to;
* `acc_iff_no_cycle` — when an item reaches finitely many others, no infinite chain starts at it
  exactly when it reaches no cycle.

`iterate` is a loop with a bound on its rounds: it returns (`exists_iterate_of_acc`) or never does
(`iterate_eq_none`).
-/

namespace Configd
namespace Lib
namespace Worklist

open Relation

variable {α : Type} [DecidableEq α]

/-- An item of `q` was taken off, and items it leads to were put on. -/
def Handles (leads : α → α → Prop) (q q' : Finset α) : Prop :=
  ∃ a ∈ q, ∃ t : Finset α, (∀ b ∈ t, leads a b) ∧ q' = q.erase a ∪ t

theorem handles_of_mem {leads : α → α → Prop} {q q' : Finset α} {a : α} (ha : a ∈ q)
    (hkeeps : ∀ b ∈ q.erase a, b ∈ q') (hnew : ∀ b ∈ q', b ∈ q.erase a ∨ leads a b) :
    Handles leads q q' := by
  refine ⟨a, ha, q' \ q.erase a, ?_, ?_⟩
  · intro b hb
    obtain ⟨hmem, hnot⟩ := Finset.mem_sdiff.mp hb
    exact (hnew b hmem).resolve_left hnot
  · rw [Finset.union_sdiff_self_eq_union]
    exact (Finset.union_eq_right.mpr hkeeps).symm

omit [DecidableEq α] in
theorem not_transGen_self_of_acc {leads : α → α → Prop} {a : α}
    (ha : Acc (fun b a => leads a b) a) : ¬ TransGen leads a a := by
  have htrans : Acc (TransGen fun b a => leads a b) a := ha.transGen
  induction htrans with
  | intro a _ ih =>
    intro hcycle
    have hback : TransGen (fun b a => leads a b) a a := transGen_swap.mp hcycle
    exact ih a hback ha hcycle

/-- The relation *leads to* between items from which all chains are finite. -/
def FinitelyLeads (leads : α → α → Prop) (b a : α) : Prop :=
  leads a b ∧ Acc (fun b a => leads a b) a

omit [DecidableEq α] in
theorem wellFounded_finitelyLeads (leads : α → α → Prop) :
    WellFounded (FinitelyLeads leads) := by
  refine ⟨fun a => ?_⟩
  by_cases ha : Acc (fun b a => leads a b) a
  · exact Subrelation.accessible (fun h => h.1) ha
  · exact Acc.intro a fun b hb => absurd hb.2 ha

theorem cutExpand_of_handles {leads : α → α → Prop} {q q' : Finset α}
    (hq : ∀ a ∈ q, Acc (fun b a => leads a b) a) (hstep : Handles leads q q') :
    CutExpand (FinitelyLeads leads) q'.val q.val := by
  obtain ⟨a, ha, t, ht, rfl⟩ := hstep
  -- Only the items that are not on the list already are new.
  refine ⟨(t \ q.erase a).val, a, ?_, ?_⟩
  · intro b hb
    exact ⟨ht b (Finset.mem_sdiff.mp hb).1, hq a ha⟩
  · have hunion : q.erase a ∪ t = (q.erase a).disjUnion (t \ q.erase a) Finset.disjoint_sdiff := by
      rw [Finset.disjUnion_eq_union, Finset.union_sdiff_self_eq_union]
    rw [hunion, Finset.disjUnion_val, Finset.erase_val, add_right_comm]
    congr 1
    rw [add_comm, Multiset.singleton_add]
    exact Multiset.cons_erase ha

theorem acc_of_mem_handled {leads : α → α → Prop} {q q' : Finset α}
    (hq : ∀ a ∈ q, Acc (fun b a => leads a b) a) (hstep : Handles leads q q') :
    ∀ a ∈ q', Acc (fun b a => leads a b) a := by
  obtain ⟨a, ha, t, ht, rfl⟩ := hstep
  intro b hb
  rcases Finset.mem_union.mp hb with hold | hnew
  · exact hq b (Finset.mem_of_mem_erase hold)
  · exact (hq a ha).inv (ht b hnew)

theorem acc_handles {leads : α → α → Prop} {q : Finset α}
    (hq : ∀ a ∈ q, Acc (fun b a => leads a b) a) :
    Acc (fun q' q => Handles leads q q') q := by
  have hwf : WellFounded (InvImage (CutExpand (FinitelyLeads leads)) Finset.val) :=
    InvImage.wf Finset.val (wellFounded_finitelyLeads leads).cutExpand
  induction q using hwf.induction with
  | _ q ih =>
    refine Acc.intro q ?_
    intro q' hstep
    exact ih q' (cutExpand_of_handles hq hstep) (acc_of_mem_handled hq hstep)

theorem exists_not_acc_of_handled {leads : α → α → Prop} {q q' : Finset α} {a : α}
    (hkeeps : ∀ b ∈ q.erase a, b ∈ q') (hadds : ∀ b, leads a b → b ∈ q')
    (hq : ∃ b ∈ q, ¬ Acc (fun b a => leads a b) b) :
    ∃ b ∈ q', ¬ Acc (fun b a => leads a b) b := by
  obtain ⟨b, hb, hchain⟩ := hq
  by_cases heq : b = a
  · by_contra hnone
    push Not at hnone
    apply hchain
    rw [heq]
    exact Acc.intro a fun c hc => hnone c (hadds c hc)
  · exact ⟨b, hkeeps b (Finset.mem_erase.mpr ⟨heq, hb⟩), hchain⟩

/-! ## Chains and cycles -/

section Cycles

variable {leads : α → α → Prop} {a : α}

omit [DecidableEq α] in
theorem acc_of_reaches (ha : Acc (fun b a => leads a b) a) {b : α}
    (hreach : ReflTransGen leads a b) : Acc (fun b a => leads a b) b := by
  induction hreach with
  | refl => exact ha
  | tail _ hstep ih => exact ih.inv hstep

omit [DecidableEq α] in
/-- **Chains and cycles.**  From an item that reaches finitely many others, all
chains are finite exactly when it reaches no cycle. -/
theorem acc_iff_no_cycle (hfinite : {b | ReflTransGen leads a b}.Finite) :
    Acc (fun b a => leads a b) a ↔ ∀ b, ReflTransGen leads a b → ¬ TransGen leads b b := by
  constructor
  · intro ha b hreach
    exact not_transGen_self_of_acc (acc_of_reaches ha hreach)
  · intro hacyclic
    -- The reached items, ordered by reachability.
    have : Finite {b // ReflTransGen leads a b} := hfinite
    let below : {b // ReflTransGen leads a b} → {b // ReflTransGen leads a b} → Prop :=
      fun c b => TransGen leads b.1 c.1
    have : IsTrans _ below := ⟨fun _ _ _ hcb hba => hba.trans hcb⟩
    have : Std.Irrefl below := ⟨fun b => hacyclic b.1 b.2⟩
    have hwf : WellFounded below := Finite.wellFounded_of_trans_of_irrefl below
    have hall : ∀ b : {b // ReflTransGen leads a b}, Acc (fun b a => leads a b) b.1 := by
      intro b
      induction b using hwf.induction with
      | _ b ih =>
        refine Acc.intro b.1 ?_
        intro c hc
        exact ih ⟨c, b.2.tail hc⟩ (.single hc)
    exact hall ⟨a, .refl⟩

omit [DecidableEq α] in
theorem finite_reaches (htargets : {b | ∃ a, leads a b}.Finite) (a : α) :
    {b | ReflTransGen leads a b}.Finite := by
  refine (htargets.insert a).subset ?_
  intro b hreach
  rcases ReflTransGen.cases_tail hreach with heq | ⟨c, -, hc⟩
  · exact Or.inl heq
  · exact Or.inr ⟨c, hc⟩

end Cycles

/-! ## Loops with a bound -/

section Iterate

variable {σ ρ : Type}

/-- A loop of at most `fuel` rounds: a round either goes on with a new state or
returns. -/
def iterate (round : σ → σ ⊕ ρ) : Nat → σ → Option ρ
  | 0, _ => none
  | fuel + 1, s =>
    match round s with
    | .inl s' => iterate round fuel s'
    | .inr result => some result

theorem exists_iterate_of_acc {round : σ → σ ⊕ ρ} {below : σ → σ → Prop} (good : σ → Prop)
    (hround : ∀ s s', good s → round s = .inl s' → below s' s ∧ good s') {s : σ}
    (hacc : Acc below s) (hs : good s) : ∃ fuel, (iterate round fuel s).isSome = true := by
  induction hacc with
  | intro s _ ih =>
    cases hstep : round s with
    | inl s' =>
      obtain ⟨hbelow, hs'⟩ := hround s s' hs hstep
      obtain ⟨fuel, hfuel⟩ := ih s' hbelow hs'
      exact ⟨fuel + 1, by simpa [iterate, hstep] using hfuel⟩
    | inr result => exact ⟨1, by simp [iterate, hstep]⟩

theorem iterate_eq_none {round : σ → σ ⊕ ρ} (good : σ → Prop)
    (hround : ∀ s, good s → ∃ s', round s = .inl s' ∧ good s') (fuel : Nat) {s : σ}
    (hs : good s) : iterate round fuel s = none := by
  induction fuel generalizing s with
  | zero => rfl
  | succ fuel ih =>
    obtain ⟨s', hstep, hs'⟩ := hround s hs
    simpa [iterate, hstep] using ih hs'

end Iterate

end Worklist
end Lib
end Configd
