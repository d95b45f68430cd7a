import CableRegistry.Lib.Order

/-!
# Sorting by several keys

A comparison that looks at one key after the other is a lexicographic order (`lexLess_eq`).  Sorting
by such a comparison is idempotent, and it forgets the order of the list it is given exactly as far
as no two elements tie: without ties, permuted lists are sorted to one list (`sortBy_eq_of_perm`),
and two elements that tie stay in the order in which they came (`pair_sublist_sortBy`).  So a sorted
list is the same for a list and its reverse only when nothing ties (`pairwise_of_sortBy_reverse`).

Lists in strict order that hold the same candidates have the same first candidate
(`find?_eq_of_ordered`).

`Rearranged R l l'` is a permutation of a list whose elements have been rearranged themselves.
-/

open Std

section Comparisons

variable {β : Type} [Ord β]

/-- A comparison of one key, and of the rest where the keys agree. -/
theorem lexLess_eq [TransOrd β] [LawfulEqOrd β] [DecidableEq β] (x y : β) (rest : Ordering) :
    (if x ≠ y then compare x y == .lt else rest == .lt) = ((compare x y).then rest == .lt) := by
  by_cases h : x = y
  · have hself : compare y y = .eq := ReflCmp.compare_self
    rw [if_neg (not_not.mpr h), h, hself]
    rfl
  · rw [if_pos h]
    have hne : compare x y ≠ .eq := fun he => h (LawfulEqOrd.eq_of_compare he)
    cases hc : compare x y with
    | eq => exact absurd hc hne
    | lt => rfl
    | gt => rfl

theorem decide_lt_eq [LT β] [DecidableLT β] [LE β] [LawfulOrderOrd β] [LawfulOrderLT β] (x y : β) :
    decide (x < y) = (compare x y == .lt) := by
  rw [Bool.eq_iff_iff, decide_eq_true_iff, beq_iff_eq]
  exact compare_eq_lt.symm

end Comparisons

/-- **Lists in strict order with the same candidates have the same first candidate.** -/
theorem find?_eq_of_ordered {α : Type} {cmp : α → α → Ordering} [TransCmp cmp] {l l' : List α}
    {p : α → Bool} (h : l.Pairwise fun a b => cmp a b = .lt)
    (h' : l'.Pairwise fun a b => cmp a b = .lt) (hmem : ∀ a, p a = true → (a ∈ l ↔ a ∈ l')) :
    l.find? p = l'.find? p := by
  have : Std.Antisymm (fun a b : α => cmp a b = .lt) := ⟨fun a b hab hba => by
    have hswap : cmp b a = (cmp a b).swap := OrientedCmp.eq_swap
    rw [hab, hba] at hswap
    exact absurd hswap (by simp)⟩
  have : Std.Irrefl (fun a b : α => cmp a b = .lt) := ⟨fun a haa => by
    have hself : cmp a a = .eq := ReflCmp.compare_self
    rw [hself] at haa
    exact absurd haa (by simp)⟩
  have hfilter : l.filter p = l'.filter p := by
    refine (h.filter p).eq_of_mem_iff (h'.filter p) fun a => ?_
    rw [List.mem_filter, List.mem_filter]
    exact and_congr_left (hmem a)
  rw [← List.head?_filter, ← List.head?_filter, hfilter]

theorem not_sublist_swap {α : Type} {a b : α} {l : List α} (hl : l.Nodup) (h : [a, b].Sublist l)
    (h' : [b, a].Sublist l) : False := by
  induction l with
  | nil => exact absurd h (by simp)
  | cons c l ih =>
    obtain ⟨hc, hl⟩ := List.nodup_cons.mp hl
    cases h with
    | cons _ h =>
      cases h' with
      | cons _ h' => exact ih hl h h'
      | cons_cons _ h' => exact hc (h.subset (by simp))
    | cons_cons _ h =>
      cases h' with
      | cons _ h' => exact hc (h'.subset (by simp))
      | cons_cons _ h' => exact hc (h.subset (by simp))

section Ties

variable {α : Type} {less : α → α → Bool} {cmp : α → α → Ordering} [TransCmp cmp]

section

variable (h : ∀ a b, less a b = (cmp a b == .lt))

include h

/-- What is sorted is sorted to itself. -/
theorem sortBy_sortBy (l : List α) :
    sortBy less (sortBy less l) = sortBy less l := by
  apply List.Pairwise.insertionSort_eq
  refine (pairwise_sortBy h l).imp fun {a b} hab => ?_
  have hswap : cmp b a = (cmp a b).swap := OrientedCmp.eq_swap
  rw [h, hswap]
  revert hab
  cases cmp a b <;> simp

/-- Sorting and normalising each element, where normalising keeps the comparison, is idempotent. -/
theorem sortBy_map_sortBy_map (f : α → α) (hless : ∀ a b, less (f a) (f b) = less a b)
    (hf : ∀ a, f (f a) = f a) (l : List α) :
    (sortBy less ((sortBy less l).map f)).map f = (sortBy less l).map f := by
  rw [sortBy_map f _ fun a _ b _ => hless a b, sortBy_sortBy h, List.map_map]
  exact List.map_congr_left fun a _ => hf a

/-- **Without ties, sorting forgets the order.** -/
theorem sortBy_eq_of_perm {l l' : List α} (hperm : l.Perm l')
    (hties : l.Pairwise fun a b => cmp a b ≠ .eq) : sortBy less l = sortBy less l' := by
  have hswap : ∀ a b, cmp b a = (cmp a b).swap := fun a b => OrientedCmp.eq_swap
  have hsym : ∀ {a b : α}, cmp a b ≠ .eq → cmp b a ≠ .eq := by
    intro a b hab
    rw [hswap a b]
    revert hab
    cases cmp a b <;> simp
  have hstrict : ∀ m : List α, m.Perm l → (sortBy less m).Pairwise fun a b => cmp a b = .lt := by
    intro m hm
    have hne : (sortBy less m).Pairwise fun a b => cmp a b ≠ .eq :=
      ((sortBy_perm m).trans hm).symm.pairwise hties hsym
    refine (pairwise_sortBy h m).imp₂ (fun a b hle hne => ?_) hne
    revert hle hne
    cases cmp a b <;> simp
  have hasymm : ∀ a b : α, cmp a b = .lt → cmp b a = .lt → a = b := by
    intro a b hab hba
    rw [hswap a b, hab] at hba
    exact absurd hba (by simp)
  have hperm' : (sortBy less l).Perm (sortBy less l') :=
    (sortBy_perm l).trans (hperm.trans (sortBy_perm l').symm)
  exact hperm'.eq_of_pairwise (fun a b _ _ => hasymm a b) (hstrict l (.refl l)) (hstrict l' hperm.symm)

/-- **Elements that tie keep their order.** -/
theorem pair_sublist_sortBy {a b : α} {l : List α} (htie : cmp a b = .eq) (hl : [a, b].Sublist l) :
    [a, b].Sublist (sortBy less l) := by
  refine List.pair_sublist_insertionSort ?_ hl
  have hswap : cmp b a = (cmp a b).swap := OrientedCmp.eq_swap
  rw [h, hswap, htie]
  rfl

/-- **Where the order of the list does not show, nothing ties.** -/
theorem pairwise_of_sortBy_reverse {β κ : Type} {f : α → β} {key : α → κ} {key' : β → κ}
    (hkey : ∀ a, key' (f a) = key a) {l : List α} (hnodup : (l.map key).Nodup)
    (heq : (sortBy less l).map f = (sortBy less l.reverse).map f) :
    l.Pairwise fun a b => cmp a b ≠ .eq := by
  rw [List.pairwise_iff_forall_sublist]
  intro a b hab htie
  have hswap : cmp b a = .eq := by
    have hswap : cmp b a = (cmp a b).swap := OrientedCmp.eq_swap
    rw [hswap, htie]
    rfl
  have hba : [b, a].Sublist l.reverse := List.reverse_sublist.mpr hab
  have hmap : ((sortBy less l).map f).map key' = (sortBy less l).map key := by
    rw [List.map_map]
    exact List.map_congr_left fun x _ => hkey x
  have hmap' : ((sortBy less l.reverse).map f).map key' = (sortBy less l.reverse).map key := by
    rw [List.map_map]
    exact List.map_congr_left fun x _ => hkey x
  have hkeys : (sortBy less l).map key = (sortBy less l.reverse).map key := by
    rw [← hmap, heq, hmap']
  have hfirst : [key a, key b].Sublist ((sortBy less l).map key) :=
    (pair_sublist_sortBy h htie hab).map key
  have hsecond : [key b, key a].Sublist ((sortBy less l).map key) := by
    rw [hkeys]
    exact (pair_sublist_sortBy h hswap hba).map key
  have hnodup' : ((sortBy less l).map key).Nodup :=
    ((sortBy_perm l).map key).nodup_iff.mpr hnodup
  exact not_sublist_swap hnodup' hfirst hsecond

end

end Ties

/-! ### Rearranged lists -/

/-- A permutation of the list, with every element replaced by a related one. -/
def Rearranged {α : Type} (R : α → α → Prop) (l l' : List α) : Prop :=
  ∃ m, l.Perm m ∧ List.Forall₂ R m l'

namespace Rearranged

variable {α : Type} {R : α → α → Prop} {l l' : List α}

theorem of_map {f : α → α} (h : ∀ a ∈ l, R a (f a)) : Rearranged R l (l.map f) := by
  refine ⟨l, .refl l, ?_⟩
  induction l with
  | nil => exact .nil
  | cons a l ih =>
    exact .cons (h a List.mem_cons_self) (ih fun b hb => h b (List.mem_cons_of_mem a hb))

theorem length_eq (h : Rearranged R l l') : l.length = l'.length := by
  obtain ⟨m, hperm, hall⟩ := h
  exact hperm.length_eq.trans hall.length_eq

/-- What is written for rearranged elements is permuted. -/
theorem flatMap_perm {β : Type} {enc : α → List β} (hR : ∀ a a', R a a' → (enc a).Perm (enc a'))
    (h : Rearranged R l l') : (l.flatMap enc).Perm (l'.flatMap enc) := by
  obtain ⟨m, hperm, hall⟩ := h
  refine (hperm.flatMap_right enc).trans ?_
  clear hperm
  induction hall with
  | nil => exact .refl _
  | cons hab _ ih =>
    rw [List.flatMap_cons, List.flatMap_cons]
    exact (hR _ _ hab).append ih

/-- **Sorting and normalising forget a rearrangement**, where related elements have one normal form
and nothing ties. -/
theorem sortBy_map_eq {less : α → α → Bool} {cmp : α → α → Ordering} [TransCmp cmp]
    (hcmp : ∀ a b, less a b = (cmp a b == .lt)) {f : α → α}
    (hless : ∀ a b, less (f a) (f b) = less a b) (hR : ∀ a ∈ l, ∀ a', R a a' → f a = f a')
    (hties : l.Pairwise fun a b => cmp a b ≠ .eq) (h : Rearranged R l l') :
    (sortBy less l).map f = (sortBy less l').map f := by
  obtain ⟨m, hperm, hall⟩ := h
  have hm : ∀ a ∈ m, ∀ a', R a a' → f a = f a' := fun a ha => hR a (hperm.mem_iff.mpr ha)
  have hmap : m.map f = l'.map f := by
    clear hperm
    induction hall with
    | nil => rfl
    | cons hab _ ih =>
      rw [List.map_cons, List.map_cons, hm _ List.mem_cons_self _ hab,
        ih fun a ha => hm a (List.mem_cons_of_mem _ ha)]
  rw [sortBy_eq_of_perm hcmp hperm hties, ← sortBy_map f m fun a _ b _ => hless a b, hmap,
    sortBy_map f l' fun a _ b _ => hless a b]

end Rearranged
