import Mathlib.Data.List.Sort
import Mathlib.Tactic

/-!
# Ordered keys, ordered maps and sorting

The maps of an ordered container library iterate in key order, so everything
that is computed by a loop over one is a function of its contents.  Here a map
is `Std.ExtTreeMap` at the key's own `compare`, and this file adds the
things the standard library does not have in the form needed:

* `lawfulEqCmp_compareLex`: comparing two fields one after the other is a lawful
  order on a record that the two fields determine.
* `OrdMap.Grouped`: a map of maps none of whose inner maps is empty.  Two such maps
  are equal as soon as every pair of keys finds the same thing
  (`OrdMap.Grouped.ext`), although an outer key can exist with nothing under it.
* `OrdMap.KeyOrdered.ext`: a loop over a map that skips some entries is a function of which
  entries it does not skip.
* `highest`: the highest of the values that a loop does not skip (`highest_spec`).
* `sortBy`: sorting by a strict comparison, stable, with `sortBy_map`: a map
  that respects the comparison commutes with sorting; and `unique`, which makes a
  sorted list strictly ascending (`pairwise_unique`).
-/

open Std

set_option linter.unusedSectionVars false

/-! ### Keys -/

theorem lawfulEqCmp_compareLex {α β γ : Type} [Ord β] [Ord γ] [LawfulEqOrd β] [LawfulEqOrd γ]
    [TransOrd β] [TransOrd γ] {f : α → β} {g : α → γ}
    (hInj : ∀ a b, f a = f b → g a = g b → a = b) :
    LawfulEqCmp (compareLex (compareOn f) (compareOn g)) where
  compare_self := by intro a; simp [compareLex, compareOn]
  eq_of_compare := by
    intro a b h
    simp only [compareLex, compareOn, Ordering.then_eq_eq] at h
    exact hInj a b (LawfulEqOrd.eq_of_compare h.1) (LawfulEqOrd.eq_of_compare h.2)

/-! ### Maps -/

/-- An ordered map, iterated in key order. -/
abbrev OrdMap (κ ν : Type) [Ord κ] := ExtTreeMap κ ν compare

/-! ### Strictly ascending lists -/

section Ascending

variable {α : Type} {cmp : α → α → Ordering} [OrientedCmp cmp] {l l' : List α}

theorem nodup_of_pairwise_lt (h : l.Pairwise fun a b => cmp a b = .lt) : l.Nodup := by
  refine h.imp fun {a b} hab heq => ?_
  have hself : cmp b b = .eq := ReflCmp.compare_self
  rw [heq, hself] at hab
  exact absurd hab (by simp)

/-- **A strictly ascending list is determined by its elements.** -/
theorem eq_of_pairwise_lt (h : l.Pairwise fun a b => cmp a b = .lt)
    (h' : l'.Pairwise fun a b => cmp a b = .lt) (hmem : ∀ a, a ∈ l ↔ a ∈ l') : l = l' := by
  refine List.Perm.eq_of_pairwise (fun a b _ _ hab hba => ?_) h h' ?_
  · exact absurd hba (OrientedCmp.not_lt_of_lt hab)
  · exact (List.perm_ext_iff_of_nodup (nodup_of_pairwise_lt h) (nodup_of_pairwise_lt h')).mpr hmem

end Ascending

namespace OrdMap

variable {κ ι ν μ : Type} [Ord κ] [TransOrd κ] [LawfulEqOrd κ] [Ord ι] [TransOrd ι] [LawfulEqOrd ι]

@[simp] theorem compare_eq_iff {a b : κ} : compare a b = .eq ↔ a = b :=
  ⟨LawfulEqOrd.eq_of_compare, fun h => h ▸ ReflCmp.compare_self⟩

theorem find_insert [DecidableEq κ] (m : OrdMap κ ν) (k k' : κ) (v : ν) :
    (m.insert k v)[k']? = if k = k' then some v else m[k']? := by
  rw [ExtTreeMap.getElem?_insert]
  by_cases h : k = k' <;> simp [h]

theorem insert_insert [DecidableEq κ] (m : OrdMap κ ν) (k : κ) (v v' : ν) :
    (m.insert k v).insert k v' = m.insert k v' := by
  apply ExtTreeMap.ext_getElem?
  intro k'
  simp only [find_insert]
  split <;> rfl

theorem mem_toList {m : OrdMap κ ν} {k : κ} {v : ν} : (k, v) ∈ m.toList ↔ m[k]? = some v :=
  ExtTreeMap.mem_toList_iff_getElem?_eq_some

/-- The entry of a pair of keys. -/
def find₂ (m : OrdMap κ (OrdMap ι ν)) (k : κ) (i : ι) : Option ν := (m[k]?).bind (·[i]?)

/-- A map of maps without an empty inner map. -/
def Grouped (m : OrdMap κ (OrdMap ι ν)) : Prop :=
  ∀ (k : κ) (g : OrdMap ι ν), m[k]? = some g → g ≠ ∅

theorem Grouped.empty : Grouped (∅ : OrdMap κ (OrdMap ι ν)) := by
  intro k g h
  simp at h

theorem exists_find_of_ne_empty {g : OrdMap ι ν} (h : g ≠ ∅) : ∃ (i : ι) (v : ν), g[i]? = some v := by
  by_contra hn
  push Not at hn
  apply h
  apply ExtTreeMap.ext_getElem?
  intro i
  cases hi : g[i]? with
  | none => simp
  | some v => exact absurd hi (hn i v)

/-- **Grouped maps are determined by their entries.** -/
theorem Grouped.ext {m m' : OrdMap κ (OrdMap ι ν)} (h : Grouped m) (h' : Grouped m')
    (hEq : ∀ k i, find₂ m k i = find₂ m' k i) : m = m' := by
  apply ExtTreeMap.ext_getElem?
  intro k
  cases hk : m[k]? with
  | none =>
    cases hk' : m'[k]? with
    | none => rfl
    | some g' =>
      obtain ⟨i, v, hi⟩ := exists_find_of_ne_empty (h' k g' hk')
      have := hEq k i
      simp [find₂, hk, hk', hi] at this
  | some g =>
    cases hk' : m'[k]? with
    | none =>
      obtain ⟨i, v, hi⟩ := exists_find_of_ne_empty (h k g hk)
      have := hEq k i
      simp [find₂, hk, hk', hi] at this
    | some g' =>
      congr 1
      apply ExtTreeMap.ext_getElem?
      intro i
      have := hEq k i
      simpa [find₂, hk, hk'] using this

theorem Grouped.insert {m : OrdMap κ (OrdMap ι ν)} (h : Grouped m) [DecidableEq κ] (k : κ)
    {g : OrdMap ι ν} (hg : g ≠ ∅) : Grouped (m.insert k g) := by
  intro k' g' hk'
  rw [find_insert] at hk'
  split at hk'
  · simp only [Option.some.injEq] at hk'
    exact hk' ▸ hg
  · exact h k' g' hk'

theorem insert_ne_empty' (g : OrdMap ι ν) (i : ι) (v : ν) : g.insert i v ≠ ∅ := by
  intro he
  have := congrArg (fun t : OrdMap ι ν => t[i]?) he
  simp at this

/-- Entries in strict order of their keys, as a loop over a map meets them. -/
def KeyOrdered (l : List (κ × ν)) : Prop := l.Pairwise fun a b => compare a.1 b.1 = .lt

theorem keyOrdered_toList (m : OrdMap κ ν) : KeyOrdered m.toList := ExtTreeMap.ordered_keys_toList

theorem KeyOrdered.filter {l : List (κ × ν)} (h : KeyOrdered l) (p : κ × ν → Bool) :
    KeyOrdered (l.filter p) := List.Pairwise.filter p h

/-- **Entries in key order are determined by which they are.** -/
theorem KeyOrdered.ext {l l' : List (κ × ν)} (h : KeyOrdered l) (h' : KeyOrdered l')
    (hmem : ∀ entry, entry ∈ l ↔ entry ∈ l') : l = l' := by
  have : OrientedCmp fun a b : κ × ν => compare a.1 b.1 := ⟨OrientedCmp.eq_swap⟩
  exact eq_of_pairwise_lt h h' hmem

/-- Entries of one key are one entry at most. -/
theorem KeyOrdered.of_one_key {l : List (κ × ν)} (h : KeyOrdered l) {k : κ}
    (hk : ∀ entry ∈ l, entry.1 = k) : l = [] ∨ ∃ v, l = [(k, v)] := by
  cases l with
  | nil => exact .inl rfl
  | cons entry rest =>
    have hfirst := hk entry List.mem_cons_self
    cases rest with
    | nil =>
      refine .inr ⟨entry.2, ?_⟩
      rw [← hfirst]
    | cons entry' rest =>
      have hlt := (List.pairwise_cons.mp h).1 entry' List.mem_cons_self
      rw [hfirst, hk entry' (List.mem_cons_of_mem _ List.mem_cons_self), compare_eq_iff.mpr rfl] at hlt
      exact absurd hlt (by simp)

/-- What a loop makes of each entry, where it makes anything of it. -/
def parts {α β : Type} (m : OrdMap κ α) (f : α → List β) : List (κ × List β) :=
  (m.toList.map fun entry => (entry.1, f entry.2)).filter (!·.2.isEmpty)

theorem keyOrdered_parts {α β : Type} (m : OrdMap κ α) (f : α → List β) : KeyOrdered (parts m f) := by
  refine KeyOrdered.filter ?_ _
  unfold KeyOrdered
  rw [List.pairwise_map]
  exact keyOrdered_toList m

theorem mem_parts {α β : Type} {m : OrdMap κ α} {f : α → List β} {part : κ × List β} :
    part ∈ parts m f ↔ ((m[part.1]?).map f).getD [] = part.2 ∧ part.2 ≠ [] := by
  unfold parts
  simp only [List.mem_filter, List.mem_map, Bool.not_eq_true', List.isEmpty_eq_false_iff]
  refine and_congr_left fun hne => ?_
  constructor
  · rintro ⟨entry, hentry, rfl⟩
    rw [mem_toList.mp hentry]
    rfl
  · intro heq
    cases hk : m[part.1]? with
    | none =>
      rw [hk] at heq
      exact absurd heq.symm hne
    | some a =>
      rw [hk] at heq
      exact ⟨(part.1, a), mem_toList.mpr hk, Prod.ext rfl heq⟩

theorem flatMap_toList {α β γ : Type} (m : OrdMap κ α) (f : α → List β) {g : κ → List β → List γ}
    (hg : ∀ k, g k [] = []) :
    m.toList.flatMap (fun entry => g entry.1 (f entry.2)) =
      (parts m f).flatMap fun part => g part.1 part.2 := by
  unfold parts
  induction m.toList with
  | nil => rfl
  | cons entry l ih =>
    rw [List.flatMap_cons, List.map_cons, ih]
    by_cases hnil : f entry.2 = []
    · rw [List.filter_cons_of_neg (by simp [hnil]), hnil, hg, List.nil_append]
    · rw [List.filter_cons_of_pos (by simpa using hnil), List.flatMap_cons]

/-- **A loop over a map of maps is a function of what it makes of each entry.** -/
theorem flatMap_toList_congr {α β γ : Type} {m m' : OrdMap κ α} (f f' : α → List β)
    (g : κ → List β → List γ) (hg : ∀ k, g k [] = [])
    (h : ∀ k : κ, ((m[k]?).map f).getD [] = ((m'[k]?).map f').getD []) :
    m.toList.flatMap (fun entry => g entry.1 (f entry.2)) =
      m'.toList.flatMap (fun entry => g entry.1 (f' entry.2)) := by
  have hparts : parts m f = parts m' f' :=
    (keyOrdered_parts m f).ext (keyOrdered_parts m' f') fun part => by
      rw [mem_parts, mem_parts, h part.1]
  rw [flatMap_toList m f hg, flatMap_toList m' f' hg, hparts]

theorem find₂_insert [DecidableEq κ] (m : OrdMap κ (OrdMap ι ν)) (k k' : κ) (g : OrdMap ι ν) (i : ι) :
    find₂ (m.insert k g) k' i = if k = k' then g[i]? else find₂ m k' i := by
  simp only [find₂, find_insert]
  by_cases h : k = k' <;> simp [h]

end OrdMap

/-! ### Lists -/

theorem flatMap_filter {α β : Type} (l : List α) (p : α → Bool) (f : α → List β) :
    (l.filter p).flatMap f = l.flatMap fun a => if p a then f a else [] := by
  induction l with
  | nil => rfl
  | cons a l ih =>
    rw [List.flatMap_cons, ← ih]
    cases ha : p a with
    | true => rw [List.filter_cons_of_pos ha, List.flatMap_cons, if_pos rfl]
    | false => rw [List.filter_cons_of_neg (by simp [ha]), if_neg (by simp), List.nil_append]

/-- A loop that keeps what it has chosen or takes the next element ends with one of the
elements, and with one at all when there are any. -/
theorem foldl_choose {α : Type} (step : Option α → α → Option α)
    (hstep : ∀ chosen a, step chosen a = some a ∨ (chosen ≠ none ∧ step chosen a = chosen))
    (l : List α) (start : Option α) :
    (l ≠ [] ∨ start ≠ none → ∃ a, l.foldl step start = some a) ∧
      ∀ a, l.foldl step start = some a → a ∈ l ∨ start = some a := by
  induction l generalizing start with
  | nil =>
    refine ⟨fun h => ?_, fun a h => .inr h⟩
    exact Option.ne_none_iff_exists'.mp (h.resolve_left (by simp))
  | cons b l ih =>
    rw [List.foldl_cons]
    obtain ⟨hsome, hmem⟩ := ih (step start b)
    refine ⟨fun _ => hsome (.inr ?_), fun a h => ?_⟩
    · rcases hstep start b with heq | ⟨hne, heq⟩
      · simp [heq]
      · rw [heq]
        exact hne
    · rcases hmem a h with hl | heq'
      · exact .inl (List.mem_cons_of_mem b hl)
      rcases hstep start b with heq | ⟨-, heq⟩
      · obtain rfl := Option.some.inj (heq.symm.trans heq')
        exact .inl List.mem_cons_self
      · exact .inr (heq.symm.trans heq')

/-- Such a loop, started with nothing chosen. -/
theorem foldl_choose_none {α : Type} {step : Option α → α → Option α}
    (hstep : ∀ chosen a, step chosen a = some a ∨ (chosen ≠ none ∧ step chosen a = chosen))
    (l : List α) :
    (l ≠ [] → ∃ a, l.foldl step none = some a) ∧ ∀ a, l.foldl step none = some a → a ∈ l := by
  obtain ⟨hsome, hmem⟩ := foldl_choose step hstep l none
  exact ⟨fun h => hsome (.inl h), fun a h => (hmem a h).resolve_right (by simp)⟩

/-! ### The highest value -/

/-- The highest of the start and the values of the elements that are not skipped. -/
def highest {α β : Type} [LT β] [DecidableLT β] (skip : α → Bool) (value : α → β) (start : β)
    (l : List α) : β :=
  l.foldl (fun best a => if skip a then best else if best < value a then value a else best) start

section Highest

variable {α β : Type} [LE β] [LT β] [DecidableLT β] [IsLinearOrder β] [LawfulOrderLT β]
  (skip : α → Bool) (value : α → β)

/-- **What the highest value is**: a bound of all, and one of them. -/
theorem highest_spec (start : β) (l : List α) :
    start ≤ highest skip value start l ∧
      (∀ a ∈ l, skip a = false → value a ≤ highest skip value start l) ∧
      (highest skip value start l = start ∨
        ∃ a ∈ l, skip a = false ∧ highest skip value start l = value a) := by
  induction l generalizing start with
  | nil => exact ⟨Std.le_refl start, by simp, .inl rfl⟩
  | cons b l ih =>
    have hcons : highest skip value start (b :: l) = highest skip value
        (if skip b then start else if start < value b then value b else start) l := rfl
    rw [hcons]
    cases hb : skip b with
    | true =>
      obtain ⟨hstart, hall, hone⟩ := ih start
      refine ⟨hstart, ?_, hone.imp_right ?_⟩
      · intro a ha hskip
        rcases List.mem_cons.mp ha with rfl | ha
        · rw [hb] at hskip
          exact absurd hskip (by simp)
        · exact hall a ha hskip
      · rintro ⟨a, ha, hskip, heq⟩
        exact ⟨a, List.mem_cons_of_mem b ha, hskip, heq⟩
    | false =>
      obtain ⟨hstart, hall, hone⟩ := ih (if start < value b then value b else start)
      have hboth : start ≤ (if start < value b then value b else start) ∧
          value b ≤ (if start < value b then value b else start) := by
        split
        · rename_i hlt
          exact ⟨Std.le_of_lt hlt, Std.le_refl _⟩
        · rename_i hlt
          exact ⟨Std.le_refl _, Std.not_lt.mp hlt⟩
      refine ⟨Std.le_trans hboth.1 hstart, ?_, ?_⟩
      · intro a ha hskip
        rcases List.mem_cons.mp ha with rfl | ha
        · exact Std.le_trans hboth.2 hstart
        · exact hall a ha hskip
      · rcases hone with hone | ⟨a, ha, hskip, heq⟩
        · simp only [Bool.false_eq_true, if_false]
          rw [hone]
          split
          · exact .inr ⟨b, List.mem_cons_self, hb, rfl⟩
          · exact .inl rfl
        · exact .inr ⟨a, List.mem_cons_of_mem b ha, hskip, heq⟩

end Highest

/-! ### Sorting -/

/-- Sorts by a strict comparison.  Elements that neither precede the other keep
their order. -/
def sortBy {α : Type} (less : α → α → Bool) (l : List α) : List α :=
  l.insertionSort (fun a b => less b a = false)

section Sorting

variable {α β : Type} {less : α → α → Bool}

theorem sortBy_perm (l : List α) : (sortBy less l).Perm l := List.perm_insertionSort _ l

@[simp] theorem mem_sortBy {a : α} {l : List α} : a ∈ sortBy less l ↔ a ∈ l :=
  (sortBy_perm l).mem_iff

@[simp] theorem length_sortBy (l : List α) : (sortBy less l).length = l.length :=
  (sortBy_perm l).length_eq

/-- **A map that respects the comparison commutes with sorting.** -/
theorem sortBy_map {less' : β → β → Bool} (f : α → β) (l : List α)
    (h : ∀ a ∈ l, ∀ b ∈ l, less' (f a) (f b) = less a b) :
    sortBy less' (l.map f) = (sortBy less l).map f := by
  symm
  apply List.map_insertionSort
  intro a ha b hb
  rw [h b hb a ha]

/-- Sorting by a lawful comparison gives an ascending list. -/
theorem pairwise_sortBy {cmp : α → α → Ordering} [TransCmp cmp]
    (h : ∀ a b, less a b = (cmp a b == .lt)) (l : List α) :
    (sortBy less l).Pairwise (fun a b => (cmp a b).isLE = true) := by
  have hswap : ∀ a b, cmp b a = (cmp a b).swap := fun a b => OrientedCmp.eq_swap
  have hle : ∀ a b, less b a = false ↔ (cmp a b).isLE = true := by
    intro a b
    rw [h, hswap a b]
    cases cmp a b <;> simp
  have hs : (sortBy less l).Pairwise (fun a b => less b a = false) := by
    have : Std.Total (fun a b => less b a = false) := ⟨fun a b => by
      rw [hle, hle, hswap a b]
      cases cmp a b <;> simp⟩
    have : IsTrans α (fun a b => less b a = false) := ⟨fun a b c hab hbc => by
      rw [hle] at hab hbc ⊢
      exact TransCmp.isLE_trans hab hbc⟩
    exact List.pairwise_insertionSort _ l
  exact hs.imp fun hab => (hle _ _).mp hab

/-- Drops an element equal to the one after it. -/
def unique [DecidableEq α] : List α → List α
  | [] => []
  | [a] => [a]
  | a :: b :: l => if a = b then unique (b :: l) else a :: unique (b :: l)

@[simp] theorem mem_unique [DecidableEq α] {x : α} {l : List α} : x ∈ unique l ↔ x ∈ l := by
  induction l using unique.induct with
  | case1 => simp [unique]
  | case2 a => simp [unique]
  | case3 a l ih => simp [unique, ih]
  | case4 a b l h ih => simp [unique, h, ih]

/-- A list in order is sorted already. -/
theorem sortBy_eq_self {cmp : α → α → Ordering} [TransCmp cmp] (h : ∀ a b, less a b = (cmp a b == .lt))
    {l : List α} (hl : l.Pairwise (fun a b => cmp a b = .lt)) : sortBy less l = l := by
  apply List.Pairwise.insertionSort_eq
  refine hl.imp fun {a b} hab => ?_
  have hswap : cmp b a = (cmp a b).swap := OrientedCmp.eq_swap
  rw [h, hswap, hab]
  rfl

/-- Dropping repetitions from an ascending list makes it strictly ascending. -/
theorem pairwise_unique [DecidableEq α] {cmp : α → α → Ordering} [TransCmp cmp] [LawfulEqCmp cmp]
    {l : List α} (hl : l.Pairwise (fun a b => (cmp a b).isLE = true)) :
    (unique l).Pairwise (fun a b => cmp a b = .lt) := by
  induction l using unique.induct with
  | case1 => exact .nil
  | case2 a => exact List.pairwise_singleton _ _
  | case3 a l ih =>
    rw [unique, if_pos rfl]
    exact ih (List.pairwise_cons.mp hl).2
  | case4 a b l hab ih =>
    rw [unique, if_neg hab]
    obtain ⟨ha, hl'⟩ := List.pairwise_cons.mp hl
    refine List.pairwise_cons.mpr ⟨?_, ih hl'⟩
    intro x hx
    rw [mem_unique] at hx
    have hb : cmp a b = .lt := by
      have hle := ha b List.mem_cons_self
      cases hc : cmp a b with
      | lt => rfl
      | eq => exact absurd (LawfulEqCmp.eq_of_compare hc) hab
      | gt => rw [hc] at hle; exact absurd hle (by simp)
    rcases List.mem_cons.mp hx with rfl | hx
    · exact hb
    · exact TransCmp.lt_of_lt_of_isLE hb ((List.pairwise_cons.mp hl').1 x hx)

end Sorting
