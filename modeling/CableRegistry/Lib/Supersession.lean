import Mathlib.Data.List.Sort
import Mathlib.Order.Basic
import Mathlib.Tactic

/-!
# Supersession with a bounded ring

A slot keeps the newest of the entries it was offered and a ring of the newest ones
it superseded.  Entries are compared by a stamp.  An entry is offered in any order
and any number of times; a late entry only joins the ring.

`Slot.ofHistory` is what the slot is for: given the entries in ascending order of
their stamps, the winner is the last and the ring holds the last `n` before it.
`Slot.offer_ofHistory` says that an offer to the slot of a history is the slot of
the history with the entry put in its place, and `Slot.offers_eq_of_mem_iff` that a
slot depends only on the set of entries it was offered, not on the order or on
repetitions: entries that fell off the ring can come back and fall off again.
-/

namespace Supersession

variable {α β : Type} [LinearOrder β] (stamp : α → β) (n : Nat)

/-- The last `n` elements. -/
def newest (l : List α) : List α := l.drop (l.length - n)

variable {n} in
theorem newest_of_length_le {l : List α} (h : l.length ≤ n) : newest n l = l := by
  simp [newest, Nat.sub_eq_zero_of_le h]

variable {n} in
/-- What comes before `n` elements is dropped. -/
theorem newest_append_of_le {a b : List α} (h : n ≤ b.length) : newest n (a ++ b) = newest n b := by
  have hlen : (a ++ b).length - n = a.length + (b.length - n) := by
    rw [List.length_append]
    omega
  rw [newest, newest, hlen, List.drop_length_add_append]

variable {n} in
theorem newest_append_of_length_eq {a b : List α} (h : b.length = n) : newest n (a ++ b) = b := by
  rw [newest_append_of_le h.ge, newest_of_length_le h.le]

/-- A list is what its newest part leaves out and the newest part; when something is
left out, the newest part is full. -/
theorem exists_eq_append_newest (l : List α) :
    ∃ a, l = a ++ newest n l ∧ (a ≠ [] → (newest n l).length = n) := by
  refine ⟨l.take (l.length - n), (List.take_append_drop _ _).symm, fun ha => ?_⟩
  have : l.length - n ≠ 0 := by
    intro h0
    simp [h0] at ha
  rw [newest, List.length_drop]
  omega

/-- Puts an entry in its place. -/
def place (x : α) (l : List α) : List α := l.orderedInsert (fun a b => stamp a ≤ stamp b) x

/-- A list in strictly ascending order of stamps. -/
def History (l : List α) : Prop := l.Pairwise (fun a b => stamp a < stamp b)

section Place

variable {stamp} {x : α}

theorem mem_place {l : List α} {y : α} : y ∈ place stamp x l ↔ y = x ∨ y ∈ l :=
  List.mem_orderedInsert _

theorem perm_place (x : α) (l : List α) : (place stamp x l).Perm (x :: l) :=
  List.perm_orderedInsert _ x l

/-- An entry later than a list goes behind it. -/
theorem place_append_of_lt {a b : List α} (h : ∀ y ∈ a, stamp y < stamp x) :
    place stamp x (a ++ b) = a ++ place stamp x b := by
  induction a with
  | nil => rfl
  | cons y a ih =>
    rw [List.forall_mem_cons] at h
    have hne : ¬ stamp x ≤ stamp y := not_le.mpr h.1
    rw [List.cons_append, place, List.orderedInsert_cons, if_neg hne]
    exact congrArg (y :: ·) (ih h.2)

theorem place_of_lt {a : List α} (h : ∀ y ∈ a, stamp y < stamp x) : place stamp x a = a ++ [x] := by
  simpa [place] using place_append_of_lt (b := []) h

/-- An entry not later than some entry of a list goes into the list. -/
theorem place_append_of_le {a b : List α} (h : ∃ y ∈ a, stamp x ≤ stamp y) :
    place stamp x (a ++ b) = place stamp x a ++ b := by
  induction a with
  | nil => simp at h
  | cons y a ih =>
    by_cases hxy : stamp x ≤ stamp y
    · simp [place, hxy]
    · have h' : ∃ z ∈ a, stamp x ≤ stamp z := by
        obtain ⟨z, hz, hle⟩ := h
        rcases List.mem_cons.mp hz with rfl | hz
        · exact absurd hle hxy
        · exact ⟨z, hz, hle⟩
      have := ih h'
      simp only [place] at this
      simp [place, hxy, this]

/-- An entry earlier than a list goes in front of it. -/
theorem place_of_le {b : List α} (h : ∀ y ∈ b, stamp x ≤ stamp y) : place stamp x b = x :: b := by
  cases b with
  | nil => rfl
  | cons y b => simp [place, h y List.mem_cons_self]

/-- An entry not later than the last of a list goes before it. -/
theorem place_concat_of_le {l : List α} {w : α} (h : stamp x ≤ stamp w) :
    place stamp x (l ++ [w]) = place stamp x l ++ [w] := by
  by_cases hle : ∃ y ∈ l, stamp x ≤ stamp y
  · exact place_append_of_le hle
  · push Not at hle
    rw [place_append_of_lt hle, place_of_lt hle, place_of_le (by simpa using h)]
    simp

theorem History.place {l : List α} (h : History stamp l) (hx : stamp x ∉ l.map stamp) :
    History stamp (Supersession.place stamp x l) := by
  induction l with
  | nil => simp [History, Supersession.place]
  | cons y l ih =>
    rw [List.map_cons, List.mem_cons, not_or] at hx
    have hy := List.pairwise_cons.mp h
    by_cases hxy : stamp x ≤ stamp y
    · have hlt : stamp x < stamp y := lt_of_le_of_ne hxy hx.1
      rw [place_of_le (by
        intro z hz
        rcases List.mem_cons.mp hz with rfl | hz
        · exact hxy
        · exact (hlt.trans (hy.1 z hz)).le)]
      refine List.pairwise_cons.mpr ⟨?_, h⟩
      intro z hz
      rcases List.mem_cons.mp hz with rfl | hz
      · exact hlt
      · exact hlt.trans (hy.1 z hz)
    · have heq : Supersession.place stamp x (y :: l) = y :: Supersession.place stamp x l := by
        simp [Supersession.place, hxy]
      rw [heq]
      refine List.pairwise_cons.mpr ⟨?_, ih hy.2 hx.2⟩
      intro z hz
      rcases mem_place.mp hz with rfl | hz
      · exact not_le.mp hxy
      · exact hy.1 z hz

/-- **Forgetting before placing is forgetting after.** -/
theorem newest_place_newest {l : List α} (hl : History stamp l) :
    newest n (place stamp x (newest n l)) = newest n (place stamp x l) := by
  obtain ⟨a, hsplit, hfull⟩ := exists_eq_append_newest n l
  generalize newest n l = b at hsplit hfull ⊢
  subst hsplit
  have hab : ∀ y ∈ a, ∀ z ∈ b, stamp y < stamp z := (List.pairwise_append.mp hl).2.2
  by_cases ha : ∃ y ∈ a, stamp x ≤ stamp y
  · -- The entry falls before the ring, which is full: both sides forget it.
    obtain ⟨y, hy, hxy⟩ := ha
    have hlen := hfull (List.ne_nil_of_mem hy)
    rw [place_append_of_le ⟨y, hy, hxy⟩, newest_append_of_length_eq hlen,
      place_of_le (fun z hz => hxy.trans (hab y hy z hz).le), ← List.singleton_append,
      newest_append_of_length_eq hlen]
  · push Not at ha
    rw [place_append_of_lt ha]
    by_cases hnil : a = []
    · rw [hnil, List.nil_append]
    · have hlen : n ≤ (place stamp x b).length := by
        rw [place, List.orderedInsert_length, hfull hnil]
        omega
      rw [newest_append_of_le hlen]

end Place

/-! ### Slots -/

/-- The winner and the ring of what it superseded. -/
structure Slot (α : Type) where
  winner : α
  ring : List α

namespace Slot

/-- The slot of a list of entries in ascending order. -/
def ofHistory (l : List α) : Option (Slot α) :=
  l.getLast?.map fun w => ⟨w, newest n l.dropLast⟩

/-- What an offered entry does to a slot. -/
def offer (slot : Option (Slot α)) (x : α) : Option (Slot α) :=
  match slot with
  | none => some ⟨x, []⟩
  | some s =>
    if stamp s.winner < stamp x then some ⟨x, newest n (place stamp s.winner s.ring)⟩
    else if stamp x < stamp s.winner ∧ stamp x ∉ s.ring.map stamp then
      some ⟨s.winner, newest n (place stamp x s.ring)⟩
    else some s

/-- A history with one more entry. -/
def learn (l : List α) (x : α) : List α :=
  if stamp x ∈ l.map stamp then l else place stamp x l

/-- The history of a list of offers. -/
def learnAll (xs : List α) : List α := xs.foldl (learn stamp) []

variable {stamp}

theorem learn_history {l : List α} (hl : History stamp l) (x : α) :
    History stamp (learn stamp l x) := by
  unfold learn
  split
  · exact hl
  · exact hl.place ‹_›

/-- A stamp of a history that is not in its newest part is older than that part. -/
theorem lt_newest {l : List α} (hl : History stamp l) {x : α} (hx : stamp x ∈ l.map stamp)
    (hn : stamp x ∉ (newest n l).map stamp) :
    (newest n l).length = n ∧ ∀ y ∈ newest n l, stamp x < stamp y := by
  obtain ⟨a, hsplit, hfull⟩ := exists_eq_append_newest n l
  generalize newest n l = b at hsplit hfull hn ⊢
  subst hsplit
  rw [List.map_append, List.mem_append] at hx
  obtain ⟨y, hy, heq⟩ := List.mem_map.mp (hx.resolve_right hn)
  refine ⟨hfull (List.ne_nil_of_mem hy), fun z hz => ?_⟩
  rw [← heq]
  exact (List.pairwise_append.mp hl).2.2 y hy z hz

/-- **An offer to the slot of a history** gives the slot of the history that knows the
entry. -/
theorem offer_ofHistory {l : List α} (hl : History stamp l) (x : α) :
    offer stamp n (ofHistory n l) x = ofHistory n (learn stamp l x) := by
  rcases List.eq_nil_or_concat l with rfl | ⟨init, w, rfl⟩
  · simp [ofHistory, offer, learn, place, newest]
  rw [List.concat_eq_append] at hl ⊢
  have hinit : History stamp init := (List.pairwise_append.mp hl).1
  have hw : ∀ y ∈ init, stamp y < stamp w := fun y hy =>
    (List.pairwise_append.mp hl).2.2 y hy w List.mem_cons_self
  have hof : ofHistory n (init ++ [w]) = some ⟨w, newest n init⟩ := by simp [ofHistory]
  rw [hof]
  simp only [offer]
  rcases lt_trichotomy (stamp w) (stamp x) with hlt | heq | hgt
  · -- A new winner.
    have hall : ∀ y ∈ init ++ [w], stamp y < stamp x := by
      intro y hy
      rcases List.mem_append.mp hy with hy | hy
      · exact (hw y hy).trans hlt
      · rwa [List.mem_singleton.mp hy]
    have hnew : stamp x ∉ (init ++ [w]).map stamp := by
      intro hm
      obtain ⟨y, hy, heq⟩ := List.mem_map.mp hm
      exact (hall y hy).ne heq
    rw [if_pos hlt, learn, if_neg hnew, place_of_lt hall, newest_place_newest n hinit,
      place_of_lt hw]
    simp [ofHistory]
  · -- The winner again.
    have hknown : stamp x ∈ (init ++ [w]).map stamp := by simp [heq]
    rw [if_neg heq.not_lt, if_neg (by simp [heq]), learn, if_pos hknown, hof]
  · rw [if_neg hgt.not_gt]
    have hxw : stamp x ≠ stamp w := hgt.ne
    by_cases hknown : stamp x ∈ init.map stamp
    · have hl' : learn stamp (init ++ [w]) x = init ++ [w] := by
        rw [learn, if_pos (by simp only [List.map_append, List.mem_append]; exact .inl hknown)]
      rw [hl', hof]
      by_cases hring : stamp x ∈ (newest n init).map stamp
      · rw [if_neg (by simp [hring])]
      · -- It fell off the ring before: it goes in front and falls off again.
        obtain ⟨hlen, hlt⟩ := lt_newest n hinit hknown hring
        rw [if_pos ⟨hgt, hring⟩, place_of_le (fun y hy => (hlt y hy).le), ← List.singleton_append,
          newest_append_of_length_eq hlen]
    · -- A late entry that is new.
      have hring : stamp x ∉ (newest n init).map stamp := fun h =>
        hknown (List.mem_of_mem_drop (by simpa [newest] using h))
      have hnew : stamp x ∉ (init ++ [w]).map stamp := by
        simp only [List.map_append, List.mem_append, not_or]
        exact ⟨hknown, by simpa using hxw⟩
      rw [if_pos ⟨hgt, hring⟩, learn, if_neg hnew, place_concat_of_le hgt.le,
        newest_place_newest n hinit]
      simp [ofHistory]

theorem mem_learn {l : List α} {x y : α} (h : y ∈ learn stamp l x) : y = x ∨ y ∈ l := by
  unfold learn at h
  split at h
  · exact .inr h
  · exact mem_place.mp h

theorem mem_learn_of_mem {l : List α} {x y : α} (h : y ∈ l) : y ∈ learn stamp l x := by
  unfold learn
  split
  · exact h
  · exact mem_place.mpr (.inr h)

section Offers

variable (stamp)

theorem learnAll_concat (xs : List α) (x : α) :
    learnAll stamp (xs ++ [x]) = learn stamp (learnAll stamp xs) x := by
  simp [learnAll]

theorem history_learnAll (xs : List α) : History stamp (learnAll stamp xs) := by
  induction xs using List.reverseRecOn with
  | nil => exact List.Pairwise.nil
  | append_singleton xs x ih =>
    rw [learnAll_concat]
    exact learn_history ih x

theorem mem_of_mem_learnAll {xs : List α} {x : α} (h : x ∈ learnAll stamp xs) : x ∈ xs := by
  induction xs using List.reverseRecOn with
  | nil => exact h
  | append_singleton xs y ih =>
    rw [learnAll_concat] at h
    rw [List.mem_append, List.mem_singleton]
    exact (mem_learn h).elim .inr (fun h => .inl (ih h))

/-- Every offered entry is known, when a stamp names at most one of them. -/
theorem mem_learnAll {xs : List α} (hinj : ∀ x ∈ xs, ∀ y ∈ xs, stamp x = stamp y → x = y) {x : α} :
    x ∈ learnAll stamp xs ↔ x ∈ xs := by
  refine ⟨mem_of_mem_learnAll stamp, fun h => ?_⟩
  induction xs using List.reverseRecOn with
  | nil => exact h
  | append_singleton xs y ih =>
    have hinj' : ∀ x ∈ xs, ∀ y ∈ xs, stamp x = stamp y → x = y := fun a ha b hb =>
      hinj a (List.mem_append_left _ ha) b (List.mem_append_left _ hb)
    rw [learnAll_concat]
    rcases List.mem_append.mp h with h | h
    · exact mem_learn_of_mem (ih hinj' h)
    · rw [List.mem_singleton] at h
      subst h
      unfold learn
      split
      · rename_i hknown
        obtain ⟨z, hz, heq⟩ := List.mem_map.mp hknown
        have hzx : z = x := hinj z (List.mem_append_left _ (mem_of_mem_learnAll stamp hz)) x
          (by simp) heq
        exact hzx ▸ hz
      · exact mem_place.mpr (.inl rfl)

theorem foldl_offer (xs : List α) :
    xs.foldl (offer stamp n) none = ofHistory n (learnAll stamp xs) := by
  induction xs using List.reverseRecOn with
  | nil => rfl
  | append_singleton xs x ih =>
    rw [List.foldl_append, ih, learnAll_concat, ← offer_ofHistory n (history_learnAll stamp xs)]
    rfl

/-- A slot holds entries it was offered, in ascending order up to the winner. -/
theorem offers_eq_some {xs : List α} {s : Slot α} (h : xs.foldl (offer stamp n) none = some s) :
    (∀ y ∈ s.ring ++ [s.winner], y ∈ xs) ∧ History stamp (s.ring ++ [s.winner]) := by
  rw [foldl_offer] at h
  have hl := history_learnAll stamp xs
  have hsub : ∀ {y : α}, y ∈ learnAll stamp xs → y ∈ xs := mem_of_mem_learnAll stamp
  generalize learnAll stamp xs = l at h hl hsub
  rcases List.eq_nil_or_concat l with rfl | ⟨init, w, rfl⟩
  · simp [ofHistory] at h
  rw [List.concat_eq_append] at h hl hsub
  have hs : s = ⟨w, newest n init⟩ := by simpa [ofHistory, eq_comm] using h
  have hsublist : (newest n init ++ [w]).Sublist (init ++ [w]) :=
    (List.drop_sublist _ _).append_right _
  subst hs
  exact ⟨fun y hy => hsub (hsublist.subset hy), hl.sublist hsublist⟩

/-- **A slot depends only on the set of entries it was offered.** -/
theorem offers_eq_of_mem_iff {xs ys : List α}
    (hinj : ∀ x ∈ xs, ∀ y ∈ xs, stamp x = stamp y → x = y) (hmem : ∀ x, x ∈ xs ↔ x ∈ ys) :
    xs.foldl (offer stamp n) none = ys.foldl (offer stamp n) none := by
  have hinj' : ∀ x ∈ ys, ∀ y ∈ ys, stamp x = stamp y → x = y := fun a ha b hb =>
    hinj a ((hmem a).mpr ha) b ((hmem b).mpr hb)
  rw [foldl_offer, foldl_offer]
  congr 1
  have hx : (learnAll stamp xs).Pairwise (fun a b => stamp a < stamp b) := history_learnAll stamp xs
  have hy : (learnAll stamp ys).Pairwise (fun a b => stamp a < stamp b) := history_learnAll stamp ys
  have hnodup : ∀ {l : List α}, l.Pairwise (fun a b => stamp a < stamp b) → l.Nodup := by
    intro l hl
    refine hl.imp ?_
    rintro a b hlt rfl
    exact lt_irrefl _ hlt
  refine List.Perm.eq_of_pairwise ?_ hx hy ?_
  · intro a b _ _ hab hba
    exact absurd hab hba.not_gt
  · rw [List.perm_ext_iff_of_nodup (hnodup hx) (hnodup hy)]
    intro a
    rw [mem_learnAll stamp hinj, mem_learnAll stamp hinj', hmem]

end Offers

end Slot

end Supersession
