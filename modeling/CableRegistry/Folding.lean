import CableRegistry.Claims
import CableRegistry.Lib.Supersession

/-!
# A claim key is a supersession slot

`Folded.win` and `Folded.lose` keep a winner and a bounded ring.  This file shows that
a claim key whose records all have different generations behaves as the slot of
`Supersession`, stamped by the generation: `represents_settleSlot` is the simulation
step, for the outcome the source computes.  Receive times and drop counts are not part
of the slot, so the representation is up to a blur.

`fold_records` says the same of `fold` and `foldLosing` as they are, with the count of what
fell off the ring: a key is a function of the set of its records.
-/

open Std Supersession

namespace CableRegistry

/-- A record as an entry of a slot: its attestation and what it says. -/
abbrev Entry (ν : Type) := Attestation × ν

/-- Entries are ordered by their generation. -/
def Entry.stamp {ν : Type} (x : Entry ν) : Nat := x.1.generation.toNat

/-! ### The ring order -/

theorem ringOrder_eq (a b : Attestation) :
    ringOrder a b =
      (compareLex (compareOn Attestation.generation) (compareOn Attestation.evidence) a b == .lt) := by
  unfold ringOrder compareLex compareOn
  by_cases h : a.generation = b.generation
  · simp [h]
  · rw [if_pos h, Bool.eq_iff_iff, decide_eq_true_eq, beq_iff_eq]
    cases hc : compare a.generation b.generation with
    | lt => simp [Std.compare_eq_lt.mp hc]
    | eq => exact absurd (by simpa using hc) h
    | gt => simpa using UInt64.le_of_lt (Std.compare_eq_gt.mp hc)

/-- Attestations in strictly ascending order of generations. -/
abbrev Ascending (l : List Attestation) : Prop :=
  l.Pairwise (fun a b => a.generation.toNat < b.generation.toNat)

/-- Sorting a ring brings it into the one order its generations have. -/
theorem sortBy_ringOrder {l l' : List Attestation} (hp : l.Perm l') (hs : Ascending l') :
    sortBy ringOrder l = l' := by
  have hperm : (sortBy ringOrder l).Perm l' := (sortBy_perm l).trans hp
  have hle := pairwise_sortBy ringOrder_eq l
  have hne : (sortBy ringOrder l).Pairwise (fun a b => a.generation ≠ b.generation) := by
    refine (hperm.symm.pairwise ?_ ?_)
    · refine hs.imp ?_
      intro a b hlt heq
      rw [heq] at hlt
      exact lt_irrefl _ hlt
    · exact fun h heq => h heq.symm
  have hlt : Ascending (sortBy ringOrder l) := by
    refine (hle.and hne).imp ?_
    rintro a b ⟨hab, hg⟩
    simp only [compareLex, compareOn] at hab
    cases hc : compare a.generation b.generation with
    | lt => exact UInt64.lt_iff_toNat_lt.mp (Std.compare_eq_lt.mp hc)
    | eq => exact absurd (by simpa using hc) hg
    | gt => simp [hc] at hab
  exact List.Perm.eq_of_pairwise (fun a b _ _ hab hba => absurd hab (Nat.lt_asymm hba)) hlt hs hperm

/-! ### The simulation -/

variable {historyPerKey : UInt32}

section Represent

variable {ν : Type} (b : Blur)

/-- The folded record holds the entries of the slot. -/
structure Represents (f : Folded ν) (slot : Slot (Entry ν)) : Prop where
  winner : (f.metadata.blur b, f.value) = slot.winner
  ring : f.superseded.map (Attestation.blur b) = slot.ring.map Prod.fst

variable {b} {f : Folded ν} {slot : Slot (Entry ν)}

theorem Represents.winner_stamp (h : Represents b f slot) :
    slot.winner.stamp = f.metadata.generation.toNat := by
  rw [← h.winner]
  rfl

theorem Represents.winner_fst (h : Represents b f slot) : f.metadata.blur b = slot.winner.1 := by
  rw [← h.winner]

/-- Blurring commutes with sorting a ring and cutting it. -/
theorem blur_settleRing (historyPerKey : UInt32) (ring : List Attestation) (r : Folded ν) :
    (r.settleRing historyPerKey ring).superseded.map (Attestation.blur b) =
      newest historyPerKey.toNat (sortBy ringOrder (ring.map (Attestation.blur b))) := by
  have hsort : sortBy ringOrder (ring.map (Attestation.blur b)) =
      (sortBy ringOrder ring).map (Attestation.blur b) :=
    sortBy_map _ _ fun _ _ _ _ => rfl
  simp only [Folded.settleRing, newest, hsort, List.map_drop, List.length_map]

/-- The ring that is kept after an entry is put in its place among others. -/
theorem superseded_settleRing {ring : List Attestation} {r : Folded ν} {entries : List (Entry ν)}
    (hs : History Entry.stamp entries)
    (hp : (ring.map (Attestation.blur b)).Perm (entries.map Prod.fst)) :
    (r.settleRing historyPerKey ring).superseded.map (Attestation.blur b) =
      (newest historyPerKey.toNat entries).map Prod.fst := by
  have hasc : Ascending (entries.map Prod.fst) := List.pairwise_map.mpr hs
  rw [blur_settleRing, sortBy_ringOrder hp hasc]
  simp only [newest, List.map_drop, List.length_map]

/-- Among the entries of a slot and a new one, the evidence identity tells the same
records apart as the generation. -/
def Distinguished (entries : List (Entry ν)) : Prop :=
  ∀ x ∈ entries, ∀ y ∈ entries, x.1.evidence = y.1.evidence ↔ x.stamp = y.stamp

/-- Whether an identity is in the ring. -/
theorem Represents.any_evidence (h : Represents b f slot) {x : Entry ν} {entries : List (Entry ν)}
    (hd : Distinguished entries) (hx : x ∈ entries) (hring : ∀ y ∈ slot.ring, y ∈ entries) :
    f.superseded.any (·.evidence == x.1.evidence) = decide (x.stamp ∈ slot.ring.map Entry.stamp) := by
  have hany : f.superseded.any (·.evidence == x.1.evidence) =
      (f.superseded.map (Attestation.blur b)).any (·.evidence == x.1.evidence) := by
    rw [List.any_map]
    rfl
  rw [hany, h.ring, List.any_map, Bool.eq_iff_iff, List.any_eq_true, decide_eq_true_eq,
    List.mem_map]
  constructor
  · rintro ⟨y, hy, heq⟩
    exact ⟨y, hy, ((hd y (hring y hy) x hx).mp (by simpa using heq))⟩
  · rintro ⟨y, hy, heq⟩
    exact ⟨y, hy, by simpa using (hd y (hring y hy) x hx).mpr heq⟩

variable (historyPerKey : UInt32) {m : Attestation} {v : ν} {entries : List (Entry ν)}

/-- A newer record wins. -/
theorem Represents.win (h : Represents b f slot) (hd : Distinguished entries)
    (hslot : ∀ y ∈ slot.ring ++ [slot.winner], y ∈ entries)
    (hasc : History Entry.stamp (slot.ring ++ [slot.winner])) :
    Represents b (f.win historyPerKey m v)
      ⟨(m.blur b, v), newest historyPerKey.toNat (place Entry.stamp slot.winner slot.ring)⟩ := by
  have hlt : ∀ y ∈ slot.ring, y.stamp < slot.winner.stamp := fun y hy =>
    (List.pairwise_append.mp hasc).2.2 y hy _ List.mem_cons_self
  have hany : f.superseded.any (·.evidence == f.metadata.evidence) = false := by
    have hev : f.metadata.evidence = slot.winner.1.evidence := by
      rw [← h.winner_fst]
      rfl
    rw [hev, h.any_evidence hd (hslot _ (by simp)) (fun y hy => hslot y (by simp [hy])),
      decide_eq_false_iff_not]
    intro hm
    obtain ⟨y, hy, heq⟩ := List.mem_map.mp hm
    exact (hlt y hy).ne heq
  rw [place_of_lt hlt]
  refine ⟨rfl, ?_⟩
  simp only [Folded.win, hany, Bool.false_eq_true, if_false]
  refine superseded_settleRing hasc ?_
  rw [List.map_append, List.map_append, h.ring, List.map_singleton, List.map_singleton,
    h.winner_fst]

/-- An older record joins the ring unless it is there. -/
theorem Represents.lose (h : Represents b f slot) (hd : Distinguished entries)
    (hslot : ∀ y ∈ slot.ring ++ [slot.winner], y ∈ entries)
    (hasc : History Entry.stamp (slot.ring ++ [slot.winner]))
    (hx : (m.blur b, v) ∈ entries) (hlt : m.generation < f.metadata.generation) :
    Represents b (f.lose historyPerKey m)
      (if Entry.stamp (m.blur b, v) ∈ slot.ring.map Entry.stamp then slot else
        ⟨slot.winner, newest historyPerKey.toNat (place Entry.stamp (m.blur b, v) slot.ring)⟩) := by
  have hring : ∀ y ∈ slot.ring, y ∈ entries := fun y hy => hslot y (by simp [hy])
  have hne : (f.metadata.evidence == m.evidence) = false := by
    have hev : f.metadata.evidence = slot.winner.1.evidence := by
      rw [← h.winner_fst]
      rfl
    rw [hev, beq_eq_false_iff_ne]
    intro heq
    have hst := (hd _ (hslot _ (by simp)) _ hx).mp heq
    rw [h.winner_stamp] at hst
    exact (UInt64.lt_iff_toNat_lt.mp hlt).ne hst.symm
  have hany := h.any_evidence hd hx hring
  have hany' : f.superseded.any (·.evidence == m.evidence) =
      decide (Entry.stamp (m.blur b, v) ∈ slot.ring.map Entry.stamp) := hany
  simp only [Folded.lose, hne, Bool.false_eq_true, if_false, hany', decide_eq_true_eq]
  split
  · exact h
  · rename_i hnew
    refine ⟨h.winner, ?_⟩
    have hhist : History Entry.stamp slot.ring := (List.pairwise_append.mp hasc).1
    refine superseded_settleRing (hhist.place hnew) ?_
    rw [List.map_append, h.ring, List.map_singleton]
    refine (List.perm_append_singleton _ _).trans ?_
    exact ((perm_place (m.blur b, v) slot.ring).map Prod.fst).symm

end Represent

/-- **The outcome the source computes for a key is an offer to its slot.** -/
theorem represents_settleSlot {b : Blur} {historyPerKey : UInt32} {m : Attestation} {v : ClaimValue}
    {stored : Option (Folded ClaimValue)} {slot : Option (Slot (Entry ClaimValue))}
    {entries : List (Entry ClaimValue)} {same : ClaimValue → Bool}
    (h : Option.Rel (Represents b) stored slot) (hd : Distinguished entries)
    (hslot : ∀ s, slot = some s → (∀ y ∈ s.ring ++ [s.winner], y ∈ entries) ∧
      History Entry.stamp (s.ring ++ [s.winner]))
    (hx : (m.blur b, v) ∈ entries) (hcol : slotOutcome stored m same ≠ .collision) :
    Option.Rel (Represents b) (settleSlot historyPerKey m v (slotOutcome stored m same) stored)
      (Slot.offer Entry.stamp historyPerKey.toNat slot (m.blur b, v)) := by
  cases h with
  | none => exact .some ⟨rfl, rfl⟩
  | @some f s hf =>
    obtain ⟨hmem, hasc⟩ := hslot s rfl
    have hm : Entry.stamp (m.blur b, v) = m.generation.toNat := rfl
    simp only [slotOutcome, compareGeneration, Slot.offer, hf.winner_stamp, hm,
      UInt64.lt_iff_toNat_lt, gt_iff_lt] at hcol ⊢
    by_cases hgt : f.metadata.generation.toNat < m.generation.toNat
    · rw [if_pos hgt, if_pos hgt]
      exact .some (hf.win historyPerKey hd hmem hasc)
    rw [if_neg hgt] at hcol ⊢
    rw [if_neg hgt]
    by_cases hlt : m.generation.toNat < f.metadata.generation.toNat
    · have hl := hf.lose historyPerKey hd hmem hasc hx (UInt64.lt_iff_toNat_lt.mpr hlt)
      rw [if_pos hlt]
      by_cases hring : m.generation.toNat ∈ s.ring.map Entry.stamp
      · rw [if_neg (by simp [hring])]
        rw [hm, if_pos hring] at hl
        exact .some hl
      · rw [if_pos ⟨hlt, hring⟩]
        rw [hm, if_neg hring] at hl
        exact .some hl
    · rw [if_neg hlt] at hcol ⊢
      have hsame : same f.value = true := by
        by_contra hn
        rw [if_neg hn] at hcol
        exact hcol rfl
      simp only [hlt, false_and, if_false, hsame, if_true]
      exact .some hf

/-! ### The key as a function of its records -/

section Settled

variable {ι ν : Type} [Ord ι] [TransOrd ι]

/-- A record folded into its key by the way its generation calls for. -/
def foldRecord (historyPerKey : UInt32) (key : ι) (slots : OrdMap ι (Folded ν)) (x : Entry ν) :
    OrdMap ι (Folded ν) :=
  match slots[key]? with
  | none => fold historyPerKey slots key x.1 x.2
  | some folded =>
    if x.1.generation > folded.metadata.generation then fold historyPerKey slots key x.1 x.2
    else if x.1.generation < folded.metadata.generation then foldLosing historyPerKey slots key x.1
    else slots

/-- The winner, the ring and the count of what fell off it, for records in ascending order
of their generations. -/
def Folded.ofRecords (historyPerKey : UInt32) (records : List (Entry ν)) : Option (Folded ν) :=
  records.getLast?.map fun winner =>
    { metadata := winner.1
      value := winner.2
      superseded := (newest historyPerKey.toNat records.dropLast).map Prod.fst
      historyDropped := UInt32.ofNat (records.dropLast.length - historyPerKey.toNat) }

variable {h : UInt32} {key : ι} {slots : OrdMap ι (Folded ν)} {init l : List (Entry ν)}
  {x w : Entry ν}

theorem Folded.ofRecords_concat (init : List (Entry ν)) (w : Entry ν) :
    Folded.ofRecords h (init ++ [w]) = some ⟨w.1, w.2, (newest h.toNat init).map Prod.fst,
      UInt32.ofNat (init.length - h.toNat)⟩ := by
  simp [Folded.ofRecords]

/-- **One more record in the ring**, by either route: the ring is that of the records with
the new one in its place, and what falls off is counted. -/
theorem settleRing_place {r : Folded ν} (hinit : History Entry.stamp init)
    (hx : x.stamp ∉ init.map Entry.stamp)
    (hdropped : r.historyDropped = UInt32.ofNat (init.length - h.toNat)) :
    r.settleRing h ((newest h.toNat init).map Prod.fst ++ [x.1]) =
      { r with
        superseded := (newest h.toNat (place Entry.stamp x init)).map Prod.fst
        historyDropped := UInt32.ofNat ((place Entry.stamp x init).length - h.toNat) } := by
  have hnew : x.stamp ∉ (newest h.toNat init).map Entry.stamp := fun hm =>
    hx (List.mem_of_mem_drop (by simpa [newest] using hm))
  have hhist : History Entry.stamp (newest h.toNat init) := List.Pairwise.drop hinit
  have hsort : sortBy ringOrder ((newest h.toNat init).map Prod.fst ++ [x.1]) =
      (place Entry.stamp x (newest h.toNat init)).map Prod.fst := by
    refine sortBy_ringOrder ?_ (List.pairwise_map.mpr (hhist.place hnew))
    refine (List.perm_append_singleton _ _).trans ?_
    exact ((perm_place x (newest h.toNat init)).map Prod.fst).symm
  have hlen : ∀ l : List (Entry ν), (place Entry.stamp x l).length = l.length + 1 := fun l =>
    (perm_place x l).length_eq
  have hcount : init.length - h.toNat + ((newest h.toNat init).length + 1 - h.toNat) =
      init.length + 1 - h.toNat := by
    rw [newest, List.length_drop]
    omega
  simp only [Folded.settleRing, hsort, ← newest_place_newest h.toNat hinit, hdropped,
    List.length_map, hlen, ← hcount, UInt32.ofNat_add]
  simp only [newest, List.map_drop, hlen]

/-- **One record.** -/
theorem foldRecord_ofRecords (hslot : slots[key]? = Folded.ofRecords h l)
    (hl : History Entry.stamp l) (hstamp : x.stamp ∉ l.map Entry.stamp)
    (hevidence : x.1.evidence ∉ l.map (·.1.evidence)) (hdistinct : (l.map (·.1.evidence)).Nodup) :
    (foldRecord h key slots x)[key]? = Folded.ofRecords h (place Entry.stamp x l) := by
  rcases List.eq_nil_or_concat l with rfl | ⟨init, w, rfl⟩
  · have hnone : slots[key]? = none := hslot
    simp [foldRecord, fold, hnone, place, Folded.ofRecords, newest]
  rw [List.concat_eq_append] at hslot hl hstamp hevidence hdistinct ⊢
  rw [Folded.ofRecords_concat] at hslot
  have hinit : History Entry.stamp init := (List.pairwise_append.mp hl).1
  have hw : ∀ y ∈ init, y.stamp < w.stamp := fun y hy =>
    (List.pairwise_append.mp hl).2.2 y hy w List.mem_cons_self
  simp only [List.map_append, List.map_singleton, List.mem_append, List.mem_singleton,
    not_or] at hstamp hevidence
  -- An identity that is not among the older records is not in the ring.
  have habsent : ∀ id, id ∉ init.map (·.1.evidence) →
      ((newest h.toNat init).map Prod.fst).any (·.evidence == id) = false := by
    intro id hid
    simp only [List.any_eq_false, List.mem_map, beq_iff_eq]
    rintro _ ⟨y, hy, rfl⟩ heq
    exact hid (List.mem_map.mpr ⟨y, List.mem_of_mem_drop hy, heq⟩)
  simp only [foldRecord, hslot]
  rcases lt_or_gt_of_ne hstamp.2 with hlt | hgt
  · have hlt' : x.1.generation < w.1.generation := UInt64.lt_iff_toNat_lt.mpr hlt
    rw [if_neg (UInt64.lt_asymm hlt'), if_pos hlt', place_concat_of_le hlt.le,
      Folded.ofRecords_concat]
    have hne : (w.1.evidence == x.1.evidence) = false := by simpa using Ne.symm hevidence.2
    simp only [foldLosing, hslot, ExtTreeMap.getElem?_insert_self, Folded.lose, hne,
      habsent _ hevidence.1, Bool.false_eq_true, if_false]
    rw [settleRing_place hinit hstamp.1 rfl]
  · have hall : ∀ y ∈ init ++ [w], y.stamp < x.stamp := by
      intro y hy
      rcases List.mem_append.mp hy with hy | hy
      · exact (hw y hy).trans hgt
      · rwa [List.mem_singleton.mp hy]
    have hwev : w.1.evidence ∉ init.map (·.1.evidence) := by
      rw [List.map_append, List.nodup_append] at hdistinct
      exact fun hm => hdistinct.2.2 _ hm _ (by simp) rfl
    have hwst : w.stamp ∉ init.map Entry.stamp := by
      intro hm
      obtain ⟨y, hy, heq⟩ := List.mem_map.mp hm
      exact (hw y hy).ne heq
    rw [if_pos (UInt64.lt_iff_toNat_lt.mpr hgt), place_of_lt hall, Folded.ofRecords_concat]
    simp only [fold, hslot, ExtTreeMap.getElem?_insert_self, Folded.win, habsent _ hwev,
      Bool.false_eq_true, if_false]
    rw [settleRing_place hinit hwst rfl, place_of_lt hw]

/-- **A run of records**: the key is that of the records in the order of their generations. -/
theorem foldl_foldRecord (hfree : slots[key]? = none) {xs : List (Entry ν)}
    (hstamp : (xs.map Entry.stamp).Nodup) (hevidence : (xs.map (·.1.evidence)).Nodup) :
    ∃ l, History Entry.stamp l ∧ l.Perm xs ∧
      (xs.foldl (foldRecord h key) slots)[key]? = Folded.ofRecords h l := by
  induction xs using List.reverseRecOn with
  | nil => exact ⟨[], List.Pairwise.nil, .rfl, hfree⟩
  | append_singleton xs x ih =>
    rw [List.map_append, List.nodup_append] at hstamp hevidence
    obtain ⟨l, hl, hperm, hslot⟩ := ih hstamp.1 hevidence.1
    have hx : x.stamp ∉ l.map Entry.stamp := by
      rw [(hperm.map _).mem_iff]
      exact fun hm => hstamp.2.2 _ hm _ (by simp) rfl
    have hx' : x.1.evidence ∉ l.map (·.1.evidence) := by
      rw [(hperm.map _).mem_iff]
      exact fun hm => hevidence.2.2 _ hm _ (by simp) rfl
    refine ⟨place Entry.stamp x l, hl.place hx, ?_, ?_⟩
    · exact (perm_place x l).trans
        ((hperm.cons x).trans (List.perm_append_singleton x xs).symm)
    · rw [List.foldl_append]
      exact foldRecord_ofRecords hslot hl hx hx' ((hperm.map _).nodup_iff.mpr hevidence.1)

/-- The records in ascending order of their generations. -/
def byGeneration (xs : List (Entry ν)) : List (Entry ν) :=
  xs.mergeSort fun a b => a.1.generation ≤ b.1.generation

theorem history_byGeneration {xs : List (Entry ν)} (hstamp : (xs.map Entry.stamp).Nodup) :
    History Entry.stamp (byGeneration xs) := by
  have hle : (byGeneration xs).Pairwise fun a b => decide (a.1.generation ≤ b.1.generation) := by
    refine List.pairwise_mergeSort ?_ ?_ xs
    · intro a b c hab hbc
      exact decide_eq_true (UInt64.le_trans (of_decide_eq_true hab) (of_decide_eq_true hbc))
    · intro a b
      simpa using UInt64.le_total a.1.generation b.1.generation
  have hne : (byGeneration xs).Pairwise fun a b => a.stamp ≠ b.stamp :=
    List.pairwise_map.mp (((List.mergeSort_perm xs _).map _).nodup_iff.mpr hstamp)
  refine (hle.and hne).imp ?_
  rintro a b ⟨hab, hne⟩
  exact Nat.lt_of_le_of_ne (UInt64.le_iff_toNat_le.mp (of_decide_eq_true hab)) hne

/-- **The key of a set of records.** -/
theorem fold_eq_ofRecords (hfree : slots[key]? = none) {xs : List (Entry ν)}
    (hstamp : (xs.map Entry.stamp).Nodup) (hevidence : (xs.map (·.1.evidence)).Nodup) :
    (xs.foldl (foldRecord h key) slots)[key]? = Folded.ofRecords h (byGeneration xs) := by
  obtain ⟨l, hl, hperm, hfold⟩ := foldl_foldRecord hfree hstamp hevidence
  have heq : l = byGeneration xs :=
    List.Perm.eq_of_pairwise (fun a b _ _ hab hba => absurd hab (Nat.lt_asymm hba)) hl
      (history_byGeneration hstamp) (hperm.trans (List.mergeSort_perm xs _).symm)
  rw [hfold, heq]

theorem Folded.ofRecords_byGeneration {xs : List (Entry ν)} (hne : xs ≠ []) :
    ∃ folded, Folded.ofRecords h (byGeneration xs) = some folded ∧
      (byGeneration xs).getLast? = some (folded.metadata, folded.value) ∧
      folded.superseded = (newest h.toNat (byGeneration xs).dropLast).map Prod.fst ∧
      folded.historyDropped.toNat = (xs.length - 1 - h.toNat) % 2 ^ 32 := by
  have hlen : (byGeneration xs).length = xs.length := (List.mergeSort_perm xs _).length_eq
  rcases List.eq_nil_or_concat (byGeneration xs) with hnil | ⟨older, winner, heq⟩
  · rw [hnil] at hlen
    exact absurd (List.length_eq_zero_iff.mp hlen.symm) hne
  rw [List.concat_eq_append] at heq
  rw [← hlen, heq, Folded.ofRecords_concat]
  refine ⟨_, rfl, by simp, by simp, ?_⟩
  simp

end Settled

/-- Records of the first `n` generations. -/
def firstRecords (n : Nat) : List (Entry Unit) :=
  (List.range n).map fun i =>
    ({ generation := UInt64.ofNat i, evidence := ⟨{ lo := UInt64.ofNat i }⟩ }, ())

theorem nodup_firstRecords {n : Nat} (hn : n ≤ 2 ^ 64) :
    ((firstRecords n).map Entry.stamp).Nodup ∧
      ((firstRecords n).map (·.1.evidence)).Nodup := by
  have hinj : ∀ i ∈ List.range n, ∀ j ∈ List.range n, UInt64.ofNat i = UInt64.ofNat j → i = j := by
    intro i hi j hj heq
    have hsize : UInt64.size = 2 ^ 64 := rfl
    have := congrArg UInt64.toNat heq
    rw [List.mem_range] at hi hj
    rwa [UInt64.toNat_ofNat_of_lt' (by omega), UInt64.toNat_ofNat_of_lt' (by omega)] at this
  rw [firstRecords, List.map_map, List.map_map]
  refine ⟨List.Nodup.map_on (fun i hi j hj heq => hinj i hi j hj ?_) List.nodup_range,
    List.Nodup.map_on (fun i hi j hj heq => hinj i hi j hj ?_) List.nodup_range⟩
  · exact UInt64.toNat_inj.mp heq
  · exact congrArg (·.value.lo) heq

end CableRegistry
