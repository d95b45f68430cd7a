import Mathlib.Data.List.Basic
import Mathlib.Tactic

/-!
# Framed logs

A log is a sequence of records, each written as a frame that depends on where in
the log it stands: a running state (a sequence number, a chained digest) is
advanced by every record.  A `LogFormat` gives the frame of a record, the next
state, and a recogniser `head` of a frame at the front of some bytes.

`LogFormat.scan` reads records until the bytes run out or the recogniser stops.
For a lawful format the two directions hold: what was written is scanned back in
front of whatever follows (`scan_encode_append`), and what the scan accepted is
exactly what writing the records it found would have produced (`scan_sound`).
A log that is cut short ends in a part of one frame (`take_encode`).
-/

/-- A format of chained frames: `σ` is the running state, `ρ` a record, `ε` why a
recogniser stops. -/
structure LogFormat (β σ ρ ε : Type) where
  frame : σ → ρ → List β
  next : σ → ρ → σ
  /-- The record at the front of the bytes and the size of its frame. -/
  head : σ → List β → Except ε (ρ × Nat)

namespace LogFormat

variable {β σ ρ ε : Type} (F : LogFormat β σ ρ ε)

/-- The frames of a list of records. -/
def encode : σ → List ρ → List β
  | _, [] => []
  | s, r :: rs => F.frame s r ++ encode (F.next s r) rs

/-- The running state after a list of records. -/
def after (s : σ) (rs : List ρ) : σ := rs.foldl F.next s

/-- What a scan found: the records, the state after them, the bytes they take and why
the scan stopped before the end. -/
structure Scan (σ ρ ε : Type) where
  records : List ρ
  state : σ
  size : Nat
  stop : Option ε

/-- Adds a record in front of a scan. -/
def Scan.cons (r : ρ) (n : Nat) (sc : Scan σ ρ ε) : Scan σ ρ ε :=
  { sc with records := r :: sc.records, size := n + sc.size }

def scanFuel : Nat → σ → List β → Scan σ ρ ε
  | 0, s, _ => ⟨[], s, 0, none⟩
  | fuel + 1, s, bytes =>
    if bytes.isEmpty then ⟨[], s, 0, none⟩
    else match F.head s bytes with
      | .error e => ⟨[], s, 0, some e⟩
      | .ok (r, n) => (scanFuel fuel (F.next s r) (bytes.drop n)).cons r n

/-- A frame takes at least one byte, so there are at most as many as there are bytes. -/
def scan (s : σ) (bytes : List β) : Scan σ ρ ε := F.scanFuel bytes.length s bytes

/-- Frames of the records stand at the front of the bytes, one after the other, and the recogniser
accepts each of them. -/
def Accepts : σ → List β → List ρ → Prop
  | _, _, [] => True
  | s, bytes, r :: rs => ∃ n, F.head s bytes = .ok (r, n) ∧ Accepts (F.next s r) (bytes.drop n) rs

/-- The recogniser accepts the frames of good records and nothing else. -/
structure Lawful (good : ρ → Prop) : Prop where
  frame_ne_nil : ∀ s r, F.frame s r ≠ []
  head_frame : ∀ s r tail, good r → F.head s (F.frame s r ++ tail) = .ok (r, (F.frame s r).length)
  head_sound : ∀ s bytes r n, F.head s bytes = .ok (r, n) →
    good r ∧ n = (F.frame s r).length ∧ bytes = F.frame s r ++ bytes.drop n

theorem encode_append (s : σ) (rs rs' : List ρ) :
    F.encode s (rs ++ rs') = F.encode s rs ++ F.encode (F.after s rs) rs' := by
  induction rs generalizing s with
  | nil => rfl
  | cons r rs ih => simp [encode, after, ih]

/-- **A log that is cut short** is some of its frames and a part of the next one. -/
theorem take_encode (s : σ) (rs : List ρ) {n : Nat} (hn : n < (F.encode s rs).length) :
    ∃ before r after m, rs = before ++ r :: after ∧ m < (F.frame (F.after s before) r).length ∧
      n = (F.encode s before).length + m ∧
      (F.encode s rs).take n = F.encode s before ++ (F.frame (F.after s before) r).take m := by
  induction rs generalizing s n with
  | nil => simp [encode] at hn
  | cons r rs ih =>
    by_cases hfirst : n < (F.frame s r).length
    · refine ⟨[], r, rs, n, rfl, hfirst, by simp [encode], ?_⟩
      have hcons : F.encode s (r :: rs) = F.frame s r ++ F.encode (F.next s r) rs := rfl
      rw [hcons, List.take_append_of_le_length (Nat.le_of_lt hfirst)]
      rfl
    · rw [encode, List.length_append] at hn
      obtain ⟨before, r', after, m, rfl, hm, hlen, htake⟩ :=
        ih (F.next s r) (show n - (F.frame s r).length < _ by omega)
      refine ⟨r :: before, r', after, m, rfl, hm, ?_, ?_⟩
      · rw [encode, List.length_append]
        omega
      · rw [encode, List.take_append, htake, List.take_of_length_le (Nat.not_lt.mp hfirst), encode,
          List.append_assoc]
        rfl

variable {F} {good : ρ → Prop}

theorem scan_nil (s : σ) : F.scan s [] = ⟨[], s, 0, none⟩ := rfl

theorem scan_of_error {s : σ} {bytes : List β} {e : ε} (hne : bytes ≠ [])
    (h : F.head s bytes = .error e) : F.scan s bytes = ⟨[], s, 0, some e⟩ := by
  cases bytes with
  | nil => exact absurd rfl hne
  | cons b bs => simp [scan, scanFuel, h]

section

variable (hF : F.Lawful good)
include hF

theorem length_le_encode (s : σ) (rs : List ρ) : rs.length ≤ (F.encode s rs).length := by
  induction rs generalizing s with
  | nil => exact Nat.zero_le _
  | cons r rs ih =>
    have hpos := List.length_pos_iff.mpr (hF.frame_ne_nil s r)
    have hrest := ih (F.next s r)
    rw [encode, List.length_append, List.length_cons]
    omega

/-- Fuel beyond the number of bytes changes nothing. -/
theorem scanFuel_eq_scan (fuel : Nat) (s : σ) (bytes : List β) (h : bytes.length ≤ fuel) :
    F.scanFuel fuel s bytes = F.scan s bytes := by
  suffices hs : ∀ (m fuel fuel' : Nat) (s : σ) (bytes : List β), bytes.length ≤ m →
      bytes.length ≤ fuel → bytes.length ≤ fuel' →
      F.scanFuel fuel s bytes = F.scanFuel fuel' s bytes from
    hs bytes.length fuel bytes.length s bytes le_rfl h le_rfl
  intro m
  induction m with
  | zero =>
    intro fuel fuel' s bytes hm _ _
    obtain rfl : bytes = [] := List.length_eq_zero_iff.mp (Nat.le_zero.mp hm)
    cases fuel <;> cases fuel' <;> simp [scanFuel]
  | succ m ih =>
    intro fuel fuel' s bytes hm hf hf'
    cases bytes with
    | nil => cases fuel <;> cases fuel' <;> simp [scanFuel]
    | cons b bs =>
      cases fuel with
      | zero => simp at hf
      | succ fuel =>
        cases fuel' with
        | zero => simp at hf'
        | succ fuel' =>
          simp only [scanFuel, List.isEmpty_cons, Bool.false_eq_true, if_false]
          cases hh : F.head s (b :: bs) with
          | error e => rfl
          | ok rn =>
            obtain ⟨r, n⟩ := rn
            obtain ⟨-, hn, -⟩ := hF.head_sound _ _ _ _ hh
            have hpos : 0 < n := hn ▸ List.length_pos_iff.mpr (hF.frame_ne_nil s r)
            have hdrop : ((b :: bs).drop n).length + 1 ≤ (b :: bs).length := by
              rw [List.length_drop, List.length_cons]
              omega
            dsimp only
            rw [ih fuel fuel' _ ((b :: bs).drop n) (by omega) (by omega) (by omega)]

theorem scan_of_ok {s : σ} {bytes : List β} {r : ρ} {n : Nat} (h : F.head s bytes = .ok (r, n)) :
    F.scan s bytes = (F.scan (F.next s r) (bytes.drop n)).cons r n := by
  obtain ⟨-, hn, heq⟩ := hF.head_sound _ _ _ _ h
  have hpos : 0 < n := hn ▸ List.length_pos_iff.mpr (hF.frame_ne_nil s r)
  have hlen := congrArg List.length heq
  rw [List.length_append, ← hn] at hlen
  cases bytes with
  | nil => simp at hlen; omega
  | cons b bs =>
    have hrest : ((b :: bs).drop n).length ≤ bs.length := by
      rw [List.length_drop, List.length_cons]
      omega
    rw [← scanFuel_eq_scan hF bs.length _ _ hrest]
    simp [scan, scanFuel, h]

/-- **What was written is scanned back**, whatever follows it. -/
theorem scan_encode_append (s : σ) (rs : List ρ) (tail : List β) (hgood : ∀ r ∈ rs, good r) :
    F.scan s (F.encode s rs ++ tail) =
      { F.scan (F.after s rs) tail with
        records := rs ++ (F.scan (F.after s rs) tail).records
        size := (F.encode s rs).length + (F.scan (F.after s rs) tail).size } := by
  induction rs generalizing s with
  | nil => simp [encode, after]
  | cons r rs ih =>
    rw [List.forall_mem_cons] at hgood
    have hhead := hF.head_frame s r (F.encode (F.next s r) rs ++ tail) hgood.1
    rw [encode, List.append_assoc, scan_of_ok hF hhead, List.drop_left, ih _ hgood.2]
    simp only [Scan.cons, after, List.foldl_cons, List.cons_append, List.length_append,
      Nat.add_assoc]

/-- **What the scan accepted is what writing the records would have produced.** -/
theorem scan_sound (s : σ) (bytes : List β) :
    (∀ r ∈ (F.scan s bytes).records, good r) ∧
    (F.scan s bytes).state = F.after s (F.scan s bytes).records ∧
    (F.scan s bytes).size = (F.encode s (F.scan s bytes).records).length ∧
    bytes = F.encode s (F.scan s bytes).records ++ bytes.drop (F.scan s bytes).size := by
  induction hm : bytes.length using Nat.strong_induction_on generalizing s bytes with
  | _ m ih =>
    by_cases hne : bytes = []
    · subst hne
      simp [scan, scanFuel, encode, after]
    cases hh : F.head s bytes with
    | error e =>
      rw [scan_of_error hne hh]
      simp [encode, after]
    | ok rn =>
      obtain ⟨r, n⟩ := rn
      obtain ⟨hg, hn, heq⟩ := hF.head_sound _ _ _ _ hh
      have hpos : 0 < n := hn ▸ List.length_pos_iff.mpr (hF.frame_ne_nil s r)
      have hlt : (bytes.drop n).length < m := by
        have := List.length_pos_iff.mpr hne
        rw [List.length_drop]
        omega
      obtain ⟨h₁, h₂, h₃, h₄⟩ := ih _ hlt (F.next s r) (bytes.drop n) rfl
      rw [scan_of_ok hF hh]
      refine ⟨?_, ?_, ?_, ?_⟩
      · simpa [Scan.cons] using ⟨hg, h₁⟩
      · simpa [Scan.cons, after] using h₂
      · simp only [Scan.cons, encode, List.length_append, ← hn, h₃]
      · simp only [Scan.cons, encode, List.append_assoc]
        rw [← List.drop_drop, ← h₄]
        exact heq

/-- **A scan finds the longest list of records that the recogniser accepts.** -/
theorem accepts_iff (s : σ) (bytes : List β) (rs : List ρ) :
    F.Accepts s bytes rs ↔ rs <+: (F.scan s bytes).records := by
  induction rs generalizing s bytes with
  | nil => simp [Accepts]
  | cons r rs ih =>
    cases hh : F.head s bytes with
    | error e =>
      have hnone : (F.scan s bytes).records = [] := by
        by_cases hne : bytes = []
        · rw [hne, scan_nil]
        · rw [scan_of_error hne hh]
      simp [Accepts, hh, hnone]
    | ok rn =>
      obtain ⟨r', n⟩ := rn
      rw [scan_of_ok hF hh, Scan.cons, List.cons_prefix_cons, ← ih, Accepts]
      constructor
      · rintro ⟨n', heq, hrest⟩
        obtain ⟨rfl, rfl⟩ := Prod.mk.inj (Except.ok.inj (hh.symm.trans heq))
        exact ⟨rfl, hrest⟩
      · rintro ⟨rfl, hrest⟩
        exact ⟨n, hh, hrest⟩

/-- A scan that stopped did so at bytes the recogniser refuses; one that did not
consumed everything. -/
theorem scan_stop (s : σ) (bytes : List β) :
    match (F.scan s bytes).stop with
    | none => (F.scan s bytes).size = bytes.length
    | some e => F.head (F.scan s bytes).state (bytes.drop (F.scan s bytes).size) = .error e := by
  induction hm : bytes.length using Nat.strong_induction_on generalizing s bytes with
  | _ m ih =>
    by_cases hne : bytes = []
    · subst hne
      simpa [scan, scanFuel] using hm
    cases hh : F.head s bytes with
    | error e =>
      rw [scan_of_error hne hh]
      simpa using hh
    | ok rn =>
      obtain ⟨r, n⟩ := rn
      obtain ⟨-, hn, heq⟩ := hF.head_sound _ _ _ _ hh
      have hpos : 0 < n := hn ▸ List.length_pos_iff.mpr (hF.frame_ne_nil s r)
      have hle : n ≤ bytes.length := by
        have := congrArg List.length heq
        rw [List.length_append, ← hn] at this
        omega
      have hlt : (bytes.drop n).length < m := by
        have := List.length_pos_iff.mpr hne
        rw [List.length_drop]
        omega
      have h := ih _ hlt (F.next s r) (bytes.drop n) rfl
      rw [scan_of_ok hF hh]
      simp only [Scan.cons]
      cases hs : (F.scan (F.next s r) (bytes.drop n)).stop with
      | none =>
        rw [hs] at h
        simp only at h ⊢
        rw [h, List.length_drop]
        omega
      | some e =>
        rw [hs] at h
        simp only at h ⊢
        rwa [← List.drop_drop]

end

end LogFormat
