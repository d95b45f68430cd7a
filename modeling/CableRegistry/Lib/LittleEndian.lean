import CableRegistry.Lib.Parse
import Mathlib.Tactic

/-!
# Little-endian numbers

A number of a given width is written as its base 256 digits, least significant
first.  `leValue_leBytes` and `leBytes_leValue` say that writing and reading are
inverse, and `reads_le` states it for a reader of the digits.
-/

/-- The `w` least significant base 256 digits of a number, lowest first. -/
def leBytes : Nat → Nat → List UInt8
  | 0, _ => []
  | w + 1, n => UInt8.ofNat n :: leBytes w (n / 256)

/-- The number with the given base 256 digits, lowest first. -/
def leValue : List UInt8 → Nat
  | [] => 0
  | b :: bs => b.toNat + 256 * leValue bs

@[simp] theorem length_leBytes (w n : Nat) : (leBytes w n).length = w := by
  induction w generalizing n with
  | zero => rfl
  | succ w ih => simp [leBytes, ih]

theorem leValue_leBytes {w n : Nat} (h : n < 256 ^ w) : leValue (leBytes w n) = n := by
  induction w generalizing n with
  | zero =>
    simp only [pow_zero, Nat.lt_one_iff] at h
    simp [leBytes, leValue, h]
  | succ w ih =>
    have hdiv : n / 256 < 256 ^ w := by
      rw [pow_succ] at h
      exact Nat.div_lt_of_lt_mul (by omega)
    simp only [leBytes, leValue, ih hdiv, UInt8.toNat_ofNat']
    omega

theorem leBytes_leValue (bs : List UInt8) : leBytes bs.length (leValue bs) = bs := by
  induction bs with
  | nil => rfl
  | cons b bs ih =>
    have hb := b.toNat_lt
    have hdiv : (b.toNat + 256 * leValue bs) / 256 = leValue bs := by omega
    have hlow : UInt8.ofNat (b.toNat + 256 * leValue bs) = b := by
      apply UInt8.toNat_inj.mp
      rw [UInt8.toNat_ofNat']
      omega
    simp only [List.length_cons, leValue, leBytes, hdiv, hlow, ih]

theorem leValue_lt (bs : List UInt8) : leValue bs < 256 ^ bs.length := by
  induction bs with
  | nil => simp [leValue]
  | cons b bs ih =>
    have hb := b.toNat_lt
    simp only [leValue, List.length_cons, pow_succ]
    omega

/-- Reads a number of `w` bytes. -/
def readLe (w : Nat) : Reader UInt8 Nat := leValue <$> Reader.take w

theorem reads_le {w n : Nat} (h : n < 256 ^ w) : Reads (readLe w) (leBytes w n) n True := by
  have ht := Reads.take (leBytes w n)
  rw [length_leBytes] at ht
  have hm := ht.map (f := leValue)
  rwa [leValue_leBytes h] at hm

theorem retraces_le (w : Nat) : Retraces (readLe w) (leBytes w) := by
  intro s n rest hrun
  have hrun' : (Reader.take w s).bind (fun r => some (leValue r.1, r.2)) = some (n, rest) := hrun
  obtain ⟨⟨bs, left⟩, hbs, hn⟩ := Option.bind_eq_some_iff.mp hrun'
  obtain ⟨rfl, rfl⟩ := Prod.mk.inj (Option.some.inj hn)
  have hlen : bs.length = w := Yields.take w s bs left hbs
  rw [← hlen, leBytes_leValue]
  exact Retraces.take w s bs left hbs

theorem yields_le (w : Nat) : Yields (readLe w) fun n => n < 256 ^ w := by
  intro s n rest hrun
  have hrun' : (Reader.take w s).bind (fun r => some (leValue r.1, r.2)) = some (n, rest) := hrun
  obtain ⟨⟨bs, left⟩, hbs, hn⟩ := Option.bind_eq_some_iff.mp hrun'
  obtain ⟨rfl, -⟩ := Prod.mk.inj (Option.some.inj hn)
  have hlen : bs.length = w := Yields.take w s bs left hbs
  rw [← hlen]
  exact leValue_lt bs
