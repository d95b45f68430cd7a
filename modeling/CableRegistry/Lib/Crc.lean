import Mathlib.Tactic

/-!
# Byte-wise checksums by table

A reflected 32 bit cyclic checksum consumes one byte at a time: the low byte of
the state and the byte select a table entry, which is combined with the rest of
the state.  When the top bytes of the table entries are all different, the top
byte of the new state tells which entry was used, so a step is injective in the
state and in the byte (`crcStep_left_injective`, `crcStep_right_injective`).
`crcRun_ne_of_byte` follows: two inputs that differ in exactly one byte never
end in the same state.  When the entries are eightfold shifts of their index, the
bytes are divided bit by bit (`crcRun_eq_division`).
-/

/-- One step: the entry selected by the low byte of the state and the input byte,
combined with the rest of the state. -/
def crcStep (table : UInt8 → UInt32) (state : UInt32) (byte : UInt8) : UInt32 :=
  table ((state ^^^ byte.toUInt32) &&& 0xFF).toUInt8 ^^^ (state >>> 8)

/-- The state after a list of bytes. -/
def crcRun (table : UInt8 → UInt32) (state : UInt32) (bytes : List UInt8) : UInt32 :=
  bytes.foldl (crcStep table) state

/-- The top byte of a word. -/
def topByte (x : UInt32) : UInt8 := (x >>> 24).toUInt8

section Injective

variable {table : UInt8 → UInt32}

theorem crcRun_append (state : UInt32) (bs cs : List UInt8) :
    crcRun table state (bs ++ cs) = crcRun table (crcRun table state bs) cs :=
  List.foldl_append

theorem crcStep_eq (state : UInt32) (byte : UInt8) :
    crcStep table state byte = table (state.toUInt8 ^^^ byte) ^^^ (state >>> 8) := by
  have hand : ∀ x : UInt8, x &&& 255 = x := by
    intro x
    apply UInt8.toNat_inj.mp
    have hx := x.toNat_lt
    rw [UInt8.toNat_and]
    exact (Nat.and_two_pow_sub_one_eq_mod x.toNat 8).trans (Nat.mod_eq_of_lt hx)
  simp [crcStep, UInt32.toUInt8_xor, UInt32.toUInt8_and, hand]

theorem topByte_crcStep (state : UInt32) (byte : UInt8) :
    topByte (crcStep table state byte) = topByte (table (state.toUInt8 ^^^ byte)) := by
  have hzero : state.toNat >>> 32 = 0 := by
    rw [Nat.shiftRight_eq_div_pow]
    exact Nat.div_eq_of_lt state.toNat_lt
  rw [crcStep_eq, topByte, topByte]
  congr 1
  apply UInt32.toNat_inj.mp
  simp [UInt32.toNat_xor, UInt32.toNat_shiftRight, Nat.shiftRight_xor_distrib,
    ← Nat.shiftRight_add, hzero]

variable (hTop : Function.Injective fun i => topByte (table i))

include hTop

theorem index_eq_of_crcStep {s s' : UInt32} {b b' : UInt8}
    (h : crcStep table s b = crcStep table s' b') : s.toUInt8 ^^^ b = s'.toUInt8 ^^^ b' := by
  apply hTop
  change topByte (table _) = topByte (table _)
  rw [← topByte_crcStep, ← topByte_crcStep, h]

theorem crcStep_right_injective (s : UInt32) : Function.Injective (crcStep table s) := by
  intro b b' h
  exact (UInt8.xor_right_inj _).mp (index_eq_of_crcStep hTop h)

theorem crcStep_left_injective (b : UInt8) : Function.Injective (crcStep table · b) := by
  intro s s' h
  have hlow : s.toUInt8 = s'.toUInt8 := (UInt8.xor_left_inj _).mp (index_eq_of_crcStep hTop h)
  have hhigh : s >>> 8 = s' >>> 8 := by
    simp only [crcStep_eq, hlow] at h
    exact (UInt32.xor_right_inj _).mp h
  have hlow' : s.toNat % 256 = s'.toNat % 256 := by
    simpa using congrArg UInt8.toNat hlow
  have hhigh' : s.toNat / 256 = s'.toNat / 256 := by
    simpa [UInt32.toNat_shiftRight, Nat.shiftRight_eq_div_pow] using congrArg UInt32.toNat hhigh
  apply UInt32.toNat_inj.mp
  omega

theorem crcRun_left_injective (bytes : List UInt8) : Function.Injective (crcRun table · bytes) := by
  induction bytes with
  | nil => exact Function.injective_id
  | cons b bytes ih => exact ih.comp (crcStep_left_injective hTop b)

/-- **A change of one byte changes the checksum.** -/
theorem crcRun_ne_of_byte (s : UInt32) (before after : List UInt8) {b b' : UInt8} (h : b ≠ b') :
    crcRun table s (before ++ b :: after) ≠ crcRun table s (before ++ b' :: after) := by
  intro heq
  rw [crcRun_append, crcRun_append] at heq
  exact h (crcStep_right_injective hTop _ (crcRun_left_injective hTop after heq))

end Injective

/-! ### Division bit by bit -/

/-- A register moves down by one place; when a one leaves it, the polynomial is added. -/
def shiftBit (poly register : UInt32) : UInt32 :=
  if register &&& 1 = 1 then (register >>> 1) ^^^ poly else register >>> 1

/-- One bit of a reflected division: the bit is added at the low end of the register. -/
def divideBit (poly register : UInt32) (bit : Bool) : UInt32 :=
  shiftBit poly (register ^^^ if bit then 1 else 0)

/-- The lowest bits of a number, lowest first. -/
def lowBits (count number : Nat) : List Bool := (List.range count).map number.testBit

section Division

variable {poly : UInt32}

theorem lowBits_succ (count number : Nat) :
    lowBits (count + 1) number = number.testBit 0 :: lowBits count (number / 2) := by
  simp [lowBits, List.range_succ_eq_map, Function.comp_def, Nat.testBit_succ]

theorem toNat_shiftRight_one (x : UInt32) : (x >>> 1).toNat = x.toNat / 2 := by
  simp [UInt32.toNat_shiftRight, Nat.shiftRight_eq_div_pow]

theorem and_one_eq_zero {x : UInt32} (h : x.toNat % 2 = 0) : x &&& 1 = 0 := by
  apply UInt32.toNat_inj.mp
  simpa [UInt32.toNat_and, Nat.and_one_is_mod] using h

/-- A bit that is zero where it leaves the register is only moved. -/
theorem shiftBit_xor_even (register : UInt32) {even : UInt32} (h : even.toNat % 2 = 0) :
    shiftBit poly (register ^^^ even) = shiftBit poly register ^^^ (even >>> 1) := by
  have hlow : (register ^^^ even) &&& 1 = register &&& 1 := by
    apply UInt32.toNat_inj.mp
    have heven := congrArg UInt32.toNat (and_one_eq_zero h)
    rw [UInt32.toNat_and] at heven
    rw [UInt32.toNat_and, UInt32.toNat_xor, Nat.and_xor_distrib_right, heven, UInt32.toNat_and]
    exact Nat.xor_zero _
  unfold shiftBit
  rw [hlow, UInt32.shiftRight_xor]
  split
  · rw [UInt32.xor_assoc, UInt32.xor_comm (even >>> 1), UInt32.xor_assoc]
  · rfl

/-- Bits that are zero until they leave the register are only moved. -/
theorem iterate_shiftBit_xor (count : Nat) (register : UInt32) {high : UInt32}
    (h : high.toNat % 2 ^ count = 0) :
    (shiftBit poly)^[count] (register ^^^ high) =
      (shiftBit poly)^[count] register ^^^ UInt32.ofNat (high.toNat / 2 ^ count) := by
  induction count generalizing register high with
  | zero => simp
  | succ count ih =>
    have hpow : high.toNat % (2 * 2 ^ count) = 0 := by rwa [pow_succ, Nat.mul_comm] at h
    have heven : high.toNat % 2 = 0 := by
      rw [← Nat.mod_mul_right_mod high.toNat 2 (2 ^ count), hpow]
    have hrest : (high >>> 1).toNat % 2 ^ count = 0 := by
      rw [toNat_shiftRight_one, ← Nat.mod_mul_right_div_self, hpow]
    rw [Function.iterate_succ_apply, Function.iterate_succ_apply, shiftBit_xor_even register heven,
      ih _ hrest, toNat_shiftRight_one, Nat.div_div_eq_div_mul, pow_succ, Nat.mul_comm 2]

/-- Dividing by the bits of a number is adding it to the register and shifting. -/
theorem foldl_divideBit (count : Nat) (register : UInt32) {number : UInt32}
    (h : number.toNat < 2 ^ count) :
    (lowBits count number.toNat).foldl (divideBit poly) register =
      (shiftBit poly)^[count] (register ^^^ number) := by
  induction count generalizing register number with
  | zero =>
    obtain rfl : number = 0 := UInt32.toNat_inj.mp (by simpa using h)
    simp [lowBits]
  | succ count ih =>
    have hrest : (number >>> 1).toNat < 2 ^ count := by
      rw [toNat_shiftRight_one]
      rw [pow_succ] at h
      omega
    generalize hbit : (if number.toNat.testBit 0 then 1 else 0 : UInt32) = bit
    have hbitNat : bit.toNat = number.toNat % 2 := by
      rw [← hbit, Nat.testBit_zero]
      rcases Nat.mod_two_eq_zero_or_one number.toNat with h0 | h1
      · simp [h0]
      · simp [h1]
    have heven : (number ^^^ bit).toNat % 2 = 0 := by
      rw [UInt32.toNat_xor, hbitNat, ← pow_one 2, Nat.xor_mod_two_pow]
      simp
    have hhalf : (number ^^^ bit) >>> 1 = number >>> 1 := by
      apply UInt32.toNat_inj.mp
      rw [toNat_shiftRight_one, UInt32.toNat_xor, hbitNat, ← pow_one 2, Nat.xor_div_two_pow,
        toNat_shiftRight_one]
      simp
    have hsplit : register ^^^ number = (register ^^^ bit) ^^^ (number ^^^ bit) := by
      rw [UInt32.xor_assoc, UInt32.xor_comm number, ← UInt32.xor_assoc bit, UInt32.xor_self,
        UInt32.zero_xor]
    rw [lowBits_succ, List.foldl_cons, ← toNat_shiftRight_one, ih _ hrest, divideBit, hbit,
      Function.iterate_succ_apply, hsplit, shiftBit_xor_even _ heven, hhalf]

variable {table : UInt8 → UInt32}

/-- **A step by a table of eightfold shifts divides by the eight bits of the byte.** -/
theorem crcStep_eq_division (htable : ∀ i, table i = (shiftBit poly)^[8] i.toUInt32)
    (register : UInt32) (byte : UInt8) :
    crcStep table register byte = (lowBits 8 byte.toNat).foldl (divideBit poly) register := by
  generalize hx : register ^^^ byte.toUInt32 = x
  have hbyte := byte.toNat_lt
  have hlow : register.toUInt8 ^^^ byte = x.toUInt8 := by
    rw [← hx, UInt32.toUInt8_xor, UInt8.toUInt8_toUInt32]
  have hhigh : (x ^^^ x.toUInt8.toUInt32).toNat % 2 ^ 8 = 0 := by
    rw [UInt32.toNat_xor, Nat.xor_mod_two_pow]
    simp
  have hmoved : UInt32.ofNat ((x ^^^ x.toUInt8.toUInt32).toNat / 2 ^ 8) = register >>> 8 := by
    have hdrop : ∀ (y : UInt32) (b : UInt8), (y ^^^ b.toUInt32).toNat / 2 ^ 8 = y.toNat / 2 ^ 8 := by
      intro y b
      rw [UInt32.toNat_xor, Nat.xor_div_two_pow, UInt8.toNat_toUInt32, Nat.div_eq_of_lt b.toNat_lt,
        Nat.xor_zero]
    rw [hdrop, ← hx, hdrop]
    apply UInt32.toNat_inj.mp
    have hlt := register.toNat_lt
    simp only [UInt32.toNat_ofNat', UInt32.toNat_shiftRight, Nat.shiftRight_eq_div_pow]
    exact Nat.mod_eq_of_lt (by omega)
  have hdiv := @foldl_divideBit poly 8 register byte.toUInt32 (by simpa using hbyte)
  rw [UInt8.toNat_toUInt32] at hdiv
  rw [crcStep_eq, hlow, htable, hdiv, hx, ← hmoved, ← iterate_shiftBit_xor 8 _ hhigh,
    UInt32.xor_comm x, ← UInt32.xor_assoc, UInt32.xor_self, UInt32.zero_xor]

theorem crcRun_eq_division (htable : ∀ i, table i = (shiftBit poly)^[8] i.toUInt32)
    (register : UInt32) (bytes : List UInt8) :
    crcRun table register bytes =
      (bytes.flatMap fun byte => lowBits 8 byte.toNat).foldl (divideBit poly) register := by
  induction bytes generalizing register with
  | nil => rfl
  | cons byte bytes ih =>
    rw [List.flatMap_cons, List.foldl_append, ← crcStep_eq_division htable]
    exact ih _

end Division
