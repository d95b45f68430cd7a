import CableRegistry.Lib.Crc
import CableRegistry.Lib.LittleEndian

/-!
# Digests

`crc32c` is the table-driven checksum that frames carry, and `sha256` the digest
that chains log records and identifies snapshots.  The checksum detects every
change of a single byte (`crc32c_ne_of_byte`, `eq_of_sealed_set`), and is the remainder of
the division by the Castagnoli polynomial (`crc32c_eq_bitwise`).  Hashing in parts is
hashing the whole, and gives the digest of the standard (`Sha256.finish_chunks`).
-/

namespace CableRegistry

/-! ### CRC-32C -/

/-- One bit of the reflected division by the Castagnoli polynomial. -/
def crcBit (crc : UInt32) : UInt32 := (crc >>> 1) ^^^ (0x82F63B78 &&& (0 - (crc &&& 1)))

/-- The table entry of a byte. -/
def kCrc32cTable (index : UInt8) : UInt32 := Nat.iterate crcBit 8 index.toUInt32

structure Crc32c where
  state : UInt32 := 0xFFFFFFFF

namespace Crc32c

def update (c : Crc32c) (data : List UInt8) : Crc32c := ⟨crcRun kCrc32cTable c.state data⟩

def finish (c : Crc32c) : UInt32 := c.state ^^^ 0xFFFFFFFF

end Crc32c

def crc32c (data : List UInt8) : UInt32 := (({} : Crc32c).update data).finish

/-- Undoes one bit of the division: the top bit tells whether the polynomial was added. -/
def crcUnbit (crc : UInt32) : UInt32 :=
  if crc >>> 31 = 1 then ((crc ^^^ 0x82F63B78) <<< 1) ||| 1 else crc <<< 1

/-- The index of the table entry with a given top byte. -/
def crcIndexOf (top : UInt8) : UInt8 :=
  (Nat.iterate crcUnbit 8 (top.toUInt32 <<< (24 : UInt32))).toUInt8

theorem crcIndexOf_topByte (i : UInt8) : crcIndexOf (topByte (kCrc32cTable i)) = i := by
  have hAll : ∀ n : Fin 256,
      crcIndexOf (topByte (kCrc32cTable (UInt8.ofNat n.val))) = UInt8.ofNat n.val := by
    decide +kernel
  have h := hAll ⟨i.toNat, i.toNat_lt⟩
  rwa [UInt8.ofNat_toNat] at h

theorem topByte_table_injective : Function.Injective fun i => topByte (kCrc32cTable i) :=
  Function.LeftInverse.injective crcIndexOf_topByte

/-- **The checksum detects every change of one byte.** -/
theorem crc32c_ne_of_byte (before after : List UInt8) {b b' : UInt8} (h : b ≠ b') :
    crc32c (before ++ b :: after) ≠ crc32c (before ++ b' :: after) := by
  intro heq
  exact crcRun_ne_of_byte topByte_table_injective _ before after h ((UInt32.xor_left_inj _).mp heq)

/-- A block with one byte changed has another checksum. -/
theorem eq_of_crc32c_set {body : List UInt8} {i : Nat} {b : UInt8}
    (h : crc32c (body.set i b) = crc32c body) : body.set i b = body := by
  by_cases hi : i < body.length
  · by_contra hne
    have hb : b ≠ body[i] := by
      rintro rfl
      exact hne (List.set_getElem_self hi)
    apply crc32c_ne_of_byte (body.take i) (body.drop (i + 1)) hb
    rw [List.set_eq_take_append_cons_drop, if_pos hi] at h
    rw [h, List.getElem_cons_drop, List.take_append_drop]
  · exact List.set_eq_of_length_le (by omega)

/-- **Two blocks that are followed by their checksum**, and that differ in at most one byte, are the
same. -/
theorem eq_of_sealed_set {body body' : List UInt8} {i : Nat} {b : UInt8}
    (hlen : body'.length = body.length)
    (h : body' ++ leBytes 4 (crc32c body').toNat =
      (body ++ leBytes 4 (crc32c body).toNat).set i b) : body' = body := by
  rw [List.set_append] at h
  split at h
  · obtain ⟨hset, hsum⟩ := List.append_inj h (by rw [List.length_set, hlen])
    have hsame : crc32c body' = crc32c body := by
      have hvalue := congrArg leValue hsum
      rw [leValue_leBytes (UInt32.toNat_lt _), leValue_leBytes (UInt32.toNat_lt _)] at hvalue
      exact UInt32.toNat_inj.mp hvalue
    rw [hset] at hsame
    rw [hset, eq_of_crc32c_set hsame]
  · exact (List.append_inj h hlen).1

/-- The Castagnoli polynomial. -/
def castagnoli : UInt32 := 0x1EDC6F41

/-- The checksum by its definition: the bits of the bytes, lowest first, are divided by the
reflected polynomial, from a register of ones, and the remainder is complemented. -/
def crc32cBitwise (data : List UInt8) : UInt32 :=
  ~~~((data.flatMap fun byte => lowBits 8 byte.toNat).foldl
    (divideBit ⟨castagnoli.toBitVec.reverse⟩) 0xFFFFFFFF)

theorem crcBit_eq (crc : UInt32) : crcBit crc = shiftBit ⟨castagnoli.toBitVec.reverse⟩ crc := by
  have hpoly : (⟨castagnoli.toBitVec.reverse⟩ : UInt32) = 0x82F63B78 := by decide +kernel
  have hbit : crc &&& 1 = 0 ∨ crc &&& 1 = 1 := by
    simp only [← UInt32.toNat_inj, UInt32.toNat_and]
    simpa [Nat.and_one_is_mod] using Nat.mod_two_eq_zero_or_one crc.toNat
  rw [hpoly]
  unfold crcBit shiftBit
  rcases hbit with h | h <;> simp [h]

theorem Crc32c.foldl_update (chunks : List (List UInt8)) (c : Crc32c) :
    chunks.foldl update c = c.update chunks.flatten := by
  induction chunks generalizing c with
  | nil => rfl
  | cons chunk chunks ih =>
    rw [List.foldl_cons, ih, List.flatten_cons]
    exact congrArg Crc32c.mk (crcRun_append c.state chunk _).symm

/-- **The checksum is the remainder of the division**, in whatever chunks the bytes come. -/
theorem crc32c_eq_bitwise (chunks : List (List UInt8)) :
    crc32c chunks.flatten = crc32cBitwise chunks.flatten ∧
      (chunks.foldl Crc32c.update {}).finish = crc32cBitwise chunks.flatten := by
  have htable : ∀ i, kCrc32cTable i = (shiftBit ⟨castagnoli.toBitVec.reverse⟩)^[8] i.toUInt32 := by
    intro i
    rw [← funext crcBit_eq]
    rfl
  have hwhole : crc32c chunks.flatten = crc32cBitwise chunks.flatten := by
    unfold crc32cBitwise
    rw [← crcRun_eq_division htable]
    exact UInt32.xor_neg_one
  exact ⟨hwhole, (congrArg Crc32c.finish (Crc32c.foldl_update chunks {})).trans hwhole⟩

/-! ### SHA-256 -/

/-- A 256 bit digest. -/
abbrev Digest256 := Vector UInt8 32

def kSha256RoundConstants : Vector UInt32 64 := #v[
  0x428a2f98, 0x71374491, 0xb5c0fbcf, 0xe9b5dba5, 0x3956c25b, 0x59f111f1, 0x923f82a4, 0xab1c5ed5,
  0xd807aa98, 0x12835b01, 0x243185be, 0x550c7dc3, 0x72be5d74, 0x80deb1fe, 0x9bdc06a7, 0xc19bf174,
  0xe49b69c1, 0xefbe4786, 0x0fc19dc6, 0x240ca1cc, 0x2de92c6f, 0x4a7484aa, 0x5cb0a9dc, 0x76f988da,
  0x983e5152, 0xa831c66d, 0xb00327c8, 0xbf597fc7, 0xc6e00bf3, 0xd5a79147, 0x06ca6351, 0x14292967,
  0x27b70a85, 0x2e1b2138, 0x4d2c6dfc, 0x53380d13, 0x650a7354, 0x766a0abb, 0x81c2c92e, 0x92722c85,
  0xa2bfe8a1, 0xa81a664b, 0xc24b8b70, 0xc76c51a3, 0xd192e819, 0xd6990624, 0xf40e3585, 0x106aa070,
  0x19a4c116, 0x1e376c08, 0x2748774c, 0x34b0bcb5, 0x391c0cb3, 0x4ed8aa4a, 0x5b9cca4f, 0x682e6ff3,
  0x748f82ee, 0x78a5636f, 0x84c87814, 0x8cc70208, 0x90befffa, 0xa4506ceb, 0xbef9a3f7, 0xc67178f2]

def kSha256InitialState : Vector UInt32 8 := #v[
  0x6a09e667, 0xbb67ae85, 0x3c6ef372, 0xa54ff53a, 0x510e527f, 0x9b05688c, 0x1f83d9ab, 0x5be0cd19]

def rotateRight (value count : UInt32) : UInt32 := (value >>> count) ||| (value <<< (32 - count))

/-- The message schedule of a block: its sixteen big-endian words and the words
derived from them. -/
def messageSchedule (block : List UInt8) : Array UInt32 :=
  let word (index : Nat) : UInt32 :=
    ((block.getD (index * 4) 0).toUInt32 <<< 24) |||
    ((block.getD (index * 4 + 1) 0).toUInt32 <<< 16) |||
    ((block.getD (index * 4 + 2) 0).toUInt32 <<< 8) |||
    (block.getD (index * 4 + 3) 0).toUInt32
  (List.range 48).foldl (fun schedule step =>
    let index := step + 16
    let w15 := schedule.getD (index - 15) 0
    let w2 := schedule.getD (index - 2) 0
    let s0 := rotateRight w15 7 ^^^ rotateRight w15 18 ^^^ (w15 >>> 3)
    let s1 := rotateRight w2 17 ^^^ rotateRight w2 19 ^^^ (w2 >>> 10)
    schedule.push (schedule.getD (index - 16) 0 + s0 + schedule.getD (index - 7) 0 + s1))
    ((List.range 16).map word).toArray

/-- One round on the eight working variables. -/
def sha256Round (v : Vector UInt32 8) (constant word : UInt32) : Vector UInt32 8 :=
  let a := v.get 0
  let b := v.get 1
  let c := v.get 2
  let d := v.get 3
  let e := v.get 4
  let f := v.get 5
  let g := v.get 6
  let h := v.get 7
  let s1 := rotateRight e 6 ^^^ rotateRight e 11 ^^^ rotateRight e 25
  let choose := (e &&& f) ^^^ ((~~~e) &&& g)
  let temp1 := h + s1 + choose + constant + word
  let s0 := rotateRight a 2 ^^^ rotateRight a 13 ^^^ rotateRight a 22
  let majority := (a &&& b) ^^^ (a &&& c) ^^^ (b &&& c)
  let temp2 := s0 + majority
  #v[temp1 + temp2, a, b, c, d + temp1, e, f, g]

def sha256Compress (state : Vector UInt32 8) (block : List UInt8) : Vector UInt32 8 :=
  let schedule := messageSchedule block
  let worked := (List.finRange 64).foldl (fun v index =>
    sha256Round v (kSha256RoundConstants.get index) (schedule.getD index 0)) state
  state.zipWith (· + ·) worked

/-- The incremental hasher.  `buffer` holds the bytes of the block begun. -/
structure Sha256 where
  state : Vector UInt32 8 := kSha256InitialState
  buffer : List UInt8 := []
  totalBytes : UInt64 := 0
  finalized : Bool := false

namespace Sha256

/-- Compresses whole blocks and returns the rest. -/
def compressBlocks (state : Vector UInt32 8) (data : List UInt8) : Vector UInt32 8 × List UInt8 :=
  if 64 ≤ data.length then compressBlocks (sha256Compress state (data.take 64)) (data.drop 64)
  else (state, data)
termination_by data.length

def update (h : Sha256) (data : List UInt8) : Sha256 :=
  if h.finalized || data.isEmpty then h
  else
    let total := h.totalBytes + UInt64.ofNat data.length
    if h.buffer.isEmpty then
      let (state, rest) := compressBlocks h.state data
      { h with state := state, buffer := rest, totalBytes := total }
    else
      let wanted := 64 - h.buffer.length
      let filled := h.buffer ++ data.take wanted
      if filled.length = 64 then
        let (state, rest) := compressBlocks (sha256Compress h.state filled) (data.drop wanted)
        { h with state := state, buffer := rest, totalBytes := total }
      else { h with buffer := filled, totalBytes := total }

/-- The last block or blocks: a one bit, zeros and the length in bits. -/
def finishState (h : Sha256) : Vector UInt32 8 :=
  if h.finalized then h.state
  else
    let bitLength := h.totalBytes * 8
    let marked := h.buffer ++ [0x80]
    let lengthBytes := (List.range 8).map fun index =>
      (bitLength >>> UInt64.ofNat (56 - index * 8)).toUInt8
    if marked.length > 56 then
      let state := sha256Compress h.state (marked ++ List.replicate (64 - marked.length) 0)
      sha256Compress state (List.replicate 56 0 ++ lengthBytes)
    else
      sha256Compress h.state (marked ++ List.replicate (56 - marked.length) 0 ++ lengthBytes)

def finish (h : Sha256) : Digest256 :=
  let state := h.finishState
  Vector.ofFn fun index : Fin 32 =>
    (state.get ⟨index / 4, by omega⟩ >>> UInt32.ofNat (24 - 8 * (index % 4))).toUInt8

end Sha256

def sha256 (data : List UInt8) : Digest256 := (({} : Sha256).update data).finish

namespace Sha256

/-! ### The standard padding -/

/-- What the standard puts behind a message: a one bit, zeros up to 56 bytes modulo a block, and the
length of the message in bits as a big-endian number. -/
def padding (length : Nat) : List UInt8 :=
  0x80 :: (List.replicate ((119 - length % 64) % 64) 0 ++ (leBytes 8 (8 * length)).reverse)

/-- The blocks of 64 bytes of a padded message. -/
def blocks (padded : List UInt8) : List (List UInt8) :=
  (List.range (padded.length / 64)).map fun index => (padded.drop (64 * index)).take 64

/-- The digest by its definition: the blocks of the padded message compressed one after the other,
and the words of the result as bytes. -/
def standard (data : List UInt8) : Digest256 :=
  ({ state := (blocks (data ++ padding data.length)).foldl sha256Compress kSha256InitialState
     finalized := true } : Sha256).finish

/-! ### Hashing in parts -/

variable {data : List UInt8}

theorem blocks_cons (h : 64 ≤ data.length) : blocks data = data.take 64 :: blocks (data.drop 64) := by
  have hcount : data.length / 64 = (data.length - 64) / 64 + 1 := by omega
  have hnext : ∀ index, 64 * (index + 1) = 64 + 64 * index := by omega
  simp only [blocks, hcount, List.range_succ_eq_map, List.map_cons, List.map_map, List.length_drop,
    List.drop_drop, Function.comp_def, Nat.mul_zero, List.drop_zero, Nat.succ_eq_add_one, hnext]

theorem compressBlocks_short (h : data.length < 64) (state : Vector UInt32 8) :
    compressBlocks state data = (state, data) := by
  rw [compressBlocks, if_neg (Nat.not_le.mpr h)]

theorem compressBlocks_cons {data : List UInt8} (h : 64 ≤ data.length) (state : Vector UInt32 8) :
    compressBlocks state data = compressBlocks (sha256Compress state (data.take 64)) (data.drop 64) := by
  rw [compressBlocks, if_pos h]

theorem compressBlocks_append (state : Vector UInt32 8) (data more : List UInt8) :
    compressBlocks state (data ++ more) =
      compressBlocks (compressBlocks state data).1 ((compressBlocks state data).2 ++ more) := by
  induction hlen : data.length using Nat.strong_induction_on generalizing state data with
  | _ n ih =>
    by_cases h : 64 ≤ data.length
    · have hall : 64 ≤ (data ++ more).length := by
        rw [List.length_append]
        omega
      have hshort : (data.drop 64).length < n := by
        rw [List.length_drop]
        omega
      rw [compressBlocks_cons hall, compressBlocks_cons h, List.take_append_of_le_length h,
        List.drop_append_of_le_length h]
      exact ih _ hshort _ _ rfl
    · rw [compressBlocks_short (Nat.not_le.mp h)]

/-- Compressing the whole blocks of a list is compressing them one after the other. -/
theorem compressBlocks_eq (state : Vector UInt32 8) (data : List UInt8) :
    (compressBlocks state data).1 = (blocks data).foldl sha256Compress state ∧
      (compressBlocks state data).2.length = data.length % 64 := by
  induction hlen : data.length using Nat.strong_induction_on generalizing state data with
  | _ n ih =>
    by_cases h : 64 ≤ data.length
    · have hrest := ih (data.drop 64).length (by rw [List.length_drop]; omega)
        (sha256Compress state (data.take 64)) _ rfl
      rw [compressBlocks_cons h, blocks_cons h, List.foldl_cons]
      refine ⟨hrest.1, hrest.2.trans ?_⟩
      rw [List.length_drop]
      omega
    · rw [compressBlocks_short (Nat.not_le.mp h)]
      have hnone : data.length / 64 = 0 := by omega
      refine ⟨?_, by dsimp only; omega⟩
      simp [blocks, hnone]

/-- What an update does: it compresses the whole blocks of the buffer and the data. -/
theorem update_eq {h : Sha256} (hf : h.finalized = false) (hb : h.buffer.length < 64) (data : List UInt8) :
    h.update data = { h with
      state := (compressBlocks h.state (h.buffer ++ data)).1
      buffer := (compressBlocks h.state (h.buffer ++ data)).2
      totalBytes := h.totalBytes + UInt64.ofNat data.length } := by
  unfold update
  cases hdata : data.isEmpty with
  | true =>
    rw [List.isEmpty_iff] at hdata
    subst hdata
    simp [compressBlocks_short hb]
  | false =>
    simp only [hf, Bool.or_self, Bool.false_eq_true, if_false]
    split
    · rename_i hempty
      rw [List.isEmpty_iff.mp hempty, List.nil_append]
    · have hfilled : (h.buffer ++ data.take (64 - h.buffer.length)).length =
          h.buffer.length + min (64 - h.buffer.length) data.length := by
        rw [List.length_append, List.length_take]
      split
      · rename_i hfull
        have hlen : 64 ≤ (h.buffer ++ data).length := by
          rw [List.length_append]
          omega
        have htake : (h.buffer ++ data).take 64 = h.buffer ++ data.take (64 - h.buffer.length) := by
          rw [List.take_append, List.take_of_length_le (Nat.le_of_lt hb)]
        have hdrop : (h.buffer ++ data).drop 64 = data.drop (64 - h.buffer.length) := by
          rw [List.drop_append, List.drop_of_length_le (Nat.le_of_lt hb), List.nil_append]
        rw [compressBlocks_cons hlen, htake, hdrop]
      · rename_i hpart
        have hshort : data.length ≤ 64 - h.buffer.length := by omega
        have hlen : (h.buffer ++ data).length < 64 := by
          rw [List.length_append]
          omega
        rw [compressBlocks_short hlen, List.take_of_length_le hshort]

/-- **Hashing in parts is hashing the whole.** -/
theorem update_update {h : Sha256} (hf : h.finalized = false) (hb : h.buffer.length < 64)
    (data more : List UInt8) : (h.update data).update more = h.update (data ++ more) := by
  have hnext : (h.update data).finalized = false ∧ (h.update data).buffer.length < 64 := by
    rw [update_eq hf hb]
    refine ⟨hf, ?_⟩
    rw [(compressBlocks_eq _ _).2]
    exact Nat.mod_lt _ (by decide)
  rw [update_eq hnext.1 hnext.2, update_eq hf hb, update_eq hf hb, ← List.append_assoc,
    compressBlocks_append h.state (h.buffer ++ data), List.length_append, UInt64.ofNat_add,
    UInt64.add_assoc]

theorem lengthBytes_eq {length : Nat} (h : length < 2 ^ 61) :
    ((List.range 8).map fun index =>
      ((UInt64.ofNat length * 8) >>> UInt64.ofNat (56 - index * 8)).toUInt8) =
      (leBytes 8 (8 * length)).reverse := by
  have hbits : (UInt64.ofNat length * 8).toNat = 8 * length := by
    rw [UInt64.toNat_mul, UInt64.toNat_ofNat']
    show length % 2 ^ 64 * 8 % 2 ^ 64 = _
    omega
  have hbyte : ∀ shift < 64, ((UInt64.ofNat length * 8) >>> UInt64.ofNat shift).toUInt8 =
      UInt8.ofNat (8 * length / 2 ^ shift) := by
    intro shift hshift
    apply UInt8.toNat_inj.mp
    have hmod : shift % 2 ^ 64 % 64 = shift := by omega
    rw [UInt64.toNat_toUInt8, UInt64.toNat_shiftRight, hbits, UInt64.toNat_ofNat',
      UInt8.toNat_ofNat', hmod, Nat.shiftRight_eq_div_pow]
  calc
    _ = (List.range 8).map fun index => UInt8.ofNat (8 * length / 2 ^ (56 - index * 8)) :=
      List.map_congr_left fun index _ => hbyte _ (by omega)
    _ = _ := by
      have hrange : List.range 8 = [0, 1, 2, 3, 4, 5, 6, 7] := rfl
      simp [hrange, leBytes, Nat.div_div_eq_div_mul]

/-- Finishing compresses the padding behind what is left in the buffer. -/
theorem finishState_eq {h : Sha256} (hf : h.finalized = false) {length : Nat}
    (hb : h.buffer.length = length % 64) (htotal : h.totalBytes = UInt64.ofNat length)
    (hlength : length < 2 ^ 61) :
    h.finishState = (compressBlocks h.state (h.buffer ++ padding length)).1 := by
  have hpad : ∀ zeros tail : List UInt8, h.buffer ++ 0x80 :: (zeros ++ tail) =
      h.buffer ++ [0x80] ++ zeros ++ tail := by
    simp
  have hlast : ∀ (state : Vector UInt32 8) (block : List UInt8), block.length = 64 →
      compressBlocks state block = (sha256Compress state block, []) := by
    intro state block hblock
    rw [compressBlocks_cons hblock.ge, ← hblock, List.take_length, List.drop_length,
      compressBlocks_short (by decide)]
  unfold finishState padding
  rw [hf, htotal]
  simp only [Bool.false_eq_true, if_false, lengthBytes_eq hlength, hpad]
  have hmarked : (h.buffer ++ [0x80]).length = length % 64 + 1 := by
    rw [List.length_append, hb, List.length_singleton]
  generalize h.buffer ++ [0x80] = marked at hmarked
  split
  · rename_i hlong
    rw [hmarked] at hlong
    -- The length does not fit behind the mark: the zeros fill this block and most of the next.
    have hzeros : List.replicate ((119 - length % 64) % 64) (0 : UInt8) =
        List.replicate (64 - marked.length) 0 ++ List.replicate 56 0 := by
      rw [List.replicate_append_replicate, hmarked]
      congr 1
      omega
    have hfull : (marked ++ List.replicate (64 - marked.length) 0).length = 64 := by
      rw [List.length_append, List.length_replicate, hmarked]
      omega
    rw [hzeros, ← List.append_assoc, List.append_assoc _ (List.replicate 56 0), compressBlocks_append,
      hlast _ _ hfull, List.nil_append, hlast]
    simp only [List.length_append, List.length_replicate, List.length_reverse, length_leBytes]
  · rename_i hshort
    rw [hmarked] at hshort
    have hzeros : (119 - length % 64) % 64 = 56 - marked.length := by
      rw [hmarked]
      omega
    rw [hzeros, hlast]
    simp only [List.length_append, List.length_replicate, List.length_reverse, length_leBytes]
    omega

theorem foldl_update (chunks : List (List UInt8)) (data : List UInt8) :
    chunks.foldl update (({} : Sha256).update data) = ({} : Sha256).update (data ++ chunks.flatten) := by
  induction chunks generalizing data with
  | nil => rw [List.flatten_nil, List.append_nil]; rfl
  | cons chunk chunks ih =>
    rw [List.foldl_cons, update_update rfl (by decide), ih, List.flatten_cons, List.append_assoc]

/-- **Hashing ignores the boundaries of chunks.** -/
theorem finish_chunks (chunks : List (List UInt8)) (h : chunks.flatten.length < 2 ^ 61) :
    (chunks.foldl update {}).finish = standard chunks.flatten ∧
      sha256 chunks.flatten = standard chunks.flatten := by
  have hone : sha256 chunks.flatten = standard chunks.flatten := by
    have hupdate := @update_eq {} rfl (by decide) chunks.flatten
    obtain ⟨hstate, hrest⟩ := compressBlocks_eq kSha256InitialState chunks.flatten
    unfold sha256 standard finish
    rw [hupdate, finishState_eq rfl hrest (UInt64.zero_add _) h]
    dsimp only
    rw [List.nil_append, ← compressBlocks_append, (compressBlocks_eq _ _).1]
    rfl
  exact ⟨(congrArg finish (foldl_update chunks [])).trans hone, hone⟩

theorem finish_chunks_abc :
    ([[0x61], [0x62, 0x63]].foldl update ({} : Sha256)).finish = standard [0x61, 0x62, 0x63] ∧
      sha256 [0x61, 0x62, 0x63] = standard [0x61, 0x62, 0x63] :=
  finish_chunks [[0x61], [0x62, 0x63]] (by decide)

end Sha256

end CableRegistry
