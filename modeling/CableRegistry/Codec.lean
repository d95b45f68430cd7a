import CableRegistry.Ids
import CableRegistry.Lib.LittleEndian

/-!
# Bounded binary encoding

An encoder appends little-endian fields to a buffer that never grows past a
ceiling; once a field does not fit, the buffer is emptied and every later write
is a no-op.  The code that encodes a value never looks at the encoder, so it is
modelled by the list of the writes it makes, in order, and `Encoder.run` is what
the encoder makes of them.  `Encoder.run_eq` is the whole of its behaviour: the
concatenation of the fields when everything fits, the failed encoder otherwise.

A decoder reads the same fields.  Each primitive has a lemma that it reads back
what the corresponding write wrote; `string` adds its own bound.
-/

namespace CableRegistry

/-! ### Writes -/

/-- One call on the encoder. -/
inductive Write where
  | u8 (value : UInt8)
  | u16 (value : UInt16)
  | u32 (value : UInt32)
  | u64 (value : UInt64)
  | i64 (value : Int64)
  | boolean (value : Bool)
  | id128 (value : Id128)
  | bytes (value : List UInt8)
  | string (value : Text) (maxBytes : UInt32)
  deriving Repr, DecidableEq

namespace Write

/-- The bytes of a field. -/
def toBytes : Write → List UInt8
  | u8 v => [v]
  | u16 v => leBytes 2 v.toNat
  | u32 v => leBytes 4 v.toNat
  | u64 v => leBytes 8 v.toNat
  | i64 v => leBytes 8 v.toUInt64.toNat
  | boolean v => [if v then 1 else 0]
  | id128 v => leBytes 8 v.hi.toNat ++ leBytes 8 v.lo.toNat
  | bytes v => leBytes 4 v.length ++ v
  | string v _ => leBytes 4 v.length ++ v

/-- The length of the field is within its own bound. -/
def Fits : Write → Prop
  | bytes v => v.length < 2 ^ 32
  | string v maxBytes => v.length ≤ maxBytes.toNat
  | _ => True

instance : DecidablePred Fits := fun w => by
  cases w <;> unfold Fits <;> infer_instance

end Write

/-- The bytes of a list of fields. -/
def wire (ws : List Write) : List UInt8 := ws.flatMap Write.toBytes

@[simp] theorem wire_nil : wire [] = [] := rfl

theorem wire_cons (w : Write) (ws : List Write) : wire (w :: ws) = w.toBytes ++ wire ws := rfl

theorem wire_append (ws ws' : List Write) : wire (ws ++ ws') = wire ws ++ wire ws' :=
  List.flatMap_append

theorem wire_flatMap {α : Type} (l : List α) (f : α → List Write) :
    wire (l.flatMap f) = l.flatMap (fun x => wire (f x)) := by
  simp [wire, List.flatMap_assoc]

/-! ### The encoder -/

structure Encoder where
  buffer : List UInt8 := []
  failed : Bool := false
  deriving Repr, DecidableEq

namespace Encoder

/-- Ceiling on one encoded buffer. -/
def kMaxEncodedBytes : Nat := 8 <<< 20

def fail (_ : Encoder) : Encoder := ⟨[], true⟩

def reserveFor (e : Encoder) (extra : Nat) : Encoder :=
  if e.failed then e
  else if extra > kMaxEncodedBytes || e.buffer.length > kMaxEncodedBytes - extra then e.fail
  else e

/-- Reserves room and appends. -/
def append (e : Encoder) (raw : List UInt8) : Encoder :=
  let e := e.reserveFor raw.length
  if e.failed then e else { e with buffer := e.buffer ++ raw }

/-- A length that does not fit fails the encoder, whatever its state. -/
def apply (e : Encoder) : Write → Encoder
  | .u8 v => e.append [v]
  | .u16 v => e.append (leBytes 2 v.toNat)
  | .u32 v => e.append (leBytes 4 v.toNat)
  | .u64 v => e.append (leBytes 8 v.toNat)
  | .i64 v => e.append (leBytes 8 v.toUInt64.toNat)
  | .boolean v => e.append [if v then 1 else 0]
  | .id128 v => (e.append (leBytes 8 v.hi.toNat)).append (leBytes 8 v.lo.toNat)
  | .bytes v =>
    if v.length > UInt32.size - 1 then e.fail
    else (e.append (leBytes 4 v.length)).append v
  | .string v maxBytes =>
    if v.length > maxBytes.toNat || v.length > UInt32.size - 1 then e.fail
    else (e.append (leBytes 4 v.length)).append v

def run (ws : List Write) (e : Encoder := {}) : Encoder := ws.foldl apply e

def ok (e : Encoder) : Bool := !e.failed

/-- The encoded bytes; empty when the encoder failed. -/
def take (e : Encoder) : List UInt8 := if e.failed then [] else e.buffer

/-- What an encoder with room for the bytes and one without make of them. -/
theorem append_eq (e : Encoder) (raw : List UInt8) (hf : e.failed = false) :
    e.append raw = if e.buffer.length + raw.length ≤ kMaxEncodedBytes
      then ⟨e.buffer ++ raw, false⟩ else ⟨[], true⟩ := by
  obtain ⟨buffer, failed⟩ := e
  subst hf
  simp only [append, reserveFor, Bool.false_eq_true, if_false, gt_iff_lt, Bool.or_eq_true,
    decide_eq_true_eq]
  by_cases h : buffer.length + raw.length ≤ kMaxEncodedBytes
  · have hn : ¬ (kMaxEncodedBytes < raw.length ∨ kMaxEncodedBytes - raw.length < buffer.length) := by
      omega
    simp [h, hn]
  · have hn : kMaxEncodedBytes < raw.length ∨ kMaxEncodedBytes - raw.length < buffer.length := by
      omega
    simp [h, hn, fail]

theorem append_failed (e : Encoder) (raw : List UInt8) (hf : e.failed = true) : e.append raw = e := by
  simp [append, reserveFor, hf]

/-- Appending twice is appending the concatenation. -/
theorem append_append (e : Encoder) (raw raw' : List UInt8) :
    (e.append raw).append raw' = e.append (raw ++ raw') := by
  by_cases hf : e.failed = true
  · rw [append_failed e raw hf, append_failed e raw' hf, append_failed e _ hf]
  · rw [Bool.not_eq_true] at hf
    rw [append_eq e raw hf, append_eq e (raw ++ raw') hf]
    by_cases h : e.buffer.length + raw.length ≤ kMaxEncodedBytes
    · rw [if_pos h, append_eq _ _ rfl]
      simp only [List.length_append, List.append_assoc]
      congr 1
      simp only [eq_iff_iff]
      omega
    · have h' : ¬ e.buffer.length + (raw ++ raw').length ≤ kMaxEncodedBytes := by
        rw [List.length_append]
        omega
      rw [if_neg h, if_neg h', append_failed _ _ rfl]

theorem apply_fits (e : Encoder) (w : Write) (h : w.Fits) : e.apply w = e.append w.toBytes := by
  cases w with
  | id128 v => exact append_append e _ _
  | bytes v =>
    have hn : ¬ v.length > UInt32.size - 1 := by
      simp only [Write.Fits] at h
      simp only [UInt32.size]
      omega
    simp only [apply, hn, if_false, Write.toBytes, append_append]
  | string v maxBytes =>
    have hmax := maxBytes.toNat_lt
    have hn : ¬ (v.length > maxBytes.toNat ∨ v.length > UInt32.size - 1) := by
      simp only [Write.Fits] at h
      simp only [UInt32.size]
      omega
    simp only [apply, Bool.or_eq_true, decide_eq_true_eq, hn, if_false, Write.toBytes,
      append_append]
  | _ => rfl

theorem apply_not_fits (e : Encoder) (w : Write) (h : ¬ w.Fits) : e.apply w = ⟨[], true⟩ := by
  cases w with
  | bytes v =>
    have hn : v.length > UInt32.size - 1 := by
      simp only [Write.Fits] at h
      simp only [UInt32.size]
      omega
    simp only [apply, hn, if_true, fail]
  | string v maxBytes =>
    have hn : v.length > maxBytes.toNat ∨ v.length > UInt32.size - 1 := by
      simp only [Write.Fits] at h
      omega
    simp only [apply, Bool.or_eq_true, decide_eq_true_eq, hn, if_true, fail]
  | _ => exact absurd trivial h

theorem run_failed (ws : List Write) : run ws ⟨[], true⟩ = ⟨[], true⟩ := by
  induction ws with
  | nil => rfl
  | cons w ws ih =>
    have hstep : apply ⟨[], true⟩ w = ⟨[], true⟩ := by
      by_cases h : w.Fits
      · rw [apply_fits _ _ h, append_failed _ _ rfl]
      · exact apply_not_fits _ _ h
    simpa only [run, List.foldl_cons, hstep] using ih

/-- **The encoder is all or nothing.**  From a buffer within the ceiling it holds
the concatenation of the fields when every field is within its bound and the
result is within the ceiling, and is failed and empty otherwise. -/
theorem run_eq_from (ws : List Write) (buffer : List UInt8)
    (hb : buffer.length ≤ kMaxEncodedBytes) :
    run ws ⟨buffer, false⟩ =
      if (∀ w ∈ ws, w.Fits) ∧ (buffer ++ wire ws).length ≤ kMaxEncodedBytes
      then ⟨buffer ++ wire ws, false⟩ else ⟨[], true⟩ := by
  induction ws generalizing buffer with
  | nil => simp [run, hb]
  | cons w ws ih =>
    change run ws (apply ⟨buffer, false⟩ w) = _
    by_cases hw : w.Fits
    · rw [apply_fits _ _ hw, append_eq _ _ rfl]
      by_cases hl : buffer.length + w.toBytes.length ≤ kMaxEncodedBytes
      · rw [if_pos hl, ih _ (by simpa using hl)]
        simp only [List.append_assoc, wire_cons, List.forall_mem_cons, hw, true_and]
      · rw [if_neg hl, run_failed]
        have : ¬ (buffer ++ wire (w :: ws)).length ≤ kMaxEncodedBytes := by
          simp only [wire_cons, List.length_append]
          omega
        simp only [this, and_false, if_false]
    · rw [apply_not_fits _ _ hw, run_failed]
      simp only [List.forall_mem_cons, hw, false_and, if_false]

theorem run_eq (ws : List Write) :
    run ws = if (∀ w ∈ ws, w.Fits) ∧ (wire ws).length ≤ kMaxEncodedBytes
      then ⟨wire ws, false⟩ else ⟨[], true⟩ :=
  run_eq_from ws [] (Nat.zero_le _)

theorem run_ok_iff (ws : List Write) :
    (run ws).ok = true ↔ (∀ w ∈ ws, w.Fits) ∧ (wire ws).length ≤ kMaxEncodedBytes := by
  rw [run_eq]
  split <;> simp_all [ok]

theorem take_run (ws : List Write) (h : (run ws).ok = true) : (run ws).take = wire ws := by
  rw [run_ok_iff] at h
  rw [run_eq, if_pos h]
  rfl

end Encoder

/-! ### The decoder -/

/-- A decoder reads from the front of the bytes that are left. -/
abbrev Decoder (α : Type) := Reader UInt8 α

variable {w : List UInt8}

namespace Decoder

def u8 : Decoder UInt8 := UInt8.ofNat <$> readLe 1

def u16 : Decoder UInt16 := UInt16.ofNat <$> readLe 2

def u32 : Decoder UInt32 := UInt32.ofNat <$> readLe 4

def u64 : Decoder UInt64 := UInt64.ofNat <$> readLe 8

def i64 : Decoder Int64 := UInt64.toInt64 <$> u64

def boolean : Decoder Bool := do
  let raw ← u8
  guard (raw ≤ 1)
  pure (raw == 1)

def id128 : Decoder Id128 := do
  let hi ← u64
  let lo ← u64
  pure ⟨hi, lo⟩

/-- The strongly typed overload. -/
def strongId {tag : IdTag} : Decoder (StrongId tag) := StrongId.mk <$> id128

/-- Reads the length prefix of a `bytes` write and that many bytes. -/
def bytes (maxBytes : UInt32) : Decoder (List UInt8) := do
  let length ← u32
  guard (length ≤ maxBytes)
  Reader.take length.toNat

def string (maxBytes : UInt32) : Decoder Text := do
  let length ← u32
  guard (length ≤ maxBytes)
  Reader.take length.toNat

/-- Runs a decoder on a whole buffer: what it returns when it consumed every byte. -/
def whole {α : Type} (d : Decoder α) (buffer : List UInt8) : Option α :=
  match d buffer with
  | some (x, []) => some x
  | _ => none

theorem reads_u8 (v : UInt8) : Reads u8 (Write.u8 v).toBytes v True := by
  have h := (reads_le (w := 1) (n := v.toNat) v.toNat_lt).map (f := UInt8.ofNat)
  have hw : leBytes 1 v.toNat = [v] := by simp [leBytes]
  rwa [UInt8.ofNat_toNat, hw] at h

theorem reads_u16 (v : UInt16) : Reads u16 (Write.u16 v).toBytes v True := by
  have h := (reads_le (w := 2) (n := v.toNat) v.toNat_lt).map (f := UInt16.ofNat)
  rwa [UInt16.ofNat_toNat] at h

theorem reads_u32 (v : UInt32) : Reads u32 (Write.u32 v).toBytes v True := by
  have h := (reads_le (w := 4) (n := v.toNat) v.toNat_lt).map (f := UInt32.ofNat)
  rwa [UInt32.ofNat_toNat] at h

theorem reads_u64 (v : UInt64) : Reads u64 (Write.u64 v).toBytes v True := by
  have h := (reads_le (w := 8) (n := v.toNat) v.toNat_lt).map (f := UInt64.ofNat)
  rwa [UInt64.ofNat_toNat] at h

theorem reads_i64 (v : Int64) : Reads i64 (Write.i64 v).toBytes v True := by
  have h := (reads_u64 v.toUInt64).map (f := UInt64.toInt64)
  exact h

theorem reads_boolean (v : Bool) : Reads boolean (Write.boolean v).toBytes v True := by
  have h : Reads boolean ((Write.u8 (if v then 1 else 0)).toBytes ++ []) v
      ((if v then 1 else 0 : UInt8) ≤ 1 ∧ True) := by
    refine (reads_u8 _).andThen (Reads.checkThen fun _ => ?_)
    cases v <;> exact Reads.pure _
  rw [List.append_nil] at h
  refine Reads.congr h ?_
  cases v <;> simp

theorem reads_id128 (v : Id128) : Reads id128 (Write.id128 v).toBytes v True := by
  have h : Reads id128 ((Write.u64 v.hi).toBytes ++ ((Write.u64 v.lo).toBytes ++ [])) v True :=
    (reads_u64 v.hi).andThen ((reads_u64 v.lo).andThen (Reads.pure _))
  rwa [List.append_nil] at h

theorem reads_strongId {tag : IdTag} (v : StrongId tag) :
    Reads strongId (Write.id128 v.value).toBytes v True :=
  (reads_id128 v.value).map (f := StrongId.mk)

/-- Reading a length-prefixed field checks the length against the reader's bound. -/
theorem reads_string (v : Text) (maxBytes maxBytes' : UInt32) (h : v.length ≤ maxBytes'.toNat) :
    Reads (string maxBytes) (Write.string v maxBytes').toBytes v (v.length ≤ maxBytes.toNat) := by
  have hlt : v.length < 2 ^ 32 := lt_of_le_of_lt h maxBytes'.toNat_lt
  have hlen : (UInt32.ofNat v.length).toNat = v.length := by
    rw [UInt32.toNat_ofNat']
    exact Nat.mod_eq_of_lt hlt
  have hu := reads_u32 (UInt32.ofNat v.length)
  have ht : Reads (Reader.take (UInt32.ofNat v.length).toNat) v v True := by
    rw [hlen]
    exact Reads.take v
  have hr : Reads (string maxBytes) ((Write.u32 (UInt32.ofNat v.length)).toBytes ++ v) v
      (UInt32.ofNat v.length ≤ maxBytes ∧ True) :=
    hu.andThen (Reads.checkThen fun _ => ht)
  have hw : (Write.string v maxBytes').toBytes
      = (Write.u32 (UInt32.ofNat v.length)).toBytes ++ v := by
    simp only [Write.toBytes, hlen]
  rw [hw]
  refine hr.congr ?_
  rw [and_true, UInt32.le_iff_toNat_le, hlen]

/-- A string written under a bound is read back under the same bound. -/
theorem reads_string_same (v : Text) (maxBytes : UInt32) (h : v.length ≤ maxBytes.toNat) :
    Reads (string maxBytes) (Write.string v maxBytes).toBytes v True :=
  (reads_string v maxBytes maxBytes h).of_ok h

/-- A reader that reads a writing reads it from a buffer that holds nothing else. -/
theorem whole_eq_some_iff {α : Type} {d : Decoder α} {x : α} {ok : Prop} (h : Reads d w x ok) :
    whole d w = some x ↔ ok := by
  have hr := h []
  rw [List.append_nil] at hr
  constructor
  · intro hw
    by_contra hn
    rw [whole, hr.2 hn] at hw
    exact absurd hw (by simp)
  · intro hok
    rw [whole, hr.1 hok]

/-- What a reader makes of a buffer that holds a writing is what was written. -/
theorem eq_of_whole {α : Type} {d : Decoder α} {x y : α} (h : ReadsBack d w x)
    (hw : whole d w = some y) : y = x := by
  unfold whole at hw
  split at hw
  · rename_i z hz
    obtain ⟨c, h⟩ := h
    rw [← Option.some.inj hw]
    exact (h.eq_of_run (by rwa [List.append_nil])).2.1
  · exact absurd hw (by simp)

theorem of_whole {α : Type} {d : Decoder α} {P : α → Prop} {x : α} (h : Yields d P)
    (hw : whole d w = some x) : P x := by
  unfold whole at hw
  split at hw
  · rename_i z hz
    rw [← Option.some.inj hw]
    exact h w z [] hz
  · exact absurd hw (by simp)

theorem whole_eq_none {α : Type} {d : Decoder α} {x : α} {ok : Prop} (h : Reads d w x ok)
    (hn : ¬ ok) : whole d w = none := by
  have hr := (h []).2 hn
  rw [List.append_nil] at hr
  rw [whole, hr]

end Decoder

/-! ### Fields that are read back -/

/-- The fields are within their bounds, and they take fewer bytes than a count can say. -/
structure Encodes (ws : List Write) : Prop where
  fits : ∀ w ∈ ws, w.Fits
  length : (wire ws).length < 2 ^ 32

theorem Encoder.encodes {ws : List Write} (h : (run ws).ok = true) : Encodes ws := by
  obtain ⟨hfits, hlen⟩ := (run_ok_iff ws).mp h
  exact ⟨hfits, Nat.lt_of_le_of_lt hlen (by decide)⟩

theorem length_le_wire (ws : List Write) : ws.length ≤ (wire ws).length := by
  induction ws with
  | nil => exact Nat.le_refl _
  | cons w ws ih =>
    have hpos : 0 < w.toBytes.length := by cases w <;> simp [Write.toBytes]
    rw [wire_cons, List.length_append, List.length_cons]
    omega

namespace Encodes

variable {α : Type} {ws ws' : List Write} {enc : α → List Write} {l : List α}

theorem left (h : Encodes (ws ++ ws')) : Encodes ws := by
  have hlen := h.length
  rw [wire_append, List.length_append] at hlen
  exact ⟨fun w hw => h.fits w (List.mem_append_left _ hw), by omega⟩

theorem right (h : Encodes (ws ++ ws')) : Encodes ws' := by
  have hlen := h.length
  rw [wire_append, List.length_append] at hlen
  exact ⟨fun w hw => h.fits w (List.mem_append_right _ hw), by omega⟩

theorem element (h : Encodes (l.flatMap enc)) {x : α} (hx : x ∈ l) : Encodes (enc x) := by
  obtain ⟨before, after, rfl⟩ := List.append_of_mem hx
  rw [List.flatMap_append, List.flatMap_cons] at h
  exact h.right.left

/-- A list whose elements are written has no more elements than bytes. -/
theorem count (h : Encodes (l.flatMap enc)) (henc : ∀ x, enc x ≠ []) : l.length < 2 ^ 32 := by
  refine Nat.lt_of_le_of_lt (Nat.le_trans ?_ (length_le_wire _)) h.length
  clear h
  induction l with
  | nil => exact Nat.le_refl _
  | cons x l ih =>
    have hpos := List.length_pos_iff.mpr (henc x)
    rw [List.flatMap_cons, List.length_append, List.length_cons]
    omega

end Encodes

/-- Fields that the encoder wrote are read as `x` when `c` holds, and refused when it fails. -/
def Carries {α : Type} (d : Decoder α) (ws : List Write) (x : α) (c : Prop) : Prop :=
  Encodes ws → Reads d (wire ws) x c

namespace Carries

variable {α β : Type} {d : Decoder α} {ws ws' : List Write} {x : α} {y : β} {c c' : Prop}

theorem pure (x : α) : Carries (pure x) [] x True := fun _ => Reads.pure x

theorem pureEq {x' : α} (h : x' = x) : Carries (Pure.pure x') [] x True := h ▸ pure x

theorem congr (h : Carries d ws x c) (hc : c ↔ c') : Carries d ws x c' :=
  fun hws => (h hws).congr hc

theorem of_ok (h : Carries d ws x c) (hc : c) : Carries d ws x True := fun hws => (h hws).of_ok hc

theorem bind {f : α → Decoder β} (h : Carries d ws x c) (hf : c → Carries (f x) ws' y c') :
    Carries (d >>= f) (ws ++ ws') y (c ∧ c') := by
  intro hws
  rw [wire_append]
  exact (h hws.left).bind fun hc => hf hc hws.right

theorem andThen {f : α → Decoder β} (h : Carries d ws x True) (hf : Carries (f x) ws' y c) :
    Carries (d >>= f) (ws ++ ws') y c :=
  (h.bind fun _ => hf).congr (by rw [true_and])

theorem check {b : Prop} [Decidable b] {f : Unit → Decoder β} (hf : b → Carries (f ()) ws y c) :
    Carries (guard b >>= f) ws y (b ∧ c) :=
  fun hws => Reads.checkThen fun hb => hf hb hws

theorem pass {b : Prop} [Decidable b] {f : Unit → Decoder β} (hb : b) (hf : Carries (f ()) ws y c) :
    Carries (guard b >>= f) ws y c :=
  (check fun _ => hf).congr (and_iff_right hb)

theorem thenPure {f : α → Decoder β} (h : Carries d ws x c) (hf : f x = Pure.pure y) :
    Carries (d >>= f) ws y c :=
  fun hws => (h hws).thenPure hf

theorem map {f : α → β} (h : Carries d ws x c) : Carries (f <$> d) ws (f x) c :=
  fun hws => (h hws).map

/-- One field, and the fields behind it. -/
theorem field {w : Write} {f : α → Decoder β} (h : w.Fits → Reads d w.toBytes x c)
    (hf : Carries (f x) ws y c') : Carries (d >>= f) (w :: ws) y (c ∧ c') := by
  have hw : Carries d [w] x c := by
    intro hws
    rw [wire_cons, wire_nil, List.append_nil]
    exact h (hws.fits w List.mem_cons_self)
  exact hw.bind fun _ => hf

theorem fieldThen {w : Write} {f : α → Decoder β} (h : w.Fits → Reads d w.toBytes x True)
    (hf : Carries (f x) ws y c) : Carries (d >>= f) (w :: ws) y c :=
  (field h hf).congr (by rw [true_and])

theorem u8 {v : UInt8} {f : UInt8 → Decoder β} (hf : Carries (f v) ws y c) :
    Carries (Decoder.u8 >>= f) (.u8 v :: ws) y c :=
  fieldThen (fun _ => Decoder.reads_u8 v) hf

theorem u16 {v : UInt16} {f : UInt16 → Decoder β} (hf : Carries (f v) ws y c) :
    Carries (Decoder.u16 >>= f) (.u16 v :: ws) y c :=
  fieldThen (fun _ => Decoder.reads_u16 v) hf

theorem u32 {v : UInt32} {f : UInt32 → Decoder β} (hf : Carries (f v) ws y c) :
    Carries (Decoder.u32 >>= f) (.u32 v :: ws) y c :=
  fieldThen (fun _ => Decoder.reads_u32 v) hf

theorem u64 {v : UInt64} {f : UInt64 → Decoder β} (hf : Carries (f v) ws y c) :
    Carries (Decoder.u64 >>= f) (.u64 v :: ws) y c :=
  fieldThen (fun _ => Decoder.reads_u64 v) hf

theorem i64 {v : Int64} {f : Int64 → Decoder β} (hf : Carries (f v) ws y c) :
    Carries (Decoder.i64 >>= f) (.i64 v :: ws) y c :=
  fieldThen (fun _ => Decoder.reads_i64 v) hf

theorem boolean {v : Bool} {f : Bool → Decoder β} (hf : Carries (f v) ws y c) :
    Carries (Decoder.boolean >>= f) (.boolean v :: ws) y c :=
  fieldThen (fun _ => Decoder.reads_boolean v) hf

theorem strongId {tag : IdTag} {v : StrongId tag} {f : StrongId tag → Decoder β}
    (hf : Carries (f v) ws y c) : Carries (Decoder.strongId >>= f) (.id128 v.value :: ws) y c :=
  fieldThen (fun _ => Decoder.reads_strongId v) hf

/-- A string is read under the bound of the reader. -/
theorem textUnder {v : Text} {maxBytes maxBytes' : UInt32} {f : Text → Decoder β}
    (hf : Carries (f v) ws y c) :
    Carries (Decoder.string maxBytes' >>= f) (.string v maxBytes :: ws) y
      (v.length ≤ maxBytes'.toNat ∧ c) :=
  field (Decoder.reads_string v maxBytes' maxBytes) hf

/-- A string written under a bound is read back under the same bound. -/
theorem text {v : Text} {maxBytes : UInt32} {f : Text → Decoder β} (hf : Carries (f v) ws y c) :
    Carries (Decoder.string maxBytes >>= f) (.string v maxBytes :: ws) y c :=
  fieldThen (Decoder.reads_string_same v maxBytes) hf

end Carries

end CableRegistry
