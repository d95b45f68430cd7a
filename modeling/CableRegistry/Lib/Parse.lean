import Mathlib.Data.List.Basic
import Mathlib.Tactic.Common

/-!
# Reading back what was written

A reader consumes a list of tokens from the front and either fails or returns a
value with the tokens it left.  `Reads p w x c` says what the reader `p` does
on an input that starts with `w`: when `c` holds it returns `x` and leaves
exactly what followed `w`, and when `c` fails it fails.  The second half is
what makes the notion exact: a reader that checks more than the writer shows
its extra checks in `c`.

The rules follow the shape of a reader.  `Reads.bind` runs one reader after
another and conjoins the conditions, `Reads.check` is a check, and
`Reads.times_map` repeats a reader a known number of times.  `Reads.eq_of_run`
turns the condition round: a reader that succeeds on `w` returns `x`.

`ReadsBack p w x` leaves the condition open: the reader returns `x` or fails.  It is the
notion for a reader that is stricter or laxer than the writer knew.  `Yields p P` is about the
checks of the reader alone: whatever it returns, on any input, has the property `P`.

`Retraces p wr` is the converse of reading back: whatever the reader returns, what it consumed is
what the writer makes of it.  A reader with this property has one input for each result.

`Stable p` says that more input does not change what the reader makes of the input it has.  A stable
reader that reads all of an input reads all of no shorter one (`Stable.ne_of_shorter`).
-/

/-- A reader of tokens. -/
abbrev Reader (τ α : Type) := StateT (List τ) Option α

namespace Reader

variable {τ α β : Type}

/-- Takes the next `n` tokens. -/
def take (n : Nat) : Reader τ (List τ) := fun s =>
  if n ≤ s.length then some (s.take n, s.drop n) else none

/-- Runs a reader `n` times. -/
def times : Nat → Reader τ α → Reader τ (List α)
  | 0, _ => pure []
  | n + 1, p => do
    let x ← p
    let xs ← times n p
    pure (x :: xs)

end Reader

/-- On an input that starts with `w`, the reader returns `x` and what follows `w`
when `c` holds, and fails when it does not. -/
def Reads {τ α : Type} (p : Reader τ α) (w : List τ) (x : α) (c : Prop) : Prop :=
  ∀ rest, (c → p (w ++ rest) = some (x, rest)) ∧ (¬ c → p (w ++ rest) = none)

namespace Reads

variable {τ α β : Type} {p : Reader τ α} {w u : List τ} {x : α} {c d : Prop}

theorem pure (x : α) : Reads (pure x : Reader τ α) [] x True :=
  fun _ => ⟨fun _ => rfl, fun h => absurd trivial h⟩

theorem congr (h : Reads p w x c) (hok : c ↔ d) : Reads p w x d := by
  intro rest
  exact ⟨fun h' => (h rest).1 (hok.mpr h'), fun h' => (h rest).2 (fun h'' => h' (hok.mp h''))⟩

theorem of_ok (h : Reads p w x c) (hok : c) : Reads p w x True :=
  h.congr ⟨fun _ => trivial, fun _ => hok⟩

theorem bind {f : α → Reader τ β} {y : β} (hp : Reads p w x c)
    (hf : c → Reads (f x) u y d) : Reads (p >>= f) (w ++ u) y (c ∧ d) := by
  intro rest
  have hrun : (p >>= f) (w ++ u ++ rest) = (p (w ++ (u ++ rest))).bind (fun r => f r.1 r.2) := by
    rw [List.append_assoc]
    rfl
  rw [hrun]
  constructor
  · rintro ⟨h, h'⟩
    rw [(hp (u ++ rest)).1 h]
    exact (hf h rest).1 h'
  · intro hn
    by_cases h : c
    · rw [(hp (u ++ rest)).1 h]
      exact (hf h rest).2 (fun h' => hn ⟨h, h'⟩)
    · rw [(hp (u ++ rest)).2 h]
      rfl

/-- A reader that always succeeds adds no condition to what follows it. -/
theorem andThen {f : α → Reader τ β} {y : β} (hp : Reads p w x True)
    (hf : Reads (f x) u y d) : Reads (p >>= f) (w ++ u) y d :=
  (hp.bind (fun _ => hf)).congr (by simp)

/-- A reader that takes no token and only checks. -/
theorem check (b : Prop) [Decidable b] : Reads (guard b : Reader τ Unit) [] () b := by
  intro rest
  constructor
  · intro h
    simp only [guard, if_pos h]
    rfl
  · intro h
    simp only [guard, if_neg h]
    rfl

theorem checkThen {b : Prop} [Decidable b] {f : Unit → Reader τ β} {y : β}
    (hf : b → Reads (f ()) w y c) : Reads (guard b >>= f) w y (b ∧ c) :=
  (Reads.check b).bind hf

/-- A reader whose result is only repackaged. -/
theorem thenPure {f : α → Reader τ β} {y : β} (hp : Reads p w x c) (hf : f x = Pure.pure y) :
    Reads (p >>= f) w y c := by
  have h := hp.bind (u := []) (f := f) (y := y) (d := True) (fun _ => hf ▸ Reads.pure y)
  rw [List.append_nil] at h
  exact h.congr (by rw [and_true])

theorem map {f : α → β} (h : Reads p w x c) : Reads (f <$> p) w (f x) c := by
  intro rest
  constructor
  · intro h'
    change (p (w ++ rest)).bind (fun r => some (f r.1, r.2)) = _
    rw [(h rest).1 h']
    rfl
  · intro h'
    change (p (w ++ rest)).bind (fun r => some (f r.1, r.2)) = _
    rw [(h rest).2 h']
    rfl

theorem take (w : List τ) : Reads (Reader.take w.length) w w True := by
  intro rest
  refine ⟨fun _ => ?_, fun h => absurd trivial h⟩
  simp [Reader.take]

/-- A reader repeated over a list of writings reads what it makes of each element, and
succeeds when every element's own condition holds. -/
theorem times_map {wr : β → List τ} {f : β → α} {good : β → Prop} (l : List β)
    (h : ∀ x ∈ l, Reads p (wr x) (f x) (good x)) :
    Reads (Reader.times l.length p) (l.flatMap wr) (l.map f) (∀ x ∈ l, good x) := by
  induction l with
  | nil => exact (Reads.pure []).congr (by simp)
  | cons a l ih =>
    have hl := ih (fun x hx => h x (List.mem_cons_of_mem a hx))
    have hstep : Reads (Reader.times (l.length + 1) p) (wr a ++ (l.flatMap wr ++ []))
        (f a :: l.map f) (good a ∧ ((∀ x ∈ l, good x) ∧ True)) :=
      (h a List.mem_cons_self).bind (fun _ => hl.bind (fun _ => Reads.pure (f a :: l.map f)))
    rw [List.append_nil] at hstep
    exact hstep.congr (by simp)

/-- What a reader returns on a writing is the written value. -/
theorem eq_of_run {rest rest' : List τ} {y : α} (h : Reads p w x c)
    (hrun : p (w ++ rest) = some (y, rest')) : c ∧ y = x ∧ rest' = rest := by
  by_cases hok : c
  · rw [(h rest).1 hok] at hrun
    simp only [Option.some.injEq, Prod.mk.injEq] at hrun
    exact ⟨hok, hrun.1.symm, hrun.2.symm⟩
  · rw [(h rest).2 hok] at hrun
    exact absurd hrun (by simp)

theorem run_nil (h : Reads p w x c) (hok : c) : p w = some (x, []) := by
  have := (h []).1 hok
  rwa [List.append_nil] at this

end Reads

/-! ### Under some condition -/

/-- On an input that starts with `w`, the reader returns `x` and what follows `w`, or
fails whatever follows. -/
def ReadsBack {τ α : Type} (p : Reader τ α) (w : List τ) (x : α) : Prop := ∃ c, Reads p w x c

/-! ### What a reader checks -/

/-- Whatever the reader returns has the property. -/
def Yields {τ α : Type} (p : Reader τ α) (P : α → Prop) : Prop :=
  ∀ s x rest, p s = some (x, rest) → P x

namespace Yields

variable {τ α β : Type} {p : Reader τ α} {P : α → Prop} {Q : β → Prop}

theorem pure {x : α} (h : P x) : Yields (pure x : Reader τ α) P := by
  intro s y rest hrun
  obtain ⟨rfl, -⟩ := Prod.mk.inj (Option.some.inj hrun)
  exact h

theorem bind {f : α → Reader τ β} (hp : Yields p P) (hf : ∀ x, P x → Yields (f x) Q) :
    Yields (p >>= f) Q := by
  intro s y rest hrun
  have hrun' : (p s).bind (fun r => f r.1 r.2) = some (y, rest) := hrun
  obtain ⟨⟨x, left⟩, hx, hy⟩ := Option.bind_eq_some_iff.mp hrun'
  exact hf x (hp s x left hx) left y rest hy

/-- A reader whose result does not matter. -/
theorem skip {f : α → Reader τ β} (hf : ∀ x, Yields (f x) Q) : Yields (p >>= f) Q :=
  bind (P := fun _ => True) (fun _ _ _ _ => trivial) fun x _ => hf x

theorem checkThen {b : Prop} [Decidable b] {f : Unit → Reader τ β} (hf : b → Yields (f ()) Q) :
    Yields (guard b >>= f) Q := by
  refine bind (P := fun _ => b) ?_ fun _ hb => hf hb
  intro s x rest hrun
  by_contra hb
  have hnone : (guard b : Reader τ Unit) s = none := by
    simp only [guard, if_neg hb]
    rfl
  rw [hnone] at hrun
  exact absurd hrun (by simp)

theorem times (n : Nat) : Yields (Reader.times n p) fun l => l.length = n := by
  induction n with
  | zero => exact pure rfl
  | succ n ih => exact skip fun x => ih.bind fun l hl => pure (by rw [List.length_cons, hl])

end Yields

/-! ### Readers with one input for each result -/

/-- Whatever the reader returns, `pre` and what it consumed are what the writer makes of it. -/
def RetracesAfter {τ α : Type} (pre : List τ) (p : Reader τ α) (wr : α → List τ) : Prop :=
  ∀ s x rest, p s = some (x, rest) → pre ++ s = wr x ++ rest

/-- Whatever the reader returns, what it consumed is what the writer makes of it. -/
def Retraces {τ α : Type} (p : Reader τ α) (wr : α → List τ) : Prop := RetracesAfter [] p wr

namespace RetracesAfter

variable {τ α β : Type} {p : Reader τ α} {pre : List τ} {wr : β → List τ} {wp : α → List τ}

theorem pure {x : β} (h : wr x = pre) : RetracesAfter pre (pure x : Reader τ β) wr := by
  intro s y rest hrun
  obtain ⟨rfl, rfl⟩ := Prod.mk.inj (Option.some.inj hrun)
  rw [h]

/-- One reader after another, where the first promises something about its result. -/
theorem bindWith {P : α → Prop} {f : α → Reader τ β} (hp : Retraces p wp) (hy : Yields p P)
    (hf : ∀ x, P x → RetracesAfter (pre ++ wp x) (f x) wr) : RetracesAfter pre (p >>= f) wr := by
  intro s y rest hrun
  have hrun' : (p s).bind (fun r => f r.1 r.2) = some (y, rest) := hrun
  obtain ⟨⟨x, left⟩, hx, hy'⟩ := Option.bind_eq_some_iff.mp hrun'
  have hs : s = wp x ++ left := hp s x left hx
  rw [hs, ← List.append_assoc]
  exact hf x (hy s x left hx) left y rest hy'

theorem bind {f : α → Reader τ β} (hp : Retraces p wp)
    (hf : ∀ x, RetracesAfter (pre ++ wp x) (f x) wr) : RetracesAfter pre (p >>= f) wr :=
  bindWith (P := fun _ => True) hp (fun _ _ _ _ => trivial) fun x _ => hf x

theorem checkThen {b : Prop} [Decidable b] {f : Unit → Reader τ β}
    (hf : b → RetracesAfter pre (f ()) wr) : RetracesAfter pre (guard b >>= f) wr := by
  intro s y rest hrun
  by_cases hb : b
  · have heq : (guard b >>= f : Reader τ β) s = f () s := by
      simp only [guard, if_pos hb]
      rfl
    exact hf hb s y rest (heq.symm.trans hrun)
  · have hnone : (guard b >>= f : Reader τ β) s = none := by
      simp only [guard, if_neg hb]
      rfl
    exact absurd (hnone.symm.trans hrun) (by simp)

end RetracesAfter

namespace Retraces

variable {τ α β : Type} {p : Reader τ α} {wp : α → List τ}

theorem map {P : α → Prop} {f : α → β} {wr : β → List τ} (hp : Retraces p wp) (hy : Yields p P)
    (h : ∀ x, P x → wr (f x) = wp x) : Retraces (f <$> p) wr := by
  intro s y rest hrun
  have hrun' : (p s).bind (fun r => some (f r.1, r.2)) = some (y, rest) := hrun
  obtain ⟨⟨x, left⟩, hx, heq⟩ := Option.bind_eq_some_iff.mp hrun'
  obtain ⟨rfl, rfl⟩ := Prod.mk.inj (Option.some.inj heq)
  rw [h x (hy s x left hx)]
  exact hp s x left hx

theorem take (n : Nat) : Retraces (Reader.take n : Reader τ (List τ)) id := by
  intro s x rest hrun
  unfold Reader.take at hrun
  split at hrun
  · obtain ⟨rfl, rfl⟩ := Prod.mk.inj (Option.some.inj hrun)
    exact (List.take_append_drop n s).symm
  · exact absurd hrun (by simp)

theorem times (hp : Retraces p wp) (n : Nat) :
    Retraces (Reader.times n p) fun l => l.flatMap wp := by
  induction n with
  | zero => exact RetracesAfter.pure rfl
  | succ n ih =>
    refine RetracesAfter.bind hp fun x => RetracesAfter.bind ih fun l => RetracesAfter.pure ?_
    rw [List.flatMap_cons, List.nil_append]

/-- Two inputs of a reader that give one result differ in what is left only. -/
theorem eq_of_run {s : List τ} {x : α} (hp : Retraces p wp) (h : p s = some (x, [])) : s = wp x := by
  have hs := hp s x [] h
  rwa [List.nil_append, List.append_nil] at hs

end Retraces

theorem Yields.take {τ : Type} (n : Nat) :
    Yields (Reader.take n : Reader τ (List τ)) fun l => l.length = n := by
  intro s x rest hrun
  unfold Reader.take at hrun
  split at hrun
  · rename_i hle
    obtain ⟨rfl, -⟩ := Prod.mk.inj (Option.some.inj hrun)
    rw [List.length_take, Nat.min_eq_left hle]
  · exact absurd hrun (by simp)

/-! ### Readers that do not look ahead -/

/-- More input is left where it is. -/
class Stable {τ α : Type} (p : Reader τ α) : Prop where
  run_append : ∀ s x rest more, p s = some (x, rest) → p (s ++ more) = some (x, rest ++ more)

namespace Stable

variable {τ α β : Type} {p : Reader τ α}

instance pure (x : α) : Stable (Pure.pure x : Reader τ α) where
  run_append := by
    intro s y rest more hrun
    obtain ⟨rfl, rfl⟩ := Prod.mk.inj (Option.some.inj hrun)
    rfl

instance bind {f : α → Reader τ β} [hp : Stable p] [hf : ∀ x, Stable (f x)] : Stable (p >>= f) where
  run_append := by
    intro s y rest more hrun
    have hrun' : (p s).bind (fun r => f r.1 r.2) = some (y, rest) := hrun
    obtain ⟨⟨x, left⟩, hx, hy⟩ := Option.bind_eq_some_iff.mp hrun'
    change (p (s ++ more)).bind (fun r => f r.1 r.2) = _
    rw [hp.run_append s x left more hx]
    exact (hf x).run_append left y rest more hy

instance map {f : α → β} [hp : Stable p] : Stable (f <$> p) where
  run_append := by
    intro s y rest more hrun
    have hrun' : (p s).bind (fun r => some (f r.1, r.2)) = some (y, rest) := hrun
    obtain ⟨⟨x, left⟩, hx, hy⟩ := Option.bind_eq_some_iff.mp hrun'
    obtain ⟨rfl, rfl⟩ := Prod.mk.inj (Option.some.inj hy)
    change (p (s ++ more)).bind (fun r => some (f r.1, r.2)) = _
    rw [hp.run_append s x left more hx]
    rfl

instance check (b : Prop) [Decidable b] : Stable (guard b : Reader τ Unit) where
  run_append := by
    intro s y rest more hrun
    by_cases hb : b
    · simp only [guard, if_pos hb] at hrun ⊢
      exact (pure ()).run_append s y rest more hrun
    · simp only [guard, if_neg hb] at hrun
      exact absurd hrun (by intro h; cases h)

instance fail : Stable (failure : Reader τ α) where
  run_append := by
    intro s y rest more hrun
    exact absurd hrun (by intro h; cases h)

instance take (n : Nat) : Stable (Reader.take n : Reader τ (List τ)) where
  run_append := by
    intro s x rest more hrun
    unfold Reader.take at hrun ⊢
    split at hrun
    · rename_i hle
      obtain ⟨rfl, rfl⟩ := Prod.mk.inj (Option.some.inj hrun)
      rw [if_pos (by rw [List.length_append]; omega), List.take_append_of_le_length hle,
        List.drop_append_of_le_length hle]
    · exact absurd hrun (by simp)

instance times [Stable p] (n : Nat) : Stable (Reader.times n p) := by
  induction n with
  | zero =>
    unfold Reader.times
    infer_instance
  | succ n ih =>
    unfold Reader.times
    infer_instance

/-- A stable reader that reads all of an input reads all of no shorter one. -/
theorem ne_of_shorter [hp : Stable p] {s short : List τ} {x y : α} (h : p s = some (x, []))
    (hpre : short <+: s) (hne : short ≠ s) : p short ≠ some (y, []) := by
  intro hshort
  obtain ⟨more, rfl⟩ := hpre
  have hlong := hp.run_append short y [] more hshort
  rw [h] at hlong
  obtain ⟨-, hmore⟩ := Prod.mk.inj (Option.some.inj hlong)
  rw [List.nil_append] at hmore
  rw [← hmore, List.append_nil] at hne
  exact hne rfl

end Stable
