import CableRegistry.Lib.LittleEndian

/-!
# Writings that say where they end

A way of writing values is delimited when the values can be told apart in a longer text: if two
texts that start with the writings of `x` and of `y` are equal, then `x` and `y` are, and so is what
follows.  A writing that spends a fixed number of tokens on a length is delimited only for values it
has room for, so `Delimited n` is about the values whose writing has fewer than `n` tokens; a part of
such a value is one.

Two texts that start with writings of one length agree on them (`eq_of_append_of_length`), and a list
that is written as its length followed by its elements is delimited when the elements are
(`Delimited.flatMap`).  A value that is written in parts is delimited when the parts together tell
which value it is (`Tells.append`, `Tells.delimited`).
-/

/-- Values whose writing has fewer than `n` tokens can be told apart at the front of a text. -/
def Delimited {τ α : Type} (n : Nat) (wr : α → List τ) : Prop :=
  ∀ x y rest rest', (wr x).length < n → (wr y).length < n → wr x ++ rest = wr y ++ rest' →
    x = y ∧ rest = rest'

/-- At the front of a text, the writing of a value tells `φ` of it. -/
def Tells {τ α β : Type} (n : Nat) (wr : α → List τ) (φ : α → β) : Prop :=
  ∀ x y rest rest', (wr x).length < n → (wr y).length < n → wr x ++ rest = wr y ++ rest' →
    φ x = φ y ∧ rest = rest'

namespace Tells

variable {τ α β γ : Type} {n : Nat} {wr wr' : α → List τ} {φ : α → β} {ψ : α → γ}

theorem append (h : Tells n wr φ) (h' : Tells n wr' ψ) :
    Tells n (fun x => wr x ++ wr' x) fun x => (φ x, ψ x) := by
  intro x y rest rest' hx hy heq
  simp only [List.length_append, List.append_assoc] at hx hy heq
  obtain ⟨hφ, htail⟩ := h x y _ _ (by omega) (by omega) heq
  obtain ⟨hψ, hrest⟩ := h' x y _ _ (by omega) (by omega) htail
  exact ⟨Prod.ext hφ hψ, hrest⟩

theorem delimited (h : Tells n wr φ) (hφ : ∀ x y, φ x = φ y → x = y) : Delimited n wr := by
  intro x y rest rest' hx hy heq
  obtain ⟨htold, hrest⟩ := h x y rest rest' hx hy heq
  exact ⟨hφ x y htold, hrest⟩

end Tells

/-- A part of a value that is delimited is told. -/
theorem Delimited.tells {τ α β : Type} {n : Nat} {wr : α → List τ} (h : Delimited n wr) (part : β → α) :
    Tells n (fun x => wr (part x)) part :=
  fun x y => h (part x) (part y)

/-- Two texts that start with writings of one length agree on them and on the rest. -/
theorem eq_of_append_of_length {τ : Type} {w w' rest rest' : List τ} (hlen : w.length = w'.length)
    (h : w ++ rest = w' ++ rest') : w = w' ∧ rest = rest' :=
  List.append_inj h hlen

theorem leBytes_injective {w a b : Nat} (ha : a < 256 ^ w) (hb : b < 256 ^ w)
    (h : leBytes w a = leBytes w b) : a = b := by
  rw [← leValue_leBytes ha, h, leValue_leBytes hb]

namespace Delimited

variable {τ α : Type} {n : Nat} {wr : α → List τ}

theorem length_le_flatMap (hpos : ∀ x, 0 < (wr x).length) (l : List α) :
    l.length ≤ (l.flatMap wr).length := by
  induction l with
  | nil => exact Nat.le_refl _
  | cons a l ih =>
    have := hpos a
    rw [List.flatMap_cons, List.length_append, List.length_cons]
    omega

/-- **Lists of one length** are told apart element by element. -/
theorem flatMap (h : Delimited n wr) {l l' : List α} {rest rest' : List τ}
    (hlen : l.length = l'.length) (hl : (l.flatMap wr).length < n) (hl' : (l'.flatMap wr).length < n)
    (heq : l.flatMap wr ++ rest = l'.flatMap wr ++ rest') : l = l' ∧ rest = rest' := by
  induction l generalizing l' with
  | nil =>
    obtain rfl : l' = [] := List.length_eq_zero_iff.mp hlen.symm
    exact ⟨rfl, heq⟩
  | cons a l ih =>
    cases l' with
    | nil => exact absurd hlen (by simp)
    | cons b l' =>
      simp only [List.flatMap_cons, List.length_append, List.append_assoc, List.length_cons] at *
      obtain ⟨rfl, htail⟩ := h a b _ _ (by omega) (by omega) heq
      obtain ⟨rfl, hrest⟩ := ih (by omega) (by omega) (by omega) htail
      exact ⟨rfl, hrest⟩

end Delimited
