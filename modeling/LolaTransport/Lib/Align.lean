import Mathlib.Algebra.Order.Floor.Div
import Mathlib.GroupTheory.GroupAction.Ring
import Mathlib.Order.Bounds.Basic
import Mathlib.Tactic.Common

/-!
# Rounding up to a multiple

`Align.up a n` is the least multiple of `a` that is at least `n` (`isLeast_up`), and slots of
`up a n` apart keep stretches of `n` from overlapping (`add_le_of_lt`).

An address `b` shifts the question: the least offset from `b` that is at least `n` and ends at a
multiple of `a` is `up a (b + n) - b` (`isLeast_offset_iff`).
-/

namespace Align

section Semiring

variable {α : Type*} [Semiring α] [PartialOrder α] [CeilDiv α α] {a n m : α}

/-- `n` rounded up to a multiple of `a`. -/
def up (a n : α) : α := a * (n ⌈/⌉ a)

theorem dvd_up (a n : α) : a ∣ up a n := Dvd.intro _ rfl

theorem le_up (ha : 0 < a) : n ≤ up a n := by
  simpa [up] using le_smul_ceilDiv (b := n) ha

theorem up_le [PosMulMono α] (ha : 0 < a) (hn : n ≤ m) (hm : a ∣ m) : up a n ≤ m := by
  obtain ⟨c, rfl⟩ := hm
  have hc : n ⌈/⌉ a ≤ c := (ceilDiv_le_iff_le_mul ha).2 hn
  exact mul_le_mul_of_nonneg_left hc ha.le

theorem isLeast_up [PosMulMono α] (ha : 0 < a) : IsLeast {m | n ≤ m ∧ a ∣ m} (up a n) :=
  ⟨⟨le_up ha, dvd_up a n⟩, fun _ hm => up_le ha hm.1 hm.2⟩

end Semiring

section Nat

variable {a b n m i j : ℕ}

/-- A multiple of `a` less than `a` past `n` is `n` rounded up. -/
theorem eq_up (hm : a ∣ m) (hn : n ≤ m) (hlt : m < n + a) : m = up a n := by
  have ha : 0 < a := by omega
  obtain ⟨i, rfl⟩ := hm
  have hle : up a n ≤ a * i := up_le ha hn (Dvd.intro _ rfl)
  refine le_antisymm ?_ hle
  by_contra hgt
  have hsucc : n ⌈/⌉ a + 1 ≤ i := Nat.lt_of_mul_lt_mul_left (Nat.lt_of_not_le hgt)
  have hmul : a * (n ⌈/⌉ a + 1) ≤ a * i := Nat.mul_le_mul_left a hsucc
  have hup : n ≤ a * (n ⌈/⌉ a) := le_up ha
  rw [Nat.mul_add] at hmul
  omega

theorem up_eq_self (h : n % a = 0) (ha : 0 < a) : up a n = n :=
  (eq_up (Nat.dvd_of_mod_eq_zero h) le_rfl (by omega)).symm

/-- The padding that is added where `a` does not divide `n`. -/
theorem up_eq_add (h : n % a ≠ 0) (ha : 0 < a) : up a n = n + (a - n % a) := by
  have hmod : n % a < a := Nat.mod_lt n ha
  refine (eq_up ?_ (by omega) (by omega)).symm
  have hsum : n + (a - n % a) = a * (n / a) + a := by
    have := Nat.div_add_mod n a
    omega
  rw [hsum]
  exact Nat.dvd_add (Nat.dvd_mul_right _ _) (Nat.dvd_refl _)

theorem up_lt (ha : 0 < a) : up a n < n + a := by
  by_cases h : n % a = 0
  · rw [up_eq_self h ha]
    omega
  · rw [up_eq_add h ha]
    omega

theorem isLeast_offset (ha : 0 < a) :
    IsLeast {o | n ≤ o ∧ a ∣ b + o} (up a (b + n) - b) := by
  have hle : b + n ≤ up a (b + n) := le_up ha
  refine ⟨⟨by omega, ?_⟩, ?_⟩
  · rw [Nat.add_sub_of_le (by omega)]
    exact dvd_up _ _
  · rintro o ⟨hn, hdvd⟩
    have := up_le ha (Nat.add_le_add_left hn b) hdvd
    omega

theorem isLeast_offset_iff (ha : 0 < a) {o : ℕ} :
    IsLeast {o | n ≤ o ∧ a ∣ b + o} o ↔ b + o = up a (b + n) := by
  have hle : b + n ≤ up a (b + n) := le_up ha
  constructor
  · intro h
    have := h.unique (isLeast_offset ha)
    omega
  · intro h
    have ho : o = up a (b + n) - b := by omega
    rw [ho]
    exact isLeast_offset ha

/-- Of two slots `s` apart and at least `n` long, the first ends before the second starts. -/
theorem add_le_of_lt {s : ℕ} (hn : n ≤ s) (hij : i < j) : i * s + n ≤ j * s := by
  have hmul : (i + 1) * s ≤ j * s := Nat.mul_le_mul_right s hij
  rw [Nat.add_mul] at hmul
  omega

end Nat

end Align
