import Mathlib.Data.List.Basic
import Mathlib.Tactic.Common
import Mathlib.Tactic.Ring

/-!
# Little-endian bytes and lists written in place

`Bytes.le k n` is the `k` low bytes of `n`, least first, and `Bytes.ofLe` the number a list of
bytes spells, so that the one undoes the other below `256 ^ k`, and the other the one always.

`Bytes.overwrite xs i ys` is `xs` with the stretch from `i` replaced by `ys`.  What the code does
to a buffer in several writes is read off one append at a time, with `overwrite_middle`.
-/

namespace Bytes

section Numbers

/-- The `k` low bytes of `n`, least significant first. -/
def le : ℕ → ℕ → List UInt8
  | 0, _ => []
  | k + 1, n => UInt8.ofNat n :: le k (n / 256)

/-- The number a list of bytes spells, least significant first. -/
def ofLe : List UInt8 → ℕ
  | [] => 0
  | b :: bs => b.toNat + 256 * ofLe bs

@[simp] theorem length_le : ∀ k n : ℕ, (le k n).length = k
  | 0, _ => rfl
  | k + 1, n => by simp [le, length_le k]

theorem ofLe_lt : ∀ bs : List UInt8, ofLe bs < 256 ^ bs.length
  | [] => by simp [ofLe]
  | b :: bs => by
    have ih := ofLe_lt bs
    have hb := b.toNat_lt
    simp only [ofLe, List.length_cons, pow_succ]
    omega

/-- Below `256 ^ k` the bytes spell the number they were taken from. -/
theorem ofLe_le : ∀ {k n : ℕ}, n < 256 ^ k → ofLe (le k n) = n
  | 0, n, h => by
    simp only [pow_zero] at h
    simp only [le, ofLe]
    omega
  | k + 1, n, h => by
    have hq : n / 256 < 256 ^ k := by
      rw [Nat.div_lt_iff_lt_mul (by decide)]
      rwa [pow_succ] at h
    simp only [le, ofLe, ofLe_le hq, UInt8.toNat_ofNat']
    omega

/-- The bytes of the number that bytes spell are these bytes. -/
theorem le_ofLe : ∀ bs : List UInt8, le bs.length (ofLe bs) = bs
  | [] => rfl
  | b :: bs => by
    have hb := b.toNat_lt
    have hlow : UInt8.ofNat (b.toNat + 256 * ofLe bs) = b := by
      rw [← UInt8.toNat_inj, UInt8.toNat_ofNat']
      omega
    have hhigh : (b.toNat + 256 * ofLe bs) / 256 = ofLe bs := by omega
    rw [List.length_cons, ofLe, le, hlow, hhigh, le_ofLe bs]

end Numbers

section Overwrite

variable {α : Type*}

/-- `xs` with the stretch that starts at `i` replaced by `ys`. -/
def overwrite (xs : List α) (i : ℕ) (ys : List α) : List α :=
  xs.take i ++ ys ++ xs.drop (i + ys.length)

/-- Overwriting the middle of three appended lists leaves the outer two. -/
theorem overwrite_middle {a b d c : List α} {i : ℕ} (hi : i = a.length)
    (hb : d.length = b.length) : overwrite (a ++ b ++ c) i d = a ++ d ++ c := by
  subst hi
  have hdrop : (a ++ b ++ c).drop (a.length + d.length) = c := by
    rw [hb, ← List.length_append, List.drop_left]
  rw [overwrite, hdrop, List.append_assoc a b c, List.take_left]

theorem overwrite_prefix (xs ys : List α) : overwrite xs 0 ys = ys ++ xs.drop ys.length := by
  simp [overwrite]

theorem overwrite_suffix {xs ys : List α} {i : ℕ} (h : i + ys.length = xs.length) :
    overwrite xs i ys = xs.take i ++ ys := by
  rw [overwrite, h, List.drop_length, List.append_nil]

theorem take_overwrite {xs ys : List α} {i : ℕ} (h : i ≤ xs.length) :
    (overwrite xs i ys).take i = xs.take i := by
  rw [overwrite, List.append_assoc, List.take_append_of_le_length (by simp [h]), List.take_take,
    min_self]

/-- The stretch `i ..< j` of a list. -/
def slice (xs : List α) (i j : ℕ) : List α := (xs.drop i).take (j - i)

theorem slice_middle {a b c : List α} {i j : ℕ} (hi : i = a.length)
    (hj : j = a.length + b.length) : slice (a ++ b ++ c) i j = b := by
  subst hi hj
  rw [slice, List.append_assoc, List.drop_left, Nat.add_sub_cancel_left, List.take_left]

theorem length_slice {xs : List α} {i j : ℕ} (hj : j ≤ xs.length) :
    (slice xs i j).length = j - i := by
  rw [slice, List.length_take, List.length_drop]
  omega

/-- A stretch is the stretches up to a point in it and from there. -/
theorem slice_append_slice {xs : List α} {i j k : ℕ} (hij : i ≤ j) (hjk : j ≤ k) :
    slice xs i j ++ slice xs j k = slice xs i k := by
  have hsplit : xs.drop j = (xs.drop i).drop (j - i) := by
    rw [List.drop_drop]
    congr 1
    omega
  rw [slice, slice, slice, hsplit, ← List.take_add]
  congr 1
  omega

theorem slice_append_drop (xs : List α) {i j : ℕ} (hij : i ≤ j) :
    slice xs i j ++ xs.drop j = xs.drop i := by
  have hsplit : xs.drop j = (xs.drop i).drop (j - i) := by
    rw [List.drop_drop]
    congr 1
    omega
  rw [slice, hsplit, List.take_append_drop]

end Overwrite

end Bytes
