import Mathlib.Algebra.Group.Nat.Defs
import Mathlib.Data.List.Basic
import Mathlib.Tactic.Common

/-!
# Statuses, panics and machine words

`UStatus` is a code and a text.  A computation of the crate ends in a value, in a `UStatus`, or in
a panic, when a slice, an index or an `expect` fails; `Fault` is the last two.  A panic is a result
of its own here, so that what never panics is a theorem about the code.

`usize` is a natural number no larger than `usizeMax` of the target's pointer width.
-/

namespace LolaTransport

/-- The `UCode`s the crate puts into its own statuses. -/
inductive UCode
  | INVALID_ARGUMENT
  | NOT_FOUND
  | ALREADY_EXISTS
  | RESOURCE_EXHAUSTED
  | FAILED_PRECONDITION
  | INTERNAL
  deriving DecidableEq, Repr

structure UStatus where
  code : UCode
  message : String
  deriving DecidableEq, Repr

/-- How a computation ends without a value: an `Err` it returns, or a panic. -/
inductive Fault
  | status (s : UStatus)
  | panicked
  deriving DecidableEq, Repr

/-- `UStatus::fail_with_code`, as the `Err` that is returned. -/
def failWithCode (code : UCode) (message : String) : Fault := .status ⟨code, message⟩

/-- The code of the `Err` returned, if one was. -/
def Fault.code? : Fault → Option UCode
  | .status s => some s.code
  | .panicked => none

/-- The pointer widths the crate is built for. -/
inductive PointerWidth
  | w32
  | w64
  deriving DecidableEq, Repr

def PointerWidth.bits : PointerWidth → ℕ
  | .w32 => 32
  | .w64 => 64

def usizeMax (w : PointerWidth) : ℕ := 2 ^ w.bits - 1

def u32Max : ℕ := 2 ^ 32 - 1

def u64Max : ℕ := 2 ^ 64 - 1

theorem u32Max_le_usizeMax (w : PointerWidth) : u32Max ≤ usizeMax w := by
  cases w <;> decide

/-- `usize::checked_add`. -/
def checkedAdd (w : PointerWidth) (a b : ℕ) : Option ℕ :=
  if a + b ≤ usizeMax w then some (a + b) else none

/-- `usize::checked_sub`. -/
def checkedSub (a b : ℕ) : Option ℕ := if b ≤ a then some (a - b) else none

/-- `usize::is_power_of_two`. -/
def isPowerOfTwo (n : ℕ) : Bool := n ≠ 0 ∧ 2 ^ Nat.log2 n = n

/-- `u32::try_from` a `usize`. -/
def u32TryFrom (n : ℕ) : Option UInt32 := if n ≤ u32Max then some (UInt32.ofNat n) else none

/-- A `u32` `as usize`. -/
def asUsize (w : PointerWidth) (n : UInt32) : ℕ := n.toNat % 2 ^ w.bits

@[simp] theorem asUsize_eq (w : PointerWidth) (n : UInt32) : asUsize w n = n.toNat := by
  have h := n.toNat_lt
  cases w <;> simp only [asUsize, PointerWidth.bits] <;> omega

/-- `u64::saturating_add` of one. -/
def saturatingSucc (n : ℕ) : ℕ := min u64Max (n + 1)

/-- `ok_or_else` with a status. -/
def okOr {α : Type} (o : Option α) (code : UCode) (message : String) : Except Fault α :=
  match o with
  | some a => .ok a
  | none => .error (failWithCode code message)

theorem okOr_eq_ok {α : Type} {o : Option α} {code : UCode} {message : String} {a : α} :
    okOr o code message = .ok a ↔ o = some a := by
  cases o <;> simp [okOr]

theorem checkedAdd_eq_some {w : PointerWidth} {a b c : ℕ} :
    checkedAdd w a b = some c ↔ a + b ≤ usizeMax w ∧ c = a + b := by
  unfold checkedAdd
  split_ifs with h
  · simp [h, eq_comm]
  · simp [h]

theorem u32TryFrom_eq_some {n : ℕ} {v : UInt32} :
    u32TryFrom n = some v ↔ n ≤ u32Max ∧ v.toNat = n := by
  unfold u32TryFrom
  split_ifs with h
  · have hlt : n < UInt32.size := by
      simp only [u32Max, UInt32.size] at h ⊢
      omega
    have hn : (UInt32.ofNat n).toNat = n := UInt32.toNat_ofNat_of_lt' hlt
    refine ⟨fun hv => ⟨h, ?_⟩, fun hv => ?_⟩
    · rw [← Option.some.inj hv, hn]
    · rw [Option.some.injEq, ← UInt32.toNat_inj, hn, hv.2]
  · simp [h]

end LolaTransport
