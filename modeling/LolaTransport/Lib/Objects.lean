import Mathlib.Data.List.Perm.Basic
import Mathlib.Tactic.Common

/-!
# A ledger of objects

Objects are made, opened, used, closed and destroyed by number.  What is asked of an object that is
not there or not open is a misuse, and so is to destroy one that is open.  Where every object there
is has one owner that keeps it open (`Settled`), what owners do is no misuse and leaves no object
over: a new object has an owner once it is open (`Settled.opened_make`) or is destroyed before that
(`Settled.destroy_make`), and its owner closes it and destroys it (`Settled.relinquish`).
-/

namespace Objects

/-- The numbers from `made` on are those of objects not yet made. -/
structure Ledger where
  made : ℕ := 0
  live : List ℕ := []
  opened : List ℕ := []
  misuses : ℕ := 0
  deriving DecidableEq, Repr

namespace Ledger

variable {l : Ledger} {x : ℕ} {owned owned' : List ℕ}

def misuse (l : Ledger) : Ledger := { l with misuses := l.misuses + 1 }

/-- The number of the new object is `l.made`. -/
def make (l : Ledger) : Ledger := { l with made := l.made + 1, live := l.made :: l.live }

/-- Something is asked of an object that need not be open. -/
def inspect (x : ℕ) (l : Ledger) : Ledger := if x ∈ l.live then l else l.misuse

/-- Something is asked of an object that has to be open. -/
def use (x : ℕ) (l : Ledger) : Ledger := if x ∈ l.live ∧ x ∈ l.opened then l else l.misuse

/-- An object is opened, if that works. -/
def tryOpen (x : ℕ) (works : Bool) (l : Ledger) : Ledger :=
  if x ∈ l.live ∧ x ∉ l.opened then
    if works then { l with opened := x :: l.opened } else l
  else l.misuse

def close (x : ℕ) (l : Ledger) : Ledger :=
  if x ∈ l.live ∧ x ∈ l.opened then { l with opened := l.opened.erase x } else l.misuse

def destroy (x : ℕ) (l : Ledger) : Ledger :=
  if x ∈ l.live ∧ x ∉ l.opened then { l with live := l.live.erase x } else l.misuse

/-- Each object there is has one owner, and is open; nothing was misused. -/
structure Settled (l : Ledger) (owned : List ℕ) : Prop where
  live : l.live.Perm owned
  opened : l.opened.Perm owned
  nodup : owned.Nodup
  made : ∀ x ∈ owned, x < l.made
  misuses : l.misuses = 0

theorem settled_empty : ({} : Ledger).Settled [] :=
  ⟨.refl _, .refl _, .nil, List.forall_mem_nil _, rfl⟩

theorem Settled.perm (h : l.Settled owned) (hperm : owned.Perm owned') : l.Settled owned' where
  live := h.live.trans hperm
  opened := h.opened.trans hperm
  nodup := hperm.nodup_iff.1 h.nodup
  made x hx := h.made x (hperm.mem_iff.2 hx)
  misuses := h.misuses

theorem Settled.use_eq (h : l.Settled owned) (hx : x ∈ owned) : l.use x = l :=
  if_pos ⟨h.live.mem_iff.2 hx, h.opened.mem_iff.2 hx⟩

theorem Settled.made_notMem (h : l.Settled owned) : l.made ∉ l.opened := by
  intro hmem
  have hlt := h.made _ (h.opened.mem_iff.1 hmem)
  exact Nat.lt_irrefl _ hlt

theorem inspect_make : l.make.inspect l.made = l.make := if_pos List.mem_cons_self

/-- A new object that opens has its owner. -/
theorem Settled.opened_make (h : l.Settled owned) :
    (l.make.tryOpen l.made true).Settled (l.made :: owned) := by
  have hopen : l.made ∈ l.make.live ∧ l.made ∉ l.make.opened :=
    ⟨List.mem_cons_self, h.made_notMem⟩
  rw [tryOpen, if_pos hopen, if_pos rfl]
  refine ⟨h.live.cons _, h.opened.cons _, ?_, ?_, h.misuses⟩
  · exact List.nodup_cons.2 ⟨fun hmem => h.made_notMem (h.opened.mem_iff.2 hmem), h.nodup⟩
  · intro x hx
    rcases List.mem_cons.1 hx with rfl | hx
    · exact Nat.lt_succ_self _
    · exact Nat.lt_succ_of_lt (h.made x hx)

/-- A new object is destroyed before it is opened. -/
theorem Settled.destroy_make (h : l.Settled owned) : (l.make.destroy l.made).Settled owned := by
  have hlive : l.made ∈ l.make.live ∧ l.made ∉ l.make.opened :=
    ⟨List.mem_cons_self, h.made_notMem⟩
  rw [destroy, if_pos hlive]
  refine ⟨?_, h.opened, h.nodup, fun x hx => Nat.lt_succ_of_lt (h.made x hx), h.misuses⟩
  simpa only [make, List.erase_cons_head] using h.live

/-- A new object that does not open is as it was. -/
theorem Settled.tryOpen_make (h : l.Settled owned) : l.make.tryOpen l.made false = l.make := by
  have hopen : l.made ∈ l.make.live ∧ l.made ∉ l.make.opened :=
    ⟨List.mem_cons_self, h.made_notMem⟩
  rw [tryOpen, if_pos hopen, if_neg Bool.false_ne_true]

/-- An owner closes its object and destroys it. -/
theorem Settled.relinquish (h : l.Settled (x :: owned)) :
    ((l.close x).destroy x).Settled owned := by
  have hmem : x ∈ l.live ∧ x ∈ l.opened :=
    ⟨h.live.mem_iff.2 List.mem_cons_self, h.opened.mem_iff.2 List.mem_cons_self⟩
  have hopened : (l.opened.erase x).Perm owned := by
    simpa only [List.erase_cons_head] using h.opened.erase x
  have hnot : x ∉ l.opened.erase x := fun hx => (List.nodup_cons.1 h.nodup).1 (hopened.mem_iff.1 hx)
  rw [close, if_pos hmem, destroy, if_pos ⟨hmem.1, hnot⟩]
  refine ⟨?_, hopened, (List.nodup_cons.1 h.nodup).2, fun y hy => h.made y ?_, h.misuses⟩
  · simpa only [List.erase_cons_head] using h.live.erase x
  · exact List.mem_cons_of_mem _ hy

end Ledger

end Objects
