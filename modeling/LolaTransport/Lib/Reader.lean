import Mathlib.Data.List.Basic
import Mathlib.Tactic.Common

/-!
# Readers that take values off the front of their input

A `Reader` returns a value and what is left of its input, or fails.  `Reads r bytes a` says that
`r` takes exactly `bytes`, whatever follows them, and returns `a`: what a writer of `bytes` needs
of the reader of its format.  A format written field by field is read field by field
(`Reads.bind`), so the reader of a whole undoes the writer as soon as each part does.

`Spelled r P` is the other way round: whatever `r` accepts starts with bytes that it `Reads`, and
that spell the value returned in the way `P` says.  Readers built with `Spelled.bind` are so as soon
as their parts are, and none accepts both some bytes and a longer list that starts with them.
-/

/-- A computation that takes tokens off the front of a list, or fails. -/
abbrev Reader (τ ε α : Type) := StateT (List τ) (Except ε) α

namespace Reader

variable {τ ε α β : Type}

/-- `r` takes exactly `bytes` off any input that starts with them, and returns `a`. -/
def Reads (r : Reader τ ε α) (bytes : List τ) (a : α) : Prop :=
  ∀ rest, r (bytes ++ rest) = .ok (a, rest)

theorem Reads.pure {a b : α} (h : a = b) : Reads (Pure.pure a : Reader τ ε α) [] b :=
  fun _ => by rw [h]; rfl

theorem Reads.bind {r : Reader τ ε α} {f : α → Reader τ ε β} {xs ys : List τ} {a : α} {b : β}
    (hr : Reads r xs a) (hf : Reads (f a) ys b) : Reads (r >>= f) (xs ++ ys) b := by
  intro rest
  have hrun : (r >>= f) (xs ++ ys ++ rest) = (r (xs ++ ys ++ rest)).bind fun p => f p.1 p.2 := rfl
  rw [hrun, List.append_assoc, hr]
  exact hf rest

/-- A step that takes nothing. -/
theorem Reads.nil_bind {r : Reader τ ε α} {f : α → Reader τ ε β} {ys : List τ} {a : α} {b : β}
    (hr : Reads r [] a) (hf : Reads (f a) ys b) : Reads (r >>= f) ys b := hr.bind hf

/-- The last step that takes anything. -/
theorem Reads.bind_nil {r : Reader τ ε α} {f : α → Reader τ ε β} {xs : List τ} {a : α} {b : β}
    (hr : Reads r xs a) (hf : Reads (f a) [] b) : Reads (r >>= f) xs b := by
  have h := hr.bind hf
  rwa [List.append_nil] at h

/-- What is read off the whole of an input is read with nothing left. -/
theorem Reads.run_all {r : Reader τ ε α} {bytes : List τ} {a : α} (hr : Reads r bytes a) :
    r bytes = .ok (a, []) := by
  have h := hr []
  rwa [List.append_nil] at h

section Reads

/-- Whatever `r` accepts, it takes bytes off the front that it would take alike whatever followed
them, and `P` says how they spell the value. -/
def Spelled (r : Reader τ ε α) (P : List τ → α → Prop) : Prop :=
  ∀ src a rest, r src = .ok (a, rest) → ∃ bytes, src = bytes ++ rest ∧ Reads r bytes a ∧ P bytes a

variable {r : Reader τ ε α} {f : α → Reader τ ε β} {P : List τ → α → Prop}

theorem Spelled.mono {P' : List τ → α → Prop} (hr : Spelled r P)
    (h : ∀ bytes a, P bytes a → P' bytes a) : Spelled r P' := by
  intro src a rest hrun
  obtain ⟨bytes, hsrc, hreads, hP⟩ := hr src a rest hrun
  exact ⟨bytes, hsrc, hreads, h bytes a hP⟩

theorem Spelled.pure {a : α} (h : P [] a) : Spelled (Pure.pure a : Reader τ ε α) P := by
  intro src b rest hrun
  cases hrun
  exact ⟨[], rfl, .pure rfl, h⟩

theorem Spelled.throw {e : ε} : Spelled (throw e : Reader τ ε α) P := by
  intro src a rest hrun
  cases hrun

/-- A step that takes nothing. -/
theorem Spelled.lift (x : Except ε α) :
    Spelled (liftM x : Reader τ ε α) fun bytes a => bytes = [] ∧ x = .ok a := by
  intro src a rest hrun
  cases x with
  | error e => cases hrun
  | ok b =>
    cases hrun
    exact ⟨[], rfl, fun _ => rfl, rfl, rfl⟩

/-- What the second step takes is judged together with what the first has taken. -/
theorem Spelled.bind {Q : List τ → β → Prop} (hr : Spelled r P)
    (hf : ∀ a xs, P xs a → Spelled (f a) fun ys b => Q (xs ++ ys) b) : Spelled (r >>= f) Q := by
  intro src b rest hrun
  have hbind : (r >>= f) src = (r src).bind fun p => f p.1 p.2 := rfl
  rw [hbind] at hrun
  cases hfirst : r src with
  | error e =>
    rw [hfirst] at hrun
    cases hrun
  | ok p =>
    obtain ⟨a, src'⟩ := p
    rw [hfirst] at hrun
    obtain ⟨xs, rfl, hreads, hP⟩ := hr src a src' hfirst
    obtain ⟨ys, rfl, hreads', hQ⟩ := hf a xs hP src' b rest hrun
    exact ⟨xs ++ ys, (List.append_assoc _ _ _).symm, hreads.bind hreads', hQ⟩

/-- Bytes that are read with nothing left cannot be read on from with nothing left. -/
theorem Spelled.nil_of_append (hr : Spelled r P) {xs ys : List τ} {a b : α}
    (hxs : r xs = .ok (a, [])) (hys : r (xs ++ ys) = .ok (b, [])) : ys = [] := by
  obtain ⟨bytes, hbytes, hreads, -⟩ := hr xs a [] hxs
  rw [List.append_nil] at hbytes
  subst hbytes
  cases (hreads ys).symm.trans hys
  rfl

end Reads

end Reader
