import LolaTransport.Lib.Reader

/-!
# Computations that fail

`bind_eq_ok` takes a successful sequence apart into its successful steps.  `Ends P Q x` says that
`x` fails only with errors in `P` and returns only values in `Q`, and `EndsOn P Q r` that a reader
does on any input; both follow for a sequence from its steps, each of which may use what the one
before it returned.
-/

namespace Fallible

variable {ε α β : Type}

theorem bind_eq_ok {x : Except ε α} {f : α → Except ε β} {b : β} :
    (x >>= f) = .ok b ↔ ∃ a, x = .ok a ∧ f a = .ok b := by
  cases x with
  | error e =>
    constructor
    · intro h
      cases h
    · rintro ⟨_, h, _⟩
      cases h
  | ok a =>
    constructor
    · exact fun h => ⟨a, rfl, h⟩
    · rintro ⟨_, h, hf⟩
      cases h
      exact hf

theorem map_eq_ok {x : Except ε α} {f : α → β} {b : β} :
    x.map f = .ok b ↔ ∃ a, x = .ok a ∧ f a = b := by
  cases x with
  | error e => simp [Except.map]
  | ok a => simp [Except.map]

theorem toOption_eq_some {x : Except ε α} {a : α} : x.toOption = some a ↔ x = .ok a := by
  cases x with
  | error e => simp [Except.toOption]
  | ok b => simp [Except.toOption]

/-- What a traversal returns, one of its steps returned. -/
theorem mem_of_mapM_eq_ok {f : α → Except ε β} : ∀ {as : List α} {bs : List β}
    (_ : as.mapM f = .ok bs), ∀ b ∈ bs, ∃ a ∈ as, f a = .ok b
  | [], bs, h, b, hb => by
    cases h
    cases hb
  | a :: as, bs, h, b, hb => by
    rw [List.mapM_cons] at h
    obtain ⟨b', hb', h⟩ := bind_eq_ok.1 h
    obtain ⟨bs', hbs', h⟩ := bind_eq_ok.1 h
    cases h
    rcases List.mem_cons.1 hb with rfl | hb
    · exact ⟨a, List.mem_cons_self, hb'⟩
    · obtain ⟨a', ha', hf⟩ := mem_of_mapM_eq_ok hbs' b hb
      exact ⟨a', List.mem_cons_of_mem _ ha', hf⟩

/-- `x` fails only with errors in `P`, and returns only values in `Q`. -/
def Ends (P : ε → Prop) (Q : α → Prop) : Except ε α → Prop
  | .error e => P e
  | .ok a => Q a

/-- `r` fails only with errors in `P` and returns only values in `Q`, whatever its input. -/
def EndsOn {τ : Type} (P : ε → Prop) (Q : α → Prop) (r : Reader τ ε α) : Prop :=
  ∀ src, Ends P (fun p => Q p.1) (r src)

variable {P : ε → Prop} {Q : α → Prop} {R : β → Prop}

theorem Ends.of_error {x : Except ε α} {e : ε} (h : Ends P Q x) (hx : x = .error e) : P e := by
  rwa [hx] at h

theorem Ends.of_ok {x : Except ε α} {a : α} (h : Ends P Q x) (hx : x = .ok a) : Q a := by
  rwa [hx] at h

theorem Ends.mono {Q' : α → Prop} {x : Except ε α} (h : Ends P Q x) (hQ : ∀ a, Q a → Q' a) :
    Ends P Q' x := by
  cases x with
  | error e => exact h
  | ok a => exact hQ a h

/-- A value that is returned is the one returned. -/
theorem Ends.eq_ok {x : Except ε α} (h : Ends P Q x) : Ends P (fun a => Q a ∧ x = .ok a) x := by
  cases x with
  | error e => exact h
  | ok a => exact ⟨h, rfl⟩

theorem Ends.bind {x : Except ε α} {f : α → Except ε β} (hx : Ends P Q x)
    (hf : ∀ a, Q a → Ends P R (f a)) : Ends P R (x >>= f) := by
  cases x with
  | error e => exact hx
  | ok a => exact hf a hx

variable {τ : Type} {r : Reader τ ε α} {f : α → Reader τ ε β}

theorem EndsOn.pure {a : α} (h : Q a) : EndsOn P Q (Pure.pure a : Reader τ ε α) := fun _ => h

theorem EndsOn.throw {e : ε} (h : P e) : EndsOn P Q (throw e : Reader τ ε α) := fun _ => h

/-- A step that takes nothing. -/
theorem EndsOn.lift {x : Except ε α} (h : Ends P Q x) :
    EndsOn P Q (liftM x : Reader τ ε α) :=
  fun _ => h.bind fun _ ha => ha

theorem EndsOn.bind (hr : EndsOn P Q r) (hf : ∀ a, Q a → EndsOn P R (f a)) :
    EndsOn P R (r >>= f) :=
  fun src => (hr src).bind fun p hp => hf p.1 hp p.2

end Fallible
