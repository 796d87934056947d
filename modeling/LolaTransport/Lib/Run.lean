import Mathlib.Algebra.Ring.Nat
import Mathlib.Tactic.Common

/-!
# Runs of a step function

`step s a` is the state after action `a`, or `none` when `a` cannot be taken in `s`.  `Reach step
guard s₀` are the states that steps meeting `guard` lead to from `s₀`; what every such step keeps
holds in all of them (`Reach.invariant`).  `exec` follows one schedule of actions.

A measure of the state that every step pays for bounds what a schedule can do (`exec_measure_le`);
one that some step lowers is run down to where no such step is left (`exists_exec_settled`).  What a
schedule keeps exactly when none of its steps is bad is kept all along (`exec_forall_iff`), and on a
fixed schedule the steps can be checked one by one (`checks`).

What the steps of a schedule put out (`outputs`) is, up to a relation such as `Sublist` or
`Subperm`, what was held at the start and what has come in since, if that is so for each step
(`outputs_rel`).  Where steps read from sources that open and close, it comes from one after the
other (`outputs_reads`), and where the sources are fed from one log, in the log's order
(`outputs_fed`).  The runs and outputs of a system that is a view of another are the other's, seen
through the view (`exec_view`, `outputs_view`).
-/

namespace Run

variable {σ α : Type*} {step : σ → α → Option σ} {guard : σ → α → Prop} {s₀ : σ}

/-- The states that steps meeting `guard` lead to from `s₀`. -/
inductive Reach (step : σ → α → Option σ) (guard : σ → α → Prop) (s₀ : σ) : σ → Prop
  | refl : Reach step guard s₀ s₀
  | step {s s' : σ} {a : α} (hs : Reach step guard s₀ s) (hg : guard s a)
      (h : step s a = some s') : Reach step guard s₀ s'

theorem Reach.mono {guard' : σ → α → Prop} (hg : ∀ s a, guard s a → guard' s a) {s : σ}
    (hs : Reach step guard s₀ s) : Reach step guard' s₀ s := by
  induction hs with
  | refl => exact .refl
  | step _ h hstep ih => exact ih.step (hg _ _ h) hstep

/-- What holds at the start and is kept by every step holds in every state reached. -/
theorem Reach.invariant {I : σ → Prop} (h₀ : I s₀)
    (hstep : ∀ s a s', Reach step guard s₀ s → I s → guard s a → step s a = some s' → I s')
    {s : σ} (hs : Reach step guard s₀ s) : I s := by
  induction hs with
  | refl => exact h₀
  | step hs hg h ih => exact hstep _ _ _ hs ih hg h

/-- The state a schedule leads to, unless one of its actions cannot be taken. -/
def exec (step : σ → α → Option σ) (s : σ) : List α → Option σ
  | [] => some s
  | a :: as => (step s a).bind fun s' => exec step s' as

theorem exec_append (s : σ) : ∀ as bs : List α,
    exec step s (as ++ bs) = (exec step s as).bind fun t => exec step t bs
  | [], _ => rfl
  | a :: as, bs => by
    rw [List.cons_append, exec, exec, Option.bind_assoc]
    exact congrArg _ (funext fun s' => exec_append s' as bs)

/-- What every step by an action that is `allowed` keeps, a schedule of such actions keeps. -/
theorem exec_keeps_allowed {I : σ → Prop} {allowed : α → Prop}
    (hI : ∀ s a s', I s → allowed a → step s a = some s' → I s') :
    ∀ {as : List α} {s t : σ}, (∀ a ∈ as, allowed a) → I s → exec step s as = some t → I t
  | [], s, t, _, hs, h => by
    cases h
    exact hs
  | a :: as, s, t, hallowed, hs, h => by
    obtain ⟨ha, hallowed⟩ := List.forall_mem_cons.1 hallowed
    obtain ⟨s', hstep, h⟩ := Option.bind_eq_some_iff.1 h
    exact exec_keeps_allowed hI hallowed (hI s a s' hs ha hstep) h

/-- What every step keeps, a schedule keeps. -/
theorem exec_keeps {I : σ → Prop} (hI : ∀ s a s', I s → step s a = some s' → I s') {as : List α}
    {s t : σ} (hs : I s) (h : exec step s as = some t) : I t :=
  exec_keeps_allowed (fun s a s' hs (_ : True) => hI s a s' hs) (fun _ _ => trivial) hs h

/-- A schedule whose steps all meet the guard leads from a state reached to another. -/
theorem Reach.exec {as : List α} {s t : σ} (hs : Reach step guard s₀ s)
    (h : Run.exec step s as = some t)
    (hg : ∀ before a after u, as = before ++ a :: after → Run.exec step s before = some u →
      guard u a) : Reach step guard s₀ t := by
  induction as generalizing s with
  | nil =>
    cases h
    exact hs
  | cons a as ih =>
    obtain ⟨s', hstep, h⟩ := Option.bind_eq_some_iff.1 h
    refine ih (hs.step (hg [] a as s rfl rfl) hstep) h fun before b after u heq hu => ?_
    refine hg (a :: before) b after u (by rw [heq]; rfl) ?_
    rw [Run.exec, hstep]
    exact hu

/-- Every step of the schedule passes the check. -/
def checks (step : σ → α → Option σ) (ok : σ → α → Bool) (s : σ) : List α → Bool
  | [] => true
  | a :: as => ok s a && (step s a).all fun s' => checks step ok s' as

theorem ok_of_checks {ok : σ → α → Bool} {as : List α} {s : σ} (h : checks step ok s as = true)
    (before : List α) (a : α) (after : List α) (u : σ) (heq : as = before ++ a :: after)
    (hu : exec step s before = some u) : ok u a = true := by
  induction before generalizing as s with
  | nil =>
    cases hu
    rw [heq, List.nil_append, checks, Bool.and_eq_true] at h
    exact h.1
  | cons b before ih =>
    obtain ⟨s', hstep, hu⟩ := Option.bind_eq_some_iff.1 hu
    rw [heq, List.cons_append, checks, hstep, Option.all_some, Bool.and_eq_true] at h
    exact ih h.2 rfl hu

/-- What every step spends of a measure it may add to, a schedule spends. -/
theorem exec_measure_le {μ : σ → ℕ} {spent added : α → ℕ}
    (h : ∀ s a s', step s a = some s' → μ s' + spent a ≤ μ s + added a) :
    ∀ {as : List α} {s t : σ}, exec step s as = some t →
      μ t + (as.map spent).sum ≤ μ s + (as.map added).sum
  | [], s, t, hexec => by
    cases hexec
    exact Nat.le_refl _
  | a :: as, s, t, hexec => by
    obtain ⟨s', hstep, hexec⟩ := Option.bind_eq_some_iff.1 hexec
    have hfirst := h s a s' hstep
    have hrest := exec_measure_le h hexec
    simp only [List.map_cons, List.sum_cons]
    omega

/-- What the steps of a schedule put out, one after the other. -/
def outputs {β : Type*} (step : σ → α → Option σ) (out : σ → α → List β) (s : σ) :
    List α → List β
  | [] => []
  | a :: as => out s a ++ (step s a).elim [] fun s' => outputs step out s' as

theorem exec_map {γ : Type*} (f : γ → α) : ∀ (cs : List γ) (s : σ),
    exec step s (cs.map f) = exec (fun s c => step s (f c)) s cs
  | [], _ => rfl
  | c :: cs, s => by
    rw [List.map_cons, exec, exec]
    exact congrArg _ (funext fun s' => exec_map f cs s')

theorem outputs_map {β γ : Type*} {out : σ → α → List β} (f : γ → α) : ∀ (cs : List γ) (s : σ),
    outputs step out s (cs.map f) =
      outputs (fun s c => step s (f c)) (fun s c => out s (f c)) s cs
  | [], _ => rfl
  | c :: cs, s => by
    rw [List.map_cons, outputs, outputs]
    cases step s (f c) with
    | none => rfl
    | some s' => rw [Option.elim_some, Option.elim_some, outputs_map f cs s']

theorem outputs_eq_flatMap {β : Type*} {out : α → List β} : ∀ {as : List α} {s t : σ}
    (_ : exec step s as = some t), outputs step (fun _ a => out a) s as = as.flatMap out
  | [], _, _, _ => rfl
  | a :: as, s, t, h => by
    obtain ⟨s', ha, h⟩ := Option.bind_eq_some_iff.1 h
    rw [outputs, ha, Option.elim_some, outputs_eq_flatMap h, List.flatMap_cons]

/-- The runs of a system that is a view of another are those of the other, seen through `view`. -/
theorem exec_view {σ' α' : Type*} {step' : σ' → α' → Option σ'} {I : σ → Prop} {view : σ → σ'}
    {act : α' → α} (hI : ∀ s a s', I s → step s (act a) = some s' → I s')
    (hview : ∀ s a, I s → step' (view s) a = (step s (act a)).map view) :
    ∀ (as : List α') {s : σ}, I s →
      exec step' (view s) as = (exec step s (as.map act)).map view
  | [], _, _ => rfl
  | a :: as, s, hs => by
    rw [exec, hview s a hs, List.map_cons, exec]
    cases hstep : step s (act a) with
    | none => rfl
    | some s' => exact exec_view hI hview as (hI s a s' hs hstep)

theorem outputs_view {σ' α' β γ : Type*} {step' : σ' → α' → Option σ'} {I : σ → Prop}
    {view : σ → σ'} {act : α' → α} {out' : σ' → α' → List γ} {out : σ → α → List β} (f : β → γ)
    (hI : ∀ s a s', I s → step s (act a) = some s' → I s')
    (hview : ∀ s a, I s → step' (view s) a = (step s (act a)).map view)
    (hout : ∀ s a, out' (view s) a = (out s (act a)).map f) : ∀ (as : List α') {s : σ}, I s →
      outputs step' out' (view s) as = (outputs step out s (as.map act)).map f
  | [], _, _ => rfl
  | a :: as, s, hs => by
    rw [outputs, hview s a hs, List.map_cons, outputs, List.map_append, hout]
    cases hstep : step s (act a) with
    | none => rfl
    | some s' => exact congrArg _ (outputs_view f hI hview hout as (hI s a s' hs hstep))

theorem outputs_filterMap {β γ : Type*} {out : σ → α → List β} (f : β → Option γ) :
    ∀ (as : List α) (s : σ),
      (outputs step out s as).filterMap f = outputs step (fun s a => (out s a).filterMap f) s as
  | [], _ => rfl
  | a :: as, s => by
    rw [outputs, outputs, List.filterMap_append]
    cases step s a with
    | none => rfl
    | some s' => rw [Option.elim_some, Option.elim_some, outputs_filterMap f as s']

/-- The schedule leads to `t` and puts `ys` out on its way. -/
structure Does {β : Type*} (step : σ → α → Option σ) (out : σ → α → List β) (s : σ) (as : List α)
    (t : σ) (ys : List β) : Prop where
  exec : exec step s as = some t
  outputs : outputs step out s as = ys

theorem Does.nil {β : Type*} {out : σ → α → List β} {s : σ} : Does step out s [] s [] := ⟨rfl, rfl⟩

theorem Does.cons {β : Type*} {out : σ → α → List β} {s s' t : σ} {a : α} {as : List α}
    {ys : List β} (h : step s a = some s') (hs : Does step out s' as t ys) :
    Does step out s (a :: as) t (out s a ++ ys) := by
  constructor
  · rw [Run.exec, h]
    exact hs.exec
  · rw [Run.outputs, h, Option.elim_some, hs.outputs]

theorem Does.append {β : Type*} {out : σ → α → List β} : ∀ {as bs : List α} {s t u : σ}
    {ys zs : List β} (_ : Does step out s as t ys) (_ : Does step out t bs u zs),
    Does step out s (as ++ bs) u (ys ++ zs)
  | [], bs, s, t, u, ys, zs, h, h' => by
    cases h.exec
    cases h.outputs
    exact h'
  | a :: as, bs, s, t, u, ys, zs, h, h' => by
    obtain ⟨s', ha, hexec⟩ := Option.bind_eq_some_iff.1 h.exec
    have hs : Does step out s' as t (Run.outputs step out s' as) := ⟨hexec, rfl⟩
    have hall := Does.cons ha (hs.append h')
    have hys := h.outputs
    rw [Run.outputs, ha, Option.elim_some] at hys
    rwa [← List.append_assoc, hys] at hall

/-- What has gone out and what is held at the end is what was held at the start and what has come
in, if this is kept by every step that is not bad. -/
theorem outputs_rel {β : Type*} {R : List β → List β → Prop} {I : σ → Prop}
    (bad : σ → α → Prop) (held : σ → List β) {out input : σ → α → List β} (hrefl : ∀ xs, R xs xs)
    (htrans : ∀ {xs ys zs}, R xs ys → R ys zs → R xs zs)
    (happend : ∀ {xs ys xs' ys'}, R xs ys → R xs' ys' → R (xs ++ xs') (ys ++ ys'))
    (hstep : ∀ s a s', I s → ¬ bad s a → step s a = some s' →
      I s' ∧ R (out s a ++ held s') (held s ++ input s a)) :
    ∀ {as : List α} {s t : σ}, I s → exec step s as = some t →
      (∀ before a after u, as = before ++ a :: after → exec step s before = some u → ¬ bad u a) →
      R (outputs step out s as ++ held t) (held s ++ outputs step input s as)
  | [], s, t, _, h, _ => by
    cases h
    rw [outputs, outputs, List.nil_append, List.append_nil]
    exact hrefl _
  | a :: as, s, t, hs, h, hnone => by
    obtain ⟨s', ha, h⟩ := Option.bind_eq_some_iff.1 h
    obtain ⟨hs', hfirst⟩ := hstep s a s' hs (hnone [] a as s rfl rfl) ha
    have hrest := outputs_rel bad held hrefl htrans happend hstep hs' h
      fun before b after u heq hu =>
        hnone (a :: before) b after u (by rw [heq]; rfl) (by rw [exec, ha]; exact hu)
    rw [outputs, outputs, ha, Option.elim_some, Option.elim_some, List.append_assoc,
      ← List.append_assoc (held s)]
    refine htrans (happend (hrefl (out s a)) hrest) ?_
    rw [← List.append_assoc]
    exact happend hfirst (hrefl _)

/-- What is read from a source in `n` times. -/
def reads {τ β : Type*} (read : τ → List β × τ) : ℕ → τ → List β
  | 0, _ => []
  | n + 1, x => (read x).1 ++ reads read n (read x).2

/-- A step leaves the source as it is, reads from it, closes it or opens the next one. -/
inductive SourceStep {τ β : Type*} (read : τ → List β × τ) :
    Option τ → Option τ → List τ → List β → Prop
  | same (x : Option τ) : SourceStep read x x [] []
  | asked (x : τ) : SourceStep read (some x) (some (read x).2) [] (read x).1
  | closed (x : τ) : SourceStep read (some x) none [] []
  | opened (x : τ) : SourceStep read none (some x) [x] []

/-- What a schedule puts out is what it reads from the source it starts with, then from the first
one it opens, and so on. -/
theorem outputs_reads {τ β : Type*} {I : σ → Prop} {read : τ → List β × τ} (source : σ → Option τ)
    {opened : σ → α → List τ} {out : σ → α → List β}
    (hstep : ∀ s a s', I s → step s a = some s' →
      I s' ∧ SourceStep read (source s) (source s') (opened s a) (out s a)) :
    ∀ {as : List α} {s t : σ}, I s → exec step s as = some t →
      ∃ ns : List ℕ, ns.length = ((source s).toList ++ outputs step opened s as).length ∧
        outputs step out s as =
          (List.zipWith (reads read) ns ((source s).toList ++ outputs step opened s as)).flatten
  | [], s, t, _, _ => by
    refine ⟨List.replicate (source s).toList.length 0, by simp [outputs], ?_⟩
    cases source s <;> rfl
  | a :: as, s, t, hs, h => by
    obtain ⟨s', ha, h⟩ := Option.bind_eq_some_iff.1 h
    obtain ⟨hs', hkind⟩ := hstep s a s' hs ha
    obtain ⟨ns, hlen, hrest⟩ := outputs_reads source hstep hs' h
    rw [outputs, outputs, ha, Option.elim_some, Option.elim_some, hrest]
    revert hlen
    generalize source s = x, source s' = x', opened s a = now, out s a = first at hkind
    cases hkind with
    | same => exact fun hlen => ⟨ns, hlen, rfl⟩
    | asked x =>
      intro hlen
      obtain ⟨n, ns, rfl⟩ := List.exists_cons_of_length_eq_add_one hlen
      refine ⟨(n + 1) :: ns, hlen, ?_⟩
      rw [Option.toList_some, Option.toList_some, List.nil_append, List.singleton_append,
        List.singleton_append, List.zipWith_cons_cons, List.zipWith_cons_cons, List.flatten_cons,
        List.flatten_cons, reads, List.append_assoc]
    | closed x => exact fun hlen => ⟨0 :: ns, congrArg (· + 1) hlen, rfl⟩
    | opened x => exact fun hlen => ⟨ns, hlen, rfl⟩

/-- What waits at a source, and how far in the log it has come. -/
structure Fed (β : Type*) where
  waiting : List β
  reached : ℕ

/-- A step leaves the source as it is, feeds it an entry of the log further on, takes what waits
first from it, closes it or opens the next one. -/
inductive FedStep {β γ τ : Type*} (pick : β → Option γ) (log : List β) :
    Option (Fed β) → Option (Fed β) → List τ → List γ → Prop
  | same (x : Option (Fed β)) : FedStep pick log x x [] []
  | fed {waiting : List β} {reached j : ℕ} {b : β} (hj : log[j]? = some b) (h : reached ≤ j) :
    FedStep pick log (some ⟨waiting, reached⟩) (some ⟨waiting ++ [b], j + 1⟩) [] []
  | took {lost waiting : List β} {reached : ℕ} {out : List γ}
    (h : out.Sublist (lost.filterMap pick)) :
    FedStep pick log (some ⟨lost ++ waiting, reached⟩) (some ⟨waiting, reached⟩) [] out
  | closed (x : Fed β) : FedStep pick log (some x) none [] []
  | opened (y : τ) : FedStep pick log none (some ⟨[], 0⟩) [y] []

/-- What waits at the source, and some of the log from where it has come to. -/
def FedFrom {β : Type*} (log : List β) : Option (Fed β) → List β → Prop
  | none, first => first = []
  | some x, first => ∃ later : List β, later.Sublist (log.drop x.reached) ∧
    first = x.waiting ++ later

/-- What a schedule takes is some of what its sources are fed, one source after the other, and each
is fed the log in its order. -/
theorem outputs_fed {β γ τ : Type*} {I : σ → Prop} {pick : β → Option γ} (log : σ → List β)
    (source : σ → Option (Fed β)) {opened : σ → α → List τ} {out : σ → α → List γ}
    (hstep : ∀ s a s', I s → step s a = some s' → I s' ∧ log s <+: log s' ∧
      FedStep pick (log s) (source s) (source s') (opened s a) (out s a)) :
    ∀ {as : List α} {s t : σ}, I s → exec step s as = some t →
      log s <+: log t ∧ ∃ (first : List β) (rest : List (List β)),
        rest.length = (outputs step opened s as).length ∧ FedFrom (log t) (source s) first ∧
        (∀ later ∈ rest, later.Sublist (log t)) ∧
        (outputs step out s as).Sublist ((first ++ rest.flatten).filterMap pick)
  | [], s, t, _, h => by
    cases h
    refine ⟨List.prefix_rfl, (source s).elim [] Fed.waiting, [], rfl, ?_, List.forall_mem_nil _,
      List.nil_sublist _⟩
    cases source s with
    | none => rfl
    | some x => exact ⟨[], List.nil_sublist _, (List.append_nil _).symm⟩
  | a :: as, s, t, hs, h => by
    obtain ⟨s', ha, h⟩ := Option.bind_eq_some_iff.1 h
    obtain ⟨hs', hlog, hkind⟩ := hstep s a s' hs ha
    obtain ⟨hlater, first, rest, hlen, hfirst, hrest, houts⟩ := outputs_fed log source hstep hs' h
    refine ⟨hlog.trans hlater, ?_⟩
    rw [outputs, outputs, ha, Option.elim_some, Option.elim_some]
    revert hlen houts hfirst
    generalize source s = x, source s' = x', opened s a = now, out s a = taken at hkind
    intro hlen hfirst houts
    cases hkind with
    | same => exact ⟨first, rest, hlen, hfirst, hrest, houts⟩
    | @fed waiting reached j b hj hle =>
      obtain ⟨later, hsub, rfl⟩ := hfirst
      have hentry : (log t).drop j = b :: (log t).drop (j + 1) := by
        obtain ⟨more, hmore⟩ := hlog.trans hlater
        obtain ⟨hlt, rfl⟩ := List.getElem?_eq_some_iff.1 hj
        have hjt : j < (log t).length := by
          rw [← hmore, List.length_append]
          omega
        rw [List.drop_eq_getElem_cons hjt]
        simp only [← hmore, List.getElem_append_left hlt]
      refine ⟨waiting ++ (b :: later), rest, hlen, ⟨b :: later, ?_, rfl⟩, hrest, ?_⟩
      · refine List.Sublist.trans ?_ (List.drop_sublist_drop_left _ hle)
        rw [hentry]
        exact hsub.cons_cons b
      · rw [List.append_cons]
        exact houts
    | @took lost waiting reached out htaken =>
      obtain ⟨later, hsub, rfl⟩ := hfirst
      refine ⟨lost ++ waiting ++ later, rest, hlen, ⟨later, hsub, rfl⟩, hrest, ?_⟩
      rw [List.append_assoc lost, List.append_assoc lost, List.filterMap_append]
      exact htaken.append houts
    | closed x =>
      obtain rfl : first = [] := hfirst
      refine ⟨x.waiting, rest, hlen, ⟨[], List.nil_sublist _, (List.append_nil _).symm⟩, hrest, ?_⟩
      rw [List.filterMap_append]
      exact houts.trans (List.sublist_append_right _ _)
    | opened y =>
      obtain ⟨_, hsub, rfl⟩ := hfirst
      refine ⟨[], first :: rest, congrArg (· + 1) hlen, rfl, ?_, houts⟩
      exact List.forall_mem_cons.2 ⟨hsub, hrest⟩

/-- As long as some step of the kind `P` lowers the measure, steps of that kind lead to a state
where none does. -/
theorem exists_exec_settled {μ : σ → ℕ} {ready : σ → Prop} {P : α → Prop}
    (h : ∀ s, ready s → ∃ a s', P a ∧ step s a = some s' ∧ μ s' < μ s) (s : σ) :
    ∃ as t, (∀ a ∈ as, P a) ∧ as.length ≤ μ s ∧ exec step s as = some t ∧ ¬ ready t := by
  induction hμ : μ s using Nat.strongRecOn generalizing s with
  | ind n ih =>
    by_cases hready : ready s
    · obtain ⟨a, s', ha, hstep, hlt⟩ := h s hready
      obtain ⟨as, t, has, hlen, hexec, hsettled⟩ := ih (μ s') (hμ ▸ hlt) s' rfl
      refine ⟨a :: as, t, List.forall_mem_cons.2 ⟨ha, has⟩, ?_, ?_, hsettled⟩
      · rw [List.length_cons]
        omega
      · rw [exec, hstep]
        exact hexec
    · exact ⟨[], s, List.forall_mem_nil _, Nat.zero_le _, rfl, hready⟩

/-- Along a schedule of actions that are `allowed`, `P` holds everywhere exactly when none of them
is bad, provided a step from where `P` holds keeps `P` exactly when it is not bad. -/
theorem exec_forall_iff {I P : σ → Prop} {bad : σ → α → Prop} {allowed : α → Prop}
    (hI : ∀ s a s', I s → step s a = some s' → I s')
    (hP : ∀ s a s', I s → P s → allowed a → step s a = some s' → (P s' ↔ ¬ bad s a)) :
    ∀ {as : List α} {s t : σ}, (∀ a ∈ as, allowed a) → I s → P s → exec step s as = some t →
      ((∀ before after u, as = before ++ after → exec step s before = some u → P u) ↔
        ∀ before a after u, as = before ++ a :: after → exec step s before = some u → ¬ bad u a)
  | [], s, t, _, _, hs, _ => by
    constructor
    · intro _ before a after u h
      simp at h
    · intro _ before after u h hu
      obtain ⟨rfl, -⟩ := List.append_eq_nil_iff.1 h.symm
      cases hu
      exact hs
  | a :: as, s, t, hallowed, hi, hs, h => by
    obtain ⟨ha, hallowed⟩ := List.forall_mem_cons.1 hallowed
    obtain ⟨s', hstep, h⟩ := Option.bind_eq_some_iff.1 h
    have hrest {before : List α} : exec step s (a :: before) = exec step s' before := by
      rw [exec, hstep, Option.bind_some]
    have hiff := hP s a s' hi hs ha hstep
    constructor
    · intro hall
      have hs' : P s' := hall [a] as s' rfl (by rw [hrest]; rfl)
      have ih := exec_forall_iff hI hP hallowed (hI s a s' hi hstep) hs' h
      rintro (_ | ⟨b, before⟩) c after u heq hu
      · obtain ⟨rfl, rfl⟩ := List.cons.inj heq
        cases hu
        exact hiff.1 hs'
      · obtain ⟨rfl, rfl⟩ := List.cons.inj heq
        rw [hrest] at hu
        refine ih.1 (fun before after u heq hu => ?_) before c after u rfl hu
        exact hall (a :: before) after u (by rw [heq]; rfl) (by rw [hrest, hu])
    · intro hnone
      have hs' : P s' := hiff.2 (hnone [] a as s rfl rfl)
      have ih := exec_forall_iff hI hP hallowed (hI s a s' hi hstep) hs' h
      rintro (_ | ⟨b, before⟩) after u heq hu
      · cases hu
        exact hs
      · obtain ⟨rfl, rfl⟩ := List.cons.inj heq
        rw [hrest] at hu
        refine ih.2 (fun before c after u heq hu => ?_) before after u rfl hu
        exact hnone (a :: before) c after u (by rw [heq]; rfl) (by rw [hrest, hu])

end Run
