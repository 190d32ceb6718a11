import Mathlib.Data.Nat.Notation

/-!
# Programs over a state

A `Prog σ ε α` runs on a state and leaves a state behind, returning a value or
stopping with an error.  An error keeps the state it was raised in: what a
program did before it stopped is not undone.

A proof follows a program statement by statement and never unfolds the monad:
`bind_ok` and `bind_error` execute a sequence whose first part is known, and
`bind_eq_ok` takes a completed sequence apart.  A fact about a long program is
assembled from facts about its parts, by judgements that are closed under the
ways programs are put together.

## Main definitions

* `Prog` — a computation over a state that may stop with an error.
* `Prog.get`, `Prog.modify`, `Prog.fail`, `Prog.ofExcept` — its statements;
  `Prog.attempt`, `Prog.mapError` and `Prog.zoom` change how a program ends or
  what it runs on.
* `Prog.Keeps I x` — `x` preserves `I`, however it ends.
* `Prog.KeepsOnError I x` — `x` preserves `I` if it stops with an error.
* `Prog.Ensures P x Q` — if `x` completes from a state in `P`, its value and the
  state it leaves are in `Q`.
* `Prog.Commutes f x` and `Prog.Forgets f x` — `x` does not look at what `f`
  changes; in the second case it overwrites it before it completes.

## Main results

* `Prog.bind_ok`, `Prog.bind_error`, `Prog.bind_eq_ok` — a sequence, executed and
  taken apart.
* `Prog.Keeps.bind`, `Prog.KeepsOnError.bind`, `Prog.Ensures.bind`,
  `Prog.Commutes.bind`, `Prog.Forgets.bind` — the judgements for a sequence, and
  their like for each other statement.
* `Prog.Forgets.of_commutes_bind` — a sequence forgets what its second part
  forgets, if the first leaves it alone.
-/

universe u

/-- A sequence of results that is fine is fine in both parts. -/
theorem Except.bind_eq_ok {ε α β : Type} {x : Except ε α} {f : α → Except ε β} {b : β}
    (done : (x >>= f) = .ok b) : ∃ a, x = .ok a ∧ f a = .ok b := by
  cases x with
  | error e => simp [bind, Except.bind] at done
  | ok a => exact ⟨a, rfl, done⟩

/-- A result that is fine under a map was fine before. -/
theorem Except.map_eq_ok {ε α β : Type} {f : α → β} {x : Except ε α} {b : β}
    (done : x.map f = .ok b) : ∃ a, x = .ok a ∧ f a = b := by
  cases x with
  | error e => simp [Except.map] at done
  | ok a => exact ⟨a, rfl, Except.ok.inj done⟩

/-- A computation over states `σ` that may stop with an error `ε`. -/
abbrev Prog (σ ε : Type) (α : Type) : Type := σ → Except ε α × σ

namespace Prog

variable {σ ε α β : Type}

instance : Monad (Prog σ ε) where
  pure a := fun s => (.ok a, s)
  bind x f := fun s =>
    match x s with
    | (.ok a, s') => f a s'
    | (.error e, s') => (.error e, s')

/-- Stop with an error. -/
def fail (e : ε) : Prog σ ε α := fun s => (.error e, s)

@[simp] theorem pure_apply (a : α) (s : σ) : (pure a : Prog σ ε α) s = (.ok a, s) := rfl

@[simp] theorem fail_apply (e : ε) (s : σ) : (fail e : Prog σ ε α) s = (.error e, s) := rfl

/-- Step over a computation whose outcome is known. -/
theorem bind_ok {x : Prog σ ε α} {f : α → Prog σ ε β} {s s' : σ} {a : α}
    (h : x s = (.ok a, s')) : (x >>= f) s = f a s' := by
  change (match x s with
    | (.ok a, s') => f a s'
    | (.error e, s') => (.error e, s')) = f a s'
  rw [h]

theorem bind_error {x : Prog σ ε α} {f : α → Prog σ ε β} {s s' : σ} {e : ε}
    (h : x s = (.error e, s')) : (x >>= f) s = (.error e, s') := by
  change (match x s with
    | (.ok a, s') => f a s'
    | (.error e, s') => (.error e, s')) = (.error e, s')
  rw [h]

/-- A sequence that completes did so in both parts. -/
theorem bind_eq_ok {x : Prog σ ε α} {f : α → Prog σ ε β} {s s'' : σ} {b : β}
    (h : (x >>= f) s = (.ok b, s'')) :
    ∃ (a : α) (s' : σ), x s = (.ok a, s') ∧ f a s' = (.ok b, s'') := by
  rcases hx : x s with ⟨_ | a, s'⟩
  · rw [bind_error hx] at h
    simp at h
  · rw [bind_ok hx] at h
    exact ⟨a, s', rfl, h⟩

theorem bind_bind {γ : Type} (x : Prog σ ε α) (f : α → Prog σ ε β) (g : β → Prog σ ε γ) :
    x >>= f >>= g = x >>= fun a => f a >>= g := by
  funext s
  rcases hx : x s with ⟨e | a, s'⟩
  · rw [bind_error hx, bind_error (bind_error hx)]
  · rw [bind_ok hx]
    rcases hf : f a s' with ⟨e | b, s''⟩
    · rw [bind_error hf, bind_error ((bind_ok hx).trans hf)]
    · rw [bind_ok hf, bind_ok ((bind_ok hx).trans hf)]

theorem ite_apply {p : Prop} [Decidable p] (x y : Prog σ ε α) (s : σ) :
    (if p then x else y) s = if p then x s else y s := by
  split <;> rfl

theorem of_pure {a b : α} {s s' : σ} (h : (pure a : Prog σ ε α) s = (.ok b, s')) :
    s' = s ∧ b = a := by
  simp only [pure_apply, Prod.mk.injEq, Except.ok.injEq] at h
  exact ⟨h.2.symm, h.1.symm⟩

/-! ### Reading, writing and catching -/

section Operations

variable {τ ε' : Type}

/-- The current state. -/
def get : Prog σ ε σ := fun s => (.ok s, s)

/-- Change the state. -/
def modify (f : σ → σ) : Prog σ ε Unit := fun s => (.ok (), f s)

/-- End as told. -/
def ofExcept (r : Except ε α) : Prog σ ε α := fun s => (r, s)

/-- Run `x` and go on either way, with how it ended as the value. -/
def attempt (x : Prog σ ε α) : Prog σ ε' (Except ε α) := fun s => (.ok (x s).1, (x s).2)

/-- Rename the errors. -/
def mapError (f : ε → ε') (x : Prog σ ε α) : Prog σ ε' α :=
  fun s => ((x s).1.mapError f, (x s).2)

/-- Run `x` on a part of the state. -/
def zoom (view : σ → τ) (update : σ → τ → σ) (x : Prog τ ε α) : Prog σ ε α :=
  fun s => ((x (view s)).1, update s (x (view s)).2)

@[simp] theorem get_apply (s : σ) : (get : Prog σ ε σ) s = (.ok s, s) := rfl

@[simp] theorem modify_apply (f : σ → σ) (s : σ) :
    (modify f : Prog σ ε Unit) s = (.ok (), f s) := rfl

@[simp] theorem ofExcept_apply (r : Except ε α) (s : σ) : ofExcept r s = (r, s) := rfl

@[simp] theorem attempt_apply (x : Prog σ ε α) (s : σ) :
    (x.attempt : Prog σ ε' _) s = (.ok (x s).1, (x s).2) := rfl

theorem mapError_ok {f : ε → ε'} {x : Prog σ ε α} {s s' : σ} {a : α}
    (h : x s = (.ok a, s')) : x.mapError f s = (.ok a, s') := by
  rw [mapError, h]
  rfl

theorem mapError_error {f : ε → ε'} {x : Prog σ ε α} {s s' : σ} {e : ε}
    (h : x s = (.error e, s')) : x.mapError f s = (.error (f e), s') := by
  rw [mapError, h]
  rfl

theorem of_mapError {f : ε → ε'} {x : Prog σ ε α} {s s' : σ} {a : α}
    (h : x.mapError f s = (.ok a, s')) : x s = (.ok a, s') := by
  rcases hx : x s with ⟨e | b, s₁⟩
  · rw [mapError_error hx] at h
    simp at h
  · rw [mapError_ok hx] at h
    simp only [Prod.mk.injEq, Except.ok.injEq] at h
    rw [h.1, h.2]

/-- A part that completes does so on its own. -/
theorem of_zoom {view : σ → τ} {update : σ → τ → σ} {x : Prog τ ε α} {s s' : σ} {a : α}
    (h : x.zoom view update s = (.ok a, s')) :
    ∃ t, x (view s) = (.ok a, t) ∧ s' = update s t := by
  rcases hx : x (view s) with ⟨r, t⟩
  simp only [zoom, hx, Prod.mk.injEq] at h
  exact ⟨t, by rw [h.1], h.2.symm⟩

end Operations

/-! ### What a program preserves -/

/-- However `x` ends, it leaves a state in `I` if it was started in one. -/
def Keeps (I : σ → Prop) (x : Prog σ ε α) : Prop := ∀ s : σ, I s → I (x s).2

namespace Keeps

variable {τ ε' : Type} {I : σ → Prop}

theorem pure (a : α) : Keeps I (Pure.pure a : Prog σ ε α) := fun _ inv => inv

theorem fail (e : ε) : Keeps I (Prog.fail e : Prog σ ε α) := fun _ inv => inv

theorem get : Keeps I (Prog.get : Prog σ ε σ) := fun _ inv => inv

theorem ofExcept (r : Except ε α) : Keeps I (Prog.ofExcept r) := fun _ inv => inv

theorem modify {f : σ → σ} (pres : ∀ s, I s → I (f s)) :
    Keeps I (Prog.modify f : Prog σ ε Unit) := pres

/-- Once in `I`, what follows stays there. -/
theorem after {x : Prog σ ε α} {f : α → Prog σ ε β} {s : σ} (first : I (x s).2)
    (second : ∀ a, Keeps I (f a)) : I ((x >>= f) s).2 := by
  rcases hx : x s with ⟨e | a, s'⟩
  · rw [bind_error hx]
    rwa [hx] at first
  · rw [bind_ok hx]
    rw [hx] at first
    exact second a s' first

theorem bind {x : Prog σ ε α} {f : α → Prog σ ε β} (first : Keeps I x)
    (second : ∀ a, Keeps I (f a)) : Keeps I (x >>= f) :=
  fun s inv => after (first s inv) second

theorem ite {p : Prop} [Decidable p] {x y : Prog σ ε α} (left : Keeps I x)
    (right : Keeps I y) : Keeps I (if p then x else y) := by
  split
  · exact left
  · exact right

theorem attempt {x : Prog σ ε α} (h : Keeps I x) :
    Keeps I (x.attempt : Prog σ ε' (Except ε α)) := h

/-- A part of the state that `I` does not speak of. -/
theorem zoom {view : σ → τ} {update : σ → τ → σ} (frame : ∀ s t, I s → I (update s t))
    (x : Prog τ ε α) : Keeps I (x.zoom view update) := fun s inv => frame s _ inv

/-- A part of the state that is all `I` speaks of. -/
theorem zoom_view {J : τ → Prop} {view : σ → τ} {update : σ → τ → σ}
    (there : ∀ s t, view (update s t) = t) {x : Prog τ ε α} (h : Keeps J x) :
    Keeps (fun s => J (view s)) (x.zoom view update) := by
  intro s inv
  change J (view (update s (x (view s)).2))
  rw [there]
  exact h _ inv

end Keeps

/-- If `x` stops with an error, it leaves a state in `I` if it was started in
one. -/
def KeepsOnError (I : σ → Prop) (x : Prog σ ε α) : Prop :=
  ∀ (s : σ) (e : ε), I s → (x s).1 = .error e → I (x s).2

namespace KeepsOnError

variable {I : σ → Prop}

theorem of_keeps {x : Prog σ ε α} (h : Keeps I x) : KeepsOnError I x := fun s _ inv _ => h s inv

theorem modify (f : σ → σ) : KeepsOnError I (Prog.modify f : Prog σ ε Unit) := by
  intro s e _ failed
  simp at failed

/-- What comes last may give `I` up if it succeeds. -/
theorem bind {x : Prog σ ε α} {f : α → Prog σ ε β} (first : Keeps I x)
    (second : ∀ a, KeepsOnError I (f a)) : KeepsOnError I (x >>= f) := by
  intro s e inv failed
  have kept := first s inv
  rcases hx : x s with ⟨e' | a, s'⟩
  · rw [hx] at kept
    rwa [bind_error hx]
  · rw [hx] at kept
    rw [bind_ok hx] at failed ⊢
    exact second a s' e kept failed

theorem ite {p : Prop} [Decidable p] {x y : Prog σ ε α} (left : KeepsOnError I x)
    (right : KeepsOnError I y) : KeepsOnError I (if p then x else y) := by
  split
  · exact left
  · exact right

end KeepsOnError

/-! ### What a program achieves -/

/-- If `x` completes from a state in `P`, then in `Q`. -/
def Ensures (P : σ → Prop) (x : Prog σ ε α) (Q : α → σ → Prop) : Prop :=
  ∀ (s : σ) (a : α) (s' : σ), P s → x s = (.ok a, s') → Q a s'

namespace Ensures

variable {P : σ → Prop}

theorem trivial (x : Prog σ ε α) : Ensures P x fun _ _ => True := fun _ _ _ _ _ => True.intro

theorem of_keeps {x : Prog σ ε α} (h : Keeps P x) : Ensures P x fun _ => P := by
  intro s a s' pre run
  have := h s pre
  rwa [run] at this

theorem pure {Q : α → σ → Prop} {a : α} (h : ∀ s, P s → Q a s) :
    Ensures P (Pure.pure a : Prog σ ε α) Q := by
  intro s b s' pre run
  obtain ⟨rfl, rfl⟩ := of_pure run
  exact h _ pre

theorem bind {x : Prog σ ε α} {f : α → Prog σ ε β} {R : α → σ → Prop} {Q : β → σ → Prop}
    (first : Ensures P x R) (second : ∀ a, Ensures (R a) (f a) Q) :
    Ensures P (x >>= f) Q := by
  intro s b s'' pre run
  obtain ⟨a, s', ran, rest⟩ := bind_eq_ok run
  exact second a s' b s'' (first s a s' pre ran) rest

theorem fail {Q : α → σ → Prop} (e : ε) : Ensures P (Prog.fail e : Prog σ ε α) Q := by
  intro s a s' _ run
  simp at run

theorem ite {p : Prop} [Decidable p] {x y : Prog σ ε α} {Q : α → σ → Prop}
    (left : p → Ensures P x Q) (right : ¬ p → Ensures P y Q) :
    Ensures P (if p then x else y) Q := by
  split
  case isTrue holds => exact left holds
  case isFalse fails => exact right fails

theorem mono {x : Prog σ ε α} {Q R : α → σ → Prop} (h : Ensures P x Q)
    (weaker : ∀ a s, Q a s → R a s) : Ensures P x R :=
  fun s a s' pre run => weaker a s' (h s a s' pre run)

theorem mapError {ε' : Type} {x : Prog σ ε α} {Q : α → σ → Prop} (f : ε → ε')
    (h : Ensures P x Q) : Ensures P (x.mapError f) Q := by
  intro s a s' pre run
  exact h s a s' pre (of_mapError run)

end Ensures

/-! ### What a program does not look at -/

/-- `x` neither looks at nor touches what `f` changes. -/
def Commutes (f : σ → σ) (x : Prog σ ε α) : Prop := ∀ s : σ, x (f s) = ((x s).1, f (x s).2)

/-- Whatever `f` changes, `x` fails alike, or ends in the same state. -/
def Forgets (f : σ → σ) (x : Prog σ ε α) : Prop :=
  ∀ s : σ, (∃ e, (x (f s)).1 = .error e ∧ (x s).1 = .error e) ∨ x (f s) = x s

namespace Commutes

variable {τ ε' : Type} {f : σ → σ}

theorem pure (a : α) : Commutes f (Pure.pure a : Prog σ ε α) := fun _ => rfl

theorem fail (e : ε) : Commutes f (Prog.fail e : Prog σ ε α) := fun _ => rfl

/-- Reading the state is fine if nothing read is what `f` changes. -/
theorem get_bind {k : σ → Prog σ ε α} (same : ∀ s, k (f s) = k s)
    (h : ∀ s, Commutes f (k s)) : Commutes f (Prog.get >>= k) := by
  intro s
  rw [bind_ok (get_apply (f s)), bind_ok (get_apply s), same]
  exact h s s

theorem modify {g : σ → σ} (comm : ∀ s, g (f s) = f (g s)) :
    Commutes f (Prog.modify g : Prog σ ε Unit) := by
  intro s
  rw [modify_apply, modify_apply, comm]

theorem bind {x : Prog σ ε α} {g : α → Prog σ ε β} (first : Commutes f x)
    (second : ∀ a, Commutes f (g a)) : Commutes f (x >>= g) := by
  intro s
  have start := first s
  rcases hx : x s with ⟨e | a, s'⟩
  · rw [hx] at start
    rw [bind_error start, bind_error hx]
  · rw [hx] at start
    rw [bind_ok start, bind_ok hx]
    exact second a s'

theorem ite {p : Prop} [Decidable p] {x y : Prog σ ε α} (left : Commutes f x)
    (right : Commutes f y) : Commutes f (if p then x else y) := by
  split
  · exact left
  · exact right

theorem attempt {x : Prog σ ε α} (h : Commutes f x) :
    Commutes f (x.attempt : Prog σ ε' (Except ε α)) := by
  intro s
  rw [attempt_apply, attempt_apply, h s]

theorem zoom {view : σ → τ} {update : σ → τ → σ} (same : ∀ s, view (f s) = view s)
    (comm : ∀ s t, update (f s) t = f (update s t)) (x : Prog τ ε α) :
    Commutes f (x.zoom view update) := by
  intro s
  simp only [Prog.zoom, same, comm]

end Commutes

namespace Forgets

variable {f : σ → σ}

/-- What is overwritten at once is forgotten. -/
theorem modify_bind {α : Type} {g : σ → σ} (absorbs : ∀ s, g (f s) = g s)
    (x : Unit → Prog σ ε α) : Forgets f ((Prog.modify g : Prog σ ε Unit) >>= x) := by
  intro s
  refine .inr ?_
  rw [bind_ok (modify_apply g (f s)), bind_ok (modify_apply g s), absorbs]

/-- The first part need only leave alone what the second forgets. -/
theorem of_commutes_bind {x : Prog σ ε α} {g : α → Prog σ ε β} (first : Commutes f x)
    (second : ∀ a, Forgets f (g a)) : Forgets f (x >>= g) := by
  intro s
  have start := first s
  rcases hx : x s with ⟨e | a, s'⟩
  · rw [hx] at start
    rw [bind_error start, bind_error hx]
    exact .inl ⟨e, rfl, rfl⟩
  · rw [hx] at start
    rw [bind_ok start, bind_ok hx]
    exact second a s'

/-- What is forgotten stays forgotten. -/
theorem bind {x : Prog σ ε α} (first : Forgets f x) (g : α → Prog σ ε β) :
    Forgets f (x >>= g) := by
  intro s
  rcases first s with ⟨e, left, right⟩ | same
  · refine .inl ⟨e, ?_, ?_⟩
    · rw [bind_error (Prod.ext left rfl : x (f s) = (.error e, (x (f s)).2))]
    · rw [bind_error (Prod.ext right rfl : x s = (.error e, (x s).2))]
  · refine .inr ?_
    rcases hx : x s with ⟨e | a, s'⟩
    · rw [bind_error (same.trans hx), bind_error hx]
    · rw [bind_ok (same.trans hx), bind_ok hx]

end Forgets

end Prog
