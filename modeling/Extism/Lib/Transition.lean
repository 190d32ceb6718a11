import Mathlib.Data.List.Basic
import Mathlib.Tactic.TypeStar

/-!
# Labelled transition systems

The vocabulary of runs used throughout: a system is a set of initial states
and a labelled step relation, a run is a list of labels.  The induction over a
run is packaged once per shape of argument, so that a theorem about runs is left
with what one step does.

A label carries everything that is observed of a step, a question together with
its answer.  Where what is observed depends on the state as well, `Observed` has
the observations of a run beside its labels, each made in the state in which the
label is taken.

## Main definitions

* `TransitionSystem` — initial states and labelled steps.
* `Steps`, `Reachable` — runs, and the states they end in.
* `restrict`, `ofStep` — fewer steps, and the steps of a function.
* `Observed` — a run with what is seen of it.

## Main results

* `Steps.invariant` — a property every step preserves holds at the end of a
  run; `Steps.invariant_of_labels` asks for preservation only under the labels
  the run really takes, which is what a frame argument needs.
* `Steps.weakUntil` — a run stays in one property unless it gets to another,
  and then stays there.
* `Reachable.invariant` — an inductive invariant holds of every reachable state.
* `Steps.simulate` — a run of one system is a run of another that follows it.
* `Steps.lockstep` — two runs making the same calls from related states
  receive the same answers.
* `Observed.simulate` — a run, each of its labels seen through the state it is
  taken in, is a run of another system.
-/

universe u v w

/-- Initial states and labelled steps. -/
structure TransitionSystem (σ : Type u) (ℓ : Type v) where
  /-- The states a run may start from. -/
  init : σ → Prop
  /-- One step under a label. -/
  step : σ → ℓ → σ → Prop

namespace TransitionSystem

variable {σ : Type u} {ℓ : Type v} (S : TransitionSystem σ ℓ)

/-- A run: the labels it takes, in order. -/
inductive Steps : σ → List ℓ → σ → Prop
  | nil (s : σ) : Steps s [] s
  | cons {s t u : σ} {l : ℓ} {ls : List ℓ} (head : S.step s l t)
      (tail : Steps t ls u) : Steps s (l :: ls) u

/-- A run with what is seen of it: of each label, what the state it is taken in
makes of it. -/
inductive Observed {κ : Type w} (see : σ → ℓ → κ) : σ → List ℓ → σ → List κ → Prop
  | nil (s : σ) : Observed see s [] s []
  | cons {s t u : σ} {l : ℓ} {ls : List ℓ} {ks : List κ} (head : S.step s l t)
      (tail : Observed see t ls u ks) : Observed see s (l :: ls) u (see s l :: ks)

/-- A state some run from an initial state ends in. -/
def Reachable (s : σ) : Prop :=
  ∃ (s₀ : σ) (ls : List ℓ), S.init s₀ ∧ S.Steps s₀ ls s

/-- The system in which only the steps meeting `ok` are taken. -/
def restrict (ok : σ → ℓ → Prop) : TransitionSystem σ ℓ where
  init := S.init
  step s l t := ok s l ∧ S.step s l t

/-- The system of a step function. -/
def ofStep (init : σ → Prop) (next : σ → ℓ → Option σ) : TransitionSystem σ ℓ where
  init := init
  step s l t := next s l = some t

/-- A step function, applied along a list of labels. -/
def runFrom (next : σ → ℓ → Option σ) : σ → List ℓ → Option σ
  | s, [] => some s
  | s, l :: ls => (next s l).bind fun t => runFrom next t ls

variable {S}

namespace Steps

/-- Running a step function is a run. -/
theorem of_runFrom {init : σ → Prop} {next : σ → ℓ → Option σ} {ls : List ℓ} {s t : σ}
    (run : runFrom next s ls = some t) : (ofStep init next).Steps s ls t := by
  induction ls generalizing s with
  | nil =>
      obtain rfl := Option.some.inj run
      exact .nil s
  | cons l ls ih =>
      obtain ⟨u, head, tail⟩ := Option.bind_eq_some_iff.1 run
      exact .cons head (ih tail)

theorem single {s t : σ} {l : ℓ} (step : S.step s l t) : S.Steps s [l] t :=
  .cons step (.nil t)

theorem trans {s t u : σ} {ls ks : List ℓ} (first : S.Steps s ls t)
    (second : S.Steps t ks u) : S.Steps s (ls ++ ks) u := by
  induction first with
  | nil => exact second
  | cons head _ ih => exact .cons head (ih second)

/-- A run, stopped at one of its labels. -/
theorem at_label {s t : σ} {ls : List ℓ} {l : ℓ} {ks : List ℓ} (run : S.Steps s (ls ++ l :: ks) t) :
    ∃ u v, S.Steps s ls u ∧ S.step u l v ∧ S.Steps v ks t := by
  induction ls generalizing s with
  | nil =>
      cases run with
      | cons head tail => exact ⟨s, _, .nil s, head, tail⟩
  | cons k ls ih =>
      cases run with
      | cons head tail =>
          obtain ⟨u, v, first, step, last⟩ := ih tail
          exact ⟨u, v, .cons head first, step, last⟩

/-- A property preserved by the labels a run takes holds at its end. -/
theorem invariant_of_labels {I : σ → Prop} {P : ℓ → Prop}
    (pres : ∀ {s t : σ} {l : ℓ}, P l → I s → S.step s l t → I t)
    {s t : σ} {ls : List ℓ} (run : S.Steps s ls t) (labels : ∀ l ∈ ls, P l)
    (start : I s) : I t := by
  induction run with
  | nil => exact start
  | @cons s t u l ls head _ ih =>
      refine ih (fun k mem => labels k (List.mem_cons_of_mem _ mem)) ?_
      exact pres (labels l List.mem_cons_self) start head

theorem invariant {I : σ → Prop}
    (pres : ∀ {s t : σ} {l : ℓ}, I s → S.step s l t → I t)
    {s t : σ} {ls : List ℓ} (run : S.Steps s ls t) (start : I s) : I t :=
  run.invariant_of_labels (P := fun _ => True) (fun _ => pres) (fun _ _ => trivial) start

/-- A run stays in `I` under labels meeting `P` unless it gets to `Q`, and then
stays there. -/
theorem weakUntil {I Q : σ → Prop} {P : ℓ → Prop}
    (first : ∀ {s t : σ} {l : ℓ}, I s → S.step s l t → (P l ∧ I t) ∨ Q t)
    (pres : ∀ {s t : σ} {l : ℓ}, Q s → S.step s l t → Q t)
    {s t : σ} {ls : List ℓ} (run : S.Steps s ls t) (start : I s) :
    ((∀ l ∈ ls, P l) ∧ I t) ∨ Q t := by
  induction run with
  | nil => exact .inl ⟨by simp, start⟩
  | cons head tail ih =>
      rcases first start head with ⟨label, inside⟩ | out
      · rcases ih inside with ⟨labels, last⟩ | last
        · exact .inl ⟨by simpa using ⟨label, labels⟩, last⟩
        · exact .inr last
      · exact .inr (tail.invariant pres out)

/-- **Simulation.**  If related states take related steps under the same label,
a run of one system is a run of the other. -/
theorem simulate {τ : Type w} {T : TransitionSystem τ ℓ} {R : σ → τ → Prop}
    (follow : ∀ {s s' : σ} {t : τ} {l : ℓ}, R s t → S.step s l s' →
      ∃ t', T.step t l t' ∧ R s' t')
    {s s' : σ} {ls : List ℓ} (run : S.Steps s ls s') :
    ∀ {t : τ}, R s t → ∃ t', T.Steps t ls t' ∧ R s' t' := by
  induction run with
  | nil => exact fun rel => ⟨_, .nil _, rel⟩
  | cons head _ ih =>
      intro t rel
      obtain ⟨u, step, rel'⟩ := follow rel head
      obtain ⟨t', steps, last⟩ := ih rel'
      exact ⟨t', .cons step steps, last⟩

/-- **Two runs in lockstep.**  `call` reads the question off a label.  If
related states answer equal questions with equal labels, and stay related, then
two runs asking the same questions take the same labels. -/
theorem lockstep {τ κ : Type w} {T : TransitionSystem τ ℓ} (call : ℓ → κ)
    {R : σ → τ → Prop}
    (answer : ∀ {s s' : σ} {t t' : τ} {l k : ℓ}, R s t → S.step s l s' →
      T.step t k t' → call l = call k → l = k ∧ R s' t')
    {s s' : σ} {ls : List ℓ} (left : S.Steps s ls s') :
    ∀ {t t' : τ} {ks : List ℓ}, T.Steps t ks t' → R s t →
      ls.map call = ks.map call → ls = ks ∧ R s' t' := by
  induction left with
  | nil =>
      intro t t' ks right rel calls
      cases right with
      | nil => exact ⟨rfl, rel⟩
      | cons _ _ => simp at calls
  | cons head _ ih =>
      intro t t' ks right rel calls
      cases right with
      | nil => simp at calls
      | cons head' tail' =>
          simp only [List.map_cons, List.cons.injEq] at calls
          obtain ⟨rfl, rel'⟩ := answer rel head head' calls.1
          obtain ⟨rfl, rel''⟩ := ih tail' rel' calls.2
          exact ⟨rfl, rel''⟩

end Steps

section Observed

variable {κ : Type w} {see : σ → ℓ → κ} {s t : σ} {ls : List ℓ} {ks : List κ}

/-- Something is seen of every run. -/
theorem Steps.observed (see : σ → ℓ → κ) (run : S.Steps s ls t) :
    ∃ ks, S.Observed see s ls t ks := by
  induction run with
  | nil => exact ⟨[], .nil _⟩
  | cons head _ ih =>
      obtain ⟨ks, tail⟩ := ih
      exact ⟨_, .cons head tail⟩

/-- **Simulation under a view**: in states meeting an invariant, a step is one of
the other system, under what is seen of its label. -/
theorem Observed.simulate {τ : Type w} {T : TransitionSystem τ κ} {view : σ → τ} {I : σ → Prop}
    (follow : ∀ {s t : σ} {l : ℓ}, I s → S.step s l t →
      I t ∧ T.step (view s) (see s l) (view t))
    (run : S.Observed see s ls t ks) (start : I s) : T.Steps (view s) ks (view t) := by
  induction run with
  | nil => exact .nil _
  | cons head _ ih =>
      obtain ⟨kept, step⟩ := follow start head
      exact .cons step (ih kept)

end Observed

namespace Reachable

theorem of_init {s : σ} (init : S.init s) : S.Reachable s :=
  ⟨s, [], init, .nil s⟩

theorem steps {s t : σ} {ls : List ℓ} (reach : S.Reachable s)
    (run : S.Steps s ls t) : S.Reachable t := by
  obtain ⟨s₀, ks, init, run₀⟩ := reach
  exact ⟨s₀, ks ++ ls, init, run₀.trans run⟩

theorem step {s t : σ} {l : ℓ} (reach : S.Reachable s) (head : S.step s l t) :
    S.Reachable t :=
  reach.steps (.single head)

/-- An inductive invariant holds of every reachable state. -/
theorem invariant {I : σ → Prop} (init : ∀ {s : σ}, S.init s → I s)
    (pres : ∀ {s t : σ} {l : ℓ}, I s → S.step s l t → I t)
    {s : σ} (reach : S.Reachable s) : I s := by
  obtain ⟨s₀, ls, start, run⟩ := reach
  exact run.invariant pres (init start)

end Reachable

end TransitionSystem
