import Extism.Lib.Transition
import Mathlib.Data.Nat.Notation
import Mathlib.Data.List.Count

/-!
# The timer thread

One thread keeps a map from running plugins to their engine and deadline.  Other
threads send it messages; it handles them, and between messages drops the
entries whose deadline has passed.  Dropping an entry is supposed to interrupt
the plugin: the store's epoch deadline is one tick, so incrementing the engine's
epoch traps it.

The calls of `increment_epoch` are commented out in the source.  `Timer.epochs`
holds the epochs all the same; `Watch.due` records, beside the thread, every
engine whose entry left the map because of a cancel, a passed deadline or a
shutdown, so that what should have happened can be compared with what does.
Clock readings are labels of the steps and need not be ordered.

## Main definitions

* `TimerAction`, `Plugins` — a message, and the map of running plugins.
* `Timer`, `Timer.step` — the thread with its queue and the epochs, and one step of
  it or of its surroundings.
* `Timer.interrupted` — the engines whose entries leave the map in a step.
* `Watch`, `timerRuns`, `quietRuns` — the thread with its account, its runs, and
  those in which nothing becomes due.

## Main results

* `Timer.epochs_step` — no step of the thread touches an epoch.
* `due_prefix` — what is due only grows.
* `quiet_iff` — nothing becomes due exactly in the quiet runs.
* `interrupted_iff_quiet` — who is interrupted.
-/

namespace Extism.Runtime

variable {Uuid Engine : Type}

/-- A message to the timer thread.  Durations and instants are natural numbers
of one unit. -/
inductive TimerAction (Uuid Engine : Type)
  | start (id : Uuid) (engine : Engine) (duration : Option ℕ)
  | stop (id : Uuid)
  | cancel (id : Uuid)
  | shutdown
  deriving DecidableEq

/-- The map of running plugins.  No step depends on its order. -/
abbrev Plugins (Uuid Engine : Type) := List (Uuid × Engine × Option ℕ)

/-- Where the thread is in its loop. -/
inductive Pc
  /-- At the head of `loop`, about to block if the map is empty. -/
  | top
  /-- Before the filter over the map. -/
  | sweep
  /-- In the loop over `try_iter`. -/
  | drain
  /-- Returned. -/
  | stopped
  deriving DecidableEq

/-- The thread, its message queue, and the epoch of every engine. -/
structure Timer (Uuid Engine : Type) where
  plugins : Plugins Uuid Engine
  queue : List (TimerAction Uuid Engine)
  pc : Pc
  epochs : Engine → ℕ

/-- An entry is dropped by the filter when it has an end not later than now. -/
def expired (now : ℕ) : Option ℕ → Bool
  | some end' => decide (end' ≤ now)
  | none => false

section Thread

variable [DecidableEq Uuid]

namespace Plugins

/-- `BTreeMap::remove`. -/
def remove (plugins : Plugins Uuid Engine) (id : Uuid) : Plugins Uuid Engine :=
  plugins.filter (·.1 ≠ id)

/-- `BTreeMap::insert`: an entry of the same key is replaced. -/
def insert (plugins : Plugins Uuid Engine) (id : Uuid) (entry : Engine × Option ℕ) :
    Plugins Uuid Engine :=
  (id, entry) :: plugins.remove id

end Plugins

namespace Timer

/-- The `handle!` macro, after which the thread goes on at `next`. -/
def handle (t : Timer Uuid Engine) (now : ℕ) (next : Pc) :
    TimerAction Uuid Engine → Timer Uuid Engine
  | .start id engine duration =>
      { t with
        plugins := t.plugins.insert id (engine, duration.map fun x => now + x)
        pc := next }
  | .stop id => { t with plugins := t.plugins.remove id, pc := next }
  | .cancel id =>
      -- the engine removed is not touched: `increment_epoch` is commented out
      { t with plugins := t.plugins.remove id, pc := next }
  | .shutdown =>
      -- nor are the engines the loop over the map goes through
      { t with plugins := [], pc := .stopped }

/-- The filter: each entry is compared with a clock reading of its own. -/
def filter (t : Timer Uuid Engine) (now : Uuid → ℕ) : Timer Uuid Engine :=
  { t with
    plugins := t.plugins.filter fun entry => !expired (now entry.1) entry.2.2
    pc := .drain }

end Timer

/-- What can happen next. -/
inductive TimerEvent (Uuid Engine : Type)
  /-- Another thread sends a message. -/
  | send (x : TimerAction Uuid Engine)
  /-- The map is empty; `recv` returns a message. -/
  | recv (now : ℕ)
  /-- The map is not empty; `recv` is not called. -/
  | pass
  /-- The filter over the map. -/
  | sweep (now : Uuid → ℕ)
  /-- `try_iter` yields a message. -/
  | next (now : ℕ)
  /-- `try_iter` yields nothing more. -/
  | drained

/-- One step of the thread or of its surroundings. -/
def Timer.step (t : Timer Uuid Engine) : TimerEvent Uuid Engine → Option (Timer Uuid Engine)
  | .send x => some { t with queue := t.queue ++ [x] }
  | .recv now =>
      match t.pc, t.plugins, t.queue with
      | .top, [], x :: queue => some ({ t with queue := queue }.handle now .sweep x)
      | _, _, _ => none
  | .pass =>
      match t.pc, t.plugins with
      | .top, _ :: _ => some { t with pc := .sweep }
      | _, _ => none
  | .sweep now =>
      match t.pc with
      | .sweep => some (t.filter now)
      | _ => none
  | .next now =>
      match t.pc, t.queue with
      | .drain, x :: queue => some ({ t with queue := queue }.handle now .drain x)
      | _, _ => none
  | .drained =>
      match t.pc, t.queue with
      | .drain, [] => some { t with pc := .top }
      | _, _ => none

/-! ## What should be interrupted -/

/-- The engines whose entries leave the map because of a message: a cancel of
their plugin, or a shutdown. -/
def interruptedBy (plugins : Plugins Uuid Engine) : TimerAction Uuid Engine → List Engine
  | .start _ _ _ => []
  | .stop _ => []
  | .cancel id => (plugins.filter (·.1 = id)).map fun entry => entry.2.1
  | .shutdown => plugins.map fun entry => entry.2.1

/-- The engines whose entries leave the map in a step because of a cancel, a
passed deadline or a shutdown. -/
def Timer.interrupted (t : Timer Uuid Engine) : TimerEvent Uuid Engine → List Engine
  | .recv _ => (t.queue.head?.map (interruptedBy t.plugins)).getD []
  | .next _ => (t.queue.head?.map (interruptedBy t.plugins)).getD []
  | .sweep now =>
      (t.plugins.filter fun entry => expired (now entry.1) entry.2.2).map fun entry => entry.2.1
  | _ => []

/-- The thread, and the engines it should have interrupted so far. -/
structure Watch (Uuid Engine : Type) where
  timer : Timer Uuid Engine
  due : List Engine

/-- One step, entered in the account. -/
def Watch.step (w : Watch Uuid Engine) (e : TimerEvent Uuid Engine) :
    Option (Watch Uuid Engine) :=
  (w.timer.step e).map fun t => ⟨t, w.due ++ w.timer.interrupted e⟩

/-- The runs of the timer thread: any messages in any order, any clock
readings. -/
def timerRuns (Uuid Engine : Type) [DecidableEq Uuid] :
    TransitionSystem (Watch Uuid Engine) (TimerEvent Uuid Engine) :=
  .ofStep (fun w => w.timer.plugins = [] ∧ w.timer.queue = [] ∧ w.timer.pc = .top ∧ w.due = [])
    Watch.step

/-- The runs in which no entry leaves the map because of a cancel, a passed
deadline or a shutdown. -/
def quietRuns (Uuid Engine : Type) [DecidableEq Uuid] :
    TransitionSystem (Watch Uuid Engine) (TimerEvent Uuid Engine) :=
  (timerRuns Uuid Engine).restrict fun w e => w.timer.interrupted e = []

/-! ## What is interrupted -/

@[simp] theorem Timer.epochs_handle (t : Timer Uuid Engine) (now : ℕ) (next : Pc)
    (x : TimerAction Uuid Engine) : (t.handle now next x).epochs = t.epochs := by
  cases x <;> rfl

/-- No step of the thread touches an epoch. -/
theorem Timer.epochs_step {t t' : Timer Uuid Engine} {e : TimerEvent Uuid Engine}
    (step : t.step e = some t') : t'.epochs = t.epochs := by
  cases e with
  | send x =>
      obtain rfl := Option.some.inj step
      rfl
  | recv now =>
      simp only [Timer.step] at step
      split at step
      · obtain rfl := Option.some.inj step
        rw [Timer.epochs_handle]
      · simp at step
  | pass =>
      simp only [Timer.step] at step
      split at step
      · obtain rfl := Option.some.inj step
        rfl
      · simp at step
  | sweep now =>
      simp only [Timer.step] at step
      split at step
      · obtain rfl := Option.some.inj step
        rfl
      · simp at step
  | next now =>
      simp only [Timer.step] at step
      split at step
      · obtain rfl := Option.some.inj step
        rw [Timer.epochs_handle]
      · simp at step
  | drained =>
      simp only [Timer.step] at step
      split at step
      · obtain rfl := Option.some.inj step
        rfl
      · simp at step

variable {w₀ w : Watch Uuid Engine} {es : List (TimerEvent Uuid Engine)}

/-- A step of the account is a step of the thread. -/
theorem Watch.of_step {w w' : Watch Uuid Engine} {e : TimerEvent Uuid Engine}
    (step : w.step e = some w') :
    w'.timer.epochs = w.timer.epochs ∧ w'.due = w.due ++ w.timer.interrupted e := by
  obtain ⟨t, eq, rfl⟩ := Option.map_eq_some_iff.1 step
  exact ⟨Timer.epochs_step eq, rfl⟩

theorem epochs_of_run (run : (timerRuns Uuid Engine).Steps w₀ es w) :
    w.timer.epochs = w₀.timer.epochs := by
  refine run.invariant (I := fun w => w.timer.epochs = w₀.timer.epochs) ?_ rfl
  intro s t e same step
  exact (Watch.of_step step).1.trans same

/-- What is due only grows. -/
theorem due_prefix (run : (timerRuns Uuid Engine).Steps w₀ es w) : w₀.due <+: w.due := by
  refine run.invariant (I := fun w => w₀.due <+: w.due) ?_ (List.prefix_refl _)
  intro s t e grown step
  rw [(Watch.of_step step).2]
  exact grown.trans (List.prefix_append _ _)

/-- Nothing becomes due exactly in the quiet runs. -/
theorem quiet_iff (run : (timerRuns Uuid Engine).Steps w₀ es w) :
    (quietRuns Uuid Engine).Steps w₀ es w ↔ w.due = w₀.due := by
  constructor
  · intro quiet
    refine quiet.invariant (I := fun w => w.due = w₀.due) ?_ rfl
    intro s t e same step
    rw [(Watch.of_step step.2).2, step.1, List.append_nil, same]
  · induction run with
    | nil s => exact fun _ => .nil s
    | cons head tail ih =>
        intro same
        -- the due list is squeezed between its ends
        have first := (Watch.of_step head).2
        have later := due_prefix tail
        rw [same, first] at later
        have none := List.append_right_eq_self.1
          (later.eq_of_length_le (by rw [List.length_append]; omega))
        rw [none, List.append_nil] at first
        exact .cons ⟨none, head⟩ (ih (by rw [same, first]))

variable [DecidableEq Engine]

/-- **Who is interrupted.**  In every run the engines due were all interrupted,
each as often as it was due, if and only if none was ever due; and no engine is
ever interrupted that was not due. -/
theorem interrupted_iff_quiet (start : (timerRuns Uuid Engine).init w₀)
    (run : (timerRuns Uuid Engine).Steps w₀ es w) :
    ((∀ g, w.timer.epochs g = w₀.timer.epochs g + w.due.count g) ↔
        (quietRuns Uuid Engine).Steps w₀ es w) ∧
      ∀ g, w.timer.epochs g ≤ w₀.timer.epochs g + w.due.count g := by
  rw [epochs_of_run run, quiet_iff run, start.2.2.2]
  refine ⟨⟨fun all => ?_, fun none g => by simp [none]⟩, fun g => Nat.le_add_right _ _⟩
  refine List.eq_nil_iff_forall_not_mem.2 fun g mem => ?_
  have count := List.count_pos_iff.2 mem
  have := all g
  omega

end Thread

/-- The thread before its first message. -/
def idle : Watch ℕ ℕ := ⟨⟨[], [], .top, fun _ => 0⟩, []⟩

/-- A plugin is started, and stopped while it is in the map. -/
def startStop : List (TimerEvent ℕ ℕ) :=
  [.send (.start 1 7 none), .recv 0, .sweep fun _ => 0, .send (.stop 1), .next 0]

/-- A plugin is started, and cancelled while it is in the map. -/
def startCancel : List (TimerEvent ℕ ℕ) :=
  [.send (.start 1 7 none), .recv 0, .sweep fun _ => 0, .send (.cancel 1), .next 0]

/-- Starting and stopping a plugin is a quiet run. -/
theorem startStop_quiet :
    (quietRuns ℕ ℕ).Steps idle startStop ⟨⟨[], [], .drain, fun _ => 0⟩, []⟩ :=
  (@interrupted_iff_quiet ℕ ℕ _ idle _ _ _ ⟨rfl, rfl, rfl, rfl⟩ (.of_runFrom rfl)).1.1 fun _ => rfl

/-- A cancelled plugin leaves the map, and its engine is not interrupted. -/
theorem cancel_interrupts_nobody :
    ¬ ∀ (es : List (TimerEvent ℕ ℕ)) (w : Watch ℕ ℕ), (timerRuns ℕ ℕ).Steps idle es w →
      ∀ g, w.timer.epochs g = idle.timer.epochs g + w.due.count g := by
  intro all
  have interrupted := all startCancel ⟨⟨[], [], .drain, fun _ => 0⟩, [7]⟩ (.of_runFrom rfl) 7
  revert interrupted
  decide

end Extism.Runtime
