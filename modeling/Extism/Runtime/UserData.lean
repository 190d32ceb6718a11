import Extism.Lib.Shared
import Extism.Lib.Transition
import Extism.Runtime.PluginNew

/-!
# User data

A host function comes with data of the host's, and with a callback that frees
them.  The data are shared: the closure that calls the host's function has a
reference, the function that keeps the closure has another one, and every call
in progress has one.  A function is in the box that `extism_function_new`
returned until a plugin takes it out, and a construction that fails drops what it
took.

The functions here have the address of their `CPtr` for a closure; the callback is
called when that is dropped, if there are data and a callback.  Boxes and plugins
are where the host's pointers point to.  A host does not use a pointer again that
it has freed; addresses may be used again.

## Main definitions

* `CPtr`, `CPtr.drop` — a pointer to C userdata, and what its callback is called
  with.
* `UserData.share`, `Function.references`, `dropFunctions` — the references that
  `Function::new` makes, those a function has, and functions dropped.
* `ApiState`, `ApiAction`, `ownerRuns` — what a host has got from the C API, what it
  does, and the runs of a host that uses pointers it has.
* `ApiState.Owned` — every function is in one place, and the references are those
  of functions and calls.

## Main results

* `ApiState.Owned.uses_iff` — what is used is what has an owner.
* `ApiState.Owned.pluginNew_made`, `ApiState.Owned.pluginNew_failed` — a plugin gets
  what was taken for it, and a construction that fails drops it.
* `ApiState.Owned.step` — one action keeps every function in one place.
* `userData_freed_once` — user data are freed once, when nobody can use them any
  more.
-/

namespace Extism.Runtime

variable {κ π δ M σ : Type}

/-- A pointer to C userdata. -/
structure CPtr where
  /-- None if it is null. -/
  ptr : Option ℕ
  /-- Whether there is a callback. -/
  free : Bool

/-- `CPtr::drop`: what the callback is called with. -/
def CPtr.drop (c : CPtr) : Option ℕ := if c.free then c.ptr else none

variable [DecidableEq δ]

/-- The references to user data: `new_pointer` makes one, `Function::new` clones it
twice and drops it. -/
def UserData.share (d : δ) (s : Shared δ) : Shared δ := (((s.make d).clone d).clone d).release d

/-- The references a function has: its closure's, and its own. -/
def Function.references (f : Function δ) : List δ := [f.f, f.f]

/-- Drop functions. -/
def dropFunctions (fs : List (Function δ)) (s : Shared δ) : Shared δ :=
  s.releaseAll (fs.flatMap Function.references)

/-- What a host has got from the C API, and its data. -/
structure ApiState (κ π δ : Type) where
  /-- The boxes of the functions, and what is left in them. -/
  functions : κ → Option (Option (Function δ))
  /-- The plugins, with their `_functions`. -/
  plugins : π → Option (List (Function δ))
  /-- The data of the calls in progress. -/
  calls : List δ
  data : Shared δ
  /-- The data there ever were. -/
  made : δ → Option CPtr

namespace ApiState

/-- Nothing was done yet. -/
def new : ApiState κ π δ := ⟨fun _ => none, fun _ => none, [], .empty, fun _ => none⟩

/-- The cells of the boxes. -/
def cells (s : ApiState κ π δ) : Slots κ (Function δ) := fun k => (s.functions k).join

/-- The boxes, with other cells. -/
def refill (s : ApiState κ π δ) (cells : Slots κ (Function δ)) : κ → Option (Option (Function δ)) :=
  fun k => (s.functions k).map fun _ => cells k

/-- What the callbacks were called with. -/
def freed (s : ApiState κ π δ) : List ℕ :=
  s.data.dropped.filterMap fun d => (s.made d).bind CPtr.drop

/-- Somebody may still use data: a box or a plugin has a function with them, or
they are in a call. -/
def Uses (s : ApiState κ π δ) (d : δ) : Prop :=
  (∃ k f, s.functions k = some (some f) ∧ f.f = d) ∨
    (∃ p fs, s.plugins p = some fs ∧ ∃ f ∈ fs, f.f = d) ∨ d ∈ s.calls

end ApiState

/-- What a host does, and its guests. -/
inductive ApiAction (κ π δ : Type)
  /-- `extism_function_new`. -/
  | functionNew (k : κ) (f : Function δ) (userData : CPtr)
  /-- `extism_function_free`. -/
  | functionFree (k : κ)
  /-- `extism_function_set_namespace`. -/
  | setNamespace (k : κ) (ns : String)
  /-- `extism_plugin_new` and its like; no plugin if it fails. -/
  | pluginNew (c : NewCall κ) (errmsg : Option (Option CString)) (p : Option π)
  /-- `extism_plugin_free`. -/
  | pluginFree (p : π)
  /-- A plugin's guest calls a host function. -/
  | callBegin (p : π) (f : Function δ)
  | callEnd (d : δ)

/-! ## Who owns what -/

/-- The references there should be: two of a function that is somewhere, and one
of every call. -/
def ApiState.owners (s : ApiState κ π δ) (place : δ → Option (κ ⊕ π)) (d : δ) : ℕ :=
  (if (place d).isSome then 2 else 0) + s.calls.count d

/-- **Every function is in one place**, and the references are those of functions
and calls. -/
structure ApiState.Owned (s : ApiState κ π δ) (place : δ → Option (κ ⊕ π)) : Prop where
  boxed : ∀ k f, s.functions k = some (some f) → place f.f = some (.inl k)
  nodup : ∀ p fs, s.plugins p = some fs → (fs.map Function.f).Nodup
  registered : ∀ p fs, s.plugins p = some fs → ∀ f ∈ fs, place f.f = some (.inr p)
  box : ∀ k d, place d = some (.inl k) → ∃ f, s.functions k = some (some f) ∧ f.f = d
  plugin : ∀ p d, place d = some (.inr p) →
    ∃ fs, s.plugins p = some fs ∧ ∃ f ∈ fs, f.f = d
  tracks : s.data.Tracks (s.owners place) fun d => (s.made d).isSome

section Owned

variable {s : ApiState κ π δ} {place : δ → Option (κ ⊕ π)}

theorem count_references (fs : List (Function δ)) (d : δ) :
    (fs.flatMap Function.references).count d = 2 * (fs.map Function.f).count d := by
  induction fs with
  | nil => rfl
  | cons f fs ih =>
      rw [List.flatMap_cons, List.count_append, ih, List.map_cons, Function.references]
      by_cases same : f.f = d
      · subst same
        simp only [List.count_cons_self, List.count_nil]
        omega
      · simp only [List.count_cons_of_ne same, List.count_nil]
        omega

/-- What is used is what has an owner. -/
theorem ApiState.Owned.uses_iff (O : s.Owned place) (d : δ) : s.Uses d ↔ s.owners place d ≠ 0 := by
  rw [ApiState.owners]
  constructor
  · rintro (⟨k, f, boxed, rfl⟩ | ⟨p, fs, held, f, mem, rfl⟩ | call)
    · simp [O.boxed k f boxed]
    · simp [O.registered p fs held f mem]
    · have := List.count_pos_iff.2 call
      omega
  · intro owned
    by_cases call : d ∈ s.calls
    · exact .inr (.inr call)
    · rw [List.count_eq_zero.2 call] at owned
      cases placed : place d with
      | none => simp [placed] at owned
      | some x =>
          cases x with
          | inl k =>
              obtain ⟨f, boxed, same⟩ := O.box k d placed
              exact .inl ⟨k, f, boxed, same⟩
          | inr p => exact .inr (.inl ⟨p, O.plugin p d placed |>.imp fun _ => id⟩)

/-- Functions that were in one place are dropped. -/
theorem ApiState.Owned.drop (O : s.Owned place) {fs : List (Function δ)}
    (nodup : (fs.map Function.f).Nodup) (placed : ∀ f ∈ fs, (place f.f).isSome) :
    (dropFunctions fs s.data).Tracks
      (s.owners fun d => if d ∈ fs.map Function.f then none else place d)
      fun d => (s.made d).isSome := by
  have each : ∀ d, (fs.flatMap Function.references).count d =
      if d ∈ fs.map Function.f then 2 else 0 := by
    intro d
    rw [count_references, nodup.count]
    split <;> rfl
  have here : ∀ d ∈ fs.map Function.f, (place d).isSome := by
    intro d mem
    obtain ⟨f, mem', rfl⟩ := List.mem_map.1 mem
    exact placed f mem'
  refine (O.tracks.releaseAll _ fun d => ?_).congr (fun d => ?_) fun _ => Iff.rfl
  · rw [each, ApiState.owners]
    split
    case isTrue mem => rw [if_pos (here d mem)]; omega
    case isFalse => exact Nat.zero_le _
  · rw [each, ApiState.owners, ApiState.owners]
    by_cases mem : d ∈ fs.map Function.f
    · rw [if_pos mem, if_pos mem, if_pos (here d mem)]
      simp
    · rw [if_neg mem, if_neg mem, Nat.sub_zero]

/-- Data that were never made are nowhere. -/
theorem ApiState.Owned.unmade (O : s.Owned place) {d : δ} (fresh : s.made d = none) :
    place d = none ∧ d ∉ s.calls := by
  have none : s.owners place d = 0 := by
    by_contra owned
    have made := O.tracks.known d owned
    simp [fresh] at made
  rw [ApiState.owners] at none
  constructor
  · by_contra some
    rw [if_pos (Option.isSome_iff_ne_none.2 some)] at none
    omega
  · exact fun call => by
      have := List.count_pos_iff.2 call
      omega

/-- Functions are dropped, wherever they were. -/
theorem ApiState.Owned.removed (O : s.Owned place) {fs : List (Function δ)}
    (nodup : (fs.map Function.f).Nodup) (placed : ∀ f ∈ fs, (place f.f).isSome)
    {functions : κ → Option (Option (Function δ))}
    {plugins : π → Option (List (Function δ))}
    (boxes : ∀ k f, functions k = some (some f) ↔
      s.functions k = some (some f) ∧ f.f ∉ fs.map Function.f)
    (left : ∀ p gs, plugins p = some gs → s.plugins p = some gs ∧ ∀ g ∈ gs, g.f ∉ fs.map Function.f)
    (kept : ∀ p gs, s.plugins p = some gs → ∀ g ∈ gs, g.f ∉ fs.map Function.f →
      plugins p = some gs) :
    ApiState.Owned
      { s with functions := functions, plugins := plugins, data := dropFunctions fs s.data }
      fun d => if d ∈ fs.map Function.f then none else place d := by
  constructor
  · intro k f boxed
    obtain ⟨was, out⟩ := (boxes k f).1 boxed
    rw [if_neg out, O.boxed k f was]
  · exact fun p gs held => O.nodup p gs (left p gs held).1
  · intro p gs held g mem
    obtain ⟨was, out⟩ := left p gs held
    rw [if_neg (out g mem), O.registered p gs was g mem]
  · intro k d placed
    split at placed
    case isTrue => simp at placed
    case isFalse out =>
      obtain ⟨f, boxed, rfl⟩ := O.box k d placed
      exact ⟨f, (boxes k f).2 ⟨boxed, out⟩, rfl⟩
  · intro p d placed
    split at placed
    case isTrue => simp at placed
    case isFalse out =>
      obtain ⟨gs, held, g, mem, rfl⟩ := O.plugin p d placed
      exact ⟨gs, kept p gs held g mem out, g, mem, rfl⟩
  · exact O.drop nodup placed

theorem ApiState.Owned.callBegin (O : s.Owned place) {p : π} {fs : List (Function δ)}
    {f : Function δ} (held : s.plugins p = some fs) (mem : f ∈ fs) :
    ApiState.Owned { s with calls := f.f :: s.calls, data := s.data.clone f.f } place := by
  have owned : s.owners place f.f ≠ 0 := (O.uses_iff f.f).1 (.inr (.inl ⟨p, fs, held, f, mem, rfl⟩))
  refine ⟨O.boxed, O.nodup, O.registered, O.box, O.plugin, ?_⟩
  refine (O.tracks.clone owned).congr (fun d => ?_) fun _ => Iff.rfl
  rw [ApiState.owners]
  by_cases same : d = f.f
  · subst same
    rw [Function.update_self, List.count_cons_self, ApiState.owners]
    omega
  · rw [Function.update_of_ne same, List.count_cons_of_ne (Ne.symm same)]
    rfl

theorem ApiState.Owned.callEnd (O : s.Owned place) {d : δ} (call : d ∈ s.calls) :
    ApiState.Owned { s with calls := s.calls.erase d, data := s.data.release d } place := by
  have owned : s.owners place d ≠ 0 := (O.uses_iff d).1 (.inr (.inr call))
  have positive := List.count_pos_iff.2 call
  refine ⟨O.boxed, O.nodup, O.registered, O.box, O.plugin, ?_⟩
  refine (O.tracks.release owned).congr (fun a => ?_) fun _ => Iff.rfl
  rw [ApiState.owners]
  by_cases same : a = d
  · subst same
    rw [Function.update_self, List.count_erase_self, ApiState.owners]
    omega
  · rw [Function.update_of_ne same, List.count_erase_of_ne same]
    rfl

section Boxes

variable [DecidableEq κ]

theorem ApiState.Owned.functionNew (O : s.Owned place) {k : κ} {f : Function δ}
    (free : s.functions k = none) (fresh : s.made f.f = none) (userData : CPtr) :
    ApiState.Owned { s with
      functions := Function.update s.functions k (some (some f))
      data := UserData.share f.f s.data, made := Function.update s.made f.f (some userData) }
      (Function.update place f.f (some (.inl k))) := by
  obtain ⟨nowhere, noCall⟩ := O.unmade fresh
  have away : ∀ d, (place d).isSome → d ≠ f.f := by
    rintro d some rfl
    simp [nowhere] at some
  constructor
  · intro k' f' boxed
    by_cases same : k' = k
    · subst same
      change Function.update s.functions k' (some (some f)) k' = _ at boxed
      rw [Function.update_self] at boxed
      rw [← Option.some.inj (Option.some.inj boxed), Function.update_self]
    · change Function.update s.functions k (some (some f)) k' = _ at boxed
      rw [Function.update_of_ne same] at boxed
      have there := O.boxed k' f' boxed
      rw [Function.update_of_ne (away _ (by simp [there])), there]
  · exact O.nodup
  · intro p fs held f' mem
    have there := O.registered p fs held f' mem
    rw [Function.update_of_ne (away _ (by simp [there])), there]
  · intro k' d placed
    by_cases same : d = f.f
    · subst same
      rw [Function.update_self] at placed
      obtain rfl := Sum.inl.inj (Option.some.inj placed)
      exact ⟨f, Function.update_self .., rfl⟩
    · rw [Function.update_of_ne same] at placed
      obtain ⟨f', boxed, rfl⟩ := O.box k' d placed
      have ne : k' ≠ k := by
        rintro rfl
        simp [free] at boxed
      exact ⟨f', (Function.update_of_ne ne _ _).trans boxed, rfl⟩
  · intro p d placed
    by_cases same : d = f.f
    · subst same
      rw [Function.update_self] at placed
      simp at placed
    · rw [Function.update_of_ne same] at placed
      exact O.plugin p d placed
  · have unowned : ¬ (s.made f.f).isSome := by simp [fresh]
    have shared := (((O.tracks.make unowned).clone (d := f.f) (by simp)).clone (d := f.f)
      (by simp)).release (d := f.f) (by simp)
    refine shared.congr (fun d => ?_) fun d => ?_
    · rw [ApiState.owners]
      by_cases same : d = f.f
      · subst same
        simp [List.count_eq_zero.2 noCall]
      · simp only [Function.update_of_ne same]
        rfl
    · by_cases same : d = f.f
      · subst same
        simp
      · simp [same]

theorem ApiState.Owned.functionFree (O : s.Owned place) {k : κ} {cell : Option (Function δ)}
    (here : s.functions k = some cell) :
    ApiState.Owned { s with
      functions := Function.update s.functions k none, data := dropFunctions cell.toList s.data }
      fun d => if d ∈ cell.toList.map Function.f then none else place d := by
  have only : ∀ f, f ∈ cell.toList ↔ s.functions k = some (some f) := by
    intro f
    rw [here, Option.mem_toList, Option.some_inj]
  refine O.removed ?_ (fun f mem => ?_) (fun k' f => ?_) (fun p gs held => ⟨held, ?_⟩)
    fun p gs held _ _ _ => held
  · cases cell <;> simp
  · simp [O.boxed k f ((only f).1 mem)]
  · by_cases same : k' = k
    · subst same
      rw [Function.update_self]
      refine iff_of_false (by simp) fun ⟨boxed, out⟩ => out ?_
      exact List.mem_map_of_mem ((only f).2 boxed)
    · rw [Function.update_of_ne same]
      refine (and_iff_left_of_imp fun boxed mem => same ?_).symm
      obtain ⟨f', mem, eq⟩ := List.mem_map.1 mem
      have there := O.boxed k f' ((only f').1 mem)
      rw [eq, O.boxed k' f boxed] at there
      exact Sum.inl.inj (Option.some.inj there)
  · intro g mem out
    obtain ⟨f, mem', eq⟩ := List.mem_map.1 out
    have there := O.boxed k f ((only f).1 mem')
    rw [eq, O.registered p gs held g mem] at there
    simp at there

theorem ApiState.Owned.setNamespace (O : s.Owned place) {k : κ} {cell : Option (Function δ)}
    (here : s.functions k = some cell) (ns : String) :
    ApiState.Owned
      { s with
        functions :=
          Function.update s.functions k (some (cell.map fun f => { f with ns := some ns })) }
      place := by
  refine ⟨fun k' f boxed => ?_, O.nodup, O.registered, fun k' d placed => ?_, O.plugin, O.tracks⟩
  · by_cases same : k' = k
    · subst same
      change Function.update s.functions k' _ k' = _ at boxed
      rw [Function.update_self] at boxed
      obtain ⟨f', rfl, rfl⟩ := Option.map_eq_some_iff.1 (Option.some.inj boxed)
      exact O.boxed k' f' here
    · exact O.boxed k' f ((Function.update_of_ne same _ _).symm.trans boxed)
  · obtain ⟨f, boxed, rfl⟩ := O.box k' d placed
    by_cases same : k' = k
    · subst same
      obtain rfl := Option.some.inj (here.symm.trans boxed)
      exact ⟨{ f with ns := some ns }, Function.update_self .., rfl⟩
    · exact ⟨f, (Function.update_of_ne same _ _).trans boxed, rfl⟩

end Boxes

theorem ApiState.Owned.pluginFree [DecidableEq π] (O : s.Owned place) {p : π}
    {fs : List (Function δ)} (here : s.plugins p = some fs) :
    ApiState.Owned
      { s with plugins := Function.update s.plugins p none, data := dropFunctions fs s.data }
      fun d => if d ∈ fs.map Function.f then none else place d := by
  have there := O.registered p fs here
  have others : ∀ p' gs, s.plugins p' = some gs → ∀ g ∈ gs, g.f ∈ fs.map Function.f → p' = p := by
    intro p' gs held g mem mem'
    obtain ⟨f, mem', eq⟩ := List.mem_map.1 mem'
    have placed := there f mem'
    rw [eq, O.registered p' gs held g mem] at placed
    exact Sum.inr.inj (Option.some.inj placed)
  refine O.removed (O.nodup p fs here) (fun f mem => by simp [there f mem])
    (fun k f => (and_iff_left_of_imp fun boxed mem => ?_).symm) (fun p' gs held => ?_)
    fun p' gs held g mem out => ?_
  · obtain ⟨f', mem, eq⟩ := List.mem_map.1 mem
    have placed := there f' mem
    rw [eq, O.boxed k f boxed] at placed
    simp at placed
  · have ne : p' ≠ p := by
      rintro rfl
      simp at held
    rw [Function.update_of_ne ne] at held
    exact ⟨held, fun g mem mem' => ne (others p' gs held g mem mem')⟩
  · have ne : p' ≠ p := by
      rintro rfl
      obtain rfl := Option.some.inj (here.symm.trans held)
      exact out (List.mem_map_of_mem mem)
    rw [Function.update_of_ne ne, held]

end Owned

variable [DecidableEq κ] [DecidableEq π] (E : Embedder M σ δ)

/-- What becomes of the functions a construction took. -/
def ApiState.built (s : ApiState κ π δ) (c : NewCall κ) (mem : HostMemory κ δ) :
    Option (Built M σ δ) → Option π → ApiState κ π δ → Prop
  | some b, some p, t => s.plugins p = none ∧
      t = { s with
        functions := s.refill mem.functions
        plugins := Function.update s.plugins p (some b.functions) }
  | none, none, t =>
      t = { s with
        functions := s.refill mem.functions, data := dropFunctions (held c.array s.cells) s.data }
  | _, _, _ => False

/-- The runs of a host that uses pointers it has. -/
def ownerRuns : TransitionSystem (ApiState κ π δ) (ApiAction κ π δ) where
  init s := s = .new
  step s
    | .functionNew k f userData, t => s.functions k = none ∧ s.made f.f = none ∧
        t = { s with
          functions := Function.update s.functions k (some (some f))
          data := UserData.share f.f s.data, made := Function.update s.made f.f (some userData) }
    | .functionFree k, t => ∃ cell, s.functions k = some cell ∧
        t = { s with
          functions := Function.update s.functions k none
          data := dropFunctions cell.toList s.data }
    | .setNamespace k ns, t => ∃ cell, s.functions k = some cell ∧
        t = { s with
          functions := Function.update s.functions k
            (some (cell.map fun f => { f with ns := some ns })) }
    | .pluginNew c errmsg p, t => (∀ k, some k ∈ c.array → (s.functions k).isSome) ∧
        ∃ plugin mem, c.run E ⟨s.cells, errmsg⟩ = (.ok plugin, mem) ∧ s.built c mem plugin p t
    | .pluginFree p, t => ∃ fs, s.plugins p = some fs ∧
        t = { s with
          plugins := Function.update s.plugins p none, data := dropFunctions fs s.data }
    | .callBegin p f, t => (∃ fs, s.plugins p = some fs ∧ f ∈ fs) ∧
        t = { s with calls := f.f :: s.calls, data := s.data.clone f.f }
    | .callEnd d, t => d ∈ s.calls ∧
        t = { s with calls := s.calls.erase d, data := s.data.release d }

/-! ## What a construction takes -/

namespace NewCall

variable {E}

omit [DecidableEq κ] in
/-- A message is written into no box. -/
theorem writeError_keeps {F : Type} (text : String) (cells : Slots κ (Function F)) :
    Prog.Keeps (fun s : HostMemory κ F => s.functions = cells) (makePlugin.writeError text) := by
  rw [makePlugin.writeError]
  cases CString.new text with
  | none => exact .fail _
  | some e => exact .bind .get fun s => .ite (.fail _) (.modify fun _ kept => kept)

/-- The loop takes what is there, whatever `errmsg` points to. -/
theorem register_ok {F : Type} (array : List (Option κ)) {funcs fs : List (Function F)}
    {s t : HostMemory κ F} (run : makePlugin.register funcs array s = (.ok fs, t)) :
    fs = funcs ++ (s.functions.takes array.reduceOption).reduceOption ∧
      t.functions = s.functions.after array.reduceOption := by
  induction array generalizing funcs s with
  | nil =>
      obtain ⟨rfl, rfl⟩ := Prog.of_pure run
      exact ⟨(List.append_nil _).symm, rfl⟩
  | cons entry rest ih =>
      obtain ⟨took, s₁, round, run⟩ := Prog.bind_eq_ok run
      obtain ⟨rfl, left⟩ := ih run
      cases entry with
      | none =>
          obtain ⟨rfl, rfl⟩ := Prog.of_pure round
          rw [List.reduceOption_cons_of_none]
          exact ⟨rfl, left⟩
      | some k =>
          rw [List.reduceOption_cons_of_some, Slots.takes]
          obtain ⟨taken, s₂, take, round⟩ := Prog.bind_eq_ok round
          obtain ⟨rfl, rfl⟩ : s.functions k = taken ∧
              { s with functions := s.functions.clear k } = s₂ := by
            simpa using (makePlugin.take_run rfl s.errmsg).symm.trans take
          cases here : s.functions k with
          | some f =>
              rw [here] at round
              obtain ⟨rfl, rfl⟩ := Prog.of_pure round
              rw [List.reduceOption_cons_of_some, List.append_assoc]
              exact ⟨rfl, left⟩
          | none =>
              rw [here] at round
              obtain ⟨_, s₃, refused, round⟩ := Prog.bind_eq_ok round
              obtain ⟨rfl, rfl⟩ := Prog.of_pure round
              have kept := writeError_keeps makePlugin.refusal.text (s.functions.clear k)
                { s with functions := s.functions.clear k } rfl
              rw [show makePlugin.writeError makePlugin.refusal.text _ = _ from refused] at kept
              rw [kept] at left ⊢
              rw [List.reduceOption_cons_of_none]
              exact ⟨rfl, left⟩

omit [DecidableEq δ] in
theorem run_ok {c : NewCall κ} {cells : Slots κ (Function δ)} {errmsg : Option (Option CString)}
    {plugin : Option (Built M σ δ)} {mem : HostMemory κ δ}
    (run : c.run E ⟨cells, errmsg⟩ = (.ok plugin, mem)) :
    mem.functions = cells.after c.array.reduceOption ∧
      ∀ b ∈ plugin, b.functions = held c.array cells := by
  rw [run_eq] at run
  obtain ⟨funcs, left, registered, reported⟩ := Prog.bind_eq_ok run
  obtain ⟨took, emptied⟩ := register_ok c.array registered
  rw [List.nil_append, Slots.reduceOption_takes] at took
  subst took
  change makePlugin.report (c.new E (held c.array cells)) left = _ at reported
  cases made : c.new E (held c.array cells) with
  | ok b =>
      rw [made] at reported
      obtain ⟨rfl, rfl⟩ := Prog.of_pure reported
      exact ⟨emptied, fun b' mem => by rw [← Option.some.inj mem, functions_of_new made]⟩
  | error stop =>
      rw [made] at reported
      cases stop with
      | panic => simp [makePlugin.report] at reported
      | failed e =>
          have kept : Prog.Keeps (fun s : HostMemory κ δ => s.functions = left.functions)
              (makePlugin.report (M := M) (σ := σ) (.error (.failed e))) :=
            .bind .get fun s => .bind (.ite (writeError_keeps _ _) (.pure _)) fun _ => .pure _
          have same := kept left rfl
          rw [reported] at same
          obtain ⟨_, s₁, -, reported⟩ := Prog.bind_eq_ok reported
          obtain ⟨_, s₂, -, reported⟩ := Prog.bind_eq_ok reported
          obtain ⟨-, rfl⟩ := Prog.of_pure reported
          exact ⟨same.trans emptied, fun b mem => by simp at mem⟩

end NewCall

/-! ## Runs -/

section Steps

variable {s t : ApiState κ π δ} {place : δ → Option (κ ⊕ π)} {E}

omit [DecidableEq π] [DecidableEq δ] in
/-- What is left in the boxes. -/
theorem ApiState.refill_iff (ks : List κ) (k : κ) (f : Function δ) :
    s.refill (s.cells.after ks) k = some (some f) ↔ s.functions k = some (some f) ∧ k ∉ ks := by
  rw [refill, Slots.after_apply, cells]
  cases s.functions k with
  | none => simp
  | some cell => by_cases mem : k ∈ ks <;> simp [mem]

omit [DecidableEq π] [DecidableEq δ] in
/-- What is taken out of them. -/
theorem ApiState.mem_held_iff (array : List (Option κ)) (f : Function δ) :
    f ∈ held array s.cells ↔ ∃ k ∈ array.reduceOption, s.functions k = some (some f) := by
  simp only [held, List.mem_filterMap, List.mem_eraseDups, cells, Option.join_eq_some_iff]

namespace ApiState.Owned

omit [DecidableEq π] in
/-- A function is taken exactly if its box is listed. -/
theorem taken_iff (O : s.Owned place) {array : List (Option κ)} {k : κ} {f : Function δ}
    (boxed : s.functions k = some (some f)) :
    f.f ∈ (held array s.cells).map Function.f ↔ k ∈ array.reduceOption := by
  constructor
  · intro mem
    obtain ⟨f', mem, eq⟩ := List.mem_map.1 mem
    obtain ⟨k', listed, boxed'⟩ := (mem_held_iff array f').1 mem
    have there := O.boxed k' f' boxed'
    rw [eq, O.boxed k f boxed] at there
    rwa [Sum.inl.inj (Option.some.inj there)]
  · exact fun listed => List.mem_map_of_mem ((mem_held_iff array f).2 ⟨k, listed, boxed⟩)

omit [DecidableEq π] in
theorem nodup_taken (O : s.Owned place) (array : List (Option κ)) :
    ((held array s.cells).map Function.f).Nodup := by
  rw [held, List.map_filterMap]
  refine (Slots.nodup_eraseDups _).filterMap fun k k' d here there => ?_
  obtain ⟨f, boxed, rfl⟩ := Option.map_eq_some_iff.1 here
  obtain ⟨f', boxed', eq⟩ := Option.map_eq_some_iff.1 there
  have first := O.boxed k f (Option.join_eq_some_iff.1 boxed)
  rw [← eq, O.boxed k' f' (Option.join_eq_some_iff.1 boxed')] at first
  exact (Sum.inl.inj (Option.some.inj first)).symm

omit [DecidableEq π] in
/-- What is taken was in a box, so no plugin has it. -/
theorem boxed_of_taken (O : s.Owned place) {array : List (Option κ)} {d : δ}
    (mem : d ∈ (held array s.cells).map Function.f) : ∃ k, place d = some (.inl k) := by
  obtain ⟨f, mem', rfl⟩ := List.mem_map.1 mem
  obtain ⟨k, -, boxed⟩ := (mem_held_iff array f).1 mem'
  exact ⟨k, O.boxed k f boxed⟩

omit [DecidableEq π] in
theorem not_taken (O : s.Owned place) {array : List (Option κ)} {p : π} {gs : List (Function δ)}
    (there : s.plugins p = some gs) {g : Function δ} (mem : g ∈ gs) :
    g.f ∉ (held array s.cells).map Function.f := by
  intro taken
  obtain ⟨k, placed⟩ := O.boxed_of_taken taken
  rw [O.registered p gs there g mem] at placed
  simp at placed

omit [DecidableEq π] in
/-- A construction that fails drops what it took. -/
theorem pluginNew_failed (O : s.Owned place) (array : List (Option κ)) :
    Owned { s with
      functions := s.refill (s.cells.after array.reduceOption)
      data := dropFunctions (held array s.cells) s.data }
      fun d => if d ∈ (held array s.cells).map Function.f then none else place d := by
  refine O.removed (O.nodup_taken array) (fun f mem => ?_) (fun k f => ?_)
    (fun p gs there => ⟨there, fun g mem => O.not_taken there mem⟩) fun p gs there _ _ _ => there
  · obtain ⟨k, placed⟩ := O.boxed_of_taken (List.mem_map_of_mem mem)
    simp [placed]
  · rw [refill_iff]
    exact and_congr_right fun boxed => not_congr (O.taken_iff boxed).symm

/-- A plugin gets what was taken for it. -/
theorem pluginNew_made (O : s.Owned place) (array : List (Option κ)) {p : π}
    (free : s.plugins p = none) :
    Owned { s with
      functions := s.refill (s.cells.after array.reduceOption)
      plugins := Function.update s.plugins p (some (held array s.cells)) }
      fun d => if d ∈ (held array s.cells).map Function.f then some (.inr p) else place d := by
  have elsewhere : ∀ p' gs, Function.update s.plugins p (some (held array s.cells)) p' = some gs →
      p' ≠ p → s.plugins p' = some gs := fun p' gs there ne =>
    (Function.update_of_ne ne _ _).symm.trans there
  constructor
  · intro k f boxed
    obtain ⟨was, out⟩ := (refill_iff _ k f).1 boxed
    rw [if_neg (mt (O.taken_iff was).1 out), O.boxed k f was]
  · intro p' gs there
    by_cases same : p' = p
    · subst same
      obtain rfl := Option.some.inj ((Function.update_self p' _ s.plugins).symm.trans there)
      exact O.nodup_taken array
    · exact O.nodup p' gs (elsewhere p' gs there same)
  · intro p' gs there g mem
    by_cases same : p' = p
    · subst same
      obtain rfl := Option.some.inj ((Function.update_self p' _ s.plugins).symm.trans there)
      rw [if_pos (List.mem_map_of_mem mem)]
    · have was := elsewhere p' gs there same
      rw [if_neg (O.not_taken was mem), O.registered p' gs was g mem]
  · intro k d placed
    split at placed
    case isTrue => simp at placed
    case isFalse out =>
      obtain ⟨f, boxed, rfl⟩ := O.box k d placed
      exact ⟨f, (refill_iff _ k f).2 ⟨boxed, mt (O.taken_iff boxed).2 out⟩, rfl⟩
  · intro p' d placed
    split at placed
    case isTrue taken =>
      obtain rfl := Sum.inr.inj (Option.some.inj placed)
      obtain ⟨f, mem, eq⟩ := List.mem_map.1 taken
      exact ⟨_, Function.update_self .., f, mem, eq⟩
    case isFalse =>
      obtain ⟨gs, there, g, mem, rfl⟩ := O.plugin p' d placed
      have ne : p' ≠ p := by
        rintro rfl
        simp [free] at there
      exact ⟨gs, (Function.update_of_ne ne _ _).trans there, g, mem, rfl⟩
  · refine O.tracks.congr (fun d => ?_) fun _ => Iff.rfl
    rw [ApiState.owners, ApiState.owners]
    by_cases taken : d ∈ (held array s.cells).map Function.f
    · obtain ⟨k, placed⟩ := O.boxed_of_taken taken
      rw [if_pos taken, placed]
      rfl
    · rw [if_neg taken]

/-- **One action** keeps every function in one place. -/
theorem step (O : s.Owned place) {a : ApiAction κ π δ} (step : (ownerRuns E).step s a t) :
    ∃ place', t.Owned place' := by
  cases a with
  | functionNew k f userData =>
      obtain ⟨free, fresh, rfl⟩ := step
      exact ⟨_, O.functionNew free fresh userData⟩
  | functionFree k =>
      obtain ⟨cell, here, rfl⟩ := step
      exact ⟨_, O.functionFree here⟩
  | setNamespace k ns =>
      obtain ⟨cell, here, rfl⟩ := step
      exact ⟨_, O.setNamespace here ns⟩
  | pluginNew c errmsg p =>
      obtain ⟨-, plugin, mem, run, built⟩ := step
      obtain ⟨emptied, took⟩ := NewCall.run_ok run
      cases plugin with
      | none =>
          cases p with
          | none =>
              obtain rfl := built
              rw [emptied]
              exact ⟨_, O.pluginNew_failed c.array⟩
          | some p => exact built.elim
      | some b =>
          cases p with
          | none => exact built.elim
          | some p =>
              obtain ⟨free, rfl⟩ := built
              rw [emptied, took b rfl]
              exact ⟨_, O.pluginNew_made c.array free⟩
  | pluginFree p =>
      obtain ⟨fs, here, rfl⟩ := step
      exact ⟨_, O.pluginFree here⟩
  | callBegin p f =>
      obtain ⟨⟨fs, here, mem⟩, rfl⟩ := step
      exact ⟨_, O.callBegin here mem⟩
  | callEnd d =>
      obtain ⟨call, rfl⟩ := step
      exact ⟨_, O.callEnd call⟩

end ApiState.Owned

theorem owned_of_reachable (reach : (ownerRuns E).Reachable s) :
    ∃ place : δ → Option (κ ⊕ π), s.Owned place := by
  refine reach.invariant (I := fun s => ∃ place : δ → Option (κ ⊕ π), s.Owned place) ?_
    fun ⟨place, O⟩ step => O.step step
  rintro s rfl
  refine ⟨fun _ => none, ?_⟩
  constructor
  · exact fun k f boxed => by simp [ApiState.new] at boxed
  · exact fun p fs held => by simp [ApiState.new] at held
  · exact fun p fs held => by simp [ApiState.new] at held
  · exact fun k d placed => by simp at placed
  · exact fun p d placed => by simp at placed
  · exact Shared.Tracks.empty.congr (fun d => rfl) fun d => by simp [ApiState.new]

end Steps

/-- **User data are freed once**, when nobody can use them any more.  In every run
of a host, data are dropped exactly when no box and no plugin has their function
and no call with them goes on, and not twice; so a pointer given away once is
freed as often. -/
theorem userData_freed_once {s : ApiState κ π δ} (reach : (ownerRuns E).Reachable s) {d : δ}
    {c : CPtr} (made : s.made d = some c) :
    (d ∈ s.data.dropped ↔ ¬ s.Uses d) ∧ s.data.dropped.count d ≤ 1 ∧
      ∀ x, c.drop = some x → (∀ d' c', s.made d' = some c' → c'.drop = some x → d' = d) →
        s.freed.count x = s.data.dropped.count d := by
  obtain ⟨place, O⟩ := owned_of_reachable reach
  refine ⟨?_, O.tracks.dropped_le_one d, fun x callback alone => ?_⟩
  · rw [O.uses_iff, not_not]
    constructor
    · intro mem
      by_contra owned
      exact O.tracks.held d owned mem
    · intro none
      exact List.count_pos_iff.1 (by rw [O.tracks.gone d (by simp [made]) none]; decide)
  · refine Shared.count_filterMap (by rw [made]; exact callback) (fun d' found => ?_) _
    obtain ⟨c', made', callback'⟩ := Option.bind_eq_some_iff.1 found
    exact alone d' c' made' callback'

/-- A function is made, a plugin takes it, and the plugin is freed. -/
theorem userData_freed_once_of_hello :
    ∃ s : ApiState ℕ ℕ Unit, s.freed = [5] ∧ (() ∈ s.data.dropped ↔ ¬ s.Uses ()) ∧
      s.data.dropped.count () ≤ 1 ∧
      ∀ x, (⟨some 5, true⟩ : CPtr).drop = some x →
        (∀ d' c', s.made d' = some c' → c'.drop = some x → d' = ()) →
        s.freed.count x = s.data.dropped.count () := by
  let s₁ : ApiState ℕ ℕ Unit :=
    { (ApiState.new : ApiState ℕ ℕ Unit) with
      functions := Function.update (fun _ => none) 0 (some (some hello))
      data := UserData.share () .empty
      made := Function.update (fun _ => none) () (some ⟨some 5, true⟩) }
  let c : NewCall ℕ := .extismPluginNew emptyModule (some [some 0]) false
  have first : (ownerRuns Embedder.plain).Reachable s₁ :=
    (TransitionSystem.Reachable.of_init rfl).step (l := .functionNew 0 hello ⟨some 5, true⟩)
      ⟨rfl, rfl, rfl⟩
  have made : ((c.run Embedder.plain ⟨s₁.cells, some none⟩).1.toOption.bind id).isSome = true := by
    decide +kernel
  rcases run : c.run Embedder.plain ⟨s₁.cells, some none⟩ with ⟨e | _ | b, mem⟩
  · simp [run, Except.toOption] at made
  · simp [run, Except.toOption] at made
  · obtain ⟨-, took⟩ := NewCall.run_ok run
    let s₂ : ApiState ℕ ℕ Unit :=
      { s₁ with
        functions := s₁.refill mem.functions
        plugins := Function.update s₁.plugins 0 (some b.functions) }
    have taken : (ownerRuns Embedder.plain).step s₁ (.pluginNew c (some none) (some 0)) s₂ := by
      refine ⟨fun k listed => ?_, some b, mem, run, rfl, rfl⟩
      obtain rfl : k = 0 := by simpa [c, NewCall.array] using listed
      rfl
    have freed : (ownerRuns Embedder.plain).step s₂ (.pluginFree 0)
        { s₂ with
          plugins := Function.update s₂.plugins 0 none
          data := dropFunctions b.functions s₂.data } :=
      ⟨b.functions, rfl, rfl⟩
    have third := (first.step taken).step freed
    refine ⟨_, ?_, userData_freed_once Embedder.plain third (by rfl)⟩
    change (dropFunctions b.functions s₁.data).dropped.filterMap
      (fun d => (s₁.made d).bind CPtr.drop) = [5]
    rw [took b rfl]
    decide +kernel

end Extism.Runtime
