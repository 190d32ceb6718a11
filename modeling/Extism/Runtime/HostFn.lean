import Extism.Convert.Bytes
import Extism.Runtime.BuildNew
import Extism.Runtime.HostObjects

/-!
# Typed host functions

`host_fn!` wraps a block of the user's, from typed arguments to a typed result,
into a host function of the untyped kind: each argument is decoded from the
block at the offset that was passed, and the result is encoded in a new block,
whose offset is the answer.  The user data live across calls, and only the block
of the user's touches them.

`hostFn` is the wrapper, on the user data and the kernel.  `HostFn.Applies` says
what it is on objects (`output_run`): the kernel is no more than the way there
and back.

## Main definitions

* `HostFn`, `Args` — a block of the user's, with its types, and its arguments.
* `CurrentPlugin.memoryGetVal` — an argument, decoded.
* `HostFn.hostFn`, `HostFn.output` — the function the macro makes, and the same up
  to the handle of its result.
* `HostFn.received` — the arguments that the inputs stand for.
* `HostFn.Applies`, `HostFn.Fits` — what a typed host function does, and that what
  its block returns has fewer than 4 GiB.

## Main results

* `HostFn.memoryGetVal_run`, `HostFn.args_run` — the arguments are those the inputs
  stand for, and reading them changes no object.
* `HostFn.output_run` — a typed host function is its block on objects.
-/

namespace Extism.Runtime

open Kernel (Instance Config Call Ledger Sound confinedRuns)
open FirstFit (Cell)
open ObjectStore (Store)
open Extism.Convert (ValueType)

/-- `Val::i64`: the value, if it is an `i64`. -/
def Val.asI64 : Val → Option Int64
  | .i64 x => some x
  | _ => none

/-- The offset in an argument; what is no `i64` counts as 0. -/
def Val.offset (offs : Val) : ℕ := (offs.asI64.getD 0).toUInt64.toNat

/-- `memory_to_val`. -/
def MemoryHandle.toVal (handle : MemoryHandle) : Val :=
  .i64 (UInt64.ofNat handle.offset).toInt64

/-- The arguments of a typed host function. -/
def Args : List ValueType → Type
  | [] => Unit
  | t :: ts => t.Value × Args ts

/-- A block of the user's, with its types.  It may fail, or panic. -/
structure HostFn (D : Type) where
  params : List ValueType
  result : ValueType
  body : Args params → Prog D Stop result.Value

-- the `into` of a codec's error, and what printing a value gives
variable (report : Convert.Error → Error) (debug : Val → String)

/-- The error of `memory_get_val`. -/
def invalidOffset (id : String) (offs : Val) : Error :=
  .msg (id ++ " invalid memory offset: " ++ debug offs)

namespace CurrentPlugin

/-- `memory_get_val`, with the handle. -/
def memoryGetVal.found (id : String) (t : ValueType) (offs : Val) :
    Option MemoryHandle → KernelExec t.Value
  | some handle => do
      let m ← Prog.get
      Prog.ofExcept ((Convert.fromBytes (memoryBytes m handle)).mapError report)
  | none => Prog.fail (invalidOffset debug id offs)

/-- `memory_get_val`. -/
def memoryGetVal (id : String) (t : ValueType) (offs : Val) : KernelExec t.Value := do
  let handle ← memoryHandle offs.offset
  memoryGetVal.found report debug id t offs handle

end CurrentPlugin

namespace HostFn

variable {D : Type}

/-- Go to the kernel; an error is one of the host function's. -/
def onKernel {α : Type} (x : KernelExec α) : Prog (D × Instance) Stop α :=
  (x.mapError Stop.failed).zoom Prod.snd fun s m => (s.1, m)

/-- Run the block of the user's. -/
def onData {α : Type} (x : Prog D Stop α) : Prog (D × Instance) Stop α :=
  x.zoom Prod.fst fun s d => (d, s.2)

/-- `inputs[index]`. -/
def input (inputs : List Val) (index : ℕ) : Except Stop Val :=
  (inputs[index]?).elim (.error .panic) .ok

/-- The arguments from `inputs[index]` on. -/
def args (id : String) (inputs : List Val) :
    (ts : List ValueType) → ℕ → Prog (D × Instance) Stop (Args ts)
  | [], _ => pure ()
  | t :: ts, index => do
      let offs ← Prog.ofExcept (input inputs index)
      let arg ← onKernel (CurrentPlugin.memoryGetVal report debug id t offs)
      let rest ← args id inputs ts (index + 1)
      pure (arg, rest)

/-- `memory_new` of a value. -/
def encode (owner : Owner) (t : ValueType) (v : t.Value) : KernelExec MemoryHandle := do
  let data ← Prog.ofExcept ((Convert.toBytes v).mapError report)
  CurrentPlugin.memoryNew owner data

/-- `if !outputs.is_empty() { outputs[0] = .. }`. -/
def answer (outputs : List Val) (handle : MemoryHandle) : List Val :=
  if outputs = [] then [] else outputs.set 0 handle.toVal

/-- The function `host_fn!` makes, up to the handle of its result. -/
def output (f : HostFn D) (owner : Owner) (inputs : List Val) :
    Prog (D × Instance) Stop MemoryHandle := do
  let args ← args report debug owner.id inputs f.params 0
  let output ← onData (f.body args)
  onKernel (encode report owner f.result output)

/-- The function `host_fn!` makes; what it leaves in `outputs`. -/
def hostFn (f : HostFn D) (owner : Owner) (inputs outputs : List Val) :
    Prog (D × Instance) Stop (List Val) := do
  let output ← f.output report debug owner inputs
  pure (answer outputs output)

/-! ## What it is on objects -/

/-- The argument an offset stands for. -/
def receivedAt (id : String) (s : Store ℕ UInt8) (t : ValueType) (offs : Val) :
    Except Error t.Value :=
  (block s offs.offset).elim (.error (invalidOffset debug id offs)) fun bytes =>
    (Convert.fromBytes bytes).mapError report

/-- The arguments that `inputs` stand for, from `inputs[index]` on. -/
def received (id : String) (s : Store ℕ UInt8) (inputs : List Val) :
    (ts : List ValueType) → ℕ → Except Stop (Args ts)
  | [], _ => .ok ()
  | t :: ts, index => do
      let offs ← input inputs index
      let arg ← (receivedAt report debug id s t offs).mapError Stop.failed
      let rest ← received id s inputs ts (index + 1)
      pure ((arg, rest) : t.Value × Args ts)

/-- **What a typed host function does**: if its arguments are there, the block of
the user's is run on them and on the user data, and the bytes of its result are
handed over.  Nothing else changes. -/
inductive Applies (f : HostFn D) (id : String) (refuses : ℕ → Option Error)
    (inputs outputs : List Val) (d : D) (s : Store ℕ UInt8) :
    Except Stop (List Val) → D → Store ℕ UInt8 → Prop
  | refused {e : Stop} (reads : received report debug id s inputs f.params 0 = .error e) :
      Applies f id refuses inputs outputs d s (.error e) d s
  | failed {xs : Args f.params} {e : Stop} {d' : D}
      (reads : received report debug id s inputs f.params 0 = .ok xs)
      (ran : f.body xs d = (.error e, d')) : Applies f id refuses inputs outputs d s (.error e) d' s
  | returned {xs : Args f.params} {y : f.result.Value} {d' : D} {data : List UInt8}
      {r : Except Error ℕ} {t : Store ℕ UInt8}
      (reads : received report debug id s inputs f.params 0 = .ok xs)
      (ran : f.body xs d = (.ok y, d')) (encoded : Convert.toBytes y = .ok data)
      (hands : Hands refuses data s r t) :
      Applies f id refuses inputs outputs d s
        ((r.mapError Stop.failed).map fun h => answer outputs ⟨h, data.length⟩) d' t

/-- What the block of the user's returns has fewer than 4 GiB. -/
def Fits (f : HostFn D) (id : String) (inputs : List Val) (d : D) (s : Store ℕ UInt8) : Prop :=
  ∀ xs, received report debug id s inputs f.params 0 = .ok xs → ∀ y d', f.body xs d = (.ok y, d') →
    ∀ bytes, Convert.toBytes y = .ok bytes → bytes.length < 2 ^ 32

section Spec

variable {c : Config} {m : Instance}

theorem onKernel_run {α : Type} {x : KernelExec α} {r : Except Error α} (run : x c.kernel = (r, m))
    (d : D) : onKernel x (d, c.kernel) = (r.mapError Stop.failed, (d, m)) := by
  rw [onKernel, Prog.zoom, Prog.mapError, run]

/-- `memory_get_val` decodes the object. -/
theorem memoryGetVal_run (G : Good c) (id : String) (t : ValueType) (offs : Val) :
    ∃ m, c.kernel.UpToBoot m ∧ CurrentPlugin.memoryGetVal report debug id t offs c.kernel =
      (receivedAt report debug id c.objects t offs, m) := by
  obtain ⟨handle, m, left, run, -, found⟩ := memoryHandle_block G offs.offset
  refine ⟨m, left, ?_⟩
  rw [CurrentPlugin.memoryGetVal, Prog.bind_ok run, receivedAt, ← found]
  cases handle <;> rfl

/-- The arguments are those the inputs stand for, and reading them changes no
object. -/
theorem args_run (G : Good c) (id : String) (inputs : List Val) (ts : List ValueType) (d : D) :
    ∀ index, ∃ m, c.kernel.UpToBoot m ∧ args report debug id inputs ts index (d, c.kernel) =
      (received report debug id c.objects inputs ts index, (d, m)) := by
  obtain ⟨cs, S⟩ := G.sound
  induction ts generalizing c with
  | nil => exact fun index => ⟨c.kernel, .inl rfl, rfl⟩
  | cons t ts ih =>
      intro index
      rw [args, received]
      cases passed : input inputs index with
      | error e => exact ⟨c.kernel, .inl rfl, Prog.bind_error (Prog.ofExcept_apply _ _)⟩
      | ok offs =>
          rw [Prog.bind_ok (Prog.ofExcept_apply _ _)]
          obtain ⟨m, left, run⟩ := memoryGetVal_run report debug G id t offs
          have ran := onKernel_run run d
          change ∃ m', c.kernel.UpToBoot m' ∧ _ =
            (((receivedAt report debug id c.objects t offs).mapError Stop.failed >>= _), (d, m'))
          cases decoded : (receivedAt report debug id c.objects t offs).mapError Stop.failed with
          | error e =>
              rw [decoded] at ran
              exact ⟨m, left, Prog.bind_error ran⟩
          | ok x =>
              rw [decoded] at ran
              obtain ⟨m', left', rest⟩ := ih (G.upToBoot left) (S.upToBoot left) (index + 1)
              rw [objects_upToBoot S left] at rest
              refine ⟨m', S.upToBoot_trans left left', ?_⟩
              rw [Prog.bind_ok ran]
              change (args report debug id inputs ts (index + 1) >>= _) (d, m) =
                ((received report debug id c.objects inputs ts (index + 1) >>= _), (d, m'))
              cases others : received report debug id c.objects inputs ts (index + 1) with
              | error e =>
                  rw [others] at rest
                  exact Prog.bind_error rest
              | ok xs =>
                  rw [others] at rest
                  exact Prog.bind_ok rest

/-- **A typed host function is its block on objects**, if what the block returns
has fewer than 4 GiB. -/
theorem output_run (G : Good c) (f : HostFn D) (owner : Owner) (inputs : List Val) (d : D)
    (small : f.Fits report debug owner.id inputs d c.objects) :
    ∃ r d' m, f.output report debug owner inputs (d, c.kernel) = (r, (d', m)) ∧
      Good (Config.handed c m (r.map MemoryHandle.offset)) ∧
      ∀ outputs, Applies report debug f owner.id (owner.refuses c.kernel) inputs outputs d
        c.objects (r.map (answer outputs)) d'
        (Config.handed c m (r.map MemoryHandle.offset)).objects := by
  obtain ⟨cs, S⟩ := G.sound
  obtain ⟨m, left, read⟩ := args_run report debug G owner.id inputs f.params d 0
  have G' := G.upToBoot left
  have same := objects_upToBoot S left
  rw [HostFn.output]
  cases reads : received report debug owner.id c.objects inputs f.params 0 with
  | error e =>
      rw [reads] at read
      refine ⟨_, _, _, Prog.bind_error read, G', fun outputs => ?_⟩
      change Applies report debug f _ _ inputs outputs d c.objects (.error e) d
        (Config.mk m _).objects
      rw [same]
      exact .refused reads
  | ok xs =>
      rw [reads] at read
      rw [Prog.bind_ok read]
      rcases ran : f.body xs d with ⟨e | y, d'⟩
      · have stopped : onData (f.body xs) (d, m) = (.error e, (d', m)) := by
          rw [onData, Prog.zoom, ran]
        refine ⟨_, _, _, Prog.bind_error stopped, G', fun outputs => ?_⟩
        change Applies report debug f _ _ inputs outputs d c.objects (.error e) d'
          (Config.mk m _).objects
        rw [same]
        exact .failed reads ran
      · have ended : onData (f.body xs) (d, m) = (.ok y, (d', m)) := by
          rw [onData, Prog.zoom, ran]
        rw [Prog.bind_ok ended]
        obtain ⟨data, encoded, -⟩ := Convert.fromBytes_toBytes f.result y
        obtain ⟨r, m', run, left', hands⟩ :=
          G'.memoryNew owner (small xs reads y d' ran data encoded)
        have made : encode report owner f.result y m = (r, m') := by
          rw [encode, encoded]
          exact run
        have account : Config.handed c m' ((r.mapError Stop.failed).map MemoryHandle.offset) =
            Config.handed ⟨m, c.ledger⟩ m' (r.map MemoryHandle.offset) := by
          cases r <;> rfl
        refine ⟨r.mapError Stop.failed, d', m', onKernel_run (c := ⟨m, c.ledger⟩) made d', ?_⟩
        rw [account]
        refine ⟨left', fun outputs => ?_⟩
        rw [same, refuses_upToBoot S left] at hands
        have told : (r.mapError Stop.failed).map (answer outputs) =
            ((r.map MemoryHandle.offset).mapError Stop.failed).map
              fun h => answer outputs ⟨h, data.length⟩ := by
          cases r <;> rfl
        rw [told]
        exact .returned reads ran encoded hands

end Spec

end HostFn

end Extism.Runtime
