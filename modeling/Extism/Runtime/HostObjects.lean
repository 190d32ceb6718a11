import Extism.Kernel.Objects
import Extism.Runtime.HostHandle
import Extism.Runtime.Pdk

/-!
# The host on the guest's objects

What the host gives a guest to do with kernel memory besides the kernel itself:
the memory functions of the C API, which host functions written in C or Java
call, and `config_get`.  All of them take and return offsets.

On a kernel that was only used within the contract they are operations on its
objects: an offset stands for the object there (`block`), and what is handed
over becomes a new object, or, exactly where the kernel's `alloc` refuses one of
that length, nothing is changed (`Hands`).  They end on every offset, whatever the
walk for it meets.

## Main definitions

* `CurrentPlugin.extismCurrentPluginMemoryAlloc`, `…Length`, `…Free` and
  `Pdk.configGet` — the functions of the source.
* `block`, `textAt` — what an offset stands for.
* `Hands`, `LooksUp` — handing data over, and looking something up, on objects.
* `Good`, `Config.handed` — a kernel whose caller's account is right, and the
  account when something was handed over.

## Main results

* `Good.memoryNew` — `memory_new` hands data over.
* `Good.memoryAlloc`, `Good.memoryLength`, `Good.memoryFree`, `Good.configGet` —
  each function is its operation on objects, on every offset.
-/

namespace Extism.Runtime

open Kernel (Instance Config Call Ledger Sound confinedRuns)
open FirstFit (Cell)
open ObjectStore (Store Allows Blocks)

namespace CurrentPlugin

/-- `memory_free`. -/
def memoryFree (handle : MemoryHandle) : KernelExec Unit := callKernel (Kernel.free handle.offset)

/-- `extism_current_plugin_memory_alloc`: 0 if there is no memory. -/
def extismCurrentPluginMemoryAlloc (owner : Owner) (n : ℕ) : KernelExec ℕ := do
  let handle ← (memoryAlloc owner n).attempt
  pure ((handle.toOption.map MemoryHandle.offset).getD 0)

/-- `extism_current_plugin_memory_length`. -/
def extismCurrentPluginMemoryLength (n : ℕ) : KernelExec ℕ := do
  let length ← (memoryLength n).attempt
  pure (length.toOption.getD 0)

/-- Free what was found; an error is dropped. -/
def extismCurrentPluginMemoryFree.found : Option MemoryHandle → KernelExec Unit
  | some handle => do
      let _ ← (memoryFree handle).attempt
      pure ()
  | none => pure ()

/-- `extism_current_plugin_memory_free`. -/
def extismCurrentPluginMemoryFree (ptr : ℕ) : KernelExec Unit := do
  let handle ← memoryHandle ptr
  extismCurrentPluginMemoryFree.found handle

end CurrentPlugin

/-- The configuration of a plugin, `Manifest::config`. -/
abbrev Settings : Type := AList fun _ : String => String

/-- `config_get`; `utf8Error` is the error of `from_utf8`. -/
def Pdk.configGet (utf8Error : List UInt8 → Error) (owner : Owner) (config : Settings)
    (offset : ℕ) : KernelExec ℕ := do
  let handle ← handleFor "config key" offset
  let key ← varKey.text utf8Error handle
  varGet.answer owner ((config.lookup key).map fun v => v.toUTF8.toList)

/-! ## What they are on objects -/

/-- The bytes an offset stands for; the null handle has none. -/
def block (s : Store ℕ UInt8) (h : ℕ) : Option (List UInt8) := if h = 0 then some [] else s h

/-- The bytes an offset stands for, or the error that it stands for none. -/
def bytesAt (e : Error) (s : Store ℕ UInt8) (h : ℕ) : Except Error (List UInt8) :=
  (block s h).elim (.error e) .ok

/-- The error that says what was looked for. -/
def noHandleFor (what : String) (offset : ℕ) : Error :=
  .msg ("invalid handle offset for " ++ what ++ ": " ++ toString offset)

/-- The text an offset stands for. -/
def textAt (utf8Error : List UInt8 → Error) (what : String) (s : Store ℕ UInt8) (h : ℕ) :
    Except Error String := do
  let bytes ← bytesAt (noHandleFor what h) s h
  (String.fromUTF8? ⟨bytes.toArray⟩).elim (.error (utf8Error bytes)) .ok

/-- **Data are handed over**: as a new object, or, where the memory refuses one of
that length, not at all.  No data are the null handle. -/
inductive Hands (refuses : ℕ → Option Error) (data : List UInt8) (s : Store ℕ UInt8) :
    Except Error ℕ → Store ℕ UInt8 → Prop
  | null (empty : data = []) : Hands refuses data s (.ok 0) s
  | made {h : ℕ} (nonempty : data ≠ []) (granted : refuses data.length = none) (handle : h ≠ 0)
      (fresh : s h = none) : Hands refuses data s (.ok h) (Function.update s h (some data))
  | refused {e : Error} (nonempty : data ≠ []) (full : refuses data.length = some e) :
      Hands refuses data s (.error e) s

section Hands

variable {refuses : ℕ → Option Error} {data : List UInt8} {s t : Store ℕ UInt8}

/-- What was handed over is there, and so is everything else. -/
theorem Hands.of_ok {h : ℕ} (hands : Hands refuses data s (.ok h) t) :
    block t h = some data ∧ ∀ h' old, s h' = some old → t h' = some old := by
  cases hands with
  | null empty => exact ⟨by rw [block, if_pos rfl, empty], fun _ _ there => there⟩
  | made nonempty granted handle fresh =>
      refine ⟨by rw [block, if_neg handle, Function.update_self], fun h' old there => ?_⟩
      rw [Function.update_of_ne, there]
      rintro rfl
      simp [fresh] at there

/-- What was handed over was not refused, if no data never are. -/
theorem Hands.granted_of_ok (nothing : refuses 0 = none) {h : ℕ}
    (hands : Hands refuses data s (.ok h) t) : refuses data.length = none := by
  cases hands with
  | null empty => rw [empty, List.length_nil, nothing]
  | made nonempty granted handle fresh => exact granted

/-- Data are refused for one reason, and nothing is changed then. -/
theorem Hands.of_error {e : Error} (hands : Hands refuses data s (.error e) t) :
    refuses data.length = some e ∧ t = s := by
  cases hands with
  | refused nonempty full => exact ⟨full, rfl⟩

end Hands

/-- A kernel whose caller's account is right. -/
structure Good (c : Config) : Prop where
  sound : ∃ cs, Sound c cs
  filled : c.ledger.Filled

/-- The account when the guest was handed something: it asks for the length. -/
def Config.handed {ε : Type} (c : Config) (m : Instance) : Except ε ℕ → Config
  | .ok h => ⟨m, c.ledger.after (.alloc ((Kernel.length h m).1.toOption.getD 0)) h⟩
  | .error _ => ⟨m, c.ledger⟩

@[simp] theorem Config.kernel_handed {ε : Type} (c : Config) (m : Instance) (r : Except ε ℕ) :
    (Config.handed c m r).kernel = m := by
  cases r <;> rfl

section Spec

variable {c : Config} {cs : List Cell} {m : Instance} {ε : Type}

/-- The objects do not depend on who sets up the root. -/
theorem objects_upToBoot (S : Sound c cs) (left : c.kernel.UpToBoot m) :
    (Config.mk m c.ledger).objects = c.objects := by
  refine Blocks.objects_congr fun b live => ?_
  rw [S.upToBoot_eq left (h := b.1) (n := b.2) live]

theorem Good.upToBoot (G : Good c) (left : c.kernel.UpToBoot m) : Good ⟨m, c.ledger⟩ := by
  obtain ⟨cs, S⟩ := G.sound
  exact ⟨⟨cs, S.upToBoot left⟩, G.filled⟩

theorem Good.step (G : Good c) {l : Call × ℕ} {c' : Config} (step : confinedRuns.step c l c') :
    Good c' := by
  obtain ⟨cs, S⟩ := G.sound
  obtain ⟨cs', -, S'⟩ := S.step step
  exact ⟨⟨cs', S'⟩, G.filled.step step.2⟩

/-- Nor does what the kernel refuses. -/
theorem refuses_upToBoot (S : Sound c cs) (left : c.kernel.UpToBoot m) (owner : Owner) :
    owner.refuses m = owner.refuses c.kernel := by
  funext n
  exact owner.refuses_congr (S.alloc_upToBoot left)

/-- The bytes of the handle for an offset. -/
theorem memoryHandle_block (G : Good c) (h : ℕ) :
    ∃ handle m, c.kernel.UpToBoot m ∧
      CurrentPlugin.memoryHandle h c.kernel = (.ok handle, m) ∧
      handle = liveHandle c.ledger h ∧
      handle.map (CurrentPlugin.memoryBytes m) = block c.objects h := by
  obtain ⟨cs, S⟩ := G.sound
  obtain ⟨m, left, run⟩ := CurrentPlugin.memoryHandle_run S G.filled h
  refine ⟨_, m, left, run, rfl, ?_⟩
  have same : (liveHandle c.ledger h).map (CurrentPlugin.memoryBytes m) =
      (liveHandle c.ledger h).map (CurrentPlugin.memoryBytes c.kernel) := by
    cases live : liveHandle c.ledger h with
    | none => rfl
    | some handle =>
        rw [Option.map_some, Option.map_some, CurrentPlugin.memoryBytes_upToBoot S left live]
  rw [same, liveHandle, block]
  split
  case isTrue => rfl
  case isFalse =>
    rw [Option.map_map]
    rfl

/-- An allocation is a step, whatever it answers. -/
theorem Good.alloc_step (G : Good c) {n : ℕ} (small : n < 2 ^ 32) :
    ∃ v m, Kernel.alloc n c.kernel = (.ok v, m) ∧
      confinedRuns.step c (.alloc n, v) ⟨m, c.ledger.after (.alloc n) v⟩ := by
  obtain ⟨cs, S⟩ := G.sound
  suffices ran : ∃ v m, Kernel.alloc n c.kernel = (.ok v, m) by
    obtain ⟨v, m, run⟩ := ran
    exact ⟨v, m, run, ⟨small, by simp [Call.span]⟩, run, rfl⟩
  by_cases zero : n = 0
  · exact ⟨0, c.kernel, by rw [Kernel.alloc, if_pos zero]; rfl⟩
  · obtain ⟨r, m, _, eq, -⟩ := S.heap.alloc_spec small
    exact ⟨_, m, Kernel.alloc_run zero S.pages eq⟩

/-- The objects after an allocation. -/
theorem Good.objects_alloc (G : Good c) {n v : ℕ} {c' : Config}
    (step : confinedRuns.step c (.alloc n, v) c') :
    Allows c.objects (.allocate n (if v = 0 then none else some v)) c'.objects := by
  obtain ⟨cs, S⟩ := G.sound
  exact S.objects_alloc step

/-- The account of what was handed over is that of the allocation. -/
theorem handed_eq {h n : ℕ} (S : Sound ⟨m, c.ledger.after (.alloc n) h⟩ cs)
    (live : (h, n) ∈ (c.ledger.after (.alloc n) h).live) :
    Config.handed c m (.ok h : Except ε ℕ) = ⟨m, c.ledger.after (.alloc n) h⟩ := by
  have told : (Kernel.length h m).1 = .ok n := S.accurate.length h n live
  rw [Config.handed, told]
  rfl

theorem handed_null : Config.handed c m (.ok 0 : Except ε ℕ) = ⟨m, c.ledger⟩ := by
  rw [Config.handed, Ledger.after, if_pos rfl]

/-- **`memory_new` hands data over.** -/
theorem Good.memoryNew (G : Good c) (owner : Owner) {data : List UInt8}
    (small : data.length < 2 ^ 32) :
    ∃ r m, CurrentPlugin.memoryNew owner data c.kernel = (r, m) ∧
      Good (Config.handed c m (r.map MemoryHandle.offset)) ∧
      Hands (owner.refuses c.kernel) data c.objects (r.map MemoryHandle.offset)
        (Config.handed c m (r.map MemoryHandle.offset)).objects := by
  obtain ⟨cs, S⟩ := G.sound
  by_cases nonempty : data ≠ []
  · rcases CurrentPlugin.memoryNew_run S owner nonempty small with
      ⟨m, refused, run⟩ | ⟨h, m, handle, run⟩
    · have step : confinedRuns.step c (.alloc data.length, 0) ⟨m, c.ledger⟩ :=
        ⟨⟨small, by simp [Call.span]⟩, refused, by simp [Ledger.after]⟩
      have same : (Config.mk m c.ledger).objects = c.objects := by
        simpa [Allows] using G.objects_alloc step
      refine ⟨_, m, run, G.step step, ?_⟩
      change Hands _ data c.objects _ (Config.mk m c.ledger).objects
      rw [same]
      exact .refused nonempty (owner.refuses_of_alloc_zero (by simpa using nonempty) refused)
    · obtain ⟨-, c₁, c₂, allocated, wrote, account, live, kept, rfl, -⟩ :=
        CurrentPlugin.memoryNew_steps S nonempty run
      obtain ⟨absent, bytes, ⟨cs', S'⟩, live'⟩ := CurrentPlugin.memoryNew_found S nonempty run
      obtain ⟨cs₁, -, S₁⟩ := S.step allocated
      have G₂ := (G.step allocated).step wrote
      have ledger : c₂.ledger = c.ledger.after (.alloc data.length) h := kept.trans account
      have same : c₂ = ⟨c₂.kernel, c.ledger.after (.alloc data.length) h⟩ := by rw [← ledger]
      refine ⟨_, c₂.kernel, run, ?_⟩
      change Good (Config.handed c c₂.kernel (.ok h : Except Error ℕ)) ∧
        Hands _ data c.objects (.ok h)
          (Config.handed c c₂.kernel (.ok h : Except Error ℕ)).objects
      rw [handed_eq S' live', ← same]
      refine ⟨G₂, ?_⟩
      -- the write replaces the new object
      obtain ⟨-, new, length, made⟩ :
          Allows c.objects (.allocate data.length (some h)) c₁.objects := by
        simpa [handle] using S.objects_alloc allocated
      have found := S₁.blockOf_of_live live (List.length_pos_of_ne_nil nonempty) (Nat.le_refl h)
        (Nat.le_refl _)
      have written : Allows c₁.objects (.write h 0 data) c₂.objects := by
        have step := S₁.objects_step wrote
        rw [Call.op, Ledger.writeOp, found] at step
        simpa only [Nat.sub_self] using step
      obtain ⟨old, there, -, put⟩ := written
      rw [made, Function.update_self] at there
      obtain rfl := Option.some.inj there
      rw [made, Function.update_idem, ObjectStore.overwrite_all length.symm] at put
      rw [put]
      exact .made nonempty (owner.refuses_of_alloc allocated.2.1 handle) handle
        (Sound.objects_of_not_live absent)
  · obtain rfl : data = [] := by simpa using nonempty
    refine ⟨.ok .null, c.kernel, rfl, ?_⟩
    change Good (Config.handed c c.kernel (.ok 0 : Except Error ℕ)) ∧
      Hands _ [] c.objects (.ok 0) (Config.handed c c.kernel (.ok 0 : Except Error ℕ)).objects
    rw [handed_null]
    exact ⟨G, .null rfl⟩

/-- **`extism_current_plugin_memory_alloc`** is an allocation. -/
theorem Good.memoryAlloc (G : Good c) (owner : Owner) {n : ℕ} (small : n < 2 ^ 32) :
    ∃ h m, CurrentPlugin.extismCurrentPluginMemoryAlloc owner n c.kernel = (.ok h, m) ∧
      Kernel.alloc n c.kernel = (.ok h, m) ∧ Good ⟨m, c.ledger.after (.alloc n) h⟩ ∧
      Allows c.objects (.allocate n (if h = 0 then none else some h))
        (Config.mk m (c.ledger.after (.alloc n) h)).objects := by
  obtain ⟨h, m, called, step⟩ := G.alloc_step small
  refine ⟨h, m, ?_, called, G.step step, G.objects_alloc step⟩
  have answered : ∃ r, CurrentPlugin.memoryAlloc owner n c.kernel = (r, m) ∧
      (r.toOption.map MemoryHandle.offset).getD 0 = h := by
    by_cases zero : n = 0
    · have idle := called
      rw [Kernel.alloc, if_pos zero] at idle
      obtain ⟨rfl, rfl⟩ := Prog.of_pure idle
      exact ⟨.ok .null, by rw [CurrentPlugin.memoryAlloc, if_pos zero]; rfl, rfl⟩
    · have ran : CurrentPlugin.memoryAlloc owner n c.kernel =
          CurrentPlugin.memoryAlloc.handle owner n h m := by
        rw [CurrentPlugin.memoryAlloc, if_neg zero, callKernel,
          Prog.bind_ok (Prog.mapError_ok called)]
      rw [ran]
      by_cases null : h = 0
      · subst null
        exact ⟨_, rfl, rfl⟩
      · rw [CurrentPlugin.memoryAlloc.handle_of_ne owner n m null]
        exact ⟨_, rfl, rfl⟩
  obtain ⟨r, ran, told⟩ := answered
  rw [CurrentPlugin.extismCurrentPluginMemoryAlloc, Prog.bind_ok (Prog.attempt_apply _ _),
    Prog.pure_apply, ran, told]

/-- **`extism_current_plugin_memory_length`** is the length of the object, 0 if
there is none. -/
theorem Good.memoryLength (G : Good c) (h : ℕ) :
    ∃ m, c.kernel.UpToBoot m ∧ CurrentPlugin.extismCurrentPluginMemoryLength h c.kernel =
      (.ok (((c.objects h).map List.length).getD 0), m) := by
  obtain ⟨cs, S⟩ := G.sound
  refine ⟨(Kernel.length h c.kernel).2, S.upToBoot_length h, ?_⟩
  rw [CurrentPlugin.extismCurrentPluginMemoryLength, Prog.bind_ok (Prog.attempt_apply _ _),
    Prog.pure_apply]
  refine Prod.ext (congrArg Except.ok ?_) rfl
  rw [CurrentPlugin.memoryLength, callKernel, Prog.mapError]
  by_cases held : ∃ n, (h, n) ∈ c.ledger.live
  · obtain ⟨n, live⟩ := held
    rw [S.objects_of_live live, S.accurate.length h n live, Option.map_some,
      ObjectStore.length_slice]
    rfl
  · have absent : ∀ n, (h, n) ∉ c.ledger.live := fun n live => held ⟨n, live⟩
    rw [Sound.objects_of_not_live absent]
    rcases run : Kernel.length h c.kernel with ⟨e | v, m⟩
    · rfl
    · refine S.heap.length_not_held S.pages (fun b k eq held => ?_) run
      exact absent k (by rw [← eq]; exact S.account.of_held held)

/-- Freeing a live block is a step. -/
theorem Good.free_step (G : Good c) {h n : ℕ} (live : (h, n) ∈ c.ledger.live) :
    ∃ m, Kernel.free h c.kernel = (.ok (), m) ∧
      confinedRuns.step c (.free h, 0) ⟨m, c.ledger.after (.free h) 0⟩ := by
  obtain ⟨cs, S⟩ := G.sound
  obtain ⟨b, rfl, held⟩ := S.account.held live
  have freed := S.heap.free_held S.pages held
  have ran : Call.run (.free (b + 12)) c.kernel = (.ok 0, c.kernel.boot.freed b) :=
    Kernel.Exec.discard_ok freed
  have ok : (Call.free (b + 12)).Confined c.ledger.live :=
    ⟨by simp [Call.requested], by simp [Call.span]⟩
  have step := Kernel.confined_of_run _ _ ok (congrArg Prod.fst ran)
  have left : c.after (.free (b + 12)) 0 =
      ⟨c.kernel.boot.freed b, c.ledger.after (.free (b + 12)) 0⟩ := by rw [Config.after, ran]
  rw [left] at step
  exact ⟨c.kernel.boot.freed b, freed, step⟩

/-- **`extism_current_plugin_memory_free`** drops the object, if there is one. -/
theorem Good.memoryFree (G : Good c) (h : ℕ) :
    ∃ m, CurrentPlugin.extismCurrentPluginMemoryFree h c.kernel = (.ok (), m) ∧
      Good ⟨m, c.ledger.after (.free h) 0⟩ ∧
      (Config.mk m (c.ledger.after (.free h) 0)).objects = Function.update c.objects h none := by
  obtain ⟨cs, S⟩ := G.sound
  obtain ⟨handle, m, left, run, live, -⟩ := memoryHandle_block G h
  have idle : (∀ n, (h, n) ∉ c.ledger.live) → c.ledger.after (.free h) 0 = c.ledger ∧
      Function.update c.objects h none = c.objects := by
    intro absent
    refine ⟨S.account.free_idle (fun b k eq held => ?_) 0, ?_⟩
    · exact absent k (by rw [← eq]; exact S.account.of_held held)
    · rw [← Sound.objects_of_not_live absent, Function.update_eq_self]
  rw [CurrentPlugin.extismCurrentPluginMemoryFree, Prog.bind_ok run, live, liveHandle]
  split
  case isTrue null =>
    -- the null handle is freed without a look at the memory
    obtain ⟨account, same⟩ := idle fun n listed => by
      obtain ⟨b, eq, -⟩ := S.account.held listed
      omega
    refine ⟨m, rfl, ?_⟩
    rw [account, same]
    exact ⟨G.upToBoot left, objects_upToBoot S left⟩
  case isFalse =>
    cases found : c.ledger.live.lookup h with
    | none =>
        obtain ⟨account, same⟩ := idle fun n listed => by
          rw [Blocks.lookup_of_mem S.account.nodup listed] at found
          simp at found
        refine ⟨m, rfl, ?_⟩
        rw [account, same]
        exact ⟨G.upToBoot left, objects_upToBoot S left⟩
    | some n =>
        have listed := Blocks.mem_of_lookup found
        obtain rfl := S.upToBoot_eq left listed
        obtain ⟨m, freed, step⟩ := G.free_step listed
        refine ⟨m, ?_, G.step step, S.objects_free step⟩
        have called : CurrentPlugin.memoryFree ⟨h, n⟩ c.kernel = (.ok (), m) :=
          Prog.mapError_ok freed
        rw [Option.map_some, CurrentPlugin.extismCurrentPluginMemoryFree.found,
          Prog.bind_ok (Prog.attempt_apply _ _), called]
        rfl

/-! ## `config_get` -/

/-- A value that may be missing: 0 stands for it. -/
def HandsAny (refuses : ℕ → Option Error) : Option (List UInt8) → Store ℕ UInt8 → Except Error ℕ →
    Store ℕ UInt8 → Prop
  | none, s, r, t => r = .ok 0 ∧ t = s
  | some data, s, r, t => Hands refuses data s r t

/-- `varGet.answer` hands the value over, or answers 0. -/
theorem Good.answer (G : Good c) (owner : Owner) {data : Option (List UInt8)}
    (small : ∀ bs, data = some bs → bs.length < 2 ^ 32) :
    ∃ r m, Pdk.varGet.answer owner data c.kernel = (r, m) ∧ Good (Config.handed c m r) ∧
      HandsAny (owner.refuses c.kernel) data c.objects r (Config.handed c m r).objects := by
  cases data with
  | none =>
      refine ⟨.ok 0, c.kernel, rfl, ?_⟩
      rw [handed_null]
      exact ⟨G, rfl, rfl⟩
  | some bs =>
      obtain ⟨r, m, run, left, hands⟩ := G.memoryNew owner (small bs rfl)
      refine ⟨r.map MemoryHandle.offset, m, ?_, left, hands⟩
      cases r with
      | error e => rw [Pdk.varGet.answer, Prog.bind_error run]; rfl
      | ok handle => rw [Pdk.varGet.answer, Prog.bind_ok run]; rfl

/-- What looking something up does: the key is the text of an object, and the
value becomes an object. -/
def LooksUp (utf8Error : List UInt8 → Error) (refuses : ℕ → Option Error) (what : String)
    (value : String → Option (List UInt8)) (k : ℕ) (s : Store ℕ UInt8) (r : Except Error ℕ)
    (t : Store ℕ UInt8) : Prop :=
  match textAt utf8Error what s k with
  | .error e => r = .error e ∧ t = s
  | .ok key => HandsAny refuses (value key) s r t

/-- What a handle is looked up for, with the error if there is none. -/
def handleOr (e : Error) (offset : ℕ) : KernelExec MemoryHandle := do
  let handle ← CurrentPlugin.memoryHandle offset
  Prog.ofExcept (handle.elim (.error e) .ok)

/-- What is made of the bytes of a handle. -/
def readWith {α : Type} (g : List UInt8 → Except Error α) (handle : MemoryHandle) :
    KernelExec α := do
  let m ← Prog.get
  Prog.ofExcept (g (CurrentPlugin.memoryBytes m handle))

/-- **Bytes are read at any offset**, if there are some. -/
theorem Good.readOr (G : Good c) (e : Error) (h : ℕ) :
    ∃ m, c.kernel.UpToBoot m ∧ ∀ {α : Type} (g : List UInt8 → Except Error α),
      (handleOr e h >>= readWith g) c.kernel = ((bytesAt e c.objects h).bind g, m) := by
  obtain ⟨handle, m, left, run, -, found⟩ := memoryHandle_block G h
  refine ⟨m, left, fun g => ?_⟩
  rw [bytesAt, ← found]
  cases handle with
  | none => exact Prog.bind_error (Prog.bind_ok run)
  | some handle => exact Prog.bind_ok (Prog.bind_ok run)

/-- A text is read at any offset. -/
theorem Good.readText (G : Good c) (utf8Error : List UInt8 → Error) (what : String) (h : ℕ) :
    ∃ m, c.kernel.UpToBoot m ∧
      (Pdk.handleFor what h >>= Pdk.varKey.text utf8Error) c.kernel =
        (textAt utf8Error what c.objects h, m) := by
  obtain ⟨m, left, run⟩ := G.readOr (noHandleFor what h) h
  exact ⟨m, left, run fun bytes =>
    (String.fromUTF8? ⟨bytes.toArray⟩).elim (.error (utf8Error bytes)) .ok⟩

/-- A text is looked up, at any offset. -/
theorem Good.lookUp (G : Good c) (utf8Error : List UInt8 → Error) (owner : Owner)
    (what : String) (value : String → Option (List UInt8))
    (small : ∀ key bs, value key = some bs → bs.length < 2 ^ 32) (k : ℕ) :
    ∃ r m, (do
        let key ← Pdk.handleFor what k >>= Pdk.varKey.text utf8Error
        Pdk.varGet.answer owner (value key)) c.kernel = (r, m) ∧ Good (Config.handed c m r) ∧
      LooksUp utf8Error (owner.refuses c.kernel) what value k c.objects r
        (Config.handed c m r).objects := by
  obtain ⟨cs, S⟩ := G.sound
  obtain ⟨m, left, run⟩ := G.readText utf8Error what k
  have G' := G.upToBoot left
  have same := objects_upToBoot S left
  unfold LooksUp
  cases text : textAt utf8Error what c.objects k with
  | error e =>
      rw [text] at run
      exact ⟨.error e, m, Prog.bind_error run, G', rfl, same⟩
  | ok key =>
      rw [text] at run
      obtain ⟨r, m', ran, left', hands⟩ := G'.answer owner (small key)
      rw [same, refuses_upToBoot S left] at hands
      exact ⟨r, m', (Prog.bind_ok run).trans ran, left', hands⟩

/-- The values of a configuration, as bytes. -/
def Settings.value (config : String → Option String) (key : String) : Option (List UInt8) :=
  (config key).map fun v => v.toUTF8.toList

/-- **`config_get`**, on every offset. -/
theorem Good.configGet (G : Good c) (utf8Error : List UInt8 → Error) (owner : Owner)
    {config : Settings} (small : ∀ k v, config.lookup k = some v → v.toUTF8.toList.length < 2 ^ 32)
    (k : ℕ) :
    ∃ r m, Pdk.configGet utf8Error owner config k c.kernel = (r, m) ∧ Good (Config.handed c m r) ∧
      LooksUp utf8Error (owner.refuses c.kernel) "config key" (Settings.value config.lookup) k
        c.objects r (Config.handed c m r).objects := by
  obtain ⟨r, m, run, left, looks⟩ := G.lookUp utf8Error owner "config key"
    (Settings.value config.lookup) (fun key bs found => by
      obtain ⟨v, stored, rfl⟩ := Option.map_eq_some_iff.1 found
      exact small key v stored) k
  exact ⟨r, m, by rw [← run, Pdk.configGet, Prog.bind_bind]; rfl, left, looks⟩

end Spec

end Extism.Runtime
