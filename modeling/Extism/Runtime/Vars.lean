import Extism.Runtime.HostHandle
import Extism.Runtime.Pdk

/-!
# The variables are a map

The guest calls `var_get` and `var_set` between its other calls into the kernel;
blocks are freed and reused, and the kernel is reset from one plugin call to the
next.  A `State` carries, beside the plugin, the guest's account of its blocks
and the journal of the `var_set`s that returned, each with the bytes its handles
stood for at the time.

The variables are described by the journal (`Good.vars`), whatever happens to
the blocks.  What `var_get` and `var_set` answer follows from that.

## Main definitions

* `State`, `varRuns` — a plugin in use, and its runs: any interleaving of `var_get`,
  `var_set`, calls into the kernel that keep to its contract and `reset_store`.
* `Good` — the invariant of a plugin's variables.
* `State.Answers`, `State.IsMap` — what `var_get` answers, and that the variables are
  a map with a limit.

## Main results

* `varKey_run` — the key at an offset is the text of the live block there.
* `varSet_accepted`, `varSet_refused`, `vars_of_varSet_error` — a `var_set` that is
  accepted, and one that fails and changes no variable.
* `varGet_absent`, `varGet_stored` — a variable that is not there, and one that is.
* `Good.step` — one action keeps the invariant.
* `isMap_of_reachable` — the variables are a map with a limit, in every state
  reached.
-/

namespace Extism.Runtime.Pdk

open Kernel (Instance Ledger Sound confinedRuns)
open FirstFit (Cell)

/-- A plugin in use. -/
structure State where
  plugin : CurrentPlugin
  /-- The flag of the `Plugin`; `reset_store` looks at it. -/
  storeNeedsReset : Bool
  /-- The guest's account of its blocks. -/
  ledger : Ledger
  /-- The `var_set`s that returned. -/
  journal : Journal String (List UInt8)

namespace State

/-- The kernel and the guest's account. -/
def config (s : State) : Kernel.Config := ⟨s.plugin.kernel, s.ledger⟩

/-- The bytes of the live block at an offset; the null handle has none. -/
def block (s : State) (h : ℕ) : Option (List UInt8) :=
  (liveHandle s.ledger h).map (CurrentPlugin.memoryBytes s.plugin.kernel)

/-- The text there, if it is UTF-8. -/
def text (s : State) (h : ℕ) : Option String :=
  (s.block h).bind fun bs => String.fromUTF8? ⟨bs.toArray⟩

/-- A plugin as it is made, with an untouched kernel. -/
def fresh (owner : Owner) (pages : ℕ) (host : ℕ → Bool) : State where
  plugin := ⟨owner, .fresh pages host, ∅⟩
  storeNeedsReset := false
  ledger := .empty
  journal := []

/-- `reset_store`: a new `CurrentPlugin` in a new store, linked to the kernel
instance `linked`. -/
def resetStore (linked : Instance) (s : State) : State :=
  if s.storeNeedsReset then
    { s with plugin := ⟨s.plugin.owner, linked, ∅⟩, storeNeedsReset := false, ledger := .empty }
  else s

/-- The account when `var_get` has answered: the guest asks for the length of the
block it was given. -/
def accountFor (s : State) (p : CurrentPlugin) : Except Error ℕ → Ledger
  | .ok h => s.ledger.after (.alloc ((Kernel.length h p.kernel).1.toOption.getD 0)) h
  | .error _ => s.ledger

/-- The write a `var_set` stands for. -/
def entry (s : State) (k v : ℕ) : Option (String × Option (List UInt8)) :=
  (s.text k).map fun key => (key, if v = 0 then none else s.block v)

/-- The journal when `var_set` has ended. -/
def noted (s : State) (k v : ℕ) : Except Error Unit → Journal String (List UInt8)
  | .ok _ => (s.entry k v).toList ++ s.journal
  | .error _ => s.journal

variable (utf8Error : List UInt8 → Error)

/-- The state after `var_get`. -/
def afterGet (s : State) (k : ℕ) : State :=
  let (r, p) := varGet utf8Error k s.plugin
  { s with plugin := p, ledger := s.accountFor p r }

/-- The state after `var_set`. -/
def afterSet (s : State) (k v : ℕ) : State :=
  let (r, p) := varSet utf8Error k v s.plugin
  { s with plugin := p, journal := s.noted k v r }

end State

/-- What happens to a plugin. -/
inductive Action
  /-- A completed call into the kernel, `reset` among them, and its answer. -/
  | kernel (call : Kernel.Call) (v : ℕ)
  | varGet (k : ℕ)
  | varSet (k v : ℕ)
  | resetStore (linked : Instance)

variable (utf8Error : List UInt8 → Error)

/-- The runs of a plugin whose guest keeps to the kernel's contract.  Any offset
may be passed for a key or a value, and a run goes on behind a call that
failed. -/
def varRuns : TransitionSystem State Action where
  init s := ∃ owner pages host, 1 ≤ pages ∧ pages ≤ Kernel.MAX_PAGES ∧ s = .fresh owner pages host
  step s
    | .kernel call v, s' => confinedRuns.step s.config (call, v) s'.config ∧
        s' = { s with plugin := { s.plugin with kernel := s'.plugin.kernel }, ledger := s'.ledger }
    | .varGet k, s' => s' = s.afterGet utf8Error k
    | .varSet k v, s' => s' = s.afterSet utf8Error k v
    | .resetStore linked, s' => s' = s.resetStore linked

/-- **The invariant of a plugin's variables.** -/
structure Good (s : State) : Prop where
  sound : ∃ cs, Sound s.config cs
  filled : s.ledger.Filled
  vars : s.journal.Describes List.length VAR_LIMIT s.plugin.vars
  values : ∀ k v, (k, some v) ∈ s.journal → v ≠ [] ∧ v.length < 2 ^ 32
  kept : s.storeNeedsReset = false

/-! ## What the calls do -/

section Calls

variable {s : State} {utf8Error}

theorem onKernel_run {α : Type} {x : KernelExec α} {p : CurrentPlugin} {r : Except Error α}
    {m : Instance} (run : x p.kernel = (r, m)) : onKernel x p = (r, { p with kernel := m }) := by
  rw [onKernel, Prog.zoom, run]

theorem onKernel_keeps {α : Type} (vars : Vars) (x : KernelExec α) :
    Prog.Keeps (fun p : CurrentPlugin => p.vars = vars) (onKernel x) := fun _ kept => kept

/-- An error where there is nothing. -/
theorem toOption_elim {α : Type} (o : Option α) (e : Error) :
    (o.elim (.error e) .ok : Except Error α).toOption = o := by
  cases o <;> rfl

theorem eq_ok_of_toOption {α : Type} {r : Except Error α} {a : α} (eq : r.toOption = some a) :
    r = .ok a := by
  cases r with
  | error e => simp [Except.toOption] at eq
  | ok b => rw [Option.some.inj eq]

theorem eq_error_of_toOption {α : Type} {r : Except Error α} (eq : r.toOption = none) :
    ∃ e, r = .error e := by
  cases r with
  | error e => exact ⟨e, rfl⟩
  | ok b => simp [Except.toOption] at eq

/-- The handle for an offset is that of the live block there. -/
theorem handleFor_run (G : Good s) (what : String) (h : ℕ) :
    ∃ r m, s.plugin.kernel.UpToBoot m ∧ handleFor what h s.plugin.kernel = (r, m) ∧
      r.toOption = liveHandle s.ledger h := by
  obtain ⟨cs, S⟩ := G.sound
  obtain ⟨m, left, run⟩ := CurrentPlugin.memoryHandle_run S G.filled h
  change CurrentPlugin.memoryHandle h s.plugin.kernel = (.ok (liveHandle s.ledger h), m) at run
  exact ⟨_, m, left, by rw [handleFor, Prog.bind_ok run, Prog.ofExcept_apply], toOption_elim _ _⟩

/-- The key at an offset is the text of the live block there. -/
theorem varKey_run (utf8Error : List UInt8 → Error) (G : Good s) (k : ℕ) :
    ∃ r m, s.plugin.kernel.UpToBoot m ∧ varKey utf8Error k s.plugin.kernel = (r, m) ∧
      r.toOption = s.text k := by
  obtain ⟨cs, S⟩ := G.sound
  obtain ⟨r, m, left, run, handle⟩ := handleFor_run G "var key" k
  rw [State.text, State.block, ← handle]
  cases r with
  | error e => exact ⟨.error e, m, left, by rw [varKey, Prog.bind_error run], rfl⟩
  | ok handle' =>
      have same := CurrentPlugin.memoryBytes_upToBoot S left handle.symm
      refine ⟨_, m, left, by rw [varKey, Prog.bind_ok run, varKey.text,
        Prog.bind_ok (Prog.get_apply m), Prog.ofExcept_apply], ?_⟩
      rw [toOption_elim, CurrentPlugin.memoryStr, same]
      rfl

/-- Setting up the root keeps the invariant. -/
theorem Good.upToBoot (G : Good s) {m : Instance} (left : s.plugin.kernel.UpToBoot m) :
    Good { s with plugin := { s.plugin with kernel := m } } := by
  obtain ⟨cs, S⟩ := G.sound
  exact ⟨⟨cs, S.upToBoot left⟩, G.filled, G.vars, G.values, G.kept⟩

/-- The write `var_set` is to make. -/
def State.accepted (s : State) (k v : ℕ) : Option (String × Option (List UInt8)) :=
  if v = 0 then (s.text k).map fun key => (key, none)
  else if VAR_LIMIT < s.plugin.vars.total List.length then none
  else (s.text k).bind fun key => (s.block v).map fun bs => (key, some bs)

/-- A write that is made is a removal, or finds the store within the limit. -/
theorem State.of_accepted {k v : ℕ} {w : String × Option (List UInt8)}
    (accepted : s.accepted k v = some w) :
    s.text k = some w.1 ∧ ((v = 0 ∧ w.2 = none) ∨
      (v ≠ 0 ∧ s.plugin.vars.total List.length ≤ VAR_LIMIT ∧
        ∃ bs, s.block v = some bs ∧ w.2 = some bs)) := by
  rw [State.accepted] at accepted
  split at accepted
  case isTrue removal =>
    obtain ⟨key, text, rfl⟩ := Option.map_eq_some_iff.1 accepted
    exact ⟨text, .inl ⟨removal, rfl⟩⟩
  case isFalse value =>
    split at accepted
    case isTrue => simp at accepted
    case isFalse within =>
      obtain ⟨key, text, block⟩ := Option.bind_eq_some_iff.1 accepted
      obtain ⟨bs, found, rfl⟩ := Option.map_eq_some_iff.1 block
      exact ⟨text, .inr ⟨value, Nat.le_of_not_lt within, bs, found, rfl⟩⟩

theorem State.entry_of_accepted {k v : ℕ} {w : String × Option (List UInt8)}
    (accepted : s.accepted k v = some w) : s.entry k v = some w := by
  obtain ⟨text, ⟨removal, none⟩ | ⟨value, -, bs, block, some⟩⟩ := State.of_accepted accepted
  · rw [State.entry, text, Option.map_some, if_pos removal, ← none]
  · rw [State.entry, text, Option.map_some, if_neg value, block, ← some]

/-- The full store takes no value. -/
theorem varSet_full {p : CurrentPlugin} (full : VAR_LIMIT < p.vars.total List.length) (k : ℕ)
    {v : ℕ} (value : v ≠ 0) :
    varSet utf8Error k v p = (.error (.msg "Variable store is full"), p) := by
  rw [varSet, Prog.bind_ok (Prog.get_apply p), if_pos ⟨full, value⟩]
  rfl

/-- `var_set`, once the key is read. -/
theorem varSet_key (utf8Error : List UInt8 → Error) (G : Good s) {k v : ℕ} {key : String}
    (text : s.text k = some key) (passes : s.plugin.vars.total List.length ≤ VAR_LIMIT ∨ v = 0) :
    ∃ m, s.plugin.kernel.UpToBoot m ∧
      varSet utf8Error k v s.plugin = varSet.store key v { s.plugin with kernel := m } := by
  obtain ⟨r, m, left, run, eq⟩ := varKey_run utf8Error G k
  obtain rfl := eq_ok_of_toOption (eq.trans text)
  refine ⟨m, left, ?_⟩
  rw [varSet, Prog.bind_ok (Prog.get_apply _), if_neg (by omega),
    Prog.bind_ok (onKernel_run run)]

/-- `var_set` makes the write it is to make. -/
theorem varSet_accepted (utf8Error : List UInt8 → Error) (G : Good s) {k v : ℕ}
    {w : String × Option (List UInt8)} (accepted : s.accepted k v = some w) :
    ∃ m, s.plugin.kernel.UpToBoot m ∧ varSet utf8Error k v s.plugin =
      (.ok (), { s.plugin with kernel := m, vars := s.plugin.vars.put w.1 w.2 }) := by
  obtain ⟨text, ⟨removal, none⟩ | ⟨value, within, bs, block, some⟩⟩ := State.of_accepted accepted
  · obtain ⟨m, left, run⟩ := varSet_key utf8Error G text (.inr removal)
    refine ⟨m, left, ?_⟩
    rw [run, none, varSet.store, if_pos removal]
    rfl
  · obtain ⟨m, left, run⟩ := varSet_key utf8Error G text (.inl within)
    obtain ⟨handle, live, rfl⟩ := Option.map_eq_some_iff.1 block
    obtain ⟨r, m', left', run', eq⟩ := handleFor_run (G.upToBoot left) "var value" v
    obtain rfl := eq_ok_of_toOption (eq.trans live)
    obtain ⟨cs, S⟩ := G.sound
    have both := S.upToBoot_trans left left'
    refine ⟨m', both, ?_⟩
    rw [run, some, varSet.store, if_neg value, Prog.bind_ok (onKernel_run run'),
      Prog.modify_apply]
    simp only [CurrentPlugin.memoryBytes_upToBoot S both live]
    rfl

/-- `var_set` fails where there is no write to make. -/
theorem varSet_refused (utf8Error : List UInt8 → Error) (G : Good s) {k v : ℕ}
    (refused : s.accepted k v = none) :
    ∃ e m, s.plugin.kernel.UpToBoot m ∧
      varSet utf8Error k v s.plugin = (.error e, { s.plugin with kernel := m }) := by
  by_cases full : VAR_LIMIT < s.plugin.vars.total List.length ∧ v ≠ 0
  · exact ⟨_, _, .inl rfl, varSet_full full.1 k full.2⟩
  cases text : s.text k with
  | none =>
      obtain ⟨r, m, left, run, eq⟩ := varKey_run utf8Error G k
      obtain ⟨e, rfl⟩ := eq_error_of_toOption (eq.trans text)
      refine ⟨e, m, left, ?_⟩
      rw [varSet, Prog.bind_ok (Prog.get_apply _), if_neg full,
        Prog.bind_error (onKernel_run run)]
  | some key =>
      obtain ⟨m, left, run⟩ := varSet_key (v := v) utf8Error G text (by omega)
      rw [State.accepted, text] at refused
      split at refused
      case isTrue => simp at refused
      case isFalse value =>
        rw [if_neg fun exceeds => full ⟨exceeds, value⟩] at refused
        have none : liveHandle s.ledger v = none := by simpa [State.block] using refused
        obtain ⟨r, m', left', run', eq⟩ := handleFor_run (G.upToBoot left) "var value" v
        obtain ⟨e, rfl⟩ := eq_error_of_toOption (eq.trans none)
        obtain ⟨cs, S⟩ := G.sound
        refine ⟨e, m', S.upToBoot_trans left left', ?_⟩
        rw [run, varSet.store, if_neg value, Prog.bind_error (onKernel_run run')]

/-- **A `var_set` that fails changes no variable**, on any memory. -/
theorem vars_of_varSet_error {p : CurrentPlugin} {k v : ℕ} {e : Error}
    (failed : (varSet utf8Error k v p).1 = .error e) :
    (varSet utf8Error k v p).2.vars = p.vars := by
  have store : ∀ key, Prog.KeepsOnError (fun q : CurrentPlugin => q.vars = p.vars)
      (varSet.store key v) := fun key =>
    .ite (.modify _) (.bind (onKernel_keeps _ _) fun _ => .modify _)
  have keeps : Prog.KeepsOnError (fun q : CurrentPlugin => q.vars = p.vars)
      (varSet utf8Error k v) :=
    .bind .get fun _ => .ite (.of_keeps (.fail _)) (.bind (onKernel_keeps _ _) store)
  exact keeps p e rfl failed

/-- `var_get` changes no variable, on any memory. -/
theorem vars_of_varGet (p : CurrentPlugin) (k : ℕ) : (varGet utf8Error k p).2.vars = p.vars := by
  have keeps : Prog.Keeps (fun q : CurrentPlugin => q.vars = p.vars) (varGet utf8Error k) :=
    (onKernel_keeps _ _).bind fun _ => Prog.Keeps.get.bind fun _ => onKernel_keeps _ _
  exact keeps p rfl

/-! ## `var_get` -/

/-- No key, no answer. -/
theorem varGet_invalid (utf8Error : List UInt8 → Error) (G : Good s) {k : ℕ}
    (text : s.text k = none) :
    ∃ e m, s.plugin.kernel.UpToBoot m ∧
      varGet utf8Error k s.plugin = (.error e, { s.plugin with kernel := m }) := by
  obtain ⟨r, m, left, run, key⟩ := varKey_run utf8Error G k
  obtain ⟨e, rfl⟩ := eq_error_of_toOption (key.trans text)
  exact ⟨e, m, left, by rw [varGet, Prog.bind_error (onKernel_run run)]⟩

/-- `var_get`, once the key is read. -/
theorem varGet_key (utf8Error : List UInt8 → Error) (G : Good s) {k : ℕ} {key : String}
    (text : s.text k = some key) :
    ∃ m, s.plugin.kernel.UpToBoot m ∧ varGet utf8Error k s.plugin =
      onKernel (varGet.answer s.plugin.owner (s.plugin.vars.lookup key))
        { s.plugin with kernel := m } := by
  obtain ⟨r, m, left, run, eq⟩ := varKey_run utf8Error G k
  obtain rfl := eq_ok_of_toOption (eq.trans text)
  refine ⟨m, left, ?_⟩
  rw [varGet, Prog.bind_ok (onKernel_run run), Prog.bind_ok (Prog.get_apply _)]

/-- A variable that is not there. -/
theorem varGet_absent (utf8Error : List UInt8 → Error) (G : Good s) {k : ℕ} {key : String}
    (text : s.text k = some key) (absent : s.plugin.vars.lookup key = none) :
    ∃ m, s.plugin.kernel.UpToBoot m ∧
      varGet utf8Error k s.plugin = (.ok 0, { s.plugin with kernel := m }) := by
  obtain ⟨m, left, run⟩ := varGet_key utf8Error G text
  refine ⟨m, left, ?_⟩
  rw [run, absent]
  rfl

/-- A stored value is not empty, and shorter than 4 GiB. -/
theorem Good.of_lookup (G : Good s) {key : String} {bs : List UInt8}
    (stored : s.plugin.vars.lookup key = some bs) : bs ≠ [] ∧ bs.length < 2 ^ 32 := by
  rw [G.vars.lookup] at stored
  exact G.values key bs (Journal.mem_of_last stored)

/-- **A variable that is there**: `alloc` refuses, or the value is in a new
block. -/
theorem varGet_stored (utf8Error : List UInt8 → Error) (G : Good s) {k : ℕ} {key : String}
    {bs : List UInt8} (text : s.text k = some key) (stored : s.plugin.vars.lookup key = some bs) :
    (∃ m, Kernel.alloc bs.length s.plugin.kernel = (.ok 0, m) ∧ varGet utf8Error k s.plugin =
        (.error (s.plugin.owner.refusal m), { s.plugin with kernel := m })) ∨
      ∃ h m, varGet utf8Error k s.plugin = (.ok h, { s.plugin with kernel := m }) ∧ h ≠ 0 ∧
        (∀ n, (h, n) ∉ s.ledger.live) ∧ CurrentPlugin.memoryBytes m ⟨h, bs.length⟩ = bs ∧
        (∃ cs, Sound ⟨m, s.ledger.after (.alloc bs.length) h⟩ cs) ∧
        (h, bs.length) ∈ (s.ledger.after (.alloc bs.length) h).live := by
  obtain ⟨some, small⟩ := G.of_lookup stored
  obtain ⟨m, left, run⟩ := varGet_key utf8Error G text
  obtain ⟨cs, S⟩ := G.sound
  have S' : Sound ⟨m, s.ledger⟩ cs := S.upToBoot left
  rw [run, stored]
  rcases CurrentPlugin.memoryNew_run S' s.plugin.owner some small with
    ⟨m', refused, failed⟩ | ⟨h, m', null, made⟩
  · refine .inl ⟨m', ?_, ?_⟩
    · exact (S.alloc_upToBoot left (by simpa using some)).symm.trans refused
    · exact onKernel_run (Prog.bind_error failed)
  · obtain ⟨fresh, bytes, sound, live⟩ := CurrentPlugin.memoryNew_found S' some made
    exact .inr ⟨h, m', onKernel_run (Prog.bind_ok made), null, fresh, bytes, sound, live⟩

/-! ## The invariant -/

/-- The guest learns the length of the block it was given. -/
theorem accountFor_eq {m : Instance} {cs : List Cell} {h n : ℕ} {p : CurrentPlugin}
    (S : Sound ⟨m, s.ledger.after (.alloc n) h⟩ cs)
    (live : (h, n) ∈ (s.ledger.after (.alloc n) h).live) (kernel : p.kernel = m) :
    s.accountFor p (.ok h) = s.ledger.after (.alloc n) h := by
  have told := S.accurate.length h n live
  rw [State.accountFor, kernel, told]
  rfl

theorem accountFor_null (p : CurrentPlugin) : s.accountFor p (.ok 0) = s.ledger := by
  rw [State.accountFor, Ledger.after, if_pos rfl]

/-- An action that leaves the variables alone. -/
theorem Good.of_kernel (G : Good s) {m : Instance} {L : Ledger} (sound : ∃ cs, Sound ⟨m, L⟩ cs)
    (filled : L.Filled) : Good { s with plugin := { s.plugin with kernel := m }, ledger := L } :=
  ⟨sound, filled, G.vars, G.values, G.kept⟩

theorem Good.afterGet (G : Good s) (k : ℕ) : Good (s.afterGet utf8Error k) := by
  obtain ⟨cs, S⟩ := G.sound
  rw [State.afterGet]
  cases text : s.text k with
  | none =>
      obtain ⟨e, m, left, run⟩ := varGet_invalid utf8Error G text
      rw [run]
      exact G.of_kernel ⟨cs, S.upToBoot left⟩ G.filled
  | some key =>
      cases stored : s.plugin.vars.lookup key with
      | none =>
          obtain ⟨m, left, run⟩ := varGet_absent utf8Error G text stored
          rw [run]
          simp only [accountFor_null]
          exact G.of_kernel ⟨cs, S.upToBoot left⟩ G.filled
      | some bs =>
          obtain ⟨some, small⟩ := G.of_lookup stored
          rcases varGet_stored utf8Error G text stored with
            ⟨m, refused, run⟩ | ⟨h, m, run, -, -, -, ⟨cs', S'⟩, live⟩
          · -- the refused allocation is a step that adds no block
            have step : confinedRuns.step s.config (.alloc bs.length, 0) ⟨m, s.ledger⟩ :=
              ⟨⟨small, by simp [Kernel.Call.span]⟩, refused, rfl⟩
            obtain ⟨cs', -, S'⟩ := S.step step
            rw [run]
            exact G.of_kernel ⟨cs', S'⟩ G.filled
          · have account : s.accountFor { s.plugin with kernel := m } (.ok h) =
                s.ledger.after (.alloc bs.length) h := accountFor_eq S' live rfl
            rw [run]
            simp only [account]
            refine G.of_kernel ⟨cs', S'⟩ ?_
            rw [Ledger.after]
            split
            · exact G.filled
            · exact List.forall_mem_cons.2 ⟨List.length_pos_iff.2 some, G.filled⟩

/-- The sum of the lengths fits a `usize`. -/
theorem Good.total_lt (G : Good s) : s.plugin.vars.total List.length < 2 ^ 33 := by
  have total := G.vars.total
  have largest : s.journal.largest List.length < 2 ^ 32 :=
    Journal.largest_lt (by decide) fun k v mem => (G.values k v mem).2
  simp only [VAR_LIMIT] at total
  omega

/-- A live block has some bytes, and fewer than 4 GiB. -/
theorem Good.of_block (G : Good s) {v : ℕ} {bs : List UInt8} (value : v ≠ 0)
    (block : s.block v = some bs) : bs ≠ [] ∧ bs.length < 2 ^ 32 := by
  obtain ⟨handle, found, rfl⟩ := Option.map_eq_some_iff.1 block
  rw [liveHandle, if_neg value] at found
  obtain ⟨n, listed, rfl⟩ := Option.map_eq_some_iff.1 found
  obtain ⟨cs, S⟩ := G.sound
  have live := ObjectStore.Blocks.mem_of_lookup listed
  have pos : 0 < n := G.filled _ live
  have inside : v + n ≤ s.config.kernel.size := S.isolated.inside _ live
  have size := S.heap.size_le
  simp only [Instance.size, Instance.pages_boot] at inside size
  have length : (CurrentPlugin.memoryBytes s.plugin.kernel ⟨v, n⟩).length = n := by
    simp [CurrentPlugin.memoryBytes]
  exact ⟨List.ne_nil_of_length_pos (by omega), by omega⟩

theorem Good.afterSet (G : Good s) (k v : ℕ) : Good (s.afterSet utf8Error k v) := by
  rw [State.afterSet]
  cases accepted : s.accepted k v with
  | none =>
      obtain ⟨e, m, left, run⟩ := varSet_refused utf8Error G accepted
      rw [run]
      exact G.upToBoot left
  | some w =>
      obtain ⟨m, left, run⟩ := varSet_accepted utf8Error G accepted
      obtain ⟨cs, S⟩ := G.sound
      rw [run]
      simp only [State.noted, State.entry_of_accepted accepted]
      obtain ⟨-, passed⟩ := State.of_accepted accepted
      refine ⟨⟨cs, S.upToBoot left⟩, G.filled, ?_, ?_, G.kept⟩
      · exact G.vars.put w.1 (passed.imp And.right fun value => value.2.1)
      · intro key bs mem
        rcases List.mem_cons.1 mem with same | mem
        · rcases passed with ⟨-, none⟩ | ⟨value, -, bs', block, some⟩
          · rw [← same] at none
            simp at none
          · rw [← same] at some
            obtain rfl := Option.some.inj some
            exact G.of_block value block
        · exact G.values key bs mem

/-- **One action** keeps the invariant. -/
theorem Good.step (G : Good s) {a : Action} {s' : State} (step : (varRuns utf8Error).step s a s') :
    Good s' := by
  cases a with
  | kernel call v =>
      obtain ⟨moved, same⟩ := step
      obtain ⟨cs, S⟩ := G.sound
      obtain ⟨cs', -, S'⟩ := S.step moved
      rw [same]
      exact G.of_kernel ⟨cs', S'⟩ (Ledger.Filled.step (c := s.config) G.filled moved.2)
  | varGet k =>
      obtain rfl := step
      exact G.afterGet k
  | varSet k v =>
      obtain rfl := step
      exact G.afterSet k v
  | resetStore linked =>
      -- nothing sets the flag, so the store is never replaced
      obtain rfl := step
      rwa [State.resetStore, if_neg (by simp [G.kept])]

theorem good_of_reachable (reach : (varRuns utf8Error).Reachable s) : Good s := by
  refine reach.invariant (I := Good) ?_ fun G step => G.step step
  rintro _ ⟨owner, pages, host, lo, hi, rfl⟩
  exact ⟨⟨[], Sound.fresh lo hi host⟩, fun x mem => absurd mem List.not_mem_nil,
    Journal.Describes.empty, fun k v mem => absurd mem List.not_mem_nil, rfl⟩

end Calls

/-! ## The map the guest sees -/

/-- `var_get` of a key answers with the value `stored`: 0 if there is none, else
a block that was not live and holds the value.  It fails only if `alloc` answers
0, with the error of the refusal. -/
def State.Answers (s : State) (k : ℕ) : Option (List UInt8) → Prop
  | none => (varGet utf8Error k s.plugin).1 = .ok 0
  | some bs =>
      (∃ h, (varGet utf8Error k s.plugin).1 = .ok h ∧ h ≠ 0 ∧ (∀ n, (h, n) ∉ s.ledger.live) ∧
        (s.afterGet utf8Error k).block h = some bs) ∨
      ∃ m, Kernel.alloc bs.length s.plugin.kernel = (.ok 0, m) ∧
        (varGet utf8Error k s.plugin).1 = .error (s.plugin.owner.refusal m)

/-- **The variables of `s` are a map with a limit.** -/
structure State.IsMap (s : State) : Prop where
  /-- `var_get` gives the last accepted value. -/
  get : ∀ k key, s.text k = some key → s.Answers utf8Error k (s.journal.last key)
  /-- A value is refused exactly if the store is over the limit. -/
  set : ∀ k key, s.text k = some key → ∀ v bs, v ≠ 0 → s.block v = some bs →
    ((varSet utf8Error k v s.plugin).1 = .ok () ↔
        s.plugin.vars.total List.length ≤ VAR_LIMIT) ∧
      ((varSet utf8Error k v s.plugin).1 = .error (.msg "Variable store is full") ↔
        VAR_LIMIT < s.plugin.vars.total List.length)
  /-- A removal is not refused. -/
  remove : ∀ k key, s.text k = some key → (varSet utf8Error k 0 s.plugin).1 = .ok ()
  /-- A call that fails changes nothing, nor does `var_get`. -/
  frame : ∀ k, (varGet utf8Error k s.plugin).2.vars = s.plugin.vars ∧
    ∀ v e, (varSet utf8Error k v s.plugin).1 = .error e →
      (varSet utf8Error k v s.plugin).2.vars = s.plugin.vars
  /-- The values exceed the limit by one value at most. -/
  total : s.plugin.vars.total List.length ≤ VAR_LIMIT + s.journal.largest List.length

section Map

variable {s : State} {utf8Error}

theorem Good.answers (G : Good s) {k : ℕ} {key : String} (text : s.text k = some key) :
    s.Answers utf8Error k (s.journal.last key) := by
  rw [← G.vars.lookup]
  cases stored : s.plugin.vars.lookup key with
  | none =>
      obtain ⟨m, -, run⟩ := varGet_absent utf8Error G text stored
      rw [State.Answers, run]
  | some bs =>
      rcases varGet_stored utf8Error G text stored with
        ⟨m, refused, run⟩ | ⟨h, m, run, null, fresh, bytes, ⟨cs, S⟩, live⟩
      · exact .inr ⟨m, refused, by rw [run]⟩
      · refine .inl ⟨h, by rw [run], null, fresh, ?_⟩
        have account : s.accountFor { s.plugin with kernel := m } (.ok h) =
            s.ledger.after (.alloc bs.length) h := accountFor_eq S live rfl
        have listed := ObjectStore.Blocks.lookup_of_mem S.account.nodup live
        rw [State.afterGet, run]
        simp only [State.block, liveHandle, account, if_neg null, listed, Option.map_some, bytes]

/-- A live value is accepted within the limit. -/
theorem accepted_of_block {k v : ℕ} {key : String} {bs : List UInt8} (text : s.text k = some key)
    (value : v ≠ 0) (block : s.block v = some bs)
    (within : s.plugin.vars.total List.length ≤ VAR_LIMIT) :
    s.accepted k v = some (key, some bs) := by
  rw [State.accepted, if_neg value, if_neg (Nat.not_lt.2 within), text, block]
  rfl

theorem Good.set_iff (G : Good s) {k v : ℕ} {key : String} {bs : List UInt8}
    (text : s.text k = some key) (value : v ≠ 0) (block : s.block v = some bs) :
    ((varSet utf8Error k v s.plugin).1 = .ok () ↔
        s.plugin.vars.total List.length ≤ VAR_LIMIT) ∧
      ((varSet utf8Error k v s.plugin).1 = .error (.msg "Variable store is full") ↔
        VAR_LIMIT < s.plugin.vars.total List.length) := by
  by_cases within : s.plugin.vars.total List.length ≤ VAR_LIMIT
  · obtain ⟨m, -, run⟩ := varSet_accepted utf8Error G
      (accepted_of_block text value block within)
    rw [run]
    simp [within]
  · rw [varSet_full (Nat.lt_of_not_le within) k value]
    simpa [within] using Nat.lt_of_not_le within

end Map

/-- **The variables are a map with a limit**, in every state reached. -/
theorem isMap_of_reachable {s : State} (reach : (varRuns utf8Error).Reachable s) :
    s.IsMap utf8Error := by
  have G := good_of_reachable reach
  constructor
  · exact fun k key text => G.answers text
  · exact fun k key text v bs value block => G.set_iff text value block
  · intro k key text
    have accepted : s.accepted k 0 = some (key, none) := by
      rw [State.accepted, if_pos rfl, text]
      rfl
    obtain ⟨m, -, run⟩ := varSet_accepted utf8Error G accepted
    rw [run]
  · exact fun k => ⟨vars_of_varGet _ k, fun v e => vars_of_varSet_error⟩
  · exact G.vars.total

/-- The state after a completed call into the kernel. -/
def State.afterCall (s : State) (call : Kernel.Call) (v : ℕ) : State :=
  { s with
    plugin := { s.plugin with kernel := (call.run s.plugin.kernel).2 }
    ledger := s.ledger.after call v }

theorem reachable_afterCall {s : State} (reach : (varRuns utf8Error).Reachable s)
    (call : Kernel.Call) (v : ℕ) (ok : call.Confined s.ledger.live)
    (done : (call.run s.plugin.kernel).1 = .ok v) :
    (varRuns utf8Error).Reachable (s.afterCall call v) :=
  reach.step (l := .kernel call v) ⟨Kernel.confined_of_run (c := s.config) call v ok done, rfl⟩

/-- The key `k` in a block, and a value of three bytes in another. -/
def keyed : State :=
  ((((State.fresh ⟨"", fun _ => false⟩ 1 fun _ => false).afterCall (.alloc 1) 77).afterCall
    (.hostWrite 77 [107]) 0).afterCall (.alloc 3) 90).afterCall (.hostWrite 90 [1, 2, 3]) 0

theorem reachable_keyed : (varRuns utf8Error).Reachable keyed := by
  have start : (varRuns utf8Error).Reachable (State.fresh ⟨"", fun _ => false⟩ 1 fun _ => false) :=
    .of_init ⟨_, _, _, Nat.le_refl 1, by decide, rfl⟩
  have key := reachable_afterCall utf8Error
    (reachable_afterCall utf8Error start (.alloc 1) 77 (by decide) (by decide +kernel))
    (.hostWrite 77 [107]) 0 (by decide) (by decide +kernel)
  exact reachable_afterCall utf8Error
    (reachable_afterCall utf8Error key (.alloc 3) 90 (by decide) (by decide +kernel))
    (.hostWrite 90 [1, 2, 3]) 0 (by decide) (by decide +kernel)

/-- The value is set, and `var_get` answers with it. -/
theorem isMap_of_keyed :
    let s := keyed.afterSet (fun _ => .msg "invalid utf-8 sequence") 77 90
    s.IsMap (fun _ => .msg "invalid utf-8 sequence") ∧
      s.journal = [("k", some [1, 2, 3])] := by
  constructor
  · exact isMap_of_reachable _ ((reachable_keyed _).step (l := .varSet 77 90) rfl)
  · decide +kernel

end Extism.Runtime.Pdk
