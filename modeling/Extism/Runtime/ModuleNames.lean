import Extism.Runtime.Manifest

/-!
# Under which names the modules are found

The last entry of a manifest is called `main` if no other is, and an entry
without a name is called `main` too.  `effectiveNames` says this of the list of
entries; the loop in `modules` decides it round by round, from the map it fills.
If every entry loads, the loop ends well exactly if the names are distinct and
none is the kernel's, and then every entry is in the map under its name.

A manifest with a single entry is treated apart in the source, and does what the
loop would do.

## Main definitions

* `effectiveNames` — the names the entries go by, from those configured.
* `Named` — the map has the kernel, and every entry under its name.

## Main results

* `Loader.modules.round_eq`, `Loader.modules.name_eq`, `Loader.modules.known_eq` — a
  round whose entry loads only inserts, under the first of the names left.
* `Loader.modules.free_iff` — names are free one after the other if they are
  distinct and all free.
* `Loader.modules.loop_spec` — the rounds from any entry on.
* `modules_ok_iff` — when `modules` succeeds, and what is in the map then.
-/

namespace Extism.Runtime

variable {M : Type} {L : Loader M}

/-- The names the entries go by, from those configured: the last is `main` unless
an earlier one is. -/
def effectiveNames (names : List String) : List String :=
  if MAIN_KEY ∈ names.dropLast then names else names.dropLast ++ [MAIN_KEY]

/-- The same, where a main module may be known already. -/
def effectiveFrom (known : Bool) : List String → List String
  | [] => []
  | name :: rest =>
      (if rest = [] ∧ known = false then MAIN_KEY else name) ::
        effectiveFrom (known || decide (name = MAIN_KEY)) rest

/-- **The map of modules**: the kernel, and every entry under its name, in a map
that `build_new` goes on with. -/
structure Named (kernel : M) (names : List String) (ms : List M) (mods : Modules M) : Prop where
  size : mods.entries.length = ms.length + 1
  kernel : mods.lookup EXTISM_ENV_MODULE = some kernel
  entry : ∀ {name : String} {m : M}, (name, m) ∈ names.zip ms → mods.lookup name = some m
  main : names.count MAIN_KEY = 1
  checked : buildNew.check mods = .ok ()

/-! ## Names -/

theorem length_effectiveNames {names : List String} (nonempty : names ≠ []) :
    (effectiveNames names).length = names.length := by
  have positive := List.length_pos_iff.2 nonempty
  rw [effectiveNames]
  split
  · rfl
  · rw [List.length_append, List.length_dropLast, List.length_singleton]
    omega

theorem main_mem_effectiveNames (names : List String) : MAIN_KEY ∈ effectiveNames names := by
  rw [effectiveNames]
  split
  case isTrue mem => exact List.dropLast_subset _ mem
  case isFalse => exact List.mem_append_right _ List.mem_cons_self

theorem effectiveFrom_eq {known : Bool} {names : List String} (nonempty : names ≠ []) :
    effectiveFrom known names =
      if known = true ∨ MAIN_KEY ∈ names.dropLast then names else names.dropLast ++ [MAIN_KEY] := by
  induction names generalizing known with
  | nil => exact absurd rfl nonempty
  | cons name rest ih =>
      cases rest with
      | nil => cases known <;> simp [effectiveFrom]
      | cons next rest =>
          have same : (known || decide (name = MAIN_KEY)) = true ∨
              MAIN_KEY ∈ (next :: rest).dropLast ↔
                known = true ∨ MAIN_KEY ∈ (name :: next :: rest).dropLast := by
            rw [List.dropLast_cons_cons, List.mem_cons, Bool.or_eq_true, decide_eq_true_eq,
              or_assoc, eq_comm (a := name)]
          rw [effectiveFrom, ih (List.cons_ne_nil _ _), if_neg (List.cons_ne_nil _ _ ·.1)]
          simp only [same]
          split <;> rfl

theorem effectiveFrom_false {names : List String} (nonempty : names ≠ []) :
    effectiveFrom false names = effectiveNames names := by
  simp [effectiveFrom_eq nonempty, effectiveNames]

/-! ## A round -/

namespace Loader

/-- A module comes with its configured name. -/
theorem toModule_name {w : Wasm} {name : String} {m : M} (loaded : L.toModule w = .ok (name, m)) :
    name = w.name := by
  cases w with
  | file path info =>
      rw [toModule] at loaded
      split at loaded
      · obtain ⟨buf, -, loaded⟩ := Except.bind_eq_ok loaded
        obtain ⟨_, -, loaded⟩ := Except.bind_eq_ok loaded
        obtain ⟨m', -, loaded⟩ := Except.bind_eq_ok loaded
        exact (Prod.mk.inj (Except.ok.inj loaded)).1.symm
      · simp at loaded
  | data data info =>
      obtain ⟨_, -, loaded⟩ := Except.bind_eq_ok loaded
      obtain ⟨m', -, loaded⟩ := Except.bind_eq_ok loaded
      exact (Prod.mk.inj (Except.ok.inj loaded)).1.symm
  | url req info =>
      rw [toModule] at loaded
      split at loaded
      · obtain ⟨data, -, loaded⟩ := Except.bind_eq_ok loaded
        obtain ⟨_, -, loaded⟩ := Except.bind_eq_ok loaded
        obtain ⟨m', -, loaded⟩ := Except.bind_eq_ok loaded
        exact (Prod.mk.inj (Except.ok.inj loaded)).1.symm
      · simp at loaded

/-- Inserting under a name that is free. -/
theorem modules.insert_of_notMem {name : String} {mods : Modules M} (free : name ∉ mods) (m : M) :
    modules.insert name m mods = (.ok (), mods.insert name m) := by
  rw [modules.insert, Prog.bind_ok (Prog.get_apply mods), if_neg free]
  rfl

theorem modules.insert_of_mem {name : String} {mods : Modules M} (taken : name ∈ mods) (m : M) :
    ∃ e, modules.insert name m mods = (.error e, mods) := by
  rw [modules.insert, Prog.bind_ok (Prog.get_apply mods), if_pos taken]
  exact ⟨_, rfl⟩

/-- A round whose entry loads only inserts. -/
theorem modules.round_eq {n i : ℕ} {f : Wasm} {m : M} (loaded : L.toModule f = .ok (f.name, m))
    (mods : Modules M) :
    modules.round L n i f mods =
      modules.insert (if i = n - 1 ∧ MAIN_KEY ∉ mods then MAIN_KEY else f.name) m mods := by
  have load : Prog.ofExcept (L.toModule f) mods = (.ok (f.name, m), mods) := by
    rw [Prog.ofExcept_apply, loaded]
  rw [modules.round, Prog.bind_ok load]
  rfl

/-- The name a round inserts under is the first of the names left. -/
theorem modules.name_eq {n i : ℕ} {name : String} {rest : List String}
    (place : i + (name :: rest).length = n) (mods : Modules M) :
    effectiveFrom (decide (MAIN_KEY ∈ mods)) (name :: rest) =
      (if i = n - 1 ∧ MAIN_KEY ∉ mods then MAIN_KEY else name) ::
        effectiveFrom (decide (MAIN_KEY ∈ mods) || decide (name = MAIN_KEY)) rest := by
  have last : rest = [] ↔ i = n - 1 := by
    rw [List.length_cons] at place
    rw [← List.length_eq_zero_iff]
    omega
  rw [effectiveFrom]
  simp only [last, decide_eq_false_iff_not]

/-- What the next round knows of a main module. -/
theorem modules.known_eq {n i : ℕ} {name : String} {rest : List String}
    (place : i + (name :: rest).length = n) (mods : Modules M) (m : M) :
    effectiveFrom (decide (MAIN_KEY ∈ mods) || decide (name = MAIN_KEY)) rest =
      effectiveFrom (decide (MAIN_KEY ∈
        mods.insert (if i = n - 1 ∧ MAIN_KEY ∉ mods then MAIN_KEY else name) m)) rest := by
  cases rest with
  | nil => rfl
  | cons next rest =>
      have inner : i ≠ n - 1 := by simp only [List.length_cons] at place; omega
      rw [if_neg (inner ·.1)]
      congr 1
      rw [Bool.eq_iff_iff, Bool.or_eq_true, decide_eq_true_eq, decide_eq_true_eq, decide_eq_true_eq,
        AList.mem_insert, or_comm, eq_comm]

/-- Names are free one after the other if they are distinct and all free. -/
theorem modules.free_iff {name : String} {mods : Modules M} (free : name ∉ mods) (m : M)
    (names : List String) :
    (names.Nodup ∧ ∀ x ∈ names, x ∉ mods.insert name m) ↔
      (name :: names).Nodup ∧ ∀ x ∈ name :: names, x ∉ mods := by
  rw [List.nodup_cons, List.forall_mem_cons]
  simp only [AList.mem_insert, not_or]
  constructor
  · rintro ⟨nodup, others⟩
    exact ⟨⟨fun mem => (others name mem).1 rfl, nodup⟩, free, fun x mem => (others x mem).2⟩
  · rintro ⟨⟨fresh, nodup⟩, -, others⟩
    exact ⟨nodup, fun x mem => ⟨fun same => fresh (same ▸ mem), others x mem⟩⟩

/-- **The rounds from entry `i` on** end well exactly if the names left are
distinct and free, and insert the entries under them. -/
theorem modules.loop_spec {n i : ℕ} {fs : List Wasm} {ms : List M}
    (loads : List.Forall₂ (fun f m => L.toModule f = .ok (f.name, m)) fs ms)
    (place : i + fs.length = n) (mods : Modules M) :
    let names := effectiveFrom (decide (MAIN_KEY ∈ mods)) (fs.map Wasm.name)
    ((modules.loop L n i fs mods).1.isOk ↔ names.Nodup ∧ ∀ name ∈ names, name ∉ mods) ∧
      ∀ {mods' : Modules M}, modules.loop L n i fs mods = (.ok (), mods') →
        mods'.entries = ((names.zip ms).map fun e => ⟨e.1, e.2⟩).reverse ++ mods.entries := by
  induction loads generalizing i mods with
  | nil =>
      refine ⟨by simp [modules.loop, effectiveFrom, Except.isOk, Except.toBool], fun done => ?_⟩
      obtain ⟨rfl, -⟩ := Prog.of_pure done
      simp [effectiveFrom]
  | @cons f m fs ms loaded _ ih =>
      have place' : i + 1 + fs.length = n := by rw [List.length_cons] at place; omega
      have here : i + (f.name :: fs.map Wasm.name).length = n := by simpa using place
      have first := modules.name_eq here mods
      have later := modules.known_eq here mods m
      have ran := modules.round_eq (n := n) (i := i) loaded mods
      rw [later] at first
      simp only [List.map_cons, first]
      generalize (if i = n - 1 ∧ MAIN_KEY ∉ mods then MAIN_KEY else f.name) = name at *
      obtain ⟨isOk_iff, entries⟩ := ih place' (mods.insert name m)
      generalize effectiveFrom _ (fs.map Wasm.name) = names at *
      by_cases taken : name ∈ mods
      · obtain ⟨e, stopped⟩ := modules.insert_of_mem taken m
        have failed : modules.loop L n i (f :: fs) mods = (.error e, mods) := by
          rw [modules.loop, Prog.bind_error (ran.trans stopped)]
        rw [failed]
        refine ⟨iff_of_false (by simp [Except.isOk, Except.toBool]) fun free => ?_, by simp⟩
        exact free.2 name List.mem_cons_self taken
      · have inserted : modules.loop L n i (f :: fs) mods =
            modules.loop L n (i + 1) fs (mods.insert name m) := by
          rw [modules.loop, Prog.bind_ok (ran.trans (modules.insert_of_notMem taken m))]
        rw [inserted]
        refine ⟨isOk_iff.trans (modules.free_iff taken m names), fun {mods'} done => ?_⟩
        rw [entries done, AList.entries_insert_of_notMem taken]
        simp

/-- With a single entry, `modules` does what the loop would do. -/
theorem modules_eq_loop {manifest : Manifest} (nonempty : manifest.wasm ≠ []) {ms : List M}
    (loads : List.Forall₂ (fun f m => L.toModule f = .ok (f.name, m)) manifest.wasm ms)
    {mods : Modules M} (unknown : MAIN_KEY ∉ mods) :
    L.modules manifest mods = modules.loop L manifest.wasm.length 0 manifest.wasm mods := by
  obtain ⟨wasm⟩ := manifest
  cases loads with
  | nil => exact absurd rfl nonempty
  | @cons f m fs ms loaded rest =>
      cases rest with
      | nil =>
          have load : Prog.ofExcept (L.toModule f) mods = (.ok (f.name, m), mods) := by
            rw [Prog.ofExcept_apply, loaded]
          have ran := modules.round_eq (n := 1) (i := 0) loaded mods
          rw [if_pos ⟨rfl, unknown⟩, modules.insert_of_notMem unknown] at ran
          simp only [modules, modules.loop, List.length_singleton]
          rw [Prog.bind_ok load, Prog.bind_ok ran]
          rfl
      | cons _ _ => rfl

end Loader

/-! ## The map -/

theorem Named.of_entries {kernel : M} {names : List String} {ms : List M} {mods : Modules M}
    (length : names.length = ms.length) (nodup : names.Nodup) (main : MAIN_KEY ∈ names)
    (entries : mods.entries =
      ((names.zip ms).map fun e => ⟨e.1, e.2⟩).reverse ++ [⟨EXTISM_ENV_MODULE, kernel⟩]) :
    Named kernel names ms mods := by
  have entry : ∀ {name : String} {m : M}, (name, m) ∈ names.zip ms → mods.lookup name = some m := by
    intro name m mem
    refine AList.mem_lookup_iff.2 ?_
    rw [entries, List.mem_append, List.mem_reverse]
    exact .inl (List.mem_map.2 ⟨(name, m), mem, rfl⟩)
  have size : mods.entries.length = ms.length + 1 := by simp [entries, length]
  refine ⟨size, ?_, entry, List.count_eq_one_of_mem nodup main, ?_⟩
  · refine AList.mem_lookup_iff.2 ?_
    rw [entries]
    exact List.mem_append_right _ List.mem_cons_self
  · obtain ⟨i, lt, same⟩ := List.getElem_of_mem main
    have mem : (MAIN_KEY, ms[i]) ∈ names.zip ms := by
      rw [← same, ← List.getElem_zip (h := by simpa [length] using lt)]
      exact List.getElem_mem _
    have found : MAIN_KEY ∈ mods := AList.lookup_isSome.1 (by rw [entry mem]; rfl)
    rw [buildNew.check, if_neg (by omega), if_neg (not_not.2 found)]

/-- **Every entry under its name.**  If every entry loads, `modules` succeeds on
the map that holds the kernel exactly if the names are distinct and none is the
kernel's, as with a single entry; and the map is then what `build_new` needs. -/
theorem modules_ok_iff {manifest : Manifest} (nonempty : manifest.wasm ≠ []) {ms : List M}
    (loads : List.Forall₂ (fun f m => ∃ name, L.toModule f = .ok (name, m)) manifest.wasm ms)
    (kernel : M) :
    let names := effectiveNames (manifest.wasm.map Wasm.name)
    let start : Modules M := .singleton EXTISM_ENV_MODULE kernel
    ((L.modules manifest start).1.isOk ↔ names.Nodup ∧ EXTISM_ENV_MODULE ∉ names) ∧
      (manifest.wasm.length = 1 → (L.modules manifest start).1.isOk ∧ names = [MAIN_KEY]) ∧
      ∀ {mods : Modules M}, L.modules manifest start = (.ok (), mods) →
        Named kernel names ms mods := by
  have loads' : List.Forall₂ (fun f m => L.toModule f = .ok (f.name, m)) manifest.wasm ms :=
    loads.imp fun f m ⟨name, loaded⟩ => by rwa [← Loader.toModule_name loaded]
  intro names start
  have mem_start : ∀ {name : String}, name ∈ start ↔ name = EXTISM_ENV_MODULE := by
    simp [start, AList.mem_keys]
  have unknown : MAIN_KEY ∉ start := by
    rw [mem_start]
    decide
  have nonempty' : manifest.wasm.map Wasm.name ≠ [] := by simpa using nonempty
  have same : effectiveFrom (decide (MAIN_KEY ∈ start)) (manifest.wasm.map Wasm.name) = names := by
    rw [decide_eq_false unknown, effectiveFrom_false nonempty']
  obtain ⟨isOk_iff, entries⟩ := Loader.modules.loop_spec loads' (Nat.zero_add _) start
  rw [← Loader.modules_eq_loop nonempty loads' unknown, same] at isOk_iff
  rw [← Loader.modules_eq_loop nonempty loads' unknown, same] at entries
  have free_iff : (∀ name ∈ names, name ∉ start) ↔ EXTISM_ENV_MODULE ∉ names := by
    simp only [mem_start]
    exact ⟨fun free mem => free _ mem rfl, fun absent name mem eq => absent (eq ▸ mem)⟩
  rw [free_iff] at isOk_iff
  refine ⟨isOk_iff, fun single => ?_, fun {mods} done => ?_⟩
  · obtain ⟨f, only⟩ := List.length_eq_one_iff.1 single
    have main : names = [MAIN_KEY] := by simp [names, only, effectiveNames]
    exact ⟨isOk_iff.2 (by rw [main]; decide), main⟩
  · have nodup := (isOk_iff.1 (by rw [done]; rfl)).1
    refine .of_entries ?_ nodup (main_mem_effectiveNames _) (entries done)
    rw [length_effectiveNames nonempty', List.length_map, loads'.length_eq]

/-- A loader of in-memory modules, which are their own bytes. -/
def Loader.inMemory : Loader (List UInt8) where
  registerFilesystem := false
  registerHttp := false
  readFile := fun _ => .error (.msg "not found")
  fetch := fun _ _ _ => .error (.msg "not found")
  sha256 := fun _ => []
  compile := .ok
  toml := fun _ => none
  json := fun _ => none
  kernel := []

/-- Two modules, of which the first has a name. -/
def twoModules : Manifest := ⟨[.data [1] ⟨some "lib", none⟩, .data [2] ⟨none, none⟩]⟩

theorem modules_ok_iff_of_two :
    (Loader.inMemory.modules twoModules (.singleton EXTISM_ENV_MODULE [])).1.isOk ↔
      (effectiveNames ["lib", "main"]).Nodup ∧
        EXTISM_ENV_MODULE ∉ effectiveNames ["lib", "main"] := by
  have loads : List.Forall₂ (fun f m => ∃ name, Loader.inMemory.toModule f = .ok (name, m))
      twoModules.wasm [[1], [2]] := .cons ⟨"lib", rfl⟩ (.cons ⟨"main", rfl⟩ .nil)
  exact (modules_ok_iff (by simp [twoModules]) loads []).1

end Extism.Runtime
