import Extism.Kernel.Handles

/-!
# Two memories with the same heap

Two instances may hold the same row of cells and the same bytes in it, and yet
differ in `length`, in their size and in what they are asked to grow by.  A
caller that keeps to its own blocks cannot tell them apart: every such call
completes on both, and, unless a `memory.grow` fails, both give the same answer
and are again mirror images.

What must agree is everything from the error field on (address 25): the root
fields a getter reads, and the row.  `position` and `length` are not compared;
`position` is determined by the row.

## Main definitions

* `Call.Local` — the calls of a caller that keeps to its own blocks.
* `Mirror` — the same row, the same account, the same bytes in the row.
* `Echoes` — a call is answered alike on both sides, which stay mirror images.

## Main results

* `Mirror.echo_read`, `Mirror.echo_write`, `Mirror.echo_store` — calls that read,
  leave an initialised memory, or store into a block.
* `Mirror.echo_alloc_skip`, `Mirror.echo_alloc_carved` — an allocation behind the
  row, and one inside it.
* `Mirror.echo` — a local call is echoed.
* `Mirror.step` — one step of two mirror images that make the same local call.
-/

namespace Extism.Kernel

open FirstFit (Cell Format)

/-! ## The relation -/

/-- The bytes from the error field to the end of the row are the same. -/
def Agree (m m' : Instance) (cs : List Cell) : Prop :=
  ∀ x, 25 ≤ x → x < 65 + heap.extent cs → m.bytes x = m'.bytes x

/-- The input recorded in the root, if any, is inside the row. -/
def InputHeld (m : Instance) (cs : List Cell) : Prop :=
  m.peek 8 41 = 0 ∨ (65 ≤ m.peek 8 33 ∧ m.peek 8 33 + m.peek 8 41 ≤ 65 + heap.extent cs)

/-- No `memory.grow` made on the way from `m` to `m'` failed. -/
def Instance.GrewOk (m m' : Instance) : Prop :=
  ∀ g ∈ m'.grows.drop m.grows.length, g.2 = true

instance (m m' : Instance) : Decidable (m.GrewOk m') :=
  inferInstanceAs (Decidable (∀ g ∈ _, _))

/-- **The calls of a caller that keeps to its own blocks**: it frees, measures,
reads and writes live blocks, publishes live blocks as input, output and error,
and reads back what the root records. -/
def Call.Local (c : Config) : Call → Prop
  | .alloc n => n < 2 ^ 32
  | .free h => ∃ n, (h, n) ∈ c.ledger.live
  | .length h => ∃ n, (h, n) ∈ c.ledger.live
  | .lengthUnsafe h => ∃ n, (h, n) ∈ c.ledger.live
  | .loadU8 p => Within c.ledger.live p 1
  | .loadU64 p => Within c.ledger.live p 8
  | .storeU8 p _ => Within c.ledger.live p 1
  | .storeU64 p _ => Within c.ledger.live p 8
  | .hostWrite p bs => Within c.ledger.live p bs.length
  | .inputSet h len => (h, len) ∈ c.ledger.live
  | .outputSet p len => 1 ≤ len ∧ Within c.ledger.live p len
  | .errorSet h => h = 0 ∨ ∃ n, (h, n) ∈ c.ledger.live
  | .inputLoadU8 offset =>
      ∃ len, (Kernel.inputLength c.kernel).1 = .ok len ∧ offset + 1 ≤ len
  | .inputLoadU64 offset =>
      ∃ len, (Kernel.inputLength c.kernel).1 = .ok len ∧ offset + 8 ≤ len
  | .inputLength | .inputOffset | .outputLength | .outputOffset | .errorGet => True
  | .reset | .memoryBytes => False

namespace Agree

variable {m m' : Instance} {cs : List Cell}

theorem splice (A : Agree m m' cs) (a k : ℕ) (f : ℕ → UInt8) :
    Agree (m.splice a k f) (m'.splice a k f) cs :=
  fun x lo hi => Instance.bytes_splice_congr a k f (A x lo hi)

theorem peek (A : Agree m m' cs) {k a : ℕ} (lo : 25 ≤ a) (hi : a + k ≤ 65 + heap.extent cs) :
    m.peek k a = m'.peek k a :=
  Instance.peek_congr fun x xlo xhi => A x (by omega) (by omega)

theorem freed (A : Agree m m' cs) (b : ℕ) : Agree (m.freed b) (m'.freed b) cs := by
  unfold Instance.freed
  rw [A.peek (k := 8) (a := 33) (by decide) (by omega)]
  split
  · exact (A.splice _ _ _).splice _ _ _
  · exact A.splice _ _ _

end Agree

namespace InputHeld

variable {m m' : Instance} {cs cs' : List Cell}

/-- Only the two input fields and the end of the row matter. -/
theorem congr (I : InputHeld m cs) (eq : ∀ x, 33 ≤ x → x < 49 → m'.bytes x = m.bytes x)
    (le : heap.extent cs ≤ heap.extent cs') : InputHeld m' cs' := by
  have word : ∀ a, 33 ≤ a → a + 8 ≤ 49 → m'.peek 8 a = m.peek 8 a :=
    fun a lo hi => Instance.peek_congr fun x xlo xhi => eq x (by omega) (by omega)
  rw [InputHeld, word 41 (by decide) (by decide), word 33 (by decide) (by decide)]
  rcases I with zero | ⟨lo, hi⟩
  · exact .inl zero
  · exact .inr ⟨lo, by omega⟩

theorem splice (I : InputHeld m cs) {a k : ℕ} (f : ℕ → UInt8) (out : a + k ≤ 33 ∨ 49 ≤ a) :
    InputHeld (m.splice a k f) cs :=
  I.congr (fun x _ _ => Instance.bytes_splice_of_notMem _ _ (by omega)) (Nat.le_refl _)

theorem freed (I : InputHeld m cs) {b : ℕ} (lo : 65 ≤ b) : InputHeld (m.freed b) cs := by
  unfold Instance.freed
  split
  · exact .inl (Instance.peek_poke_of_lt _ (by decide))
  · exact I.splice _ (.inr (by omega))

theorem agree (I : InputHeld m cs) (A : Agree m m' cs) : InputHeld m' cs := by
  rw [InputHeld, ← A.peek (k := 8) (a := 41) (by decide) (by omega),
    ← A.peek (k := 8) (a := 33) (by decide) (by omega)]
  exact I

end InputHeld

/-! ## Local calls, evaluated -/

namespace Represents

variable {m m' : Instance} {cs : List Cell} {n : ℕ}

/-- The input field of an initialised root gives bytes inside memory. -/
theorem inputLoad_bounds (R : Represents m cs) (I : InputHeld m cs) {offset k : ℕ}
    (le : offset + k ≤ m.peek 8 41) (pos : 1 ≤ k) :
    toUsize (addU64 (m.peek 8 33) offset) = m.peek 8 33 + offset ∧
      65 ≤ m.peek 8 33 ∧ m.peek 8 33 + offset + k ≤ 65 + heap.extent cs := by
  have extent := R.extent_le
  have size := R.size_le
  rcases I with zero | ⟨lo, hi⟩
  · omega
  · refine ⟨?_, lo, by omega⟩
    simp only [toUsize, addU64]
    omega

theorem inputLoadU8_eq (R : Represents m.boot cs) (pages : 1 ≤ m.pages)
    (I : InputHeld m.boot cs) {offset : ℕ} (le : offset + 1 ≤ m.boot.peek 8 41) :
    inputLoadU8 offset m =
      (.ok (m.boot.peek 1 (m.boot.peek 8 33 + offset)), m.boot) := by
  have extent := R.extent_le
  obtain ⟨address, lo, hi⟩ := R.inputLoad_bounds I le (Nat.le_refl 1)
  rw [R.inputLoadU8_ite pages, if_neg (by omega), address, load_ok (by omega)]

theorem inputLoadU64_eq (R : Represents m.boot cs) (pages : 1 ≤ m.pages)
    (I : InputHeld m.boot cs) {offset : ℕ} (le : offset + 8 ≤ m.boot.peek 8 41) :
    inputLoadU64 offset m =
      (.ok (m.boot.peek 8 (m.boot.peek 8 33 + offset)), m.boot) := by
  have extent := R.extent_le
  have size := R.size_le
  obtain ⟨address, lo, hi⟩ := R.inputLoad_bounds I le (by decide)
  rw [R.inputLoadU64_ite pages, if_neg (by simp only [addU64]; omega), address,
    load_ok (by omega)]

/-- A range inside a held block is accepted. -/
theorem accepts (R : Represents m cs) {b p len : ℕ}
    (held : heap.Held MemoryRoot.blocks cs b n) (lo : b + 12 ≤ p)
    (hi : p + len ≤ b + 12 + n) : m.Accepts p len := by
  have bounds := held_bounds held
  have room := R.room
  have extent := R.extent_le
  have size := R.size_le
  have last : subU64 (addU64 p len) 1 = p + len - 1 := by
    simp only [subU64, addU64]
    omega
  simp only [MemoryRoot.length, MemoryRoot.sizeOf] at room
  rw [Instance.Accepts, last]
  omega

/-- `alloc` when nothing fits: unless a grow fails, a block is appended, to this
memory or to one with more room and the same row. -/
theorem alloc_skip (R : Represents m cs) (small : n < 2 ^ 32) (skip : ∀ d ∈ cs, ¬ d.Fits n) :
    ∃ r m', MemoryRoot.alloc n m = (.ok r, m') ∧ (m.GrewOk m' →
      ∃ m₁, r = some (65 + heap.extent cs) ∧ m' = m₁.appended n (heap.extent cs) ∧
        Allocated m n cs r m' (cs ++ [.held n n (Nat.le_refl n)]) ∧ Represents m₁ cs ∧
        heap.extent cs + 12 + n + 64 ≤ m₁.peek 8 17 ∧
        ∀ x, 25 ≤ x → x < 65 + heap.extent cs → m₁.bytes x = m.bytes x) := by
  obtain ⟨r, m', cs', eq, A⟩ := R.alloc_spec small
  refine ⟨r, m', eq, fun grew => ?_⟩
  have extent := R.extent_le
  cases A with
  | carved pre post c _ fit => exact absurd fit (skip c (by simp))
  | appended _ _ enough =>
      exact ⟨m, rfl, rfl, .appended cs skip enough, R, R.room_of_enough enough,
        fun _ _ _ => rfl⟩
  | grown _ _ short can =>
      refine ⟨_, rfl, rfl, .grown cs skip short can, R.lengthened can,
        R.room_of_grown small can, fun x lo hi => ?_⟩
      exact Instance.bytes_lengthened_of_lt (by omega) (.inr lo)
  | refused _ _ _ _ =>
      have failed := grew (m.pagesNeeded cs n, false) (by simp)
      simp at failed

end Represents

theorem Exec.discard_ok {x : Exec Unit} {m m' : Instance} (h : x m = (.ok (), m')) :
    x.discard m = (.ok 0, m') := by
  rw [Exec.discard, Prog.bind_ok h]
  rfl

/-! ## Mirror images -/

/-- **Mirror images**: the same row, the same account, the same bytes in the
row. -/
structure Mirror (s t : Config) (cs : List Cell) : Prop where
  left : Sound s cs
  right : Sound t cs
  ledger : s.ledger = t.ledger
  bytes : Agree s.kernel.boot t.kernel.boot cs
  input : InputHeld s.kernel.boot cs

/-- The call completes on both sides, and unless a grow fails the answers are the
same and the two sides stay mirror images. -/
def Echoes (s t : Config) (cs : List Cell) (call : Call) : Prop :=
  ∃ (v w : ℕ) (m₁ m₂ : Instance), call.run s.kernel = (.ok v, m₁) ∧
    call.run t.kernel = (.ok w, m₂) ∧
    (s.kernel.GrewOk m₁ → t.kernel.GrewOk m₂ → v = w ∧
      ∃ cs', Outcome s.kernel cs call v m₁ cs' ∧ Outcome t.kernel cs call w m₂ cs' ∧
        Agree m₁.boot m₂.boot cs' ∧ InputHeld m₁.boot cs')

namespace Mirror

variable {s t : Config} {cs : List Cell} {call : Call}

/-- A call that only reads. -/
theorem echo_read (M : Mirror s t cs) {v : ℕ} {m₁ m₂ : Instance}
    (run₁ : call.run s.kernel = (.ok v, m₁)) (run₂ : call.run t.kernel = (.ok v, m₂))
    (same₁ : (m₁ = s.kernel ∧ call.Rootless) ∨ m₁ = s.kernel.boot)
    (same₂ : (m₂ = t.kernel ∧ call.Rootless) ∨ m₂ = t.kernel.boot)
    (idle : call.Idle cs v) : Echoes s t cs call := by
  have boot₁ : m₁.boot = s.kernel.boot := by
    rcases same₁ with ⟨rfl, -⟩ | rfl
    · rfl
    · exact M.left.heap.boot_eq
  have boot₂ : m₂.boot = t.kernel.boot := by
    rcases same₂ with ⟨rfl, -⟩ | rfl
    · rfl
    · exact M.right.heap.boot_eq
  refine ⟨v, v, m₁, m₂, run₁, run₂, fun _ _ => ⟨rfl, cs, .pass same₁ idle, .pass same₂ idle, ?_⟩⟩
  rw [boot₁, boot₂]
  exact ⟨M.bytes, M.input⟩

/-- A call that leaves an initialised memory. -/
theorem echo_write {v : ℕ} {m₁ m₂ : Instance} {cs' : List Cell}
    (run₁ : call.run s.kernel = (.ok v, m₁)) (run₂ : call.run t.kernel = (.ok v, m₂))
    (O₁ : Outcome s.kernel cs call v m₁ cs') (O₂ : Outcome t.kernel cs call v m₂ cs')
    (R₁ : Represents m₁ cs') (R₂ : Represents m₂ cs') (bytes : Agree m₁ m₂ cs')
    (input : InputHeld m₁ cs') : Echoes s t cs call := by
  refine ⟨v, v, m₁, m₂, run₁, run₂, fun _ _ => ⟨rfl, cs', O₁, O₂, ?_⟩⟩
  rw [R₁.boot_eq, R₂.boot_eq]
  exact ⟨bytes, input⟩

/-- A store into a held block. -/
theorem echo_store (M : Mirror s t cs) {a k b n : ℕ} {f : ℕ → UInt8}
    (span : call.span = some (a, k)) (held : heap.Held MemoryRoot.blocks cs b n)
    (lo : b + 12 ≤ a) (hi : a + k ≤ b + 12 + n)
    (run : ∀ m, Represents m cs → call.run m = (.ok 0, m.splice a k f)) :
    Echoes s t cs call := by
  have R₁ := M.left.heap
  have R₂ := M.right.heap
  have bytes := M.bytes
  have input := M.input
  have bounds := Represents.held_bounds held
  have boot₁ := M.left.settled.boot_eq M.left.pages R₁ held
  have boot₂ := M.right.settled.boot_eq M.right.pages R₂ held
  rw [boot₁] at R₁ bytes input
  rw [boot₂] at R₂ bytes
  exact echo_write (run _ R₁) (run _ R₂) (.stored span held lo hi) (.stored span held lo hi)
    (R₁.splice _ (.inr ⟨b, n, held, lo, hi⟩)) (R₂.splice _ (.inr ⟨b, n, held, lo, hi⟩))
    (bytes.splice _ _ _) (input.splice _ (.inr (by omega)))

/-- A load from a held block. -/
theorem echo_load (M : Mirror s t cs) {k p b n : ℕ} (held : heap.Held MemoryRoot.blocks cs b n)
    (lo : b + 12 ≤ p) (hi : p + k ≤ b + 12 + n)
    (run : ∀ m, Represents m cs → call.run m = (.ok (m.peek k p), m)) (rootless : call.Rootless)
    (idle : ∀ v, call.Idle cs v) : Echoes s t cs call := by
  have R₁ := M.left.heap
  have R₂ := M.right.heap
  have bounds := Represents.held_bounds held
  have boot₁ := M.left.settled.boot_eq M.left.pages R₁ held
  have boot₂ := M.right.settled.boot_eq M.right.pages R₂ held
  have eq := M.bytes.peek (k := k) (a := p) (by omega) (by omega)
  rw [boot₁] at R₁ eq
  rw [boot₂] at R₂ eq
  exact M.echo_read (run _ R₁) (by rw [eq, run _ R₂]) (.inl ⟨rfl, rootless⟩)
    (.inl ⟨rfl, rootless⟩) (idle _)

/-- A load from the input. -/
theorem echo_inputLoad (M : Mirror s t cs) {k offset : ℕ} (pos : 1 ≤ k)
    (le : offset + k ≤ s.kernel.boot.peek 8 41)
    (run : ∀ {c : Config}, Sound c cs → InputHeld c.kernel.boot cs →
      offset + k ≤ c.kernel.boot.peek 8 41 → call.run c.kernel =
        (.ok (c.kernel.boot.peek k (c.kernel.boot.peek 8 33 + offset)), c.kernel.boot))
    (idle : ∀ v, call.Idle cs v) : Echoes s t cs call := by
  obtain ⟨-, lo, hi⟩ := M.left.heap.inputLoad_bounds M.input le pos
  have start := M.bytes.peek (k := 8) (a := 33) (by decide) (by omega)
  have length := M.bytes.peek (k := 8) (a := 41) (by decide) (by omega)
  have eq := M.bytes.peek (k := k) (a := s.kernel.boot.peek 8 33 + offset) (by omega) hi
  refine M.echo_read (run M.left M.input le) ?_ (.inr rfl) (.inr rfl) (idle _)
  rw [eq, start]
  exact run M.right (M.input.agree M.bytes) (length ▸ le)

/-- A getter. -/
theorem echo_getField (M : Mirror s t cs) {f : ℕ} (lo : 25 ≤ f) (hi : f + 8 ≤ 65)
    (run : call.run = getField f) (idle : ∀ v, call.Idle cs v) : Echoes s t cs call := by
  have eq := M.bytes.peek lo (k := 8) (by omega)
  refine M.echo_read (v := s.kernel.boot.peek 8 f) ?_ ?_ (.inr rfl) (.inr rfl) (idle _)
  · rw [run, getField_eq M.left.pages hi]
  · rw [run, getField_eq M.right.pages hi, eq]

/-- The body of `input_set` and `output_set`, on a range that is accepted. -/
theorem setRange_run {c : Config} (S : Sound c cs) {f g p len : ℕ} (hf : f + 8 ≤ 65)
    (hg : g + 8 ≤ 65) (accepted : c.kernel.boot.Accepts p len) :
    (setRange f g p len).discard c.kernel = (.ok 0, c.kernel.boot.ranged f g p len) :=
  Exec.discard_ok (by rw [S.heap.setRange_eq S.pages p len hf hg, if_pos accepted])

/-- A new block behind the row goes where both memories are blank. -/
theorem echo_alloc_skip (M : Mirror s t cs) {n : ℕ} (null : n ≠ 0) (small : n < 2 ^ 32)
    (skip : ∀ c ∈ cs, ¬ c.Fits n) : Echoes s t cs (.alloc n) := by
  have R₁ := M.left.heap
  have R₂ := M.right.heap
  have extent₁ := R₁.extent_le
  obtain ⟨r₁, m₁, eq₁, spec₁⟩ := R₁.alloc_skip small skip
  obtain ⟨r₂, m₂, eq₂, spec₂⟩ := R₂.alloc_skip small skip
  refine ⟨_, _, m₁, m₂, alloc_run null M.left.pages eq₁, alloc_run null M.right.pages eq₂,
    fun grew₁ grew₂ => ?_⟩
  simp only [Instance.GrewOk, ← Instance.grows_boot s.kernel] at grew₁
  simp only [Instance.GrewOk, ← Instance.grows_boot t.kernel] at grew₂
  obtain ⟨k₁, rfl, rfl, A₁, K₁, room₁, same₁⟩ := spec₁ grew₁
  obtain ⟨k₂, rfl, rfl, A₂, K₂, room₂, same₂⟩ := spec₂ grew₂
  have fits₁ := K₁.fits
  have fits₂ := K₂.fits
  simp only [MemoryRoot.length, MemoryRoot.sizeOf] at fits₁ fits₂
  refine ⟨rfl, _, .allocated null small A₁, .allocated null small A₂, ?_⟩
  rw [(A₁.represents R₁ small).boot_eq, (A₂.represents R₂ small).boot_eq]
  have agree : Agree k₁ k₂ (cs ++ [.held n n (Nat.le_refl n)]) := by
    intro x lo hi
    simp only [Format.extent_append, Format.extent_cons, Format.extent_nil, Format.width,
      Cell.held_size, MemoryBlock.sizeOf] at hi
    by_cases old : x < 65 + heap.extent cs
    · rw [same₁ x lo old, same₂ x lo old]
      exact M.bytes x lo old
    · rw [K₁.zero x (by simp only [MemoryRoot.blocks]; omega) (by omega),
        K₂.zero x (by simp only [MemoryRoot.blocks]; omega) (by omega)]
  refine ⟨?_, M.input.congr (fun x lo hi => ?_) (by simp)⟩
  · unfold Instance.appended
    exact (((agree.splice _ _ _).splice _ _ _).splice _ _ _).splice _ _ _
  · rw [Instance.bytes_appended_of_notMem (by omega)]
    exact same₁ x (by omega) (by omega)

/-- A free block is taken, or split, in the same way. -/
theorem echo_alloc_carved {pre post : List Cell} {c : Cell} (M : Mirror s t (pre ++ c :: post))
    {n : ℕ} (null : n ≠ 0) (small : n < 2 ^ 32) (skip : ∀ d ∈ pre, ¬ d.Fits n) (fit : c.Fits n) :
    Echoes s t (pre ++ c :: post) (.alloc n) := by
  have R₁ := M.left.heap
  have R₂ := M.right.heap
  refine echo_write (alloc_run null M.left.pages (R₁.alloc_carved small skip fit))
    (alloc_run null M.right.pages (R₂.alloc_carved small skip fit))
    (.allocated null small (.carved pre post c skip fit))
    (.allocated null small (.carved pre post c skip fit))
    (R₁.carved small fit) (R₂.carved small fit) ?_ ?_
  · have agree : Agree s.kernel.boot t.kernel.boot (pre ++ (heap.carve n c fit ++ post)) := by
      intro x lo hi
      refine M.bytes x lo ?_
      simpa using hi
    unfold Instance.carved
    split
    · exact ((((((agree.splice _ _ _).splice _ _ _).splice _ _ _).splice _ _ _).splice
        _ _ _).splice _ _ _).splice _ _ _
    · exact (agree.splice _ _ _).splice _ _ _
  · exact M.input.congr (fun x lo hi => Instance.bytes_carved_of_notMem fit (.inl (by omega)))
      (by simp)

theorem echo_alloc (M : Mirror s t cs) {n : ℕ} (small : n < 2 ^ 32) :
    Echoes s t cs (.alloc n) := by
  by_cases null : n = 0
  · subst null
    exact M.echo_read (v := 0) rfl rfl (.inl ⟨rfl, rfl⟩) (.inl ⟨rfl, rfl⟩) rfl
  rcases Format.fits_cases n cs with skip | ⟨pre, post, c, rfl, skip, fit⟩
  · exact M.echo_alloc_skip null small skip
  · exact M.echo_alloc_carved null small skip fit

theorem echo_free (M : Mirror s t cs) {b k : ℕ} (held : heap.Held MemoryRoot.blocks cs b k) :
    Echoes s t cs (.free (b + 12)) := by
  have R₁ := M.left.heap
  have R₂ := M.right.heap
  have bounds := Represents.held_bounds held
  refine echo_write (Exec.discard_ok (R₁.free_held M.left.pages held))
    (Exec.discard_ok (R₂.free_held M.right.pages held)) (.freed held) (.freed held)
    (R₁.freed held) (R₂.freed held) ?_ ?_
  · intro x lo hi
    refine M.bytes.freed b x lo ?_
    simpa using hi
  · exact (M.input.freed bounds.1).congr (fun _ _ _ => rfl) (by simp)

/-- A range recorded in two fields of both roots. -/
theorem echo_ranged (M : Mirror s t cs) {f g p len : ℕ} (flo : 25 ≤ f) (fhi : f + 8 ≤ 65)
    (glo : 25 ≤ g) (ghi : g + 8 ≤ 65) (run : call.run = (setRange f g p len).discard)
    (acc₁ : s.kernel.boot.Accepts p len) (acc₂ : t.kernel.boot.Accepts p len)
    (O₁ : Outcome s.kernel cs call 0 (s.kernel.boot.ranged f g p len) cs)
    (O₂ : Outcome t.kernel cs call 0 (t.kernel.boot.ranged f g p len) cs)
    (input : InputHeld (s.kernel.boot.ranged f g p len) cs) : Echoes s t cs call :=
  echo_write (by rw [run, setRange_run M.left fhi ghi acc₁])
    (by rw [run, setRange_run M.right fhi ghi acc₂]) O₁ O₂
    (M.left.heap.ranged flo fhi glo ghi) (M.right.heap.ranged flo fhi glo ghi)
    ((M.bytes.splice _ _ _).splice _ _ _) input

theorem echo_inputSet (M : Mirror s t cs) {b n : ℕ}
    (held : heap.Held MemoryRoot.blocks cs b n) : Echoes s t cs (.inputSet (b + 12) n) := by
  have bounds := Represents.held_bounds held
  have size := M.left.heap.size_le
  have extent := M.left.heap.extent_le
  have acc₁ := M.left.heap.accepts held (Nat.le_refl _) (Nat.le_refl _)
  have acc₂ := M.right.heap.accepts held (Nat.le_refl _) (Nat.le_refl _)
  refine M.echo_ranged (f := 33) (g := 41) (by decide) (by decide) (by decide) (by decide) rfl
    acc₁ acc₂ (.inputRanged acc₁) (.inputRanged acc₂) (.inr ?_)
  rw [Instance.ranged, Instance.peek_splice_of_disjoint _ _ (.inl (by decide)),
    Instance.peek_poke_of_lt _ (by omega), Instance.peek_poke_of_lt _ (by omega)]
  omega

theorem echo_errorSet (M : Mirror s t cs) {h : ℕ}
    (ok : h = 0 ∨ (65 ≤ h ∧ h ≤ 65 + heap.extent cs)) : Echoes s t cs (.errorSet h) := by
  have accepted : ∀ {m : Instance}, Represents m cs →
      h = 0 ∨ (65 ≤ h ∧ h < 65 + m.peek 8 17) := fun R => by
    have room := R.room
    simp only [MemoryRoot.length, MemoryRoot.sizeOf] at room
    omega
  have run : ∀ {c : Config}, Sound c cs →
      (Call.errorSet h).run c.kernel = (.ok 0, c.kernel.boot.poke 8 25 h) := fun S =>
    Exec.discard_ok (by rw [S.heap.errorSet_eq S.pages, if_pos (accepted S.heap)])
  exact echo_write (run M.left) (run M.right) .erred .erred
    (M.left.heap.splice _ (.inl ⟨by decide, by decide⟩))
    (M.right.heap.splice _ (.inl ⟨by decide, by decide⟩))
    (M.bytes.splice _ _ _) (M.input.splice _ (.inl (by decide)))

/-- A range below the answer of `input_length` is below the field. -/
theorem inputLength_le (M : Mirror s t cs) {k : ℕ}
    (ok : ∃ len, (inputLength s.kernel).1 = .ok len ∧ k ≤ len) :
    k ≤ s.kernel.boot.peek 8 41 := by
  obtain ⟨len, eq, le⟩ := ok
  rw [inputLength, getField_eq M.left.pages (by decide)] at eq
  obtain rfl := Except.ok.inj eq
  exact le

/-- **A local call is echoed.** -/
theorem echo (M : Mirror s t cs) (ok : call.Local s) : Echoes s t cs call := by
  have R₁ := M.left.heap
  have R₂ := M.right.heap
  -- a span inside a live block is a span inside a held one
  have within : ∀ {p k : ℕ}, Within s.ledger.live p k →
      ∃ b n, heap.Held MemoryRoot.blocks cs b n ∧ b + 12 ≤ p ∧ p + k ≤ b + 12 + n := by
    rintro p k ⟨⟨h, n⟩, mem, lo, hi⟩
    obtain ⟨b, rfl, held⟩ := M.left.account.held mem
    exact ⟨b, n, held, lo, hi⟩
  cases call with
  | alloc n => exact M.echo_alloc ok
  | free h =>
      obtain ⟨n, live⟩ := ok
      obtain ⟨b, rfl, held⟩ := M.left.account.held live
      exact M.echo_free held
  | length h =>
      obtain ⟨n, live⟩ := ok
      obtain ⟨b, rfl, held⟩ := M.left.account.held live
      exact M.echo_read (R₁.length_held M.left.pages held) (R₂.length_held M.right.pages held)
        (.inr rfl) (.inr rfl) trivial
  | lengthUnsafe h =>
      obtain ⟨n, live⟩ := ok
      obtain ⟨b, rfl, held⟩ := M.left.account.held live
      rw [M.left.settled.boot_eq M.left.pages R₁ held] at R₁
      rw [M.right.settled.boot_eq M.right.pages R₂ held] at R₂
      obtain ⟨c, placed, -⟩ := held
      exact M.echo_read (R₁.lengthUnsafe_eq placed) (R₂.lengthUnsafe_eq placed)
        (.inl ⟨rfl, trivial⟩) (.inl ⟨rfl, trivial⟩) trivial
  | loadU8 p =>
      obtain ⟨b, n, held, lo, hi⟩ := within ok
      exact M.echo_load held lo hi (fun _ R => R.loadU8_eq held lo hi) trivial fun _ => trivial
  | loadU64 p =>
      obtain ⟨b, n, held, lo, hi⟩ := within ok
      exact M.echo_load held lo hi (fun _ R => R.loadU64_eq held lo hi) trivial fun _ => trivial
  | inputLoadU8 offset =>
      exact M.echo_inputLoad (Nat.le_refl 1) (M.inputLength_le ok)
        (fun S I le => S.heap.inputLoadU8_eq S.pages I le) fun _ => trivial
  | inputLoadU64 offset =>
      exact M.echo_inputLoad (by decide) (M.inputLength_le ok)
        (fun S I le => S.heap.inputLoadU64_eq S.pages I le) fun _ => trivial
  | storeU8 p x =>
      obtain ⟨b, n, held, lo, hi⟩ := within ok
      exact M.echo_store rfl held lo hi fun m R => Exec.discard_ok (R.storeU8_eq held x lo hi)
  | storeU64 p x =>
      obtain ⟨b, n, held, lo, hi⟩ := within ok
      exact M.echo_store rfl held lo hi fun m R => Exec.discard_ok (R.storeU64_eq held x lo hi)
  | hostWrite p bs =>
      obtain ⟨b, n, held, lo, hi⟩ := within ok
      exact M.echo_store rfl held lo hi fun m R => Exec.discard_ok (R.hostWrite_eq held hi)
  | inputSet h len =>
      obtain ⟨b, rfl, held⟩ := M.left.account.held ok
      exact M.echo_inputSet held
  | outputSet p len =>
      obtain ⟨b, n, held, lo, hi⟩ := within ok.2
      have acc₁ := R₁.accepts held lo hi
      have acc₂ := R₂.accepts held lo hi
      exact M.echo_ranged (f := 49) (g := 57) (by decide) (by decide) (by decide) (by decide) rfl
        acc₁ acc₂ (.outputRanged acc₁) (.outputRanged acc₂)
        ((M.input.splice _ (.inr (by decide))).splice _ (.inr (by decide)))
  | inputLength => exact M.echo_getField (f := 41) (by decide) (by decide) rfl fun _ => trivial
  | inputOffset => exact M.echo_getField (f := 33) (by decide) (by decide) rfl fun _ => trivial
  | outputLength => exact M.echo_getField (f := 57) (by decide) (by decide) rfl fun _ => trivial
  | outputOffset => exact M.echo_getField (f := 49) (by decide) (by decide) rfl fun _ => trivial
  | errorGet => exact M.echo_getField (f := 25) (by decide) (by decide) rfl fun _ => trivial
  | errorSet h =>
      refine M.echo_errorSet ?_
      rcases ok with null | ⟨n, live⟩
      · exact .inl null
      · obtain ⟨b, rfl, held⟩ := M.left.account.held live
        have := Represents.held_bounds held
        exact .inr (by omega)
  | reset => exact ok.elim
  | memoryBytes => exact ok.elim

theorem local_iff (M : Mirror s t cs) : call.Local s ↔ call.Local t := by
  have len := M.bytes.peek (k := 8) (a := 41) (by decide) (by omega)
  have inputLength : (inputLength s.kernel).1 = (inputLength t.kernel).1 := by
    rw [Kernel.inputLength, getField_eq M.left.pages (by decide),
      getField_eq M.right.pages (by decide), MemoryRoot.inputLength, len]
  cases call <;> simp only [Call.Local, inputLength, M.ledger]

/-- **One step of two mirror images** that make the same local call. -/
theorem step (M : Mirror s t cs) {s' t' : Config} {l k : Call × ℕ}
    (left : kernelRuns.step s l s') (right : kernelRuns.step t k t') (same : l.1 = k.1)
    (ok : l.1.Local s) (grew₁ : s.kernel.GrewOk s'.kernel) (grew₂ : t.kernel.GrewOk t'.kernel) :
    l = k ∧ ∃ cs', Mirror s' t' cs' := by
  obtain ⟨v, w, m₁, m₂, run₁, run₂, echo⟩ := M.echo ok
  obtain ⟨ran₁, ledger₁⟩ := left
  obtain ⟨ran₂, ledger₂⟩ := right
  rw [run₁] at ran₁
  rw [← same, run₂] at ran₂
  obtain ⟨eq₁, rfl⟩ := Prod.mk.inj ran₁
  obtain ⟨eq₂, rfl⟩ := Prod.mk.inj ran₂
  obtain rfl := Except.ok.inj eq₁
  obtain rfl := Except.ok.inj eq₂
  obtain ⟨answer, cs', O₁, O₂, bytes, input⟩ := echo grew₁ grew₂
  refine ⟨Prod.ext same answer, cs', M.left.of_outcome O₁ ledger₁,
    M.right.of_outcome (l := k) (same ▸ O₂) ledger₂, ?_, bytes, input⟩
  rw [ledger₁, ledger₂, ← same, ← answer, M.ledger]

end Mirror

end Extism.Kernel
