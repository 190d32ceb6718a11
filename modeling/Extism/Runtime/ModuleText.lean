import Extism.Lib.Utf8
import Extism.Runtime.Manifest

/-!
# Telling the text of a module from a manifest

`load` skips the whitespace before a text, and takes it for a module if it then
begins with a comment or with `(`, whitespace, and `module`.  The `(` alone is
looked for at the beginning of the data itself, in front of the whitespace; so a
module behind whitespace is taken for a manifest.  Every other text is treated
as it is without the whitespace before it, and no data makes `load` panic: where
the string is sliced at 1 its first byte is a character.

## Main definitions

* `OpensModule`, `IsModuleText` — a text that opens a module, and the text of one,
  with whitespace before it.
* `Indented` — the text begins with whitespace.
* `Recognised` — a text is treated with whitespace before it as without.

## Main results

* `isWat_spec` — the test, on every data and the string it decodes to.
* `treat_eq_module_iff` — which texts are treated as modules.
* `treat_isSome` — no data makes the treatment panic.
* `recognised_iff` — when a text is recognised behind whitespace.
-/

namespace Extism.Runtime

/-- `(`, whitespace, and `module`, behind whitespace. -/
def OpensModule (s : List Char) : Prop :=
  ∃ rest, trimStart s = '(' :: rest ∧ "module".toList <+: trimStart rest

/-- **The text of a module**, with whitespace before it. -/
def IsModuleText (s : List Char) : Prop :=
  ";;".toList <+: trimStart s ∨ "(;".toList <+: trimStart s ∨ OpensModule s

/-- The text begins with whitespace. -/
def Indented (s : List Char) : Prop := ∃ c, s.head? = some c ∧ isWhitespace c = true

/-- **A text is recognised** behind whitespace: it is treated as without, and as
a module exactly if it is the text of one. -/
structure Recognised (w t : String) : Prop where
  same : load.treat (w ++ t).toUTF8.toList = some .module ↔
    load.treat t.toUTF8.toList = some .module
  module_iff : load.treat (w ++ t).toUTF8.toList = some .module ↔ IsModuleText (w ++ t).toList

/-! ## Whitespace -/

theorem trimStart_append {w : List Char} (white : ∀ c ∈ w, isWhitespace c = true) (s : List Char) :
    trimStart (w ++ s) = trimStart s := by
  induction w with
  | nil => rfl
  | cons c w ih =>
      obtain ⟨here, rest⟩ := List.forall_mem_cons.1 white
      rw [trimStart, List.cons_append, List.dropWhile_cons_of_pos here]
      exact ih rest

theorem trimStart_of_not_indented {s : List Char} (flush : ¬ Indented s) : trimStart s = s := by
  cases s with
  | nil => rfl
  | cons c s => exact List.dropWhile_cons_of_neg fun white => flush ⟨c, rfl, white⟩

theorem sliceFrom_one {c : Char} (one : c.utf8Size = 1) (s : List Char) :
    sliceFrom 1 (c :: s) = some s := by
  rw [sliceFrom, one, if_pos (Nat.le_refl 1)]
  cases s <;> rfl

/-! ## The test -/

/-- The first byte of a text is `(` exactly if its first character is. -/
theorem paren_iff (s : String) :
    s.toUTF8.toList[0]? = some 0x28 ↔ s.toList.head? = some '(' := by
  rw [← List.head?_eq_getElem?, Utf8.head?_toUTF8 (by decide)]
  constructor
  · rintro ⟨c, head, code⟩
    rw [head, ← Char.toNat_inj.1 (code.trans (by decide : (0x28 : UInt8).toNat = '('.toNat))]
  · rintro head
    exact ⟨'(', head, by decide⟩

theorem length_le_strLen (s : List Char) : s.length ≤ strLen s := by
  induction s with
  | nil => exact Nat.le_refl 0
  | cons c s ih =>
      have positive := c.utf8Size_pos
      simp only [strLen, List.map_cons, List.sum_cons, List.length_cons] at ih ⊢
      omega

/-- A text long enough to open a module is longer than 2. -/
theorem two_lt_strLen {rest : List Char} (opens : "module".toList <+: trimStart rest) :
    2 < strLen ('(' :: rest) := by
  have six : 6 ≤ (trimStart rest).length := opens.length_le
  have shorter : (trimStart rest).length ≤ rest.length := (List.dropWhile_sublist _).length_le
  have longer := length_le_strLen ('(' :: rest)
  rw [List.length_cons] at longer
  omega

theorem opensModule_iff {s rest : List Char} (flush : trimStart s = '(' :: rest) :
    OpensModule s ↔ "module".toList <+: trimStart rest := by
  rw [OpensModule, flush]
  constructor
  · rintro ⟨_, same, opens⟩
    rwa [(List.cons.inj same).2]
  · exact fun opens => ⟨rest, rfl, opens⟩

/-- Behind a parenthesis the test looks for the word. -/
theorem isWat_of_paren {s : String} {rest : List Char} (text : s.toList = '(' :: rest) :
    ∃ b, load.isWat s.toUTF8.toList s.toList = some b ∧ (b = true ↔ OpensModule s.toList ∨
      ";;".toList <+: trimStart s.toList ∨ "(;".toList <+: trimStart s.toList) := by
  have flush : trimStart s.toList = '(' :: rest := by
    rw [text]
    exact List.dropWhile_cons_of_neg (by decide)
  have first := (paren_iff s).2 (by rw [text]; rfl)
  have module : (if 2 < strLen ('(' :: rest) then "module".toList.isPrefixOf (trimStart rest)
      else false) = true ↔ OpensModule s.toList := by
    rw [opensModule_iff flush]
    split
    case isTrue => exact List.isPrefixOf_iff_prefix
    case isFalse short => exact iff_of_false (by simp) fun opens => short (two_lt_strLen opens)
  refine ⟨(if 2 < strLen ('(' :: rest) then "module".toList.isPrefixOf (trimStart rest)
      else false) || ";;".toList.isPrefixOf (trimStart s.toList) ||
        "(;".toList.isPrefixOf (trimStart s.toList), ?_, ?_⟩
  · rw [load.isWat, flush, first]
    simp only [Option.bind_eq_bind, Option.bind_some, if_true, sliceFrom_one
      (by decide : '('.utf8Size = 1)]
    split <;> rfl
  · rw [Bool.or_eq_true, Bool.or_eq_true, module, List.isPrefixOf_iff_prefix,
      List.isPrefixOf_iff_prefix, or_assoc]

/-- Data that begins otherwise is tested for comments only. -/
theorem isWat_of_not_paren {s : String} (paren : s.toList.head? ≠ some '(') :
    load.isWat s.toUTF8.toList s.toList = some (";;".toList.isPrefixOf (trimStart s.toList) ||
      "(;".toList.isPrefixOf (trimStart s.toList)) := by
  have first := mt (paren_iff s).1 paren
  have here : 2 < strLen (trimStart s.toList) → s ≠ "" := by
    rintro long rfl
    exact absurd long (by decide)
  rw [load.isWat]
  by_cases long : 2 < strLen (trimStart s.toList)
  · obtain ⟨b, bytes, data⟩ := List.exists_cons_of_ne_nil (Utf8.toUTF8_ne_nil (here long))
    rw [data] at first ⊢
    have other : b ≠ 0x28 := fun same => first (by rw [same]; rfl)
    simp only [if_pos long, List.getElem?_cons_zero, Option.bind_eq_bind, Option.bind_some,
      if_neg other, Option.pure_def, Bool.false_or]
  · simp only [if_neg long, Option.bind_eq_bind, Option.bind_some, Option.pure_def,
      Bool.false_or]

/-- **The test**: it does not panic, and finds a module only at the very
beginning of the data. -/
theorem isWat_spec (s : String) :
    ∃ b, load.isWat s.toUTF8.toList s.toList = some b ∧ (b = true ↔
      (s.toList.head? = some '(' ∧ OpensModule s.toList) ∨
        ";;".toList <+: trimStart s.toList ∨ "(;".toList <+: trimStart s.toList) := by
  by_cases paren : s.toList.head? = some '('
  · obtain ⟨rest, text⟩ : ∃ rest, s.toList = '(' :: rest := List.head?_eq_some_iff.1 paren
    rw [and_iff_right paren]
    exact isWat_of_paren text
  · refine ⟨_, isWat_of_not_paren paren, ?_⟩
    rw [Bool.or_eq_true, List.isPrefixOf_iff_prefix, List.isPrefixOf_iff_prefix]
    exact (or_iff_right fun both => paren both.1).symm

/-! ## The treatment -/

/-- The text of a module begins in one of three ways, no two of which agree. -/
theorem OpensModule.not_comment {s : List Char} (opens : OpensModule s) :
    ¬ (";;".toList <+: trimStart s ∨ "(;".toList <+: trimStart s) := by
  obtain ⟨rest, text, word⟩ := opens
  rw [text]
  rintro (⟨_, comment⟩ | ⟨tail, comment⟩)
  · exact absurd (List.cons.inj comment).1 (by decide)
  · -- the `;` is no whitespace, and no `m`
    obtain rfl : ';' :: tail = rest := (List.cons.inj comment).2
    obtain ⟨_, same⟩ := word
    rw [trimStart, List.dropWhile_cons_of_neg (by decide)] at same
    exact absurd (List.cons.inj same).1 (by decide)

theorem head_eq_paren_iff {s : List Char} (opens : OpensModule s) :
    s.head? = some '(' ↔ ¬ Indented s := by
  obtain ⟨rest, text, -⟩ := opens
  constructor
  · rintro head ⟨c, head', white⟩
    obtain rfl : '(' = c := Option.some.inj (head.symm.trans head')
    exact absurd white (by decide)
  · intro flush
    rw [← trimStart_of_not_indented flush, text]
    rfl

/-- **How a text is treated**: as a module if it is the text of one, and does not
open it behind whitespace. -/
theorem treat_eq_module_iff {s : String} (noMagic : ¬ WASM_MAGIC <+: s.toUTF8.toList) :
    load.treat s.toUTF8.toList = some .module ↔
      IsModuleText s.toList ∧ ¬ (Indented s.toList ∧ OpensModule s.toList) := by
  obtain ⟨b, test, b_iff⟩ := isWat_spec s
  have plain : (decide (4 ≤ s.toUTF8.toList.length) && s.toUTF8.toList.take 4 == WASM_MAGIC) =
      false := by
    rw [Bool.and_eq_false_iff, beq_eq_false_iff_ne]
    exact .inr fun magic => noMagic (magic ▸ List.take_prefix 4 _)
  have treated : load.treat s.toUTF8.toList =
      some (if b = true then .module else .manifest s) := by
    rw [load.treat, Utf8.fromUTF8?_toUTF8]
    simp only [plain, test, Option.bind_eq_bind, Option.bind_some]
    cases b <;> rfl
  have module : load.treat s.toUTF8.toList = some .module ↔ b = true := by
    rw [treated]
    cases b <;> simp
  rw [module, b_iff, IsModuleText]
  by_cases opens : OpensModule s.toList
  · have comment := opens.not_comment
    rw [head_eq_paren_iff opens, or_iff_left comment, and_iff_left opens, and_iff_left opens,
      and_iff_right (.inr (.inr opens))]
  · rw [or_iff_right (opens ·.2), and_iff_left (opens ·.2), ← or_assoc, or_iff_left opens]

/-- No data makes the treatment panic. -/
theorem treat_isSome (data : List UInt8) : (load.treat data).isSome := by
  rw [load.treat]
  cases decoded : String.fromUTF8? ⟨data.toArray⟩ with
  | none => rfl
  | some s =>
      obtain ⟨b, test, -⟩ := isWat_spec s
      rw [Utf8.toUTF8_of_fromUTF8? decoded] at test
      simp only [test]
      rfl

/-! ## Behind whitespace -/

section Behind

variable {w t : String} (white : ∀ c ∈ w.toList, isWhitespace c = true)

include white

/-- Whitespace is not the first byte of a binary module. -/
theorem not_magic_append (noMagic : ¬ WASM_MAGIC <+: t.toUTF8.toList) :
    ¬ WASM_MAGIC <+: (w ++ t).toUTF8.toList := by
  rintro ⟨tail, magic⟩
  cases text : w.toList with
  | nil =>
      obtain rfl : w = "" := String.toList_eq_nil_iff.1 text
      exact noMagic ⟨tail, by rw [magic, String.empty_append]⟩
  | cons c cs =>
      have first : (w ++ t).toUTF8.toList.head? = some 0 := by rw [← magic]; rfl
      obtain ⟨c', head, zero⟩ := (Utf8.head?_toUTF8 (by decide) _).1 first
      rw [String.toList_append, text] at head
      obtain rfl : c = c' := Option.some.inj head
      have here := white c (by rw [text]; exact List.mem_cons_self)
      simp [isWhitespace, zero] at here

theorem indented_append (indented : Indented t.toList) : Indented (w ++ t).toList := by
  rw [String.toList_append]
  cases text : w.toList with
  | nil => exact indented
  | cons c cs => exact ⟨c, rfl, white c (by rw [text]; exact List.mem_cons_self)⟩

end Behind

/-- **When a text is recognised.**  No data makes `load` panic; and whitespace
before a text makes no difference, and modules are told from manifests, exactly
if the text does not open a module behind whitespace. -/
theorem recognised_iff {w t : String} (white : ∀ c ∈ w.toList, isWhitespace c = true)
    (noMagic : ¬ WASM_MAGIC <+: t.toUTF8.toList) :
    (∀ data, (load.treat data).isSome) ∧
      (Recognised w t ↔ ¬ (Indented (w ++ t).toList ∧ OpensModule (w ++ t).toList)) := by
  refine ⟨treat_isSome, ?_⟩
  have whole := treat_eq_module_iff (not_magic_append white noMagic)
  have alone := treat_eq_module_iff noMagic
  have trimmed : trimStart (w ++ t).toList = trimStart t.toList := by
    rw [String.toList_append, trimStart_append white]
  have opens_iff : OpensModule (w ++ t).toList ↔ OpensModule t.toList := by
    rw [OpensModule, trimmed, OpensModule]
  have text_iff : IsModuleText (w ++ t).toList ↔ IsModuleText t.toList := by
    rw [IsModuleText, trimmed, opens_iff, IsModuleText]
  constructor
  · intro recognised behind
    have module : IsModuleText (w ++ t).toList := .inr (.inr behind.2)
    exact (whole.1 (recognised.module_iff.2 module)).2 behind
  · intro flush
    have flush' : ¬ (Indented t.toList ∧ OpensModule t.toList) := fun behind =>
      flush ⟨indented_append white behind.1, opens_iff.2 behind.2⟩
    exact
      { same := by rw [whole, alone, text_iff, and_iff_left flush, and_iff_left flush']
        module_iff := by rw [whole, and_iff_left flush] }

theorem not_magic_module : ¬ WASM_MAGIC <+: "(module)".toUTF8.toList := by
  rintro ⟨tail, magic⟩
  have first : "(module)".toUTF8.toList.head? = some 0 := by rw [← magic]; rfl
  obtain ⟨c, head, zero⟩ := (Utf8.head?_toUTF8 (by decide) _).1 first
  obtain rfl : '(' = c := Option.some.inj head
  exact absurd zero (by decide)

theorem isWhitespace_blank : ∀ c ∈ " ".toList, isWhitespace c = true := by
  intro c mem
  obtain rfl : c = ' ' := List.mem_singleton.1 mem
  decide

/-- A module in text format, without whitespace and behind a blank. -/
theorem recognised_iff_of_blank :
    (Recognised "" "(module)" ↔
      ¬ (Indented "(module)".toList ∧ OpensModule "(module)".toList)) ∧
    (Recognised " " "(module)" ↔
      ¬ (Indented " (module)".toList ∧ OpensModule " (module)".toList)) :=
  ⟨(recognised_iff (w := "") (by simp) not_magic_module).2,
    (recognised_iff (w := " ") isWhitespace_blank not_magic_module).2⟩

/-- Behind the blank it is taken for a manifest. -/
theorem not_recognised_always :
    ¬ ∀ w t : String, (∀ c ∈ w.toList, isWhitespace c = true) →
      ¬ WASM_MAGIC <+: t.toUTF8.toList → Recognised w t := by
  intro always
  have recognised := always " " "(module)" isWhitespace_blank not_magic_module
  have opens : OpensModule (" " ++ "(module)").toList :=
    ⟨"module)".toList, by decide +kernel, by decide +kernel⟩
  have treated := recognised.module_iff.2 (.inr (.inr opens))
  have noMagic : ¬ WASM_MAGIC <+: (" " ++ "(module)").toUTF8.toList :=
    not_magic_append isWhitespace_blank not_magic_module
  exact ((treat_eq_module_iff noMagic).1 treated).2 ⟨⟨' ', by decide +kernel, by decide⟩, opens⟩

end Extism.Runtime
