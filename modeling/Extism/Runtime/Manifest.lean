import Extism.Lib.Prog
import Extism.Runtime.Value
import Mathlib.Data.List.AList

/-!
# Manifests and the modules they name

What a plugin is made of: `load` takes the bytes of a module or a manifest and
fills the map of modules, which holds the kernel from the beginning.  The file
system, the network, the hash, the compiler of modules and the two parsers of
manifests are parameters, in a `Loader`.

The map is a `BTreeMap` in the source; nothing here depends on its order.

A slice of a string that goes across a character is a panic, and so is an
`unwrap` of none.  Where the source has one, the definition gives none, so that a
theorem can say that it is not met.

## Main definitions

* `Wasm`, `Manifest`, `WasmInput` — where a module is, a manifest as far as its
  modules go, and what a plugin can be made from.
* `Modules`, `Loader` — the map, and what loading rests on.
* `Loader.toModule`, `Loader.modules` — one module, and the loop over all.
* `load.isWat`, `load.treat` — the test for a module in text format, and what data
  are taken for.
* `Loader.load` — a module or a manifest, loaded.
* `buildNew.check` — what `build_new` checks of the modules.
-/

namespace Extism.Runtime

/-- `EXTISM_ENV_MODULE`, the name of the kernel. -/
def EXTISM_ENV_MODULE : String := "extism:host/env"

/-- `MAIN_KEY`. -/
def MAIN_KEY : String := "main"

/-- A request for a module. -/
structure HttpRequest where
  url : String
  /-- In the order of their names. -/
  headers : List (String × String)
  method : Option String

/-- What a manifest says of a module besides where it is. -/
structure WasmMetadata where
  name : Option String
  hash : Option String

/-- Where a module is. -/
inductive Wasm
  | file (path : String) (info : WasmMetadata)
  | data (data : List UInt8) (info : WasmMetadata)
  | url (req : HttpRequest) (info : WasmMetadata)

/-- `Wasm::meta`. -/
def Wasm.info : Wasm → WasmMetadata
  | .file _ info => info
  | .data _ info => info
  | .url _ info => info

/-- The configured name of a module, `main` if there is none. -/
def Wasm.name (wasm : Wasm) : String := wasm.info.name.getD MAIN_KEY

/-- A manifest, as far as its modules go. -/
structure Manifest where
  wasm : List Wasm

/-- `Manifest::default`. -/
def Manifest.default : Manifest := ⟨[]⟩

/-- What a plugin can be made from. -/
inductive WasmInput
  | data (data : List UInt8)
  | manifest (m : Manifest)
  | manifestRef (m : Manifest)

/-- `BTreeMap<String, Module>`. -/
abbrev Modules (M : Type) : Type := AList fun _ : String => M

/-- What loading rests on; modules are values of `M`. -/
structure Loader (M : Type) where
  /-- The features the runtime was built with. -/
  registerFilesystem : Bool
  registerHttp : Bool
  /-- The contents of a file. -/
  readFile : String → Except Error (List UInt8)
  /-- The body of the response, by method, URL and headers. -/
  fetch : String → String → List (String × String) → Except Error (List UInt8)
  sha256 : List UInt8 → List UInt8
  /-- `Module::new`. -/
  compile : List UInt8 → Except Error M
  toml : String → Option Manifest
  json : String → Option Manifest
  /-- `WASM`, the kernel's own bytes. -/
  kernel : List UInt8

/-- Two hexadecimal digits a byte. -/
def hex (data : List UInt8) : String :=
  String.ofList (data.flatMap fun byte =>
    [Nat.digitChar (byte.toNat / 16), Nat.digitChar (byte.toNat % 16)])

namespace Loader

variable {M : Type} (L : Loader M)

/-- `check_hash`. -/
def checkHash : Option String → List UInt8 → Except Error (Option String)
  | none, _ => .ok none
  | some hash, data =>
      let hex := hex (L.sha256 data)
      if hex ≠ hash then
        .error (.msg ("Hash mismatch, found " ++ hex ++ " but expected " ++ hash))
      else .ok (some hex)

/-- `to_module`. -/
def toModule : Wasm → Except Error (String × M)
  | .file path info =>
      if L.registerFilesystem then do
        let name := info.name.getD MAIN_KEY
        let buf ← L.readFile path
        let _ ← L.checkHash info.hash buf
        let m ← L.compile buf
        .ok (name, m)
      else .error (.msg "File-based registration is disabled")
  | .data data info => do
      let _ ← L.checkHash info.hash data
      let m ← L.compile data
      .ok (info.name.getD MAIN_KEY, m)
  | .url req info =>
      let name := info.name.getD MAIN_KEY
      if L.registerHttp then do
        let data ← L.fetch (req.method.getD "GET") req.url req.headers
        let _ ← L.checkHash info.hash data
        let m ← L.compile data
        .ok (name, m)
      else .error (.msg "HTTP registration is disabled")

/-! ## The loop over the entries -/

/-- Insert a module under a name not taken yet. -/
def modules.insert (name : String) (m : M) : Prog (Modules M) Error Unit := do
  let mods ← Prog.get
  if name ∈ mods then
    Prog.fail (.msg ("Duplicate module name found in Extism manifest: " ++ name))
  else Prog.modify fun mods => mods.insert name m

/-- One round: entry `i` of `n`. -/
def modules.round (n i : ℕ) (f : Wasm) : Prog (Modules M) Error Unit := do
  let (name, m) ← Prog.ofExcept (L.toModule f)
  let mods ← Prog.get
  -- the last module is renamed if no main module is defined yet
  modules.insert (if i = n - 1 ∧ MAIN_KEY ∉ mods then MAIN_KEY else name) m

/-- The rounds from entry `i` on. -/
def modules.loop (n : ℕ) : ℕ → List Wasm → Prog (Modules M) Error Unit
  | _, [] => pure ()
  | i, f :: fs => do
      modules.round L n i f
      modules.loop n (i + 1) fs

/-- `modules`. -/
def modules (manifest : Manifest) : Prog (Modules M) Error Unit :=
  match manifest.wasm with
  | [] => Prog.fail (.msg "No wasm files specified in Extism manifest")
  | [f] => do
      let (_, m) ← Prog.ofExcept (L.toModule f)
      Prog.modify fun mods => mods.insert MAIN_KEY m
  | wasm => modules.loop L wasm.length 0 wasm

end Loader

/-! ## Loading -/

/-- `WASM_MAGIC`. -/
def WASM_MAGIC : List UInt8 := [0x00, 0x61, 0x73, 0x6d]

/-- `char::is_whitespace`: the characters with the property `White_Space`. -/
def isWhitespace (c : Char) : Bool :=
  let n := c.toNat
  9 ≤ n && n ≤ 13 || n == 0x20 || n == 0x85 || n == 0xA0 || n == 0x1680 ||
    0x2000 ≤ n && n ≤ 0x200A || n == 0x2028 || n == 0x2029 || n == 0x202F || n == 0x205F ||
    n == 0x3000

/-- `str::trim_start`, of the characters of a string. -/
def trimStart (s : List Char) : List Char := s.dropWhile isWhitespace

/-- `str::len`. -/
def strLen (s : List Char) : ℕ := (s.map Char.utf8Size).sum

/-- `s[i..]`, which panics if a character goes across `i`. -/
def sliceFrom : ℕ → List Char → Option (List Char)
  | 0, s => some s
  | _ + 1, [] => none
  | i + 1, c :: s => if c.utf8Size ≤ i + 1 then sliceFrom (i + 1 - c.utf8Size) s else none

/-- The test for a module in text format, of data and the string it decodes to;
none for a panic. -/
def load.isWat (data : List UInt8) (s : List Char) : Option Bool := do
  let s := trimStart s
  let startsWithModule ←
    if 2 < strLen s then do
      let first ← data[0]?
      if first = 0x28 then do
        let rest ← sliceFrom 1 s
        pure ("module".toList.isPrefixOf (trimStart rest))
      else pure false
    else pure false
  pure (startsWithModule || ";;".toList.isPrefixOf s || "(;".toList.isPrefixOf s)

/-- What data is taken for. -/
inductive Treatment
  | module
  | manifest (s : String)
  deriving DecidableEq

/-- How `load` treats data; none for a panic. -/
def load.treat (data : List UInt8) : Option Treatment :=
  let hasMagic : Bool := 4 ≤ data.length && data.take 4 == WASM_MAGIC
  match String.fromUTF8? ⟨data.toArray⟩ with
  | some s => do
      let isWat ← load.isWat data s.toList
      pure (if !hasMagic && !isWat then .manifest s else .module)
  | none => pure .module

namespace Loader

variable {M : Type} (L : Loader M)

/-- A manifest with its modules. -/
def load.modules (m : Manifest) (mods : Modules M) : Except Error (Manifest × Modules M) :=
  match L.modules m mods with
  | (.ok (), mods) => .ok (m, mods)
  | (.error e, _) => .error e

/-- A manifest in one of the two formats. -/
def load.text (s : String) (mods : Modules M) : Except Error (Manifest × Modules M) :=
  match L.toml s with
  | some t => load.modules L t mods
  | none =>
      match L.json s with
      | some t => load.modules L t mods
      | none => .error (.msg "Unknown manifest format")

/-- A module, which is the main one. -/
def load.module (data : List UInt8) (mods : Modules M) : Except Error (Manifest × Modules M) := do
  let m ← L.compile data
  .ok (.default, mods.insert MAIN_KEY m)

/-- `load`; none for a panic. -/
def load (input : WasmInput) : Option (Except Error (Manifest × Modules M)) :=
  match L.compile L.kernel with
  | .error e => some (.error e)
  | .ok kernel =>
      let mods : Modules M := .singleton EXTISM_ENV_MODULE kernel
      match input with
      | .data data =>
          (load.treat data).map fun
            | .manifest s => load.text L s mods
            | .module => load.module L data mods
      | .manifest m => some (load.modules L m mods)
      | .manifestRef m => some (load.modules L m mods)

end Loader

/-- What `build_new` checks of the modules. -/
def buildNew.check {M : Type} (mods : Modules M) : Except Error Unit :=
  if mods.entries.length ≤ 1 then .error (.msg "No wasm modules provided")
  else if MAIN_KEY ∉ mods then .error (.msg "No main module provided")
  else .ok ()

end Extism.Runtime
