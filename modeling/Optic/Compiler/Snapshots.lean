import Optic.Compiler.Writer
import Optic.FileSystem.World

open rust optic.records optic.compiler.protocol file_system

namespace optic.driver

variable {FileId : Type} [Ord FileId]

/-- Why a collection stopped. -/
inductive Stop where
  | filesystem (source : IoError)
  | manifest (failure : Failure)
  | overflow

/-- Positions in the compiler's source map, and what their span stands for. -/
structure Span where
  lo : UInt32
  hi : UInt32
  from_expansion : Bool
  is_dummy : Bool

/-- The name of a loaded file. A real one can have a local path. -/
inductive FileName where
  | Real (local_path : Option OsString)
  | Other

/-- The local path of a real name. -/
def FileName.real : FileName → Option (Option OsString)
  | .Real local_path => some local_path
  | .Other => none

/-- A file of the compiler's source map. -/
structure SourceFile (FileId : Type) where
  stable_id : FileId
  start_pos : UInt32
  /-- The normalized text, if it is loaded. -/
  src : Option String
  name : FileName
  /-- The zero-based line of a position. -/
  lookup_line : UInt32 → Option UInt64

def SourceFile.relative_position (self : SourceFile FileId) (pos : UInt32) : UInt32 := pos - self.start_pos

/-- What the compiler answers about a function instance. -/
structure Instance where
  concrete : ConcreteInstance
  is_local : Bool
  is_item : Bool
  is_synthetic : Bool
  span_with_body : Span

/-- `str::get` of a range of bytes. -/
def get (value : String) (start stop : Nat) : Option (List UInt8) :=
  if start ≤ stop && String.Pos.Raw.isValid value ⟨start⟩ && String.Pos.Raw.isValid value ⟨stop⟩ then
    some (((text value).take stop).drop start)
  else none

/-- A code of the protocol for an unavailable source. -/
structure Unavailable where
  reason : UInt32
  known : ∃ unavailable, reason = unavailable_code unavailable

/-- A whole item that one loaded file has the text of. -/
structure Located (FileId : Type) where
  stable_id : FileId
  text : String
  start : UInt32
  stop : UInt32
  path : OsString
  line : UInt64

/-- Deduplicates source snapshots within one collection attempt. -/
structure Snapshots (FileId : Type) [Ord FileId] where
  directory : Path
  package_root : OsString
  files : Std.TreeMap FileId UInt64

namespace Snapshots

def new (directory : Path) (package_root : OsString) : Snapshots FileId where
  directory := directory
  package_root := package_root
  files := ∅

/-- The checks of a capture, which end at the reason why a source is unavailable. -/
def locate (lookup_source_file : UInt32 → SourceFile FileId) (canonicalize : OsString → Option OsString)
    (package_root : OsString) (instance_ : Instance) : Except Unavailable (Located FileId) := do
  ensure instance_.is_local ⟨SOURCE_NONLOCAL, .Nonlocal, rfl⟩
  ensure instance_.is_item ⟨SOURCE_GENERATED, .Generated, rfl⟩
  ensure (!instance_.is_synthetic) ⟨SOURCE_GENERATED, .Generated, rfl⟩
  let span := instance_.span_with_body
  ensure (!span.from_expansion) ⟨SOURCE_GENERATED, .Generated, rfl⟩
  ensure (!(span.is_dummy || span.hi < span.lo)) ⟨SOURCE_UNSUPPORTED_SPAN, .UnsupportedSpan, rfl⟩
  let file := lookup_source_file span.lo
  let last := lookup_source_file span.hi
  ensure (file.start_pos = last.start_pos) ⟨SOURCE_UNSUPPORTED_SPAN, .UnsupportedSpan, rfl⟩
  let text ← ok_or file.src ⟨SOURCE_UNLOADED, .Unloaded, rfl⟩
  let name ← ok_or file.name.real ⟨SOURCE_GENERATED, .Generated, rfl⟩
  let path ← ok_or name ⟨SOURCE_UNLOADED, .Unloaded, rfl⟩
  let path ← ok_or (canonicalize path) ⟨SOURCE_UNSUPPORTED_SPAN, .UnsupportedSpan, rfl⟩
  ensure (PathBuf.components_of package_root <+: PathBuf.components_of path)
    ⟨SOURCE_OUTSIDE_PACKAGE, .OutsidePackage, rfl⟩
  let start := file.relative_position span.lo
  let stop := file.relative_position span.hi
  ensure (get text start.toNat stop.toNat).isSome ⟨SOURCE_UNSUPPORTED_SPAN, .UnsupportedSpan, rfl⟩
  let line ← ok_or (file.lookup_line start) ⟨SOURCE_UNSUPPORTED_SPAN, .UnsupportedSpan, rfl⟩
  return { stable_id := file.stable_id, text, start, stop, path, line }

end Snapshots

/-- Writes to the manifest behind what it has. -/
def write (writer : ManifestWriter) (manifest : List UInt8) : Action Stop (List UInt8) :=
  .lift (((writer.run manifest).map Prod.snd).mapError .manifest)

/-- The name of a snapshot in the attempt directory. -/
def snapshot_name (artifact : UInt64) : String := "artifact-" ++ String.ofList (hex_digits 16 artifact.toNat)

namespace Snapshots

/-- Reuses a compiler file's snapshot or writes its first snapshot and manifest declaration. -/
def capture_file (self : Snapshots FileId) (file_id : FileId) (content : String) (manifest : List UInt8) :
    Action Stop (UInt64 × Snapshots FileId × List UInt8) :=
  match self.files[file_id]? with
  | some artifact => return (artifact, self, manifest)
  | none => do
    .lift (ensure (self.files.size < UInt64.size) .overflow)
    let artifact := UInt64.ofNat self.files.size
    Action.map_err .filesystem (file_system.write (self.directory.join (snapshot_name artifact)) (text content))
    let manifest ← write (ManifestWriter.write_source_file artifact (.ofNat (text content).length)) manifest
    return (artifact, { self with files := self.files.insert file_id artifact }, manifest)

/-- Captures a whole local item from one compiler-loaded file inside the package root. -/
def capture (self : Snapshots FileId) (lookup_source_file : UInt32 → SourceFile FileId)
    (canonicalize : OsString → Option OsString) (instance_ : Instance) (manifest : List UInt8) :
    Action Stop (Source × Snapshots FileId × List UInt8) :=
  match locate lookup_source_file canonicalize self.package_root instance_ with
  | .error unavailable => return (.Unavailable unavailable.reason unavailable.known, self, manifest)
  | .ok located => do
    let (artifact, next, manifest) ← self.capture_file located.stable_id located.text manifest
    return (.Available {
      artifact
      start := located.start.toUInt64
      length := (located.stop - located.start).toUInt64
      display_path := located.path
      starting_line := 1 + located.line }, next, manifest)

end Snapshots

inductive MonoItem where
  | Fn (instance_ : Instance)
  | Static
  | GlobalAsm

/-- An item of a codegen unit, and how the file system resolves paths while the item is collected. -/
structure Item where
  mono_item : MonoItem
  data : MonoItemData
  canonicalize : OsString → Option OsString

/-- A codegen unit, and the bitcode path that the compiler names it. -/
structure CodegenUnit where
  name : String
  path : OsString
  items : List Item

/-- The verified suffix of retained bitcode. -/
def Configuration.extension (self : Configuration) : Option String :=
  if self.unsupported = LLVM_SUPPORTED then
    match self.lto with
    | .No => some "bc"
    | .ThinLocal => some "thin-lto-after-pm.bc"
    | _ => none
  else none

/-- Records the bitcode file of a unit, unless no bitcode is retained. -/
def write_expected_module (configuration : Configuration) (codegen_unit : CodegenUnit) (manifest : List UInt8) :
    Action Stop (List UInt8) :=
  match configuration.extension with
  | some _ => write (ManifestWriter.write_module codegen_unit.name codegen_unit.path) manifest
  | none => return manifest

section

variable (lookup_source_file : UInt32 → SourceFile FileId)

/-- Records each function copy in one codegen unit. -/
def write_function_placements (codegen_unit : String) : List Item → Snapshots FileId → List UInt8 →
    Action Stop (Snapshots FileId × List UInt8)
  | [], sources, manifest => return (sources, manifest)
  | item :: items, sources, manifest =>
    match item.mono_item with
    | .Fn instance_ => do
      let (source, sources, manifest) ←
        sources.capture lookup_source_file item.canonicalize instance_ manifest
      let manifest ←
        write (ManifestWriter.write_placement instance_.concrete codegen_unit item.data source) manifest
      write_function_placements codegen_unit items sources manifest
    | .Static | .GlobalAsm => write_function_placements codegen_unit items sources manifest

/-- Writes module and placement records in codegen-unit order. -/
def write_codegen_units (configuration : Configuration) : List CodegenUnit → Snapshots FileId → List UInt8 →
    Action Stop (Snapshots FileId × List UInt8)
  | [], sources, manifest => return (sources, manifest)
  | codegen_unit :: codegen_units, sources, manifest => do
    let manifest ← write_expected_module configuration codegen_unit manifest
    let (sources, manifest) ←
      write_function_placements lookup_source_file codegen_unit.name codegen_unit.items sources manifest
    write_codegen_units configuration codegen_units sources manifest

/-- Writes a whole manifest, from its header to the end record. -/
def collect (marker : String) (configuration : Configuration) (codegen_units : List CodegenUnit)
    (sources : Snapshots FileId) : Action Stop (Snapshots FileId × List UInt8) := do
  let manifest ← write (ManifestWriter.write_header marker) []
  let manifest ← write (ManifestWriter.write_configuration configuration) manifest
  let (sources, manifest) ← write_codegen_units lookup_source_file configuration codegen_units sources manifest
  let manifest ← write ManifestWriter.finish manifest
  return (sources, manifest)

end

end optic.driver
