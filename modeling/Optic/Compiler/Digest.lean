import Optic.Compiler.Observation
import Optic.Wire.Format

open rust optic.records optic.compiler.protocol

namespace optic.compiler

/-- What the hasher is updated with: each field behind its length. -/
def digest_input (fields : List (List UInt8)) : List UInt8 :=
  fields.flatMap fun field => wire.le_bytes 8 (UInt64.ofNat field.length).toNat ++ field

/-- `{:x}` of a hash: two digits for each byte. -/
def lower_hex (bytes : List UInt8) : String := String.ofList (bytes.flatMap fun byte => hex_digits 2 byte.toNat)

/-- The SHA-256 digest of a list of fields. -/
def digest (sha256 : List UInt8 → Vector UInt8 32) (fields : List (List UInt8)) : String :=
  lower_hex (sha256 (digest_input fields)).toList

/-- The inputs of a driver: an exact compiler, and the recipe that it compiles. -/
structure Recipe where
  identity : CompilerIdentity
  sources : List (String × String)
  options : List String
  recipe_revision : List UInt8
  protocol_version : UInt32

/-- The fields of a driver key, in the order in which they are hashed. -/
def Recipe.fields (self : Recipe) : List (List UInt8) :=
  [self.recipe_revision, text self.identity.rustc.text, text self.identity.release, text self.identity.commit_hash,
    text self.identity.host, text self.identity.sysroot.text, wire.le_bytes 4 self.protocol_version.toNat,
    text "RUSTC_BOOTSTRAP=optic_rustc_driver", text "OPTIC_DRIVER_KEY=recipe-digest",
    text "OPTIC_RUSTC_COMMIT=compiler-commit", text "-o=optic-rustc-driver"] ++
    (self.sources.flatMap fun source => [text source.1, text source.2]) ++ self.options.map text

def driver_key (sha256 : List UInt8 → Vector UInt8 32) (recipe : Recipe) : String := digest sha256 recipe.fields

/-- Identifies source/LLVM evidence and the layout of the request key. -/
def REQUEST_REVISION : List UInt8 := text "optic-request-2:source-llvm-1"

/-- The places that Cargo's metadata names. -/
structure Metadata where
  workspace_root : PathBuf
  target_directory : PathBuf
  build_directory : Option PathBuf

/-- Where Cargo puts intermediate files. -/
def Metadata.effective_build_directory (self : Metadata) : PathBuf := self.build_directory.getD self.target_directory

variable {M : CargoSchema}

/-- The inputs of a request key. -/
structure Request (M : CargoSchema) where
  build : BuildRecord
  package : String
  target : Target M
  metadata : Metadata
  cargo_version : List UInt8
  driver_key : String
  cargo_home : OsString

/-- The values that a request key covers in their serialized form. -/
abbrev RequestInputs (M : CargoSchema) : Type := BuildRecord × String × Target M × PathBuf × PathBuf

namespace Request

def inputs (self : Request M) : RequestInputs M :=
  (self.build, self.package, self.target, self.metadata.target_directory, self.metadata.effective_build_directory)

/-- The fields of a request key, in the order in which they are hashed. -/
def fields (to_vec : RequestInputs M → Except String (List UInt8)) (self : Request M) : Except Error (List (List UInt8)) := do
  let request_inputs ← (to_vec self.inputs).mapError fun error =>
    invalid_environment s!"request identity requires serializable Cargo paths, got {error}"
  return [REQUEST_REVISION, text self.metadata.workspace_root.text, self.cargo_home.as_encoded_bytes, self.cargo_version,
    text self.driver_key, request_inputs]

end Request

def request_key (to_vec : RequestInputs M → Except String (List UInt8)) (sha256 : List UInt8 → Vector UInt8 32)
    (request : Request M) : Except Error CaptureKey := do
  let fields ← request.fields to_vec
  (CaptureKey.parse (digest sha256 fields)).mapError .Record

end optic.compiler
