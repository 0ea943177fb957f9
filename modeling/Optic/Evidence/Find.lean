import Optic.Evidence.Evidence
import Optic.Records.Reference

open rust file_system optic.records optic.store

namespace optic.queries

/-- Why a search could not complete. -/
inductive FindError where
  | EmptyQuery (query : String)
  | InvalidLimit (actual : Nat)
  | Store (source : store.Error)
  | panicked (message : String)
deriving DecidableEq

/-- A search result with its immutable position in the selected capture. -/
structure FoundInstance where
  reference : InstanceRef
  record : InstanceRecord

/-- How a query matched the instances that it returned. -/
inductive MatchKind where
  | Exact
  | Substring
deriving DecidableEq, Repr

/-- One instance search. The returned instances can be limited, the number of matches never is. -/
structure FindResults where
  capture_id : CaptureId
  match_kind : MatchKind
  total_matches : Nat
  instances : List FoundInstance

def is_exact_match (instance_ : InstanceRecord) (query : String) : Bool :=
  instance_.definition.definition_path = query || instance_.display_name = query || instance_.raw_symbol = query

/-- `str::contains`: texts contain each other as bytes. -/
def contains (query : List UInt8) : List UInt8 → Bool
  | [] => query.isEmpty
  | byte :: rest => query.isPrefixOf (byte :: rest) || contains query rest

def is_substring_match (instance_ : InstanceRecord) (query : String) : Bool :=
  contains (text query) (text instance_.definition.definition_path) ||
    contains (text query) (text instance_.display_name) || contains (text query) (text instance_.raw_symbol)

/-- Display name, definition path, crate name, raw symbol. -/
def InstanceOrder (left right : InstanceRecord × Nat) : Bool :=
  ((compare left.1.display_name right.1.display_name).then
    ((compare left.1.definition.definition_path right.1.definition.definition_path).then
      ((compare left.1.definition.crate_name right.1.definition.crate_name).then
        (compare left.1.raw_symbol right.1.raw_symbol)))).isLE

/-- The instances that a query matches, with the ordinals that they have before any is left out. -/
def matches_of (instances : List InstanceRecord) (query : String) : MatchKind × List (InstanceRecord × Nat) :=
  let exact := instances.zipIdx.filter fun entry => is_exact_match entry.1 query
  if exact.isEmpty then (.Substring, instances.zipIdx.filter fun entry => is_substring_match entry.1 query)
  else (.Exact, exact)

/-- The reference of an ordinal, which must fit in 64 bits. -/
def found (capture_id : CaptureId) (entry : InstanceRecord × Nat) : Except FindError FoundInstance :=
  if entry.2 < UInt64.size then .ok ⟨⟨capture_id, UInt64.ofNat entry.2⟩, entry.1⟩
  else .error (.panicked "enumerate produces usize ordinals, which fit in u64 on supported platforms")

/-- Searches the instances of a manifest that was read. -/
def find_in (manifest : InstanceManifest) (capture_id : CaptureId) (query : String) (limit : Nat) :
    Except FindError FindResults := do
  let (match_kind, matched) := matches_of manifest.instances query
  let sorted := matched.mergeSort InstanceOrder
  let instances ← (sorted.take limit).mapM (found capture_id)
  return { capture_id, match_kind, total_matches := sorted.length, instances }

variable (Artifact : Type) [Serde (CaptureRecord Artifact)] [Serde InstanceManifest]

/-- Finds concrete compiler instances within a capture. -/
def find_instances (store : Store) (capture_id : CaptureId) (query : String) (limit : Nat) : Action FindError FindResults := do
  .lift (ensure (query ≠ "") (.EmptyQuery query))
  .lift (ensure (limit ≠ 0) (.InvalidLimit limit))
  let manifest ← (store.read_instances Artifact capture_id).map_err .Store
  .lift (find_in manifest capture_id query limit)

end optic.queries
