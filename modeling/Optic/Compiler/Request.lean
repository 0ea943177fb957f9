import Optic.Records.Capture
import Optic.Rust.Text
import Optic.Rust.Tokens

open rust optic.records

namespace optic.compiler

/-- Exactly one target of a Cargo package. -/
inductive CargoTarget where
  | Library
  | Binary (name : String)
  | Example (name : String)
  | Benchmark (name : String)
deriving DecidableEq

namespace CargoTarget

def kind : CargoTarget → CargoTargetKind
  | .Library => .Lib
  | .Binary _ => .Bin
  | .Example _ => .Example
  | .Benchmark _ => .Bench

def selector_arguments : CargoTarget → List String
  | .Library => ["--lib"]
  | .Binary name => ["--bin", name]
  | .Example name => ["--example", name]
  | .Benchmark name => ["--bench", name]

end CargoTarget

/-- The empty component of an invalid request. -/
structure InvalidBuildRequest where
  field : String
deriving DecidableEq

def InvalidBuildRequest.display (self : InvalidBuildRequest) : String :=
  s!"{self.field} must not be empty, got an empty string"

/-- The separators of Cargo's feature lists. -/
def is_feature_separator (character : Char) : Bool := character = ',' || is_whitespace character

/-- Feature names in the one form that a request keeps. -/
structure FeatureNames (features : List String) : Prop where
  increasing : text_order.Increasing features
  tokens : ∀ name ∈ features, Token is_feature_separator name

/-- The names that feature values list. -/
def feature_names (values : List String) : List String := values.flatMap (rust.tokens is_feature_separator)

theorem feature_names_normal (values : List String) : FeatureNames (text_order.normal (feature_names values)) where
  increasing := SortOrder.normal_increasing text_order_linear _
  tokens name hname := by
    rw [SortOrder.mem_normal text_order_linear] at hname
    obtain ⟨value, -, hname⟩ := List.mem_flatMap.mp hname
    exact token_of_mem hname

namespace BuildRequest

def require_text (field value : String) : Except InvalidBuildRequest Unit := ensure (value ≠ "") ⟨field⟩

/-- The checks of a request, in the order of its constructor. -/
def validate (package : String) (target : CargoTarget) (profile : String) : Except InvalidBuildRequest Unit := do
  require_text "package name" package
  require_text "profile" profile
  match target with
  | .Library => return ()
  | .Binary name => require_text "binary target name" name
  | .Example name => require_text "example target name" name
  | .Benchmark name => require_text "benchmark target name" name

end BuildRequest

/-- A Cargo package, target, profile and feature selection. -/
structure BuildRequest where
  package : String
  target : CargoTarget
  profile : String
  features : List String
  all_features : Bool
  no_default_features : Bool
  named : BuildRequest.validate package target profile = .ok ()
  normal : FeatureNames features

namespace BuildRequest

def new (package : String) (target : CargoTarget) (profile : String) : Except InvalidBuildRequest BuildRequest := do
  let ⟨named⟩ ← proven (validate package target profile)
  return { package, target, profile, named, features := [], all_features := false, no_default_features := false
           normal := ⟨List.Pairwise.nil, List.forall_mem_nil _⟩ }

/-- Selects the listed features: split at separators, sorted, and without duplicates. -/
def with_features (self : BuildRequest) (values : List String) : Except InvalidBuildRequest BuildRequest := do
  values.forM (require_text "feature name")
  return { self with features := text_order.normal (feature_names values), normal := feature_names_normal values }

def with_all_features (self : BuildRequest) : BuildRequest := { self with all_features := true }

def without_default_features (self : BuildRequest) : BuildRequest := { self with no_default_features := true }

end BuildRequest

/-- The arguments that collect a request. -/
def cargo_arguments (request : BuildRequest) : List String :=
  ["rustc", "--package", request.package] ++ request.target.selector_arguments ++ ["--profile", request.profile] ++
    (if request.features.isEmpty then [] else ["--features", ",".intercalate request.features]) ++
    (if request.all_features then ["--all-features"] else []) ++
    (if request.no_default_features then ["--no-default-features"] else [])

/-- The record of a request that was resolved to a package and a target. -/
def build_record (request : BuildRequest) (package package_version target : String)
    (cargo_program invocation_directory : PathBuf) : Except records.Error BuildRecord := do
  let target ← TargetRecord.new target request.target.kind
  BuildRecord.new package package_version target request.profile cargo_program invocation_directory (cargo_arguments request)

end optic.compiler
