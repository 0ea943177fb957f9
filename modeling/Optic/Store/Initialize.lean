import Optic.Store.Error

open rust file_system

namespace optic.store

def directory_exists (path : Path) : Action Error Bool :=
  .attempt (symlink_metadata path) fun
    | .ok metadata => if metadata.is_dir then pure true else .fail (.UnexpectedFileType "directory" path)
    | .error source => if source.kind = .NotFound then pure false else .fail (.Filesystem "read metadata for" path source)

def create_directory (path : Path) : Action Error Unit := do
  if ← directory_exists path then pure () else with_context "create" path (create_dir path)

/-- Whether all of the directories exist. The search ends at the first that does not. -/
def directories_exist : List Path → Action Error Bool
  | [] => pure true
  | path :: paths => do if ← directory_exists path then directories_exist paths else pure false

def create_directories : List Path → Action Error Unit
  | [] => pure ()
  | path :: paths => do
    create_directory path
    create_directories paths

namespace Store

/-- Accepts an existing ignore file only with the contents that a new one gets. -/
def initialize_ignore (ignore : Path) : Action Error Unit :=
  .attempt (symlink_metadata ignore) fun
    | .ok metadata => do
      check metadata.is_file (.UnexpectedFileType "file" ignore)
      check (metadata.len = 2) (.ConflictingIgnoreFile ignore)
      let bytes ← with_context "read" ignore do
        let rest ← open_file ignore
        read (.ok (rest.take 3))
      check (bytes = text "*\n") (.ConflictingIgnoreFile ignore)
    | .error source =>
      if source.kind = .NotFound then do
        with_context "create" ignore (create_new ignore)
        with_context "write" ignore (write_all ignore (text "*\n"))
      else .fail (.Filesystem "read metadata for" ignore source)

/-- Creates ignored store state before the first build. -/
def initialize_store (self : Store) : Action Error Unit := do
  create_directory self.optic_directory
  initialize_ignore (self.optic_directory.join ".gitignore")
  create_directory self.root
  create_directories [self.root.join "staging", self.root.join "captures", self.root.join "candidates"]

/-- Validates every owned ancestor before a read can take an absent entry for a miss. -/
def namespace_exists (self : Store) (namespace_ : String) : Action Error Bool :=
  directories_exist [self.optic_directory, self.root, self.root.join namespace_]

end Store

end optic.store
