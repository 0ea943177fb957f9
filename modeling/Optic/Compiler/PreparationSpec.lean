import Mathlib.Data.Set.Function
import Optic.Compiler.DigestSpec
import Optic.Compiler.DriverRecovery
import Optic.Compiler.ObservationSpec
import Optic.Compiler.Preparation
import Optic.Compiler.RequestSpec
import Optic.Records.Equality

open rust file_system optic.records optic.compiler

namespace optic.compiler

/-- The digits of a hash tell its bytes. -/
theorem lower_hex_injective {bytes other : List UInt8} (h : lower_hex bytes = lower_hex other) : bytes = other := by
  have hdigits : bytes.flatMap (fun byte => hex_digits 2 byte.toNat) = other.flatMap fun byte => hex_digits 2 byte.toNat :=
    String.ofList_injective h
  clear h
  induction bytes generalizing other with
  | nil =>
    cases other with
    | nil => rfl
    | cons byte other => cases hdigits
  | cons byte bytes ih =>
    cases other with
    | nil => cases hdigits
    | cons byte' other =>
      rw [List.flatMap_cons, List.flatMap_cons] at hdigits
      obtain ⟨hfirst, hrest⟩ := List.append_inj hdigits rfl
      rw [UInt8.toNat_inj.mp (hex_digits_injective byte.toNat_lt byte'.toNat_lt hfirst), ih hrest]

/-- The options behind a profile tell the features and both flags. -/
theorem options_inj {features features' : List String} {all all' bare bare' : Bool}
    (h : (if features.isEmpty then [] else ["--features", ",".intercalate features]) ++
        (if all then ["--all-features"] else []) ++ (if bare then ["--no-default-features"] else []) =
      (if features'.isEmpty then [] else ["--features", ",".intercalate features']) ++
        (if all' then ["--all-features"] else []) ++ (if bare' then ["--no-default-features"] else [])) :
    features.isEmpty = features'.isEmpty ∧ ",".intercalate features = ",".intercalate features' ∧ all = all' ∧
      bare = bare' := by
  cases features <;> cases features' <;> cases all <;> cases all' <;> cases bare <;> cases bare' <;>
    simp at h ⊢ <;> exact h

/-- The arguments of a build tell its request. -/
theorem cargo_arguments_injective {request other : BuildRequest} (h : cargo_arguments request = cargo_arguments other) :
    request = other := by
  obtain ⟨hpackage, htarget, hprofile, hoptions⟩ : request.package = other.package ∧ request.target = other.target ∧
      request.profile = other.profile ∧ (cargo_arguments request).drop (5 + request.target.selector_arguments.length) =
        (cargo_arguments other).drop (5 + other.target.selector_arguments.length) := by
    rw [h]
    simp only [cargo_arguments] at h
    cases hselected : request.target <;> cases hselected' : other.target <;>
      simp [hselected, hselected', CargoTarget.selector_arguments] at h ⊢ <;> simp [h]
  have hbehind (request : BuildRequest) : (cargo_arguments request).drop (5 + request.target.selector_arguments.length) =
      (if request.features.isEmpty then [] else ["--features", ",".intercalate request.features]) ++
        (if request.all_features then ["--all-features"] else []) ++
        (if request.no_default_features then ["--no-default-features"] else []) := by
    cases hselected : request.target <;> simp [cargo_arguments, hselected, CargoTarget.selector_arguments]
  rw [hbehind, hbehind] at hoptions
  obtain ⟨-, hjoined, hall, hbare⟩ := options_inj hoptions
  have hfeatures : request.features = other.features := by
    rw [← request.normal.tokens_join, hjoined, other.normal.tokens_join]
  cases request
  cases other
  simp_all

end optic.compiler

namespace optic.preparation

section

variable {M : CargoSchema} {machine : rustc_driver.Machine} {to_vec : RequestInputs M → Except String (List UInt8)}
  {system other : System M} {request request' : BuildRequest} {resolved resolved' : Resolved M}
  {prepared prepared' : relay.Prepared M} {w w' : World}

/-- The recipe of a compiler's driver. -/
def recipe (machine : rustc_driver.Machine) (identity : CompilerIdentity) : Recipe where
  identity := identity
  sources := machine.sources
  options := rustc_driver.BUILD_OPTIONS
  recipe_revision := rustc_driver.RECIPE_REVISION
  protocol_version := protocol.PROTOCOL_VERSION

theorem machine_driver_key (machine : rustc_driver.Machine) (identity : CompilerIdentity) : machine.driver_key identity =
    lower_hex (machine.sha256 (digest_input (recipe machine identity).fields)).toList := rfl

theorem provision_key {attempt : rustc_driver.Attempt} {driver : rustc_driver.RustcDriver}
    (h : attempt.provision machine w = (.ok driver, w')) : driver.key = machine.driver_key attempt.identity := by
  obtain ⟨home, w1, -, h⟩ := Action.bind_eq_ok_iff.mp h
  obtain ⟨_, w2, -, h⟩ := Action.bind_eq_ok_iff.mp h
  obtain ⟨_, w3, -, h⟩ := Action.bind_eq_ok_iff.mp h
  obtain ⟨rfl, -⟩ := Action.pure_eq_ok_iff.mp h
  rfl

/-- A resolved request: the package is a member of the workspace, the target is the selected one of the package, and the
record and the driver are those of the request and of the compiler. -/
structure Resolves (machine : rustc_driver.Machine) (system : System M) (request : BuildRequest) (resolved : Resolved M) : Prop where
  package : ∃ metadata package, system.metadata request = .ok metadata ∧ package ∈ metadata.workspace_packages ∧
    package.name = request.package ∧ resolved.package = package.id ∧ resolved.target ∈ package.targets ∧
    resolved.build.package = package.name ∧ resolved.build.package_version = package.version
  target : selects request.target resolved.target = true ∧ resolved.build.target.name = resolved.target.name ∧
    resolved.build.target.kind = request.target.kind
  profile : resolved.build.profile = request.profile
  cargo : resolved.build.cargo_program = system.cargo
  arguments : resolved.build.cargo_arguments = cargo_arguments request
  driver : resolved.driver_key = machine.driver_key resolved.compiler

theorem build_record_ok {package package_version target : String} {cargo_program invocation_directory : PathBuf}
    {build : BuildRecord}
    (h : build_record request package package_version target cargo_program invocation_directory = .ok build) :
    build.package = package ∧ build.package_version = package_version ∧ build.target.name = target ∧
      build.target.kind = request.target.kind ∧ build.profile = request.profile ∧ build.cargo_program = cargo_program ∧
      build.cargo_arguments = cargo_arguments request := by
  obtain ⟨record, hrecord, hbuild⟩ := bind_eq_ok_iff.mp h
  obtain ⟨named, -, hrecord⟩ := bind_eq_ok_iff.mp hrecord
  obtain ⟨valid, -, hbuild⟩ := bind_eq_ok_iff.mp hbuild
  cases hrecord
  cases hbuild
  exact ⟨rfl, rfl, rfl, rfl, rfl, rfl, rfl⟩

theorem resolve_ok (h : resolve machine system request w = (.ok resolved, w')) : Resolves machine system request resolved := by
  obtain ⟨metadata, w1, hmetadata, h⟩ := Action.bind_eq_ok_iff.mp h
  obtain ⟨package, w2, hpackage, h⟩ := Action.bind_eq_ok_iff.mp h
  obtain ⟨target, w3, htarget, h⟩ := Action.bind_eq_ok_iff.mp h
  obtain ⟨_, w4, -, h⟩ := Action.bind_eq_ok_iff.mp h
  obtain ⟨context, w5, -, h⟩ := Action.bind_eq_ok_iff.mp h
  obtain ⟨driver, w6, hdriver, h⟩ := Action.bind_eq_ok_iff.mp h
  obtain ⟨build, w7, hbuild, h⟩ := Action.bind_eq_ok_iff.mp h
  obtain ⟨_, w8, -, h⟩ := Action.bind_eq_ok_iff.mp h
  obtain ⟨_, w9, -, h⟩ := Action.bind_eq_ok_iff.mp h
  obtain ⟨_, w10, -, h⟩ := Action.bind_eq_ok_iff.mp h
  obtain ⟨rfl, -⟩ := Action.pure_eq_ok_iff.mp h
  have hmetadata := mapError_eq_ok_iff.mp (Action.lift_eq_ok_iff.mp hmetadata).1
  have hpackage := ok_or_eq_ok_iff.mp (Action.lift_eq_ok_iff.mp hpackage).1
  have htarget := ok_or_eq_ok_iff.mp (Action.lift_eq_ok_iff.mp htarget).1
  have hkey := provision_key (Action.map_err_eq_ok_iff.mp hdriver)
  obtain ⟨hname, hversion, htarget_name, hkind, hprofile, hcargo, harguments⟩ :=
    build_record_ok (mapError_eq_ok_iff.mp (Action.lift_eq_ok_iff.mp hbuild).1)
  exact {
    package := ⟨metadata, package, hmetadata, List.mem_of_find?_eq_some hpackage,
      of_decide_eq_true (List.find?_some (p := fun package : Package M => decide (package.name = request.package)) hpackage), rfl,
      List.mem_of_find?_eq_some htarget, hname, hversion⟩
    target := ⟨List.find?_some htarget, htarget_name, hkind⟩
    profile := hprofile
    cargo := hcargo
    arguments := harguments
    driver := hkey }

/-- The compiler's identity is read from what `rustc` prints. -/
theorem inspect_rustc_eq {reported output : collector.Output} {sysroot rustc : PathBuf} {release commit_hash host : String}
    {identity : CompilerIdentity} (hreported : system.output ⟨"rustc"⟩ ["--print", "sysroot"] = .ok reported)
    (hsysroot : system.canonicalize ⟨trim (from_utf8_lossy reported.stdout)⟩ = .ok sysroot)
    (hrustc : system.canonicalize ((sysroot.join "bin").join "rustc") = .ok rustc)
    (houtput : system.output rustc ["-vV"] = .ok output)
    (hrelease : compiler_field (from_utf8_lossy output.stdout) "release" = .ok release)
    (hcommit_hash : compiler_field (from_utf8_lossy output.stdout) "commit-hash" = .ok commit_hash)
    (hhost : compiler_field (from_utf8_lossy output.stdout) "host" = .ok host)
    (hidentity : CompilerIdentity.new rustc release commit_hash host sysroot = .ok identity) :
    inspect_rustc system = .ok identity := by
  simp only [inspect_rustc, hreported, hsysroot, hrustc, houtput, hrelease, hcommit_hash, hhost, hidentity, bind, Except.bind,
    Except.mapError]

/-- A request is resolved where everything that it asks for is there. -/
theorem resolve_eq {metadata : Metadata M} {package : Package M} {target : Target M} {root : PathBuf}
    {context : CompilerContext} {driver : rustc_driver.RustcDriver} {build : BuildRecord} {output : collector.Output}
    {home : Path} {cargo_home : OsString} (hmetadata : system.metadata request = .ok metadata)
    (hpackage : resolve_package metadata request.package = .ok package)
    (htarget : resolve_target package request.target = .ok target)
    (hroot : system.canonicalize_parent package.manifest_path = .ok root)
    (hcontext : CompilerContext.discover system = .ok context)
    (hdriver : (system.attempt context.identity).provision machine w = (.ok driver, w'))
    (hbuild : build_record request package.name package.version target.name system.cargo system.invocation_directory = .ok build)
    (houtput : system.output system.cargo ["-vV"] = .ok output)
    (hhome : rustc_driver.cargo_home system.workspace = .ok home) (hcargo_home : system.canonicalize_home home = .ok cargo_home) :
    resolve machine system request w = (.ok {
      build, package := package.id, target, metadata := metadata.toMetadata, cargo_version := output.stdout,
      driver_key := driver.key, cargo_home, compiler := context.identity }, w') := by
  have hstep {α : Type} {result : Except Error α} {a : α} (w : World) (h : result = .ok a) :
      Action.lift result w = (.ok a, w) := Action.lift_eq_ok_iff.mpr ⟨h, rfl⟩
  rw [resolve, Action.bind_of_ok (hstep w (mapError_eq_ok_iff.mpr hmetadata)), Action.bind_of_ok (hstep w hpackage),
    Action.bind_of_ok (hstep w htarget), Action.bind_of_ok (hstep w (mapError_eq_ok_iff.mpr hroot)),
    Action.bind_of_ok (hstep w (mapError_eq_ok_iff.mpr hcontext)),
    Action.bind_of_ok (Action.map_err_eq_ok_iff.mpr hdriver), Action.bind_of_ok (hstep w' (mapError_eq_ok_iff.mpr hbuild)),
    Action.bind_of_ok (hstep w' (mapError_eq_ok_iff.mpr houtput)),
    Action.bind_of_ok (hstep w' (mapError_eq_ok_iff.mpr hhome)),
    Action.bind_of_ok (hstep w' (mapError_eq_ok_iff.mpr hcargo_home))]
  rfl

/-- What a preparation hashes is in a set of byte strings, and its fields can be counted. -/
structure Resolved.Hashes (resolved : Resolved M) (machine : rustc_driver.Machine)
    (to_vec : RequestInputs M → Except String (List UInt8)) (hashed : Set (List UInt8)) : Prop where
  driver : Countable (recipe machine resolved.compiler).fields ∧ digest_input (recipe machine resolved.compiler).fields ∈ hashed
  request : ∀ fields, resolved.fields to_vec = .ok fields → Countable fields ∧ digest_input fields ∈ hashed

/-- The fields of a prepared request, and the key that they lead to. -/
theorem prepare_build_ok (hresolved : resolve machine system request w = (.ok resolved, w'))
    (h : (prepare_build machine to_vec system request w).1 = .ok prepared) :
    ∃ fields, resolved.fields to_vec = .ok fields ∧ prepared.request_key.value = digest machine.sha256 fields ∧
      prepared.cargo = system.cargo ∧ prepared.package = resolved.package ∧ prepared.target = resolved.target ∧
      prepared.build = resolved.build ∧ prepared.compiler = resolved.compiler := by
  rw [prepare_build, Action.bind_of_ok hresolved] at h
  obtain ⟨request_key, w1, hkey, h⟩ := Action.bind_eq_ok_iff.mp (Prod.ext h rfl)
  obtain ⟨rfl, -⟩ := Action.pure_eq_ok_iff.mp h
  have hkey := mapError_eq_ok_iff.mp (Action.lift_eq_ok_iff.mp hkey).1
  obtain ⟨fields, hfields, -⟩ := bind_eq_ok_iff.mp hkey
  rw [request_key_eq hfields, Except.ok.injEq] at hkey
  exact ⟨fields, hfields, hkey ▸ rfl, rfl, rfl, rfl, rfl, rfl⟩

/-- Where the hash has no collision, the digests of counted fields tell the fields. -/
theorem fields_of_digest {hashed : Set (List UInt8)} (hinjective : Set.InjOn machine.sha256 hashed)
    {fields fields' : List (List UInt8)} (hfields : Countable fields ∧ digest_input fields ∈ hashed)
    (hfields' : Countable fields' ∧ digest_input fields' ∈ hashed)
    (h : digest machine.sha256 fields = digest machine.sha256 fields') : fields = fields' := by
  have hhash : machine.sha256 (digest_input fields) = machine.sha256 (digest_input fields') :=
    Vector.toList_inj.mp (lower_hex_injective h)
  exact (digest_input_inj hfields.1 hfields'.1).mp (hinjective hfields.2 hfields'.2 hhash)

/-- A driver key tells its compiler. -/
theorem compiler_of_driver_key {hashed : Set (List UInt8)} (hinjective : Set.InjOn machine.sha256 hashed)
    (hhashes : resolved.Hashes machine to_vec hashed) (hhashes' : resolved'.Hashes machine to_vec hashed)
    (h : machine.driver_key resolved.compiler = machine.driver_key resolved'.compiler) :
    resolved.compiler = resolved'.compiler :=
  (Recipe.fields_inj.mp (fields_of_digest hinjective hhashes.driver hhashes'.driver h)).1

/-- A machine prepares a request, at some time and in some surroundings. -/
structure Prepares (machine : rustc_driver.Machine) (to_vec : RequestInputs M → Except String (List UInt8))
    (hashed : Set (List UInt8)) (request : BuildRequest) (resolved : Resolved M) (prepared : relay.Prepared M) : Prop where
  run : ∃ (system : System M) (w w' : World), resolve machine system request w = (.ok resolved, w') ∧
    (prepare_build machine to_vec system request w).1 = .ok prepared
  hashes : resolved.Hashes machine to_vec hashed

section

variable {hashed : Set (List UInt8)} (hinjective : Set.InjOn machine.sha256 hashed)
  (hto_vec : ∀ inputs inputs' bytes, to_vec inputs = .ok bytes → to_vec inputs' = .ok bytes → inputs = inputs')

include hinjective hto_vec

theorem Prepares.key_eq_iff (h : Prepares machine to_vec hashed request resolved prepared)
    (h' : Prepares machine to_vec hashed request' resolved' prepared') :
    prepared.request_key = prepared'.request_key ↔ resolved.Agrees resolved'.toRequest := by
  obtain ⟨system, w, w', hresolved, hprepared⟩ := h.run
  obtain ⟨system', v, v', hresolved', hprepared'⟩ := h'.run
  obtain ⟨fields, hfields, hkey, -⟩ := prepare_build_ok hresolved hprepared
  obtain ⟨fields', hfields', hkey', -⟩ := prepare_build_ok hresolved' hprepared'
  rw [← Request.fields_inj hto_vec hfields hfields']
  constructor
  · intro hsame
    refine fields_of_digest hinjective (h.hashes.request _ hfields) (h'.hashes.request _ hfields') ?_
    rw [← hkey, ← hkey', hsame]
  · rintro rfl
    exact CaptureKey.value_inj.mp (hkey.trans hkey'.symm)

theorem Prepares.unique (h : Prepares machine to_vec hashed request resolved prepared)
    (h' : Prepares machine to_vec hashed request' resolved' prepared')
    (hsame : prepared.request_key = prepared'.request_key) : request = request' ∧ prepared = prepared' := by
  have hagrees := (h.key_eq_iff hinjective hto_vec h').mp hsame
  obtain ⟨system, w, w', hresolved, hprepared⟩ := h.run
  obtain ⟨system', v, v', hresolved', hprepared'⟩ := h'.run
  obtain ⟨-, -, -, hcargo, hpackage, htarget, hbuild, hcompiler⟩ := prepare_build_ok hresolved hprepared
  obtain ⟨-, -, -, hcargo', hpackage', htarget', hbuild', hcompiler'⟩ := prepare_build_ok hresolved' hprepared'
  have hresolves := resolve_ok hresolved
  have hresolves' := resolve_ok hresolved'
  -- The driver key is the only part of a request that the compiler enters.
  have hcompilers : resolved.compiler = resolved'.compiler := by
    refine compiler_of_driver_key hinjective h.hashes h'.hashes ?_
    rw [← hresolves.driver, ← hresolves'.driver, hagrees.driver_key]
  constructor
  · apply cargo_arguments_injective
    rw [← hresolves.arguments, ← hresolves'.arguments, hagrees.build]
  · have hsame_cargo : prepared.cargo = prepared'.cargo := by
      rw [hcargo, hcargo', ← hresolves.cargo, ← hresolves'.cargo, hagrees.build]
    rw [hagrees.package, ← hpackage'] at hpackage
    rw [hagrees.target, ← htarget'] at htarget
    rw [hagrees.build, ← hbuild'] at hbuild
    rw [hcompilers, ← hcompiler'] at hcompiler
    cases prepared
    cases prepared'
    simp only at hsame hsame_cargo hpackage htarget hbuild hcompiler
    rw [hsame_cargo, hpackage, htarget, hsame, hbuild, hcompiler]

/-- Keys tell requests. Two preparations on one machine, at any time and in any surroundings, have the same key exactly if
what they resolved to agrees; and then they prepared the same request in the same way, to be compiled by the same compiler. -/
theorem request_of_key (h : Prepares machine to_vec hashed request resolved prepared)
    (h' : Prepares machine to_vec hashed request' resolved' prepared') :
    (prepared.request_key = prepared'.request_key ↔ resolved.Agrees resolved'.toRequest) ∧
    (prepared.request_key = prepared'.request_key → request = request' ∧ prepared = prepared') :=
  ⟨h.key_eq_iff hinjective hto_vec h', h.unique hinjective hto_vec h'⟩

end

end

namespace fixture

theorem request_named : BuildRequest.validate "fixture" .Library "release" = .ok () := rfl

theorem no_features : FeatureNames [] := ⟨List.Pairwise.nil, List.forall_mem_nil _⟩

/-- A request with all features, or with the default ones. -/
def request (all : Bool) : BuildRequest where
  package := "fixture"
  target := .Library
  profile := "release"
  features := []
  all_features := all
  no_default_features := false
  named := request_named
  normal := no_features

def metadata : Metadata compiler.fixture.schema where
  workspace_root := ⟨"/workspace"⟩
  target_directory := ⟨"/target"⟩
  build_directory := none
  packages := [⟨"fixture", "0.1.0", (compiler.fixture.request none).package, ⟨"/workspace/Cargo.toml"⟩,
    [(compiler.fixture.request none).target]⟩]
  workspace_members := [(compiler.fixture.request none).package]

/-- What the processes of a preparation print. -/
def printed (program : PathBuf) (arguments : List String) : String :=
  if arguments = ["--print", "sysroot"] then "/toolchain\n"
  else if arguments ≠ ["-vV"] then "build.target-dir = \"/target\"\n"
  else if program = ⟨"/toolchain/bin/rustc"⟩ then "rustc 1.98.1\ncommit-hash: commit\nhost: host\nrelease: 1.98.1\n"
  else "cargo 1.98.1\n"

def system : System compiler.fixture.schema where
  cargo := ⟨"/toolchain/bin/cargo"⟩
  invocation_directory := ⟨"/workspace"⟩
  var_os name := List.lookup name [("CARGO_HOME", "/home/cargo")]
  metadata _ := .ok metadata
  process program arguments := .ok ⟨⟨true, "exit status: 0"⟩, text (printed program arguments), []⟩
  canonicalize path := .ok path
  canonicalize_parent _ := .ok ⟨"/workspace"⟩
  canonicalize_home _ := .ok "/home/cargo"
  resolve _ := ["home", "cargo"]
  unique := "1"
  rustc := rustc_driver.fixture.rustc
  survives _ := false

theorem configures : read_compiler_configuration system = .ok {} := by
  have houtput : system.output system.cargo ["-Z", "unstable-options", "config", "get"] =
      .ok ⟨⟨true, "exit status: 0"⟩, text "build.target-dir = \"/target\"\n", []⟩ := rfl
  have hchars : "build.target-dir = \"/target\"\n".toList = _ := String.toList_ofList
  rw [read_compiler_configuration, houtput, ok_bind, from_utf8_lossy_text, lines, hchars]
  rfl

/-- A field of `rustc -vV` is read from the lines. -/
theorem reports {name value : String} (h : (["rustc 1.98.1", "commit-hash: commit", "host: host", "release: 1.98.1"].findSome?
    fun line => Option.bind ( strip_prefix line name) fun rest => strip_prefix rest ":") = some (" " ++ value))
    (hvalue : (some (trim (" " ++ value))).filter (fun value => value ≠ "") = some value) :
    compiler_field (from_utf8_lossy (text "rustc 1.98.1\ncommit-hash: commit\nhost: host\nrelease: 1.98.1\n")) name = .ok value := by
  have hchars : "rustc 1.98.1\ncommit-hash: commit\nhost: host\nrelease: 1.98.1\n".toList = _ := String.toList_ofList
  have hlines : lines "rustc 1.98.1\ncommit-hash: commit\nhost: host\nrelease: 1.98.1\n" =
      ["rustc 1.98.1", "commit-hash: commit", "host: host", "release: 1.98.1"] := by
    rw [lines, hchars]
    rfl
  simp only [from_utf8_lossy_text, compiler_field, hlines, h, Option.map_some, hvalue]
  rfl

theorem discovers : CompilerContext.discover system = .ok ⟨compiler.fixture.toolchain, false⟩ := by
  have hreported : system.output ⟨"rustc"⟩ ["--print", "sysroot"] =
      .ok ⟨⟨true, "exit status: 0"⟩, text "/toolchain\n", []⟩ := rfl
  have hsysroot : system.canonicalize ⟨trim (from_utf8_lossy (text "/toolchain\n"))⟩ = .ok ⟨"/toolchain"⟩ := by
    have hchars : "/toolchain\n".toList = _ := String.toList_ofList
    rw [from_utf8_lossy_text, trim, hchars]
    rfl
  have hrustc : system.canonicalize ((PathBuf.join ⟨"/toolchain"⟩ "bin").join "rustc") = .ok ⟨"/toolchain/bin/rustc"⟩ := rfl
  have houtput : system.output ⟨"/toolchain/bin/rustc"⟩ ["-vV"] = .ok ⟨⟨true, "exit status: 0"⟩,
      text "rustc 1.98.1\ncommit-hash: commit\nhost: host\nrelease: 1.98.1\n", []⟩ := rfl
  have hrelease := @reports "release" "1.98.1" rfl rfl
  have hcommit_hash := @reports "commit-hash" "commit" rfl rfl
  have hhost := @reports "host" "host" rfl rfl
  have hidentity := inspect_rustc_eq hreported hsysroot hrustc houtput hrelease hcommit_hash hhost rfl
  rw [CompilerContext.discover, configures, hidentity]
  rfl

def arguments (all : Bool) : List String :=
  ["rustc", "--package", "fixture", "--lib", "--profile", "release"] ++ if all then ["--all-features"] else []

theorem arguments_valid (all : Bool) : validate_build "fixture" "0.1.0" "release" ⟨"/toolchain/bin/cargo"⟩ ⟨"/workspace"⟩
    (arguments all) = .ok () := by
  cases all <;> rfl

def build (all : Bool) : BuildRecord :=
  { compiler.fixture.build with cargo_arguments := arguments all, valid := arguments_valid all }

/-- The serialized inputs of a request. -/
def json (all : Bool) : List UInt8 :=
  text ("[\x7b\"package\":\"fixture\",\"package_version\":\"0.1.0\",\"target\":\x7b\"name\":\"fixture\",\"kind\":\"lib\"\x7d," ++
    "\"profile\":\"release\",\"cargo_program\":\"/toolchain/bin/cargo\",\"invocation_directory\":\"/workspace\"," ++
    "\"cargo_arguments\":[\"rustc\",\"--package\",\"fixture\",\"--lib\",\"--profile\",\"release\"" ++
    (if all then ",\"--all-features\"" else "") ++ "]\x7d," ++
    "\"path+file:///workspace#fixture@0.1.0\",\x7b\"name\":\"fixture\",\"kind\":[\"lib\"],\"crate_types\":[\"lib\"]," ++
    "\"required-features\":[],\"src_path\":\"/workspace/src/lib.rs\",\"edition\":\"2024\",\"doctest\":true," ++
    "\"test\":true,\"doc\":true\x7d,\"/target\",\"/target\"]")

theorem json_apart : json true ≠ json false := by
  intro h
  simp only [json, text_append, List.append_cancel_left_eq, List.append_cancel_right_eq, text_inj] at h
  exact absurd h (by decide)

theorem json_length_lt (all : Bool) : (json all).length < UInt64.size := by
  have hfeatures : (text (if all then ",\"--all-features\"" else "")).length ≤ 64 := by
    cases all <;> decide
  apply Nat.lt_of_le_of_lt
  · exact text_append_length_le (text_append_length_le (text_append_length_le (text_append_length_le (text_append_length_le
      (text_append_length_le (text_append_length_le (text_length_le _) (text_length_le _)) (text_length_le _)) hfeatures)
      (text_length_le _)) (text_length_le _)) (text_length_le _)) (text_length_le _)
  · decide

/-- The digest of the driver's recipe. -/
def driver_key : String := "becb59216e5c59c119914ce00f93324efed2eb7a64ad9b318b4cb6d2fba911b4"

def driver_input : List UInt8 := digest_input (recipe rustc_driver.fixture.host compiler.fixture.toolchain).fields

def request_fields (all : Bool) : List (List UInt8) :=
  [REQUEST_REVISION, text "/workspace", text "/home/cargo", text "cargo 1.98.1\n", text driver_key, json all]

theorem key_canonical (all : Bool) : CaptureKey.Canonical (if all then
    "1066aefff6c2a8a03dc802337abae313dcf77d95f7944a91a793f5ddabd88de5" else
    "1ca3be05bcee46f8b1646342b04c958b8769f5c5bb8c6258bf60aab38b3961f0") := by
  cases all <;> decide

def key (all : Bool) : CaptureKey := ⟨_, key_canonical all⟩

/-- SHA-256 of the inputs that are hashed here. -/
def hashes : List (List UInt8 × Vector UInt8 32) :=
  [(driver_input, #v[190, 203, 89, 33, 110, 92, 89, 193, 25, 145, 76, 224, 15, 147, 50, 78, 254, 210, 235, 122, 100, 173, 155,
      49, 139, 76, 182, 210, 251, 169, 17, 180]),
    (digest_input (request_fields false), #v[28, 163, 190, 5, 188, 238, 70, 248, 177, 100, 99, 66, 176, 76, 149, 139, 135, 105,
      245, 197, 187, 140, 98, 88, 191, 96, 170, 179, 139, 57, 97, 240]),
    (digest_input (request_fields true), #v[16, 102, 174, 255, 246, 194, 168, 160, 61, 200, 2, 51, 122, 186, 227, 19, 220, 247,
      125, 149, 247, 148, 74, 145, 167, 147, 245, 221, 171, 216, 141, 229])]

/-- A hash that is known at some inputs. -/
def table_hash (table : List (List UInt8 × Vector UInt8 32)) (input : List UInt8) : Vector UInt8 32 :=
  (table.lookup input).getD (Vector.replicate 32 0)

theorem lookup_of_mem {α β : Type} [BEq α] [LawfulBEq α] {table : List (α × β)} (hdistinct : (table.map Prod.fst).Nodup) {entry : α × β}
    (h : entry ∈ table) : table.lookup entry.1 = some entry.2 := by
  induction table with
  | nil => cases h
  | cons first table ih =>
    rw [List.map_cons, List.nodup_cons] at hdistinct
    rcases List.mem_cons.mp h with rfl | hrest
    · exact List.lookup_cons_self
    · have hother : (entry.1 == first.1) = false := by
        rw [beq_eq_false_iff_ne]
        exact fun heq => hdistinct.1 (heq ▸ List.mem_map_of_mem hrest)
      rw [List.lookup_cons, hother]
      exact ih hdistinct.2 hrest

theorem table_hash_of_mem {table : List (List UInt8 × Vector UInt8 32)} (hdistinct : (table.map Prod.fst).Nodup)
    {entry : List UInt8 × Vector UInt8 32} (h : entry ∈ table) : table_hash table entry.1 = entry.2 := by
  rw [table_hash, lookup_of_mem hdistinct h]
  rfl

/-- Where the hashes of a table differ, there is no collision. -/
theorem table_hash_injective {table : List (List UInt8 × Vector UInt8 32)} (hdistinct : (table.map Prod.fst).Nodup)
    (hhashes : (table.map Prod.snd).Nodup) : Set.InjOn (table_hash table) { input | input ∈ table.map Prod.fst } := by
  intro input hinput other hother h
  obtain ⟨entry, hentry, rfl⟩ := List.mem_map.mp hinput
  obtain ⟨entry', hentry', rfl⟩ := List.mem_map.mp hother
  rw [table_hash_of_mem hdistinct hentry, table_hash_of_mem hdistinct hentry'] at h
  rw [List.inj_on_of_nodup_map hhashes hentry hentry' h]

/-- A machine that knows SHA-256 of its inputs. -/
def machine : rustc_driver.Machine := { rustc_driver.fixture.host with sha256 := table_hash hashes }

theorem sha256_eq : machine.sha256 = table_hash hashes := rfl

theorem request_countable (all : Bool) : Countable (request_fields all) := by
  have hshort : Countable [REQUEST_REVISION, text "/workspace", text "/home/cargo", text "cargo 1.98.1\n", text driver_key] := by
    decide
  exact List.forall_mem_append.mpr ⟨hshort, List.forall_mem_singleton.mpr (json_length_lt all)⟩

theorem driver_countable : Countable (recipe machine compiler.fixture.toolchain).fields := by
  decide

theorem hashes_distinct : (hashes.map Prod.fst).Nodup := by
  have hdriver (all : Bool) : driver_input ≠ digest_input (request_fields all) := by
    intro h
    have hfields := (digest_input_inj driver_countable (request_countable all)).mp h
    exact absurd (List.cons.inj hfields).1 (by decide)
  have hrequests : digest_input (request_fields false) ≠ digest_input (request_fields true) := by
    intro h
    have hfields := (digest_input_inj (request_countable false) (request_countable true)).mp h
    exact json_apart (congrArg (fun fields => fields.getLastD []) hfields).symm
  exact List.nodup_cons.mpr ⟨by simp [hdriver], List.nodup_cons.mpr ⟨by simp [hrequests], List.nodup_singleton _⟩⟩

theorem injective : Set.InjOn machine.sha256 { input | input ∈ hashes.map Prod.fst } :=
  table_hash_injective hashes_distinct (by decide)

def resolved (all : Bool) : Resolved compiler.fixture.schema where
  build := build all
  package := (compiler.fixture.request none).package
  target := (compiler.fixture.request none).target
  metadata := metadata.toMetadata
  cargo_version := text "cargo 1.98.1\n"
  driver_key := driver_key
  cargo_home := ("/home/cargo" : String)
  compiler := compiler.fixture.toolchain

def prepared (all : Bool) : relay.Prepared compiler.fixture.schema where
  cargo := ⟨"/toolchain/bin/cargo"⟩
  package := (compiler.fixture.request none).package
  target := (compiler.fixture.request none).target
  request_key := key all
  build := build all
  compiler := compiler.fixture.toolchain

def to_vec (inputs : RequestInputs compiler.fixture.schema) : Except String (List UInt8) :=
  if inputs = (resolved true).inputs then .ok (json true)
  else if inputs = (resolved false).inputs then .ok (json false)
  else .error "path contains invalid UTF-8 characters"

theorem inputs_apart : (resolved false).inputs ≠ (resolved true).inputs := by
  intro h
  have harguments := congrArg BuildRecord.cargo_arguments (Request.inputs_inj.mp h).1
  revert harguments
  decide

theorem to_vec_eq (all : Bool) : to_vec (resolved all).inputs = .ok (json all) := by
  cases all with
  | true => exact if_pos rfl
  | false => exact (if_neg inputs_apart).trans (if_pos rfl)

theorem to_vec_injective (inputs inputs' : RequestInputs compiler.fixture.schema) (bytes : List UInt8)
    (h : to_vec inputs = .ok bytes) (h' : to_vec inputs' = .ok bytes) : inputs = inputs' := by
  have hknown {inputs : RequestInputs compiler.fixture.schema} (h : to_vec inputs = .ok bytes) :
      ∃ all, inputs = (resolved all).inputs ∧ bytes = json all := by
    rw [to_vec] at h
    split at h
    · next heq => exact ⟨true, heq, (Except.ok.inj h).symm⟩
    · split at h
      · next heq => exact ⟨false, heq, (Except.ok.inj h).symm⟩
      · cases h
  obtain ⟨all, rfl, rfl⟩ := hknown h
  obtain ⟨all', rfl, hsame⟩ := hknown h'
  cases all <;> cases all'
  · rfl
  · exact absurd hsame.symm json_apart
  · exact absurd hsame json_apart
  · rfl

theorem driver_key_eq : machine.driver_key compiler.fixture.toolchain = driver_key := by
  have hrecipe : recipe machine compiler.fixture.toolchain = recipe rustc_driver.fixture.host compiler.fixture.toolchain := rfl
  rw [machine_driver_key, hrecipe, ← driver_input, sha256_eq, table_hash_of_mem hashes_distinct List.mem_cons_self]
  decide

theorem request_digest (all : Bool) : digest machine.sha256 (request_fields all) = (key all).value := by
  have hdigest : digest machine.sha256 (request_fields all) =
      lower_hex (machine.sha256 (digest_input (request_fields all))).toList := rfl
  rw [hdigest, sha256_eq]
  cases all with
  | false =>
    rw [table_hash_of_mem hashes_distinct (List.mem_cons_of_mem _ List.mem_cons_self)]
    decide
  | true =>
    rw [table_hash_of_mem hashes_distinct (List.mem_cons_of_mem _ (List.mem_cons_of_mem _ List.mem_cons_self))]
    decide

theorem fields_eq (all : Bool) : (resolved all).fields to_vec = .ok (request_fields all) :=
  Request.fields_eq_ok_iff.mpr ⟨json all, to_vec_eq all, rfl⟩

theorem hashed (all : Bool) : (resolved all).Hashes machine to_vec { input | input ∈ hashes.map Prod.fst } where
  driver := ⟨driver_countable, List.mem_cons_self⟩
  request fields hfields := by
    rw [fields_eq, Except.ok.injEq] at hfields
    rw [← hfields]
    cases all with
    | false => exact ⟨request_countable false, List.mem_cons_of_mem _ List.mem_cons_self⟩
    | true => exact ⟨request_countable true, List.mem_cons_of_mem _ (List.mem_cons_of_mem _ List.mem_cons_self)⟩

/-- The driver is built, and the request is resolved. -/
theorem resolves (all : Bool) : ∃ w', resolve machine system (request all) rustc_driver.fixture.empty = (.ok (resolved all), w') := by
  have hreach : rustc_driver.Reachable (rustc_driver.drivers ["home", "cargo"]) rustc_driver.fixture.empty.tree := by
    refine ⟨rfl, fun path _ => ?_⟩
    by_cases hpath : path = []
    · exact .inr (if_pos hpath)
    · exact .inl (if_neg hpath)
  have hunused : rustc_driver.fixture.empty.tree.Unused
      ((system.attempt compiler.fixture.toolchain).temporary (rustc_driver.drivers ["home", "cargo"])) := by
    rintro path ⟨rest, rfl⟩
    rfl
  have hdelivers : rustc_driver.Delivers machine (system.attempt compiler.fixture.toolchain).rustc :=
    rustc_driver.fixture.delivers
  obtain ⟨tree', hprovision⟩ := rustc_driver.provision_builds hreach rfl rfl hunused hdelivers
  have hdriver := hprovision rustc_driver.fixture.empty rfl rfl
  have hmetadata : system.metadata (request all) = .ok metadata := rfl
  have hpackage : resolve_package metadata (request all).package = .ok ⟨"fixture", "0.1.0", (compiler.fixture.request none).package,
      ⟨"/workspace/Cargo.toml"⟩, [(compiler.fixture.request none).target]⟩ := rfl
  have hbuild : build_record (request all) "fixture" "0.1.0" (compiler.fixture.request none).target.name system.cargo
      system.invocation_directory = .ok (build all) := by
    cases all <;> rfl
  have hresolve := resolve_eq hmetadata hpackage rfl rfl discovers hdriver hbuild rfl rfl rfl
  have hkey : ((system.attempt compiler.fixture.toolchain).driver machine ["home", "cargo"]).key = driver_key := driver_key_eq
  rw [hkey] at hresolve
  exact ⟨_, hresolve⟩

/-- The request is prepared, with the key that its hash spells. -/
theorem prepares (all : Bool) : Prepares machine to_vec { input | input ∈ hashes.map Prod.fst } (request all) (resolved all)
    (prepared all) := by
  obtain ⟨w', hresolve⟩ := resolves all
  have hkey : Action.lift ((request_key to_vec machine.sha256 (resolved all).toRequest).mapError Error.Compiler) w' =
      (.ok (key all), w') := by
    refine Action.lift_eq_ok_iff.mpr ⟨mapError_eq_ok_iff.mpr ?_, rfl⟩
    rw [request_key_eq (fields_eq all), Except.ok.injEq, ← CaptureKey.value_inj]
    exact request_digest all
  refine ⟨⟨system, rustc_driver.fixture.empty, w', hresolve, ?_⟩, hashed all⟩
  rw [prepare_build, Action.bind_of_ok hresolve, Action.bind_of_ok hkey]
  rfl

theorem request_of_key_fixture : (prepared true).request_key ≠ (prepared false).request_key := by
  intro hsame
  have hrequest := ((request_of_key injective to_vec_injective (prepares true) (prepares false)).2 hsame).1
  cases congrArg BuildRequest.all_features hrequest

end fixture

end optic.preparation
