import Mathlib.Data.String.Basic
import Optic.Compiler.Digest
import Optic.Rust.Decimal

open rust optic.records wire

namespace optic.compiler

/-- Fields that a length of eight bytes can count. -/
def Countable (fields : List (List UInt8)) : Prop := ∀ field ∈ fields, field.length < UInt64.size

instance (fields : List (List UInt8)) : Decidable (Countable fields) := inferInstanceAs (Decidable (∀ field ∈ fields, _))

/-- Equal inputs of the hash come from equal fields. -/
theorem digest_input_inj {fields other : List (List UInt8)} (hfields : Countable fields) (hother : Countable other) :
    digest_input fields = digest_input other ↔ fields = other := by
  have hne : ∀ field, Format.long_block.Valid field → Format.long_block.spell field ≠ [] := by
    intro field _ h
    have hlength := congrArg List.length (List.append_eq_nil_iff.mp h).1
    rw [Format.length_spell_u64] at hlength
    cases hlength
  exact Format.flatMap_spell_inj Format.long_block hne hfields hother

theorem hex_digit_lowercase {n : Nat} (h : n < 16) :
    (hex_digit n).toNat < 128 ∧ is_lowercase_hexdigit (ascii (hex_digit n)) = true := by
  have hdigits : ∀ n < 16, (hex_digit n).toNat < 128 ∧ is_lowercase_hexdigit (ascii (hex_digit n)) = true := by decide
  exact hdigits n h

theorem hex_digits_lowercase {width n : Nat} :
    ∀ c ∈ hex_digits width n, c.toNat < 128 ∧ is_lowercase_hexdigit (ascii c) = true := by
  induction width generalizing n with
  | zero => exact List.forall_mem_nil _
  | succ width ih =>
    intro c hc
    rw [hex_digits, List.mem_append, List.mem_singleton] at hc
    rcases hc with hhigh | hlow
    · exact ih c hhigh
    · rw [hlow]
      exact hex_digit_lowercase (Nat.mod_lt n (by omega))

/-- The text of a hash is a capture key. -/
theorem digest_canonical (sha256 : List UInt8 → Vector UInt8 32) (fields : List (List UInt8)) :
    CaptureKey.Canonical (digest sha256 fields) := by
  let chars := (sha256 (digest_input fields)).toList.flatMap fun byte => hex_digits 2 byte.toNat
  have hchars : ∀ c ∈ chars, c.toNat < 128 ∧ is_lowercase_hexdigit (ascii c) = true := by
    intro c hc
    obtain ⟨byte, -, hc⟩ := List.mem_flatMap.mp hc
    exact hex_digits_lowercase c hc
  have htext : text (digest sha256 fields) = chars.map ascii := text_ofList_ascii fun c hc => (hchars c hc).1
  constructor
  · have hbyte (byte : UInt8) : (hex_digits 2 byte.toNat).length = 2 := rfl
    simp [htext, chars, List.length_flatMap, hbyte]
  · rw [htext, List.all_map, List.all_eq_true]
    exact fun c hc => (hchars c hc).2

namespace Recipe

/-- The entries that sources and options leave among the fields. -/
def entries (self : Recipe) : List String :=
  (self.sources.flatMap fun source => [source.1, source.2]) ++ self.options

theorem fields_eq (self : Recipe) :
    self.fields = [self.recipe_revision, text self.identity.rustc.text, text self.identity.release,
      text self.identity.commit_hash, text self.identity.host, text self.identity.sysroot.text,
      le_bytes 4 self.protocol_version.toNat, text "RUSTC_BOOTSTRAP=optic_rustc_driver",
      text "OPTIC_DRIVER_KEY=recipe-digest", text "OPTIC_RUSTC_COMMIT=compiler-commit", text "-o=optic-rustc-driver"] ++
      self.entries.map text := by
  rw [fields, entries, List.map_append, List.map_flatMap, List.append_assoc]
  rfl

theorem identity_inj {identity other : CompilerIdentity} (hrustc : identity.rustc.text = other.rustc.text)
    (hrelease : identity.release = other.release) (hcommit : identity.commit_hash = other.commit_hash)
    (hhost : identity.host = other.host) (hsysroot : identity.sysroot.text = other.sysroot.text) : identity = other := by
  obtain ⟨⟨rustc⟩, release, commit_hash, host, ⟨sysroot⟩, valid⟩ := identity
  obtain ⟨⟨rustc'⟩, release', commit_hash', host', ⟨sysroot'⟩, valid'⟩ := other
  subst hrustc hrelease hcommit hhost hsysroot
  rfl

/-- Fields tell everything but where the sources end. -/
theorem fields_inj {self other : Recipe} :
    self.fields = other.fields ↔ self.identity = other.identity ∧ self.recipe_revision = other.recipe_revision ∧
      self.protocol_version = other.protocol_version ∧ self.entries = other.entries := by
  constructor
  · intro h
    rw [fields_eq, fields_eq] at h
    obtain ⟨hfixed, hentries⟩ := List.append_inj h rfl
    simp only [List.cons.injEq, text_inj, and_true] at hfixed
    obtain ⟨hrevision, hrustc, hrelease, hcommit, hhost, hsysroot, hversion⟩ := hfixed
    have hentries := List.map_injective_iff.mpr (fun _ _ => text_injective) hentries
    exact ⟨identity_inj hrustc hrelease hcommit hhost hsysroot, hrevision, Format.u32.injective trivial trivial hversion,
      hentries⟩
  · intro h
    obtain ⟨hidentity, hrevision, hversion, hentries⟩ := h
    rw [fields_eq, fields_eq, hidentity, hrevision, hversion, hentries]

theorem length_flatMap_pair (l : List (String × String)) :
    (l.flatMap fun source => [source.1, source.2]).length = 2 * l.length := by
  simp [List.length_flatMap, Nat.mul_comm]

/-- A list of pairs is told by its entries, once its length is known. -/
theorem flatMap_pair_inj {l l' : List (String × String)} {m m' : List String} (hlength : l.length = l'.length)
    (h : (l.flatMap fun source => [source.1, source.2]) ++ m = (l'.flatMap fun source => [source.1, source.2]) ++ m') :
    l = l' ∧ m = m' := by
  obtain ⟨hsources, hoptions⟩ := List.append_inj h (by rw [length_flatMap_pair, length_flatMap_pair, hlength])
  refine ⟨?_, hoptions⟩
  clear h hoptions
  induction l generalizing l' with
  | nil => exact (List.length_eq_zero_iff.mp hlength.symm).symm
  | cons source l ih =>
    cases l' with
    | nil => cases hlength
    | cons source' l' =>
      rw [List.flatMap_cons, List.flatMap_cons] at hsources
      obtain ⟨hhead, htail⟩ := List.append_inj hsources rfl
      simp only [List.cons.injEq, and_true] at hhead
      rw [Prod.ext hhead.1 hhead.2, ih (Nat.succ.inj hlength) htail]

/-- Recipes with equally many sources are told apart. -/
theorem eq_of_fields {self other : Recipe} (hlength : self.sources.length = other.sources.length)
    (h : self.fields = other.fields) : self = other := by
  obtain ⟨hidentity, hrevision, hversion, hentries⟩ := fields_inj.mp h
  obtain ⟨hsources, hoptions⟩ := flatMap_pair_inj hlength hentries
  obtain ⟨identity, sources, options, revision, version⟩ := self
  obtain ⟨identity', sources', options', revision', version'⟩ := other
  subst hidentity hrevision hversion hsources hoptions
  rfl

theorem sources_length_eq {self other : Recipe} (hentries : self.entries = other.entries)
    (hoptions : self.options.length = other.options.length) : self.sources.length = other.sources.length := by
  have hlength := congrArg List.length hentries
  rw [entries, entries, List.length_append, List.length_append, length_flatMap_pair, length_flatMap_pair] at hlength
  omega

end Recipe

/-- Recipes feed the hash the same bytes exactly if they agree on the compiler, the revision, the version, and the
names, sources and options in one list. Where the sources end in it is left to the revision: recipes with equally many
sources, or equally many options, feed the hash the same bytes only if they are equal. -/
theorem driver_key_separates (recipe other : Recipe) (hrecipe : Countable recipe.fields)
    (hother : Countable other.fields) :
    (digest_input recipe.fields = digest_input other.fields ↔
      recipe.identity = other.identity ∧ recipe.recipe_revision = other.recipe_revision ∧
      recipe.protocol_version = other.protocol_version ∧ recipe.entries = other.entries) ∧
    (recipe.sources.length = other.sources.length ∨ recipe.options.length = other.options.length →
      (digest_input recipe.fields = digest_input other.fields ↔ recipe = other)) := by
  rw [digest_input_inj hrecipe hother]
  refine ⟨Recipe.fields_inj, fun hlength => ⟨fun h => ?_, fun h => h ▸ rfl⟩⟩
  rcases hlength with hsources | hoptions
  · exact Recipe.eq_of_fields hsources h
  · exact Recipe.eq_of_fields (Recipe.sources_length_eq (Recipe.fields_inj.mp h).2.2.2 hoptions) h

namespace fixture

def toolchain : CompilerIdentity := ⟨⟨"/toolchain/bin/rustc"⟩, "1.98.1", "commit", "host", ⟨"/toolchain"⟩, by decide⟩

def recipe (source : String) : Recipe :=
  ⟨toolchain, [("main.rs", source)], ["--edition=2024"], text "optic-driver-recipe-2", 3⟩

end fixture

theorem driver_key_separates_fixture :
    digest_input (fixture.recipe "source").fields ≠ digest_input (fixture.recipe "changed source").fields := by
  intro h
  have hseparates := driver_key_separates (fixture.recipe "source") (fixture.recipe "changed source") (by decide) (by decide)
  have hsame := congrArg Recipe.sources ((hseparates.2 (.inl rfl)).mp h)
  revert hsame
  decide

/-- The boundary between the sources and the options is in no field. -/
theorem driver_key_confuses : ¬ ∀ recipe other : Recipe, Countable recipe.fields → Countable other.fields →
    digest_input recipe.fields = digest_input other.fields → recipe = other := by
  intro h
  have hsame := h ⟨fixture.toolchain, [("a", "b")], [], [], 3⟩ ⟨fixture.toolchain, [], ["a", "b"], [], 3⟩
    (by decide) (by decide) rfl
  cases hsame

variable {M : CargoSchema}

namespace Request

/-- What a request key is the key of. Paths agree when their texts do. -/
structure Agrees (request other : Request M) : Prop where
  workspace_root : request.metadata.workspace_root = other.metadata.workspace_root
  cargo_home : request.cargo_home = other.cargo_home
  cargo_version : request.cargo_version = other.cargo_version
  driver_key : request.driver_key = other.driver_key
  build : request.build = other.build
  package : request.package = other.package
  target : request.target = other.target
  target_directory : request.metadata.target_directory = other.metadata.target_directory
  build_directory : request.metadata.effective_build_directory = other.metadata.effective_build_directory

theorem inputs_inj {self other : Request M} :
    self.inputs = other.inputs ↔ self.build = other.build ∧ self.package = other.package ∧ self.target = other.target ∧
      self.metadata.target_directory = other.metadata.target_directory ∧
      self.metadata.effective_build_directory = other.metadata.effective_build_directory := by
  simp only [inputs, Prod.mk.injEq]

/-- The serialized inputs are the last field. -/
theorem fields_eq_ok_iff {to_vec : RequestInputs M → Except String (List UInt8)} {self : Request M}
    {fields : List (List UInt8)} :
    self.fields to_vec = .ok fields ↔ ∃ request_inputs, to_vec self.inputs = .ok request_inputs ∧
      fields = [REQUEST_REVISION, text self.metadata.workspace_root.text, self.cargo_home.as_encoded_bytes,
        self.cargo_version, text self.driver_key, request_inputs] := by
  rw [Request.fields]
  cases to_vec self.inputs with
  | error error => simp [Except.mapError]
  | ok request_inputs => simp [Except.mapError, eq_comm]

/-- Requests agree exactly if their fields do. -/
theorem fields_inj {to_vec : RequestInputs M → Except String (List UInt8)}
    (hinjective : ∀ inputs inputs' bytes, to_vec inputs = .ok bytes → to_vec inputs' = .ok bytes → inputs = inputs')
    {request other : Request M} {fields fields' : List (List UInt8)} (hfields : request.fields to_vec = .ok fields)
    (hother : other.fields to_vec = .ok fields') : fields = fields' ↔ request.Agrees other := by
  obtain ⟨request_inputs, hto_vec, rfl⟩ := fields_eq_ok_iff.mp hfields
  obtain ⟨request_inputs', hto_vec', rfl⟩ := fields_eq_ok_iff.mp hother
  have hinputs : request_inputs = request_inputs' ↔ request.inputs = other.inputs := by
    constructor
    · rintro rfl
      exact hinjective _ _ _ hto_vec hto_vec'
    · intro h
      rw [h, hto_vec'] at hto_vec
      exact (Except.ok.inj hto_vec).symm
  constructor
  · intro h
    simp only [List.cons.injEq, true_and, and_true, text_inj, OsString.as_encoded_bytes_inj, hinputs, inputs_inj] at h
    obtain ⟨hroot, hhome, hversion, hdriver, hbuild, hpackage, htarget, htarget_directory, hbuild_directory⟩ := h
    exact ⟨congrArg PathBuf.mk hroot, hhome, hversion, hdriver, hbuild, hpackage, htarget, htarget_directory,
      hbuild_directory⟩
  · intro h
    rw [h.workspace_root, h.cargo_home, h.cargo_version, h.driver_key]
    rw [hinputs.mpr (inputs_inj.mpr ⟨h.build, h.package, h.target, h.target_directory, h.build_directory⟩)]

end Request

/-- A request that can be serialized has a key. -/
theorem request_key_eq {to_vec : RequestInputs M → Except String (List UInt8)} {request : Request M}
    {fields : List (List UInt8)} (hfields : request.fields to_vec = .ok fields)
    (sha256 : List UInt8 → Vector UInt8 32) :
    request_key to_vec sha256 request = .ok ⟨digest sha256 fields, digest_canonical sha256 fields⟩ := by
  rw [request_key, hfields, ok_bind, CaptureKey.parse, dif_pos (digest_canonical sha256 fields)]
  rfl

/-- Framing by lengths is injective. With an injective serialization, requests therefore feed the hash the same bytes
exactly if they agree, and a missing build directory agrees with the target directory. -/
theorem request_key_separates :
    (∀ fields other, Countable fields → Countable other → (digest_input fields = digest_input other ↔ fields = other)) ∧
    ∀ (M : CargoSchema) (to_vec : RequestInputs M → Except String (List UInt8)),
      (∀ inputs inputs' bytes, to_vec inputs = .ok bytes → to_vec inputs' = .ok bytes → inputs = inputs') →
      ∀ (request other : Request M) (fields fields' : List (List UInt8)), request.fields to_vec = .ok fields →
        other.fields to_vec = .ok fields' → Countable fields → Countable fields' →
        (digest_input fields = digest_input fields' ↔ request.Agrees other) ∧
        ∀ sha256, ∃ canonical, request_key to_vec sha256 request = .ok ⟨lower_hex (sha256 (digest_input fields)).toList, canonical⟩ := by
  refine ⟨fun fields other hfields hother => digest_input_inj hfields hother, ?_⟩
  intro M to_vec hinjective request other fields fields' hrequest hother hfields hfields'
  refine ⟨?_, fun sha256 => ⟨_, request_key_eq hrequest sha256⟩⟩
  rw [digest_input_inj hfields hfields']
  exact Request.fields_inj hinjective hrequest hother

namespace fixture

def schema : CargoSchema where
  Kind := String
  CrateType := String
  Options := Unit
  Settings := Unit
  kind_order := inferInstance
  crate_type_order := inferInstance
  options_eq := inferInstance
  settings_eq := inferInstance
  kind_text := id
  crate_type_text := id

def build : BuildRecord where
  package := "fixture"
  package_version := "0.1.0"
  target := ⟨"fixture", .Lib, by decide⟩
  profile := "release"
  cargo_program := ⟨"/toolchain/bin/cargo"⟩
  invocation_directory := ⟨"/workspace"⟩
  cargo_arguments := ["rustc", "--package", "fixture", "--lib", "--profile", "release"]
  valid := by decide

def request (build_directory : Option PathBuf) : Request schema where
  build := build
  package := "path+file:///workspace#fixture@0.1.0"
  target := ⟨"fixture", ["lib"], ["lib"], [], ⟨"/workspace/src/lib.rs"⟩, ()⟩
  metadata := ⟨⟨"/workspace"⟩, ⟨"/target"⟩, build_directory⟩
  cargo_version := text "cargo 1.98.1\n"
  driver_key := "0123456789abcdef0123456789abcdef0123456789abcdef0123456789abcdef"
  cargo_home := ("/home/cargo" : String)

/-- The serialized inputs of a request, with a build directory. -/
def json (build_directory : String) : List UInt8 :=
  text ("[\x7b\"package\":\"fixture\",\"package_version\":\"0.1.0\",\"target\":\x7b\"name\":\"fixture\",\"kind\":\"lib\"\x7d," ++
    "\"profile\":\"release\",\"cargo_program\":\"/toolchain/bin/cargo\",\"invocation_directory\":\"/workspace\"," ++
    "\"cargo_arguments\":[\"rustc\",\"--package\",\"fixture\",\"--lib\",\"--profile\",\"release\"]\x7d," ++
    "\"path+file:///workspace#fixture@0.1.0\",\x7b\"name\":\"fixture\",\"kind\":[\"lib\"],\"crate_types\":[\"lib\"]," ++
    "\"required-features\":[],\"src_path\":\"/workspace/src/lib.rs\",\"edition\":\"2024\",\"doctest\":true," ++
    "\"test\":true,\"doc\":true\x7d,\"/target\",\"" ++ build_directory ++ "\"]")

theorem json_inj {build_directory other : String} : json build_directory = json other ↔ build_directory = other := by
  simp only [json, text_append, List.append_cancel_left_eq, List.append_cancel_right_eq, text_inj]

theorem json_length_lt {build_directory : String} (h : (text build_directory).length ≤ 64) :
    (json build_directory).length < UInt64.size := by
  apply Nat.lt_of_le_of_lt
  · exact text_append_length_le (text_append_length_le (text_append_length_le (text_append_length_le (text_append_length_le
      (text_append_length_le (text_append_length_le (text_length_le _) (text_length_le _)) (text_length_le _))
      (text_length_le _)) (text_length_le _)) (text_length_le _)) h) (text_length_le _)
  · decide

theorem countable (build_directory : Option PathBuf) {directory : String} (h : (text directory).length ≤ 64) :
    Countable [REQUEST_REVISION, text (request build_directory).metadata.workspace_root.text,
      (request build_directory).cargo_home.as_encoded_bytes, (request build_directory).cargo_version,
      text (request build_directory).driver_key, json directory] := by
  have hshort : Countable [REQUEST_REVISION, text (request none).metadata.workspace_root.text,
      (request none).cargo_home.as_encoded_bytes, (request none).cargo_version, text (request none).driver_key] := by decide
  exact List.forall_mem_append.mpr ⟨hshort, List.forall_mem_singleton.mpr (json_length_lt h)⟩

end fixture

theorem request_key_separates_fixture : ∃ to_vec fields fields', (fixture.request none).fields to_vec = .ok fields ∧
    (fixture.request (some ⟨"/build"⟩)).fields to_vec = .ok fields' ∧ digest_input fields ≠ digest_input fields' := by
  classical
  let to_vec (inputs : RequestInputs fixture.schema) : Except String (List UInt8) :=
    if inputs = (fixture.request none).inputs then .ok (fixture.json "/target")
    else if inputs = (fixture.request (some ⟨"/build"⟩)).inputs then .ok (fixture.json "/build")
    else .error "path contains invalid UTF-8 characters"
  have hjson : fixture.json "/target" ≠ fixture.json "/build" := fun h => absurd (fixture.json_inj.mp h) (by decide)
  have hother : (fixture.request (some ⟨"/build"⟩)).inputs ≠ (fixture.request none).inputs := by
    intro h
    have hdirectory := (Request.inputs_inj.mp h).2.2.2.2
    revert hdirectory
    decide
  have hfirst : to_vec (fixture.request none).inputs = .ok (fixture.json "/target") := if_pos rfl
  have hsecond : to_vec (fixture.request (some ⟨"/build"⟩)).inputs = .ok (fixture.json "/build") := by
    exact (if_neg hother).trans (if_pos rfl)
  have hinjective : ∀ inputs inputs' bytes, to_vec inputs = .ok bytes → to_vec inputs' = .ok bytes → inputs = inputs' := by
    intro inputs inputs' bytes h h'
    simp only [to_vec] at h h'
    split at h <;> split at h' <;> grind
  have hfields := Request.fields_eq_ok_iff.mpr ⟨_, hfirst, rfl⟩
  have hfields' := Request.fields_eq_ok_iff.mpr ⟨_, hsecond, rfl⟩
  have hseparates := (request_key_separates.2 fixture.schema to_vec hinjective _ _ _ _ hfields hfields'
    (fixture.countable none (by decide)) (fixture.countable (some _) (by decide))).1
  refine ⟨to_vec, _, _, hfields, hfields', fun h => ?_⟩
  have hdirectory := (hseparates.mp h).build_directory
  revert hdirectory
  decide

end optic.compiler
