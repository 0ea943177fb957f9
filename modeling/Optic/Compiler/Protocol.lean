import Optic.Compiler.Manifest
import Optic.Wire.Format

open rust optic.records wire

namespace optic.compiler.protocol

/-- Identifies a file as a compiler manifest before any lengths are decoded. -/
def MANIFEST_MAGIC : List UInt8 := text "CARGO_OPTIC_1" ++ [0, 0, 0]

def PROTOCOL_VERSION : UInt32 := 3

def END_RECORD : UInt32 := 0

def PLACEMENT_RECORD : UInt32 := 1

def CONFIGURATION_RECORD : UInt32 := 2

def SOURCE_FILE_RECORD : UInt32 := 3

def MODULE_RECORD : UInt32 := 4

def SOURCE_AVAILABLE : UInt32 := 0

def SOURCE_NONLOCAL : UInt32 := 1

def SOURCE_UNLOADED : UInt32 := 2

def SOURCE_GENERATED : UInt32 := 3

def SOURCE_UNSUPPORTED_SPAN : UInt32 := 4

def SOURCE_OUTSIDE_PACKAGE : UInt32 := 5

def LTO_OFF : UInt32 := 0

def LTO_LOCAL_THIN : UInt32 := 1

def LTO_CROSS_CRATE_THIN : UInt32 := 2

def LTO_FAT : UInt32 := 3

def LLVM_SUPPORTED : UInt32 := 0

def LLVM_UNSUPPORTED_INCREMENTAL : UInt32 := 1

def LLVM_UNSUPPORTED_CROSS_CRATE_THIN : UInt32 := 2

def LLVM_UNSUPPORTED_FAT : UInt32 := 3

def LLVM_UNSUPPORTED_LINKER_PLUGIN : UInt32 := 4

def LLVM_UNSUPPORTED_OTHER_BACKEND : UInt32 := 5

def LLVM_UNSUPPORTED_UNVERIFIED_COMPILER : UInt32 := 6

/-- Versions the collection recipe independently of the wire format. -/
def LLVM_RECIPE_REVISION : UInt32 := 1

/-- Booleans use zero or one. -/
def bool_code (value : Bool) : UInt32 := if value then 1 else 0

def lto_code : LlvmLto → UInt32
  | .Off => LTO_OFF
  | .LocalThin => LTO_LOCAL_THIN
  | .CrossCrateThin => LTO_CROSS_CRATE_THIN
  | .Fat => LTO_FAT

def support_code : Option UnsupportedLlvmConfiguration → UInt32
  | none => LLVM_SUPPORTED
  | some .Incremental => LLVM_UNSUPPORTED_INCREMENTAL
  | some .CrossCrateThinLto => LLVM_UNSUPPORTED_CROSS_CRATE_THIN
  | some .FatLto => LLVM_UNSUPPORTED_FAT
  | some .LinkerPluginLto => LLVM_UNSUPPORTED_LINKER_PLUGIN
  | some .OtherBackend => LLVM_UNSUPPORTED_OTHER_BACKEND
  | some .UnverifiedCompiler => LLVM_UNSUPPORTED_UNVERIFIED_COMPILER

def unavailable_code : SourceUnavailable → UInt32
  | .Nonlocal => SOURCE_NONLOCAL
  | .Unloaded => SOURCE_UNLOADED
  | .Generated => SOURCE_GENERATED
  | .UnsupportedSpan => SOURCE_UNSUPPORTED_SPAN
  | .OutsidePackage => SOURCE_OUTSIDE_PACKAGE

theorem bool_code_injective {a b : Bool} (h : bool_code a = bool_code b) : a = b := by
  revert h
  cases a <;> cases b <;> decide

theorem lto_code_injective {a b : LlvmLto} (h : lto_code a = lto_code b) : a = b := by
  revert h
  cases a <;> cases b <;> decide

theorem support_code_injective {a b : Option UnsupportedLlvmConfiguration} (h : support_code a = support_code b) :
    a = b := by
  revert h
  rcases a with _ | a <;> rcases b with _ | b
  · exact fun _ => rfl
  · cases b <;> decide
  · cases a <;> decide
  · cases a <;> cases b <;> decide

theorem unavailable_code_injective {a b : SourceUnavailable} (h : unavailable_code a = unavailable_code b) : a = b := by
  revert h
  cases a <;> cases b <;> decide

theorem unavailable_code_ne (reason : SourceUnavailable) : unavailable_code reason ≠ SOURCE_AVAILABLE := by
  cases reason <;> decide

/-- The length of the text, and its UTF-8 bytes. -/
def string : Format String := Format.block.map text text_injective

instance (value : String) : Decidable (string.Valid value) :=
  inferInstanceAs (Decidable ((text value).length < UInt32.size))

/-- The fields of the configuration record. The support code is spelled as it is. -/
structure Configuration where
  backend : String
  target : String
  optimization : String
  lto : LlvmLto
  incremental : Bool
  linker_plugin : Bool
  codegen_units : UInt32
  unsupported : UInt32
deriving DecidableEq, Repr

/-- The source part of a placement record. -/
inductive Source where
  | Available (artifact start length : UInt64) (display_path : String) (starting_line : UInt64)
  | Unavailable (reason : SourceUnavailable)
deriving DecidableEq, Repr

structure Placement where
  key : InstanceKey
  codegen_unit : String
  linkage : String
  visibility : String
  local_copy : Bool
  size_estimate : UInt64
  source : Source
deriving DecidableEq, Repr

/-- A record behind the configuration. -/
inductive Record where
  | Placement (placement : Placement)
  | SourceFile (artifact length : UInt64)
  | Module (name path : String)
deriving DecidableEq, Repr

namespace Configuration

def texts (self : Configuration) : List String := [self.backend, self.target, self.optimization]

def spell (self : Configuration) : List UInt8 :=
  Format.u32.spell CONFIGURATION_RECORD ++ string.spell self.backend ++ string.spell self.target ++
    string.spell self.optimization ++ Format.u32.spell (lto_code self.lto) ++
    Format.u32.spell (bool_code self.incremental) ++ Format.u32.spell (bool_code self.linker_plugin) ++
    Format.u32.spell self.codegen_units ++ Format.u32.spell LLVM_RECIPE_REVISION ++
    Format.u32.spell self.unsupported

end Configuration

def Source.texts : Source → List String
  | .Available _ _ _ display_path _ => [display_path]
  | .Unavailable _ => []

def Source.spell : Source → List UInt8
  | .Available artifact start length display_path starting_line =>
    Format.u32.spell SOURCE_AVAILABLE ++ Format.u64.spell artifact ++ Format.u64.spell start ++
      Format.u64.spell length ++ string.spell display_path ++ Format.u64.spell starting_line
  | .Unavailable reason => Format.u32.spell (unavailable_code reason)

namespace Placement

def texts (self : Placement) : List String :=
  self.key.texts ++ [self.codegen_unit, self.linkage, self.visibility] ++ self.source.texts

def spell (self : Placement) : List UInt8 :=
  string.spell self.key.definition_crate ++ string.spell self.key.definition_path ++
    string.spell self.key.display_name ++ string.spell self.key.raw_symbol ++ string.spell self.codegen_unit ++
    string.spell self.linkage ++ string.spell self.visibility ++ Format.u32.spell (bool_code self.local_copy) ++
    Format.u64.spell self.size_estimate ++ self.source.spell

end Placement

def Record.texts : Record → List String
  | .Placement placement => placement.texts
  | .SourceFile _ _ => []
  | .Module name path => [name, path]

def Record.kind : Record → UInt32
  | .Placement _ => PLACEMENT_RECORD
  | .SourceFile _ _ => SOURCE_FILE_RECORD
  | .Module _ _ => MODULE_RECORD

/-- What follows the kind of a record. -/
def Record.fields : Record → List UInt8
  | .Placement placement => placement.spell
  | .SourceFile artifact length => Format.u64.spell artifact ++ Format.u64.spell length
  | .Module name path => string.spell name ++ string.spell path

def Record.spell (self : Record) : List UInt8 := Format.u32.spell self.kind ++ self.fields

theorem Record.kind_ne_end (self : Record) : self.kind ≠ END_RECORD := by
  cases self with
  | Placement placement => exact show PLACEMENT_RECORD ≠ END_RECORD by decide
  | SourceFile artifact length => exact show SOURCE_FILE_RECORD ≠ END_RECORD by decide
  | Module name path => exact show MODULE_RECORD ≠ END_RECORD by decide

/-- All texts fit behind their length field. -/
def Short (texts : List String) : Prop := ∀ value ∈ texts, string.Valid value

instance (texts : List String) : Decidable (Short texts) :=
  inferInstanceAs (Decidable (∀ value ∈ texts, string.Valid value))

theorem short_cons_iff {value : String} {texts : List String} :
    Short (value :: texts) ↔ string.Valid value ∧ Short texts :=
  List.forall_mem_cons

theorem short_nil : Short [] := nofun

/-- Magic, version and marker. -/
def header : Format String where
  Valid := string.Valid
  spell marker := MANIFEST_MAGIC ++ Format.u32.spell PROTOCOL_VERSION ++ string.spell marker
  delimited {x y u v} hx hy h := by
    simp only [List.append_assoc, List.append_cancel_left_eq] at h
    exact string.delimited hx hy h

/-- The configuration record. -/
def configuration : Format Configuration where
  Valid self := Short self.texts
  spell := Configuration.spell
  delimited {x y u v} hx hy h := by
    simp only [Configuration.texts, short_cons_iff] at hx hy
    obtain ⟨hbackend, htarget, hoptimization, -⟩ := hx
    obtain ⟨hbackend', htarget', hoptimization', -⟩ := hy
    simp only [Configuration.spell, List.append_assoc, List.append_cancel_left_eq] at h
    obtain ⟨hbackend, h⟩ := string.delimited hbackend hbackend' h
    obtain ⟨htarget, h⟩ := string.delimited htarget htarget' h
    obtain ⟨hoptimization, h⟩ := string.delimited hoptimization hoptimization' h
    obtain ⟨hlto, h⟩ := Format.u32.delimited trivial trivial h
    obtain ⟨hincremental, h⟩ := Format.u32.delimited trivial trivial h
    obtain ⟨hplugin, h⟩ := Format.u32.delimited trivial trivial h
    obtain ⟨hunits, h⟩ := Format.u32.delimited trivial trivial h
    rw [List.append_cancel_left_eq] at h
    obtain ⟨hsupport, huv⟩ := Format.u32.delimited trivial trivial h
    obtain ⟨backend, target, optimization, lto, incremental, linker_plugin, codegen_units, unsupported⟩ := x
    cases y
    simp only [Configuration.mk.injEq]
    exact ⟨⟨hbackend, htarget, hoptimization, lto_code_injective hlto, bool_code_injective hincremental,
      bool_code_injective hplugin, hunits, hsupport⟩, huv⟩

/-- The source part of a placement record. -/
def source : Format Source where
  Valid self := Short self.texts
  spell := Source.spell
  delimited {x y u v} hx hy h := by
    cases x with
    | Available artifact start length display_path starting_line =>
      cases y with
      | Available artifact' start' length' display_path' starting_line' =>
        simp only [Source.spell, List.append_assoc, List.append_cancel_left_eq] at h
        obtain ⟨hartifact, h⟩ := Format.u64.delimited trivial trivial h
        obtain ⟨hstart, h⟩ := Format.u64.delimited trivial trivial h
        obtain ⟨hlength, h⟩ := Format.u64.delimited trivial trivial h
        obtain ⟨hpath, h⟩ := string.delimited (short_cons_iff.mp hx).1 (short_cons_iff.mp hy).1 h
        obtain ⟨hline, h⟩ := Format.u64.delimited trivial trivial h
        exact ⟨by rw [hartifact, hstart, hlength, hpath, hline], h⟩
      | Unavailable reason =>
        simp only [Source.spell, List.append_assoc] at h
        obtain ⟨hcode, -⟩ := Format.u32.delimited trivial trivial h
        exact absurd hcode.symm (unavailable_code_ne reason)
    | Unavailable reason =>
      cases y with
      | Available artifact start length display_path starting_line =>
        simp only [Source.spell, List.append_assoc] at h
        obtain ⟨hcode, -⟩ := Format.u32.delimited trivial trivial h
        exact absurd hcode (unavailable_code_ne reason)
      | Unavailable reason' =>
        obtain ⟨hcode, h⟩ := Format.u32.delimited trivial trivial h
        exact ⟨by rw [unavailable_code_injective hcode], h⟩

/-- The placement record behind its kind. -/
def placement : Format Placement where
  Valid self := Short self.texts
  spell := Placement.spell
  delimited {x y u v} hx hy h := by
    simp only [Placement.texts, InstanceKey.texts, List.cons_append, short_cons_iff, List.nil_append] at hx hy
    obtain ⟨hcrate, hpath, hdisplay, hsymbol, hunit, hlinkage, hvisibility, hsource⟩ := hx
    obtain ⟨hcrate', hpath', hdisplay', hsymbol', hunit', hlinkage', hvisibility', hsource'⟩ := hy
    simp only [Placement.spell, List.append_assoc] at h
    obtain ⟨hcrate, h⟩ := string.delimited hcrate hcrate' h
    obtain ⟨hpath, h⟩ := string.delimited hpath hpath' h
    obtain ⟨hdisplay, h⟩ := string.delimited hdisplay hdisplay' h
    obtain ⟨hsymbol, h⟩ := string.delimited hsymbol hsymbol' h
    obtain ⟨hunit, h⟩ := string.delimited hunit hunit' h
    obtain ⟨hlinkage, h⟩ := string.delimited hlinkage hlinkage' h
    obtain ⟨hvisibility, h⟩ := string.delimited hvisibility hvisibility' h
    obtain ⟨hcopy, h⟩ := Format.u32.delimited trivial trivial h
    obtain ⟨hsize, h⟩ := Format.u64.delimited trivial trivial h
    obtain ⟨hsource, huv⟩ := source.delimited hsource hsource' h
    obtain ⟨⟨crate, path, display, symbol⟩, unit, linkage, visibility, copy, size, source⟩ := x
    obtain ⟨⟨crate', path', display', symbol'⟩, unit', linkage', visibility', copy', size', source'⟩ := y
    simp only [Placement.mk.injEq, InstanceKey.mk.injEq]
    exact ⟨⟨⟨hcrate, hpath, hdisplay, hsymbol⟩, hunit, hlinkage, hvisibility, bool_code_injective hcopy, hsize,
      hsource⟩, huv⟩

/-- The fields of a kind of record tell the record. -/
theorem fields_delimited {x y : Record} {u v : List UInt8} (hx : Short x.texts) (hy : Short y.texts)
    (hkind : x.kind = y.kind) (h : x.fields ++ u = y.fields ++ v) : x = y ∧ u = v := by
  cases x with
  | Placement x =>
    cases y with
    | Placement y =>
      obtain ⟨hplacement, huv⟩ := placement.delimited hx hy h
      exact ⟨by rw [hplacement], huv⟩
    | SourceFile artifact length => exact absurd hkind (show PLACEMENT_RECORD ≠ SOURCE_FILE_RECORD by decide)
    | Module name path => exact absurd hkind (show PLACEMENT_RECORD ≠ MODULE_RECORD by decide)
  | SourceFile artifact length =>
    cases y with
    | Placement y => exact absurd hkind (show SOURCE_FILE_RECORD ≠ PLACEMENT_RECORD by decide)
    | SourceFile artifact' length' =>
      simp only [Record.fields, List.append_assoc] at h
      obtain ⟨hartifact, h⟩ := Format.u64.delimited trivial trivial h
      obtain ⟨hlength, huv⟩ := Format.u64.delimited trivial trivial h
      exact ⟨by rw [hartifact, hlength], huv⟩
    | Module name path => exact absurd hkind (show SOURCE_FILE_RECORD ≠ MODULE_RECORD by decide)
  | Module name path =>
    cases y with
    | Placement y => exact absurd hkind (show MODULE_RECORD ≠ PLACEMENT_RECORD by decide)
    | SourceFile artifact length => exact absurd hkind (show MODULE_RECORD ≠ SOURCE_FILE_RECORD by decide)
    | Module name' path' =>
      obtain ⟨hname, hpath⟩ := short_cons_iff.mp hx
      obtain ⟨hname', hpath'⟩ := short_cons_iff.mp hy
      simp only [Record.fields, List.append_assoc] at h
      obtain ⟨hname, h⟩ := string.delimited hname hname' h
      obtain ⟨hpath, huv⟩ := string.delimited (short_cons_iff.mp hpath).1 (short_cons_iff.mp hpath').1 h
      exact ⟨by rw [hname, hpath], huv⟩

/-- A record, or the end record in place of another one. -/
def record : Format (Option Record) where
  Valid item := ∀ self ∈ item, Short self.texts
  spell
    | some self => self.spell
    | none => Format.u32.spell END_RECORD
  delimited {x y u v} hx hy h := by
    cases x with
    | none =>
      cases y with
      | none => exact ⟨rfl, (Format.u32.delimited trivial trivial h).2⟩
      | some y =>
        simp only [Record.spell, List.append_assoc] at h
        exact absurd (Format.u32.delimited trivial trivial h).1.symm y.kind_ne_end
    | some x =>
      simp only [Record.spell, List.append_assoc] at h
      cases y with
      | none => exact absurd (Format.u32.delimited trivial trivial h).1 x.kind_ne_end
      | some y =>
        simp only [List.append_assoc] at h
        obtain ⟨hkind, h⟩ := Format.u32.delimited trivial trivial h
        obtain ⟨hrecord, huv⟩ := fields_delimited (hx x rfl) (hy y rfl) hkind h
        exact ⟨by rw [hrecord], huv⟩

theorem record_none_valid : record.Valid none := nofun

theorem record_many_valid_iff {records : List Record} : record.many.Valid records ↔ ∀ self ∈ records, Short self.texts := by
  simp [Format.many, record]

/-- All texts of a stream fit behind their length fields. -/
structure Spellable (marker : String) (settings : Configuration) (records : List Record) : Prop where
  marker : string.Valid marker
  settings : Short settings.texts
  records : ∀ self ∈ records, Short self.texts

/-- A whole stream: the header, the configuration, the records and the end. -/
def encode (marker : String) (settings : Configuration) (records : List Record) : List UInt8 :=
  header.spell marker ++ configuration.spell settings ++ record.many.spell records

/-- No stream is the front of another one under the same marker. -/
theorem encode_delimited {marker : String} {settings settings' : Configuration} {records records' : List Record}
    {u v : List UInt8} (h : Spellable marker settings records) (h' : Spellable marker settings' records')
    (heq : encode marker settings records ++ u = encode marker settings' records' ++ v) :
    settings = settings' ∧ records = records' ∧ u = v := by
  simp only [encode, List.append_assoc, List.append_cancel_left_eq] at heq
  obtain ⟨hsettings, heq⟩ := configuration.delimited h.settings h'.settings heq
  obtain ⟨hrecords, huv⟩ := record.many.delimited (record_many_valid_iff.mpr h.records)
    (record_many_valid_iff.mpr h'.records) heq
  exact ⟨hsettings, hrecords, huv⟩

end optic.compiler.protocol
