import Optic.Evidence.Evidence
import Optic.LlvmIndex.Identified

open rust optic.records optic.llvm_index

namespace optic.queries

/-- Identifiers of different globals, neither of them a slot with the digits of the other. -/
def Apart (a b : Token) : Prop := ¬ Same a.bytes b.bytes ∧ ¬ Mixed a.bytes b.bytes ∧ ¬ Mixed b.bytes a.bytes

/-- Identifiers that decode alike are of one global, or a slot and a name of its digits. -/
theorem decode_symbol_eq {a b : Token} {symbol : String} (ha : a.Valid) (hb : b.Valid) (hs : a.decode_symbol = .ok symbol)
    (ht : b.decode_symbol = .ok symbol) : ¬ Apart a b := by
  rintro ⟨hsame, hmixed, hmixed'⟩
  by_cases hpadded : Padded a.bytes b.bytes
  · obtain ⟨digits, other, hslot, hslot', hnumber, -⟩ := hpadded
    exact hsame ⟨_, .slot hslot, hnumber ▸ .slot hslot'⟩
  · have hlaw := (decode_symbol_same ha hb hs ht).mpr (by simp [hmixed, hmixed', hpadded])
    exact hsame (hlaw.mp rfl)

/-- The identifiers that the definitions of a text define. -/
structure Names (bytes : List UInt8) (definitions : List LlvmDefinitionRecord) (token : LlvmDefinitionRecord → Token) :
    Prop where
  identifies : ∀ definition ∈ definitions, Identifies definition.range.start.toNat
    (bytes.drop definition.range.start.toNat) (token definition) definition.kind
  valid : ∀ definition ∈ definitions, (token definition).Valid
  decodes : ∀ definition ∈ definitions, (token definition).decode_symbol = .ok definition.raw_symbol

theorem index_names {bytes : List UInt8} {definitions : List LlvmDefinitionRecord}
    (h : index_bytes bytes = .ok definitions) : ∃ token, Names bytes definitions token := by
  have hsymbol (definition : LlvmDefinitionRecord) : ∃ token : Token, definition ∈ definitions →
      Identifies definition.range.start.toNat (bytes.drop definition.range.start.toNat) token definition.kind ∧
        token.Valid ∧ token.decode_symbol = .ok definition.raw_symbol := by
    by_cases hmem : definition ∈ definitions
    · obtain ⟨token, htoken⟩ := (index_identified h hmem).symbol
      exact ⟨token, fun _ => htoken⟩
    · exact ⟨⟨[], 0⟩, fun h => absurd h hmem⟩
  choose token htoken using hsymbol
  exact ⟨token, fun definition hmem => (htoken definition hmem).1, fun definition hmem => (htoken definition hmem).2.1,
    fun definition hmem => (htoken definition hmem).2.2⟩

/-- Symbols keep globals apart, except for a slot and a name of its digits, which decode
alike, and for two spellings of one slot, which do not. -/
theorem symbols_keep_apart {bytes : List UInt8} {definitions : List LlvmDefinitionRecord}
    (h : index_bytes bytes = .ok definitions) :
    (∀ (a b : Token) (s t : String), a.Valid → b.Valid → a.decode_symbol = .ok s → b.decode_symbol = .ok t →
      ((s = t ↔ Same a.bytes b.bytes) ↔
        ¬ (Mixed a.bytes b.bytes ∨ Mixed b.bytes a.bytes ∨ Padded a.bytes b.bytes))) ∧
    ∃ token, Names bytes definitions token ∧
      (definitions.Pairwise (fun first second => Apart (token first) (token second)) →
        ∀ (artifact : ArtifactId) (compiler_module : String) (stage : LlvmStage), compiler_module ≠ "" →
          ∃ module, LlvmModuleRecord.new artifact compiler_module stage definitions = .ok module) ∧
      ∀ module : LlvmModuleRecord, module.definitions = definitions →
        ∀ definition ∈ definitions, ∀ target, definition.kind = .DirectAlias target →
          ∃ operand, Operates definition.range.start.toNat (bytes.drop definition.range.start.toNat) operand ∧
            operand.Valid ∧ operand.decode_symbol = .ok target ∧
            ∀ selected, definition_of module target = some selected → ¬ Apart operand (token selected) := by
  refine ⟨fun a b s t ha hb hs ht => decode_symbol_same ha hb hs ht, ?_⟩
  obtain ⟨token, hnames⟩ := index_names h
  refine ⟨token, hnames, fun hapart artifact compiler_module stage hnamed => ?_, ?_⟩
  · have hdistinct : (definitions.map LlvmDefinitionRecord.raw_symbol).Nodup := by
      rw [List.Nodup, List.pairwise_map]
      apply hapart.imp_of_mem
      intro first second hfirst hsecond hapart heq
      apply decode_symbol_eq (hnames.valid first hfirst) (hnames.valid second hsecond) (hnames.decodes first hfirst) _ hapart
      rw [heq]
      exact hnames.decodes second hsecond
    exact ⟨⟨artifact, compiler_module, stage, definitions, hnamed, hdistinct⟩,
      LlvmModuleRecord.new_eq_ok_iff.mpr ⟨rfl, rfl, rfl, rfl⟩⟩
  · rintro module rfl definition hmem target hkind
    obtain ⟨operand, hoperates, hvalid, hdecode⟩ := (index_identified h hmem).target target hkind
    refine ⟨operand, hoperates, hvalid, hdecode, fun selected hselected => ?_⟩
    obtain ⟨hfound, rfl⟩ := definition_of_eq_some hselected
    exact decode_symbol_eq hvalid (hnames.valid selected hfound) hdecode (hnames.decodes selected hfound)

/-- A function and its alias, whose operand is the function's own name. -/
theorem symbols_keep_apart_function :
    ∃ (definitions : List LlvmDefinitionRecord) (module : LlvmModuleRecord) (token : LlvmDefinitionRecord → Token),
      index_bytes llvm_index.fixture.answer = .ok definitions ∧
      definitions.map (fun definition => (definition.raw_symbol, definition.kind)) =
        [("answer", .Function), ("a", .DirectAlias "answer")] ∧
      Names llvm_index.fixture.answer definitions token ∧ module.definitions = definitions ∧
      ∀ definition ∈ definitions, ∀ target, definition.kind = .DirectAlias target →
        ∃ operand : Token, operand.Valid ∧ operand.decode_symbol = .ok target ∧
          ∀ selected, definition_of module target = some selected → ¬ Apart operand (token selected) := by
  obtain ⟨definitions, hindex, hsymbols, -⟩ := llvm_index.fixture.answer_indexed
  obtain ⟨-, token, hnames, -, hoperands⟩ := symbols_keep_apart hindex
  have hdistinct : (definitions.map LlvmDefinitionRecord.raw_symbol).Nodup := by
    have hraw := congrArg (List.map Prod.fst) hsymbols
    rw [List.map_map] at hraw
    exact (show definitions.map LlvmDefinitionRecord.raw_symbol = ["answer", "a"] from hraw) ▸ by decide
  let module : LlvmModuleRecord := ⟨⟨0⟩, "m", .NoLtoOptimized, definitions, by decide, hdistinct⟩
  refine ⟨definitions, module, token, hindex, hsymbols, hnames, rfl, fun definition hmem target hkind => ?_⟩
  obtain ⟨operand, -, hvalid, hdecode, hselected⟩ := hoperands module rfl definition hmem target hkind
  exact ⟨operand, hvalid, hdecode, hselected⟩

/-- A slot and the global that is named by its digits share a symbol, so that a text which
defines both is indexed, but its definitions are rejected. -/
theorem slot_shares_symbol :
    ¬ (∀ (a b : Token) (s t : String), a.Valid → b.Valid → a.decode_symbol = .ok s → b.decode_symbol = .ok t →
      (s = t ↔ Same a.bytes b.bytes)) ∧
    ∃ definitions, index_bytes (text "@0 = alias i8, ptr @a\n@\"0\" = alias i8, ptr @a\n") = .ok definitions ∧
      ¬ Same (text "@0") (text "@\"0\"") ∧
      ∀ (artifact : ArtifactId) (stage : LlvmStage), LlvmModuleRecord.new artifact "m" stage definitions =
        .error (.InvalidField "LLVM module symbols" "duplicate 0") := by
  have hdigit : ∀ digit ∈ [ascii '0'], is_ascii_digit digit := List.forall_mem_singleton.mpr rfl
  have hslot : IsSlot (text "@0") (text "0") := ⟨rfl, by decide, hdigit⟩
  have hquoted : Denotes (text "@\"0\"") (.name (text "0")) := by
    apply @Denotes.quoted (text "0")
    exact .raw (by decide) (by decide) (by decide) (by decide) .nil
  have hsame : ¬ Same (text "@0") (text "@\"0\"") := by
    rintro ⟨denoted, hdenoted, hdenoted'⟩
    cases (Denotes.unique (.slot hslot) hdenoted).trans (hdenoted'.unique hquoted)
  refine ⟨fun hlaw => ?_, _, by rw [index_bytes_eq_contiguous]; rfl, hsame, fun artifact stage => rfl⟩
  have hvalid : Token.Valid ⟨text "@0", 0⟩ := by
    have hword : ∀ byte ∈ [ascii '0'], is_word byte := List.forall_mem_singleton.mpr rfl
    refine ⟨[], @Lexeme.word (ascii '@') (text "0") _ (by decide) hword (by simp) ?_⟩
    exact fun _ hnil => absurd hnil (by decide)
  have hvalid' : Token.Valid ⟨text "@\"0\"", 0⟩ := by
    refine ⟨[], @Lexeme.symbol (ascii '@') _ _ (by decide) ⟨text "0", text "0", ?_, rfl⟩⟩
    exact .raw (by decide) (by decide) (by decide) (by decide) .nil
  exact hsame ((hlaw _ _ "0" "0" hvalid hvalid' rfl rfl).mp rfl)

end optic.queries
