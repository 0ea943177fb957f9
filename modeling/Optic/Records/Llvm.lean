import Optic.Records.Artifact

open rust

namespace optic.records

/-- The verified optimized artifact stage captured for a regular compiler module. -/
inductive LlvmStage where
  | NoLtoOptimized
  | LocalThinLtoPostPassManager
deriving DecidableEq, Repr

def LlvmStage.display : LlvmStage → String
  | .NoLtoOptimized => "optimized, no LTO"
  | .LocalThinLtoPostPassManager => "optimized, local ThinLTO after pass manager"

/-- The exact top-level LLVM construct associated with a symbol and range. -/
inductive LlvmDefinitionKind where
  | Function
  | DirectAlias (target : String)
  | ExpressionAlias
  | Ifunc
deriving DecidableEq, Repr

/-- The target of a direct alias is never empty. -/
def LlvmDefinitionKind.Named : LlvmDefinitionKind → Prop
  | .DirectAlias target => target ≠ ""
  | _ => True

/-- An exact raw symbol and its unchanged text range in the owning module. -/
structure LlvmDefinitionRecord where
  raw_symbol : String
  range : ByteRange
  kind : LlvmDefinitionKind
  symbol_named : raw_symbol ≠ ""
  target_named : kind.Named

/-- Rejects an empty direct alias target. Other kinds carry no name. -/
def LlvmDefinitionKind.require_target : (kind : LlvmDefinitionKind) → Except Error (PLift kind.Named)
  | .DirectAlias target => require_text "LLVM alias target" target
  | .Function | .ExpressionAlias | .Ifunc => .ok ⟨trivial⟩

theorem LlvmDefinitionKind.require_target_ok {kind : LlvmDefinitionKind} (h : kind.Named) :
    kind.require_target = .ok ⟨h⟩ := by
  cases kind with
  | DirectAlias target => exact require_text_ok h
  | Function => rfl
  | ExpressionAlias => rfl
  | Ifunc => rfl

def LlvmDefinitionRecord.new (raw_symbol : String) (range : ByteRange) (kind : LlvmDefinitionKind) :
    Except Error LlvmDefinitionRecord := do
  let ⟨symbol_named⟩ ← require_text "LLVM raw symbol" raw_symbol
  let ⟨target_named⟩ ← kind.require_target
  return { raw_symbol, range, kind, symbol_named, target_named }

/-- The constructor only rejects empty names, and stores what it is given. -/
theorem LlvmDefinitionRecord.new_eq_ok_iff {raw_symbol : String} {range : ByteRange}
    {kind : LlvmDefinitionKind} {record : LlvmDefinitionRecord} :
    LlvmDefinitionRecord.new raw_symbol range kind = .ok record ↔
      record.raw_symbol = raw_symbol ∧ record.range = range ∧ record.kind = kind := by
  constructor
  · intro h
    simp only [LlvmDefinitionRecord.new, bind_eq_ok_iff] at h
    obtain ⟨_, _, _, _, h⟩ := h
    cases h
    exact ⟨rfl, rfl, rfl⟩
  · rintro ⟨rfl, rfl, rfl⟩
    rw [LlvmDefinitionRecord.new, require_text_ok record.symbol_named]
    change (record.kind.require_target >>= _) = _
    rw [LlvmDefinitionKind.require_target_ok record.target_named]
    rfl

end optic.records
