import Optic.Records.Capture
import Optic.Records.Manifest

namespace optic.records

/-! Records are equal when their data is: the proofs that they carry tell nothing more. -/

deriving instance DecidableEq for PlacementRecord

deriving instance DecidableEq for InstanceRecord

deriving instance DecidableEq for LlvmDefinitionRecord

deriving instance DecidableEq for LlvmModuleRecord

deriving instance DecidableEq for LlvmCollection

deriving instance DecidableEq for LlvmProvenance

deriving instance DecidableEq for InstanceManifest

deriving instance DecidableEq for TargetRecord

deriving instance DecidableEq for BuildRecord

deriving instance DecidableEq for CaptureRecord

end optic.records
