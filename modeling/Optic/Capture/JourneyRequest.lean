import Optic.Capture.JourneySpec

open rust file_system optic.records optic.relay

namespace optic.captures

open optic.store optic.preparation

section

variable {I : Type} {M : CargoSchema} {machine : rustc_driver.Machine}
  {to_vec : compiler.RequestInputs M → Except String (List UInt8)} {hashed : Set (List UInt8)}

/-- What a call prepares is what a machine makes of a request, whenever that was and whatever it met. -/
def Call.Requests (machine : rustc_driver.Machine) (to_vec : compiler.RequestInputs M → Except String (List UInt8))
    (hashed : Set (List UInt8)) (call : Call M) (request : compiler.BuildRequest) : Prop :=
  ∀ prepared, call.prepared = .ok prepared → ∃ resolved, Prepares machine to_vec hashed request resolved prepared

variable [Serde (CaptureRecord (CargoArtifactRecord M))] [Serde InstanceManifest] [Serde CandidatePointer] {store : Store}
  {turns : List (Turn I M)} {session after : Session I M} {call : Call M} {record : CaptureRecord (CargoArtifactRecord M)}

/-- A reused record was captured for the request that is asked for. Both calls prepared the same, and the record holds the
build and the compiler that they prepared, and an artifact of the package and target. -/
theorem reused_request (hinjective : Set.InjOn machine.sha256 hashed)
    (hto_vec : ∀ inputs inputs' bytes, to_vec inputs = .ok bytes → to_vec inputs' = .ok bytes → inputs = inputs')
    {requests : Turn I M → compiler.BuildRequest} {request : compiler.BuildRequest} (h : Journey store turns session)
    (hcargo : call.Follows session) (hturns : ∀ turn ∈ turns, turn.call.Requests machine to_vec hashed (requests turn))
    (hcall : call.Requests machine to_vec hashed request)
    (hreused : call.capture store session = (.ok (.Reused record), after)) :
    ∃ turn ∈ turns, turn.captured store = some record ∧ requests turn = request ∧
      ∃ prepared, call.prepared = .ok prepared ∧ turn.call.prepared = .ok prepared ∧ record.build = prepared.build ∧
        record.compiler = prepared.compiler ∧ record.analysis.request_key = prepared.request_key ∧
        ∃ artifact, CargoArtifactRecord.new artifact = .ok record.analysis.artifact ∧
          artifact.package_id = prepared.package ∧ artifact.target.Agrees prepared.target := by
  obtain ⟨attempts, hhistory, hpublishes⟩ := h.accounted.published
  obtain ⟨-, -, -, prepared, attempt, hprepared, hinstalled, hcompleted, rfl⟩ := reused_installed hcargo hreused hhistory
  obtain ⟨hattempt, -, hkey⟩ := last_installed_mem hinstalled
  obtain ⟨turn, honce, hpublished⟩ := published_once hhistory hpublishes hattempt hcompleted
  have hturn : turn ∈ turns := (List.mem_filter.mp (honce ▸ List.mem_singleton_self turn)).1
  obtain ⟨built, collected, hbuilt, hcollect, -, hrecord⟩ := hpublished.produced
  obtain ⟨⟨-, hrequest_key, hbuild, hcompiler⟩, process, artifact, -, hselected, -, hartifact, hagrees⟩ :=
    PreparedBuild.collect_eq_ok hcollect
  have hsame : built.request_key = prepared.request_key := by
    rw [← hkey, hrecord, ← hrequest_key]
    rfl
  obtain ⟨resolved, hprepares⟩ := hturns turn hturn _ hbuilt
  obtain ⟨resolved', hprepares'⟩ := hcall prepared hprepared
  obtain ⟨hrequest, rfl⟩ := hprepares.unique hinjective hto_vec hprepares' hsame
  refine ⟨turn, hturn, hpublished.captured, hrequest, built.toPrepared, hprepared, hbuilt, ?_, ?_, hkey, artifact, ?_, ?_, hagrees⟩
  · rw [hrecord, ← hbuild]
    rfl
  · rw [hrecord, ← hcompiler]
    rfl
  · rw [hrecord]
    exact hartifact
  · obtain ⟨message, -, hmessage⟩ := List.mem_filterMap.mp hselected
    exact (compiler.selected_of_eq_some.mp hmessage).2.1

end

namespace fixture

attribute [local instance] record_serde manifest_serde pointer_serde

theorem requests {call : Call compiler.fixture.schema} (h : call.prepared = .ok prepared) :
    call.Requests preparation.fixture.machine preparation.fixture.to_vec
      { input | input ∈ preparation.fixture.hashes.map Prod.fst } (preparation.fixture.request false) := by
  intro prepared' hprepared
  obtain rfl := Except.ok.inj (h.symm.trans hprepared)
  exact ⟨_, preparation.fixture.prepares false⟩

theorem reused_request_fixture : ∃ turn ∈ [(⟨capturing, session⟩ : Turn Nat compiler.fixture.schema)],
    turn.captured ⟨[]⟩ = some record ∧
      ∃ prepared, reusing.prepared = .ok prepared ∧ turn.call.prepared = .ok prepared ∧ record.build = prepared.build ∧
        record.compiler = prepared.compiler ∧ record.analysis.request_key = prepared.request_key ∧
        ∃ artifact, CargoArtifactRecord.new artifact = .ok record.analysis.artifact ∧
          artifact.package_id = prepared.package ∧ artifact.target.Agrees prepared.target := by
  obtain ⟨same, hfresh⟩ := finds
  have hreused := captured_reusable (.start (0 : Nat) unopened) capturing_follows captures_record rfl rfl rfl reopens rfl hfresh
  have hturns : ∀ turn ∈ [(⟨capturing, session⟩ : Turn Nat compiler.fixture.schema)], turn.call.Requests
      preparation.fixture.machine preparation.fixture.to_vec { input | input ∈ preparation.fixture.hashes.map Prod.fst }
      (preparation.fixture.request false) := by
    intro turn hturn
    obtain rfl := List.mem_singleton.mp hturn
    exact requests rfl
  obtain ⟨turn, hturn, hcaptured, -, hrecorded⟩ := reused_request preparation.fixture.injective
    preparation.fixture.to_vec_injective journeyed reusing_follows hturns (requests rfl) (Prod.ext hreused rfl)
  exact ⟨turn, hturn, hcaptured, hrecorded⟩

end fixture

end optic.captures
