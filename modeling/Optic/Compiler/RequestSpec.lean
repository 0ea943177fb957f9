import Optic.Compiler.Request

open rust optic.records

namespace optic.compiler

namespace FeatureNames

variable {features : List String}

/-- Splitting takes names as they are. -/
theorem feature_names_eq (h : FeatureNames features) : feature_names features = features := flatMap_tokens h.tokens

/-- The value of Cargo's option is split into the names again. -/
theorem tokens_join (h : FeatureNames features) :
    rust.tokens is_feature_separator (",".intercalate features) = features := by
  exact (rust.tokens_join (c := ',') rfl features).trans (flatMap_tokens h.tokens)

/-- A normal form is its own normal form. -/
theorem normal_eq (h : FeatureNames features) : text_order.normal (feature_names features) = features := by
  rw [h.feature_names_eq, SortOrder.normal_of_increasing text_order_linear h.increasing]

end FeatureNames

namespace BuildRequest

variable {request result : BuildRequest} {values : List String}

/-- Values are accepted exactly if none is empty. Only the features change. -/
theorem with_features_eq_ok_iff : request.with_features values = .ok result ↔ "" ∉ values ∧
    result = { request with
      features := text_order.normal (feature_names values)
      normal := feature_names_normal values } := by
  have hcheck : values.forM (require_text "feature name") = .ok () ↔ "" ∉ values := by
    rw [forM_eq_ok_iff, ← List.forall_mem_ne']
    apply forall₂_congr
    intro value _
    rw [require_text, ensure_eq_ok_iff, decide_eq_true_iff]
  rw [with_features, unit_bind_eq_ok_iff, hcheck, pure_eq_ok, Except.ok.injEq, eq_comm (a := result)]

theorem with_features_features (h : request.with_features values = .ok result) :
    result.features = text_order.normal (feature_names values) := by
  obtain ⟨-, rfl⟩ := with_features_eq_ok_iff.mp h
  rfl

theorem mem_features (h : request.with_features values = .ok result) {name : String} :
    name ∈ result.features ↔ name ∈ feature_names values := by
  rw [with_features_features h, SortOrder.mem_normal text_order_linear]

/-- Values with the same names give the same request. -/
theorem with_features_unique {values' : List String} {result' : BuildRequest}
    (h : request.with_features values = .ok result) (h' : request.with_features values' = .ok result')
    (hnames : ∀ name, name ∈ feature_names values ↔ name ∈ feature_names values') : result = result' := by
  obtain ⟨-, rfl⟩ := with_features_eq_ok_iff.mp h
  obtain ⟨-, rfl⟩ := with_features_eq_ok_iff.mp h'
  have hsame := (SortOrder.normal_eq_iff text_order_linear).mpr hnames
  simp only [hsame]

/-- A request takes its own features back. -/
theorem with_features_self (request : BuildRequest) : request.with_features request.features = .ok request := by
  rw [with_features_eq_ok_iff]
  constructor
  · intro hmem
    exact (request.normal.tokens "" hmem).named rfl
  · simp only [request.normal.normal_eq]

/-- Among requests for one target with the same flags, arguments tell the features. -/
theorem features_of_cargo_arguments {other : BuildRequest} (hpackage : request.package = other.package)
    (htarget : request.target = other.target) (hprofile : request.profile = other.profile)
    (hall : request.all_features = other.all_features) (hdefault : request.no_default_features = other.no_default_features)
    (h : cargo_arguments request = cargo_arguments other) : request.features = other.features := by
  simp only [cargo_arguments, hpackage, htarget, hprofile, hall, hdefault, List.append_assoc, List.append_cancel_left_eq,
    List.append_cancel_right_eq] at h
  cases hrequest : request.features with
  | nil =>
    cases hother : other.features with
    | nil => rfl
    | cons name names =>
      rw [hrequest, hother] at h
      cases h
  | cons name names =>
    cases hother : other.features with
    | nil =>
      rw [hrequest, hother] at h
      cases h
    | cons name' names' =>
      rw [hrequest, hother] at h
      have hjoin : ",".intercalate request.features = ",".intercalate other.features := by
        rw [hrequest, hother]
        exact (List.cons.inj (List.cons.inj h).2).1
      rw [← hrequest, ← hother, ← request.normal.tokens_join, hjoin, other.normal.tokens_join]

end BuildRequest

/-- Feature selections have one normal form. Accepted values with the same names lead to one request, and so to the same
arguments and records; and arguments for one target and the same flags tell the names. The names that a request keeps
are increasing and nonempty, hold no separator, are what the joined option is split into, and are kept again. -/
theorem feature_selection_normal :
    (∀ (request result result' : BuildRequest) (values values' : List String), request.with_features values = .ok result →
      request.with_features values' = .ok result' → (∀ name, name ∈ feature_names values ↔ name ∈ feature_names values') →
      result = result' ∧ cargo_arguments result = cargo_arguments result' ∧ build_record result = build_record result') ∧
    (∀ request other : BuildRequest, request.package = other.package → request.target = other.target →
      request.profile = other.profile → request.all_features = other.all_features →
      request.no_default_features = other.no_default_features → cargo_arguments request = cargo_arguments other →
      ∀ name, name ∈ request.features ↔ name ∈ other.features) ∧
    ∀ (request result : BuildRequest) (values : List String), request.with_features values = .ok result →
      (∀ name, name ∈ result.features ↔ name ∈ feature_names values) ∧ text_order.Increasing result.features ∧
      (∀ name ∈ result.features, name ≠ "" ∧ ∀ c ∈ name.toList, c ≠ ',' ∧ is_whitespace c = false) ∧
      tokens is_feature_separator (",".intercalate result.features) = result.features ∧
      result.with_features result.features = .ok result := by
  refine ⟨?_, ?_, ?_⟩
  · intro request result result' values values' h h' hnames
    have hsame := BuildRequest.with_features_unique h h' hnames
    exact ⟨hsame, congrArg cargo_arguments hsame, congrArg build_record hsame⟩
  · intro request other hpackage htarget hprofile hall hdefault h name
    rw [BuildRequest.features_of_cargo_arguments hpackage htarget hprofile hall hdefault h]
  · intro request result values h
    refine ⟨fun name => BuildRequest.mem_features h, result.normal.increasing, ?_, result.normal.tokens_join,
      result.with_features_self⟩
    intro name hname
    have htoken := result.normal.tokens name hname
    refine ⟨htoken.named, fun c hc => ?_⟩
    have hwhole := htoken.whole c hc
    rw [is_feature_separator, Bool.or_eq_false_iff, decide_eq_false_iff_not] at hwhole
    exact hwhole

theorem feature_selection_normal_fixture : ∃ request result : BuildRequest,
    request.with_features ["beta,alpha", "beta"] = .ok result ∧ request.with_features ["alpha beta"] = .ok result := by
  have hnames : feature_names ["beta,alpha", "beta"] = ["beta", "alpha", "beta"] := by decide
  have hnames' : feature_names ["alpha beta"] = ["alpha", "beta"] := by decide
  let request : BuildRequest := ⟨"fixture", .Library, "custom", [], false, false, rfl, List.Pairwise.nil, List.forall_mem_nil _⟩
  obtain ⟨result, h⟩ : ∃ result, request.with_features ["beta,alpha", "beta"] = .ok result :=
    ⟨_, BuildRequest.with_features_eq_ok_iff.mpr ⟨by decide, rfl⟩⟩
  obtain ⟨result', h'⟩ : ∃ result, request.with_features ["alpha beta"] = .ok result :=
    ⟨_, BuildRequest.with_features_eq_ok_iff.mpr ⟨by decide, rfl⟩⟩
  have hsame := feature_selection_normal.1 request result result' _ _ h h' fun name => by
    rw [hnames, hnames']
    simp only [List.mem_cons, List.not_mem_nil, or_false]
    tauto
  exact ⟨request, result, h, hsame.1 ▸ h'⟩

end optic.compiler
