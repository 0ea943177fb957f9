import Optic.Evidence.EvidenceSpec
import Optic.Evidence.Find

open rust file_system optic.records optic.store

namespace optic.queries

/-- What search results are ordered by. -/
def search_key (instance_ : InstanceRecord) : List String :=
  [instance_.display_name, instance_.definition.definition_path, instance_.definition.crate_name, instance_.raw_symbol]

/-- The strict order of search results. -/
def Before (a b : InstanceRecord) : Prop := compare (search_key a) (search_key b) = .lt

/-- A searchable name of an instance is the query. -/
def ExactMatch (query : String) (instance_ : InstanceRecord) : Prop :=
  instance_.definition.definition_path = query ∨ instance_.display_name = query ∨ instance_.raw_symbol = query

/-- A searchable name of an instance contains the query. -/
def SubstringMatch (query : String) (instance_ : InstanceRecord) : Prop :=
  text query <:+: text instance_.definition.definition_path ∨ text query <:+: text instance_.display_name ∨
    text query <:+: text instance_.raw_symbol

/-- The instances that a query selects: the exact matches, or else the substring matches. -/
def Selects (instances : List InstanceRecord) (query : String) (instance_ : InstanceRecord) : Prop :=
  instance_ ∈ instances ∧ (ExactMatch query instance_ ∨
    (∀ other ∈ instances, ¬ ExactMatch query other) ∧ SubstringMatch query instance_)

/-- The selected instances, each once and in order. -/
structure Ranking (instances : List InstanceRecord) (query : String) (ranked : List InstanceRecord) : Prop where
  selected : ∀ instance_, instance_ ∈ ranked ↔ Selects instances query instance_
  ordered : ranked.Pairwise Before

theorem contains_iff {query bytes : List UInt8} : contains query bytes = true ↔ query <:+: bytes := by
  induction bytes with
  | nil => simp [contains]
  | cons byte rest ih => rw [contains, Bool.or_eq_true, ih, List.isPrefixOf_iff_prefix, List.infix_cons_iff]

theorem is_exact_match_iff {instance_ : InstanceRecord} {query : String} :
    is_exact_match instance_ query = true ↔ ExactMatch query instance_ := by
  simp only [is_exact_match, ExactMatch, Bool.or_eq_true, decide_eq_true_eq, or_assoc]

theorem is_substring_match_iff {instance_ : InstanceRecord} {query : String} :
    is_substring_match instance_ query = true ↔ SubstringMatch query instance_ := by
  simp only [is_substring_match, SubstringMatch, Bool.or_eq_true, contains_iff, or_assoc]

/-- An exact match is a substring match. -/
theorem ExactMatch.substring {query : String} {instance_ : InstanceRecord} (h : ExactMatch query instance_) :
    SubstringMatch query instance_ := by
  rcases h with rfl | rfl | rfl
  · exact .inl (List.infix_refl _)
  · exact .inr (.inl (List.infix_refl _))
  · exact .inr (.inr (List.infix_refl _))

theorem InstanceOrder_eq (a b : InstanceRecord × Nat) :
    InstanceOrder a b = (compare (search_key a.1) (search_key b.1)).isLE := by
  simp only [InstanceOrder, search_key, compare, List.compareLex_cons_cons, List.compareLex_nil_nil, Ordering.then_eq]

theorem Before.asymm {a b : InstanceRecord} (h : Before a b) : ¬ Before b a := by
  intro h'
  rw [Before] at h h'
  rw [Std.OrientedOrd.eq_swap, h'] at h
  cases h

theorem nodup_of_before {l : List InstanceRecord} (h : l.Pairwise Before) : l.Nodup := by
  refine h.imp ?_
  rintro a b hab rfl
  exact hab.asymm hab

/-- Strictly ordered lists with the same members are equal. -/
theorem Ranking.unique {instances : List InstanceRecord} {query : String} {ranked ranked' : List InstanceRecord}
    (h : Ranking instances query ranked) (h' : Ranking instances query ranked') : ranked = ranked' := by
  have hperm : ranked.Perm ranked' := (List.perm_ext_iff_of_nodup (nodup_of_before h.ordered) (nodup_of_before h'.ordered)).mpr
    fun instance_ => (h.selected instance_).trans (h'.selected instance_).symm
  exact hperm.eq_of_pairwise (fun a b _ _ hab hba => absurd hba hab.asymm) h.ordered h'.ordered

/-- A ranking looks at no order. -/
theorem Ranking.perm {instances instances' : List InstanceRecord} {query : String} {ranked : List InstanceRecord}
    (h : Ranking instances query ranked) (hperm : instances.Perm instances') : Ranking instances' query ranked where
  selected instance_ := by
    rw [h.selected, Selects, Selects, hperm.mem_iff]
    simp only [hperm.mem_iff]
  ordered := h.ordered

/-- The instances of a manifest differ in what results are ordered by. -/
theorem search_keys_distinct (manifest : InstanceManifest) : (manifest.instances.map search_key).Nodup := by
  have hidentities := manifest.consistent.instances_distinct
  rw [List.Nodup, List.pairwise_map] at hidentities ⊢
  refine hidentities.imp fun hne hkey => hne ?_
  simp only [search_key, List.cons.injEq, and_true] at hkey
  obtain ⟨hname, hpath, hcrate, hsymbol⟩ := hkey
  rename_i a b
  have hdefinition : a.definition = b.definition := by
    obtain ⟨⟨acrate, apath, _, _⟩, _⟩ := a
    obtain ⟨⟨bcrate, bpath, _, _⟩, _⟩ := b
    cases hpath
    cases hcrate
    rfl
  rw [InstanceRecord.identity, InstanceRecord.identity, hdefinition, hname, hsymbol]

/-- The records among numbered instances that a test accepts. -/
theorem map_filter_zipIdx (instances : List InstanceRecord) (test : InstanceRecord → Bool) :
    (instances.zipIdx.filter fun entry => test entry.1).map Prod.fst = instances.filter test := by
  have hfilter := List.filter_map (f := Prod.fst) (p := test) (l := instances.zipIdx)
  rw [List.zipIdx_map_fst] at hfilter
  exact hfilter.symm

/-- Whether some instance matches a query exactly. -/
def SomeExact (instances : List InstanceRecord) (query : String) : Prop := ∃ instance_ ∈ instances, ExactMatch query instance_

/-- How a query matches, by what it selects. -/
theorem matches_of_kind {instances : List InstanceRecord} {query : String} :
    (matches_of instances query).1 = .Exact ↔ SomeExact instances query := by
  have hexact := congrArg List.isEmpty (map_filter_zipIdx instances fun instance_ => is_exact_match instance_ query)
  rw [List.isEmpty_map] at hexact
  have hsome : SomeExact instances query ↔ (instances.filter fun instance_ => is_exact_match instance_ query).isEmpty = false := by
    simp only [SomeExact, ← is_exact_match_iff, List.isEmpty_eq_false_iff_exists_mem, List.mem_filter]
  rw [hsome, matches_of, hexact]
  cases (instances.filter fun instance_ => is_exact_match instance_ query).isEmpty <;> simp

theorem mem_matches_of {instances : List InstanceRecord} {query : String} {instance_ : InstanceRecord} :
    instance_ ∈ (matches_of instances query).2.map Prod.fst ↔ Selects instances query instance_ := by
  have hkind := @matches_of_kind instances query
  rw [matches_of] at hkind ⊢
  cases hexact : (instances.zipIdx.filter fun entry => is_exact_match entry.1 query).isEmpty with
  | true =>
    rw [hexact] at hkind
    have hnone : ∀ other ∈ instances, ¬ ExactMatch query other := by
      intro other hother hmatch
      cases hkind.mpr ⟨other, hother, hmatch⟩
    have hmap := map_filter_zipIdx instances fun instance_ => is_substring_match instance_ query
    rw [if_pos rfl, hmap, List.mem_filter, is_substring_match_iff, Selects]
    constructor
    · exact fun h => ⟨h.1, .inr ⟨hnone, h.2⟩⟩
    · rintro ⟨hmem, hmatch | ⟨-, hmatch⟩⟩
      · exact ⟨hmem, hmatch.substring⟩
      · exact ⟨hmem, hmatch⟩
  | false =>
    rw [hexact] at hkind
    obtain ⟨other, hother, hfound⟩ := hkind.mp rfl
    have hmap := map_filter_zipIdx instances fun instance_ => is_exact_match instance_ query
    rw [if_neg Bool.false_ne_true, hmap, List.mem_filter, is_exact_match_iff, Selects]
    constructor
    · exact fun h => ⟨h.1, .inl h.2⟩
    · rintro ⟨hmem, hmatch | ⟨hnone, -⟩⟩
      · exact ⟨hmem, hmatch⟩
      · exact absurd hfound (hnone other hother)

theorem matches_of_sublist (instances : List InstanceRecord) (query : String) :
    (matches_of instances query).2.Sublist instances.zipIdx := by
  rw [matches_of]
  split
  · exact List.filter_sublist
  · exact List.filter_sublist

/-- The matches of a query in order, each with its ordinal. -/
def sorted_matches (instances : List InstanceRecord) (query : String) : List (InstanceRecord × Nat) :=
  (matches_of instances query).2.mergeSort InstanceOrder

theorem sorted_matches_ordered (instances : List InstanceRecord) (query : String) :
    (sorted_matches instances query).Pairwise fun a b => InstanceOrder a b = true := by
  apply List.pairwise_mergeSort
  · intro a b c
    simp only [InstanceOrder_eq]
    exact Std.TransOrd.isLE_trans
  · intro a b
    simp only [InstanceOrder_eq, Bool.or_eq_true]
    rw [Std.OrientedOrd.eq_swap (a := search_key b.1)]
    cases compare (search_key a.1) (search_key b.1) <;> simp

/-- Sorting ranks what a query selects. -/
theorem sorted_matches_ranking (manifest : InstanceManifest) (query : String) :
    Ranking manifest.instances query ((sorted_matches manifest.instances query).map Prod.fst) := by
  have hperm : (sorted_matches manifest.instances query).Perm (matches_of manifest.instances query).2 :=
    List.mergeSort_perm _ _
  have hkeys : (sorted_matches manifest.instances query).Pairwise fun a b => search_key a.1 ≠ search_key b.1 := by
    have hsublist := (matches_of_sublist manifest.instances query).map Prod.fst
    rw [List.zipIdx_map_fst] at hsublist
    have hnodup := (search_keys_distinct manifest).sublist (hsublist.map search_key)
    rw [List.Nodup, List.pairwise_map, List.pairwise_map] at hnodup
    exact hperm.symm.pairwise hnodup fun hne => hne.symm
  constructor
  · intro instance_
    rw [(hperm.map Prod.fst).mem_iff, mem_matches_of]
  · rw [List.pairwise_map]
    refine (sorted_matches_ordered manifest.instances query).imp₂ ?_ hkeys
    intro a b hordered hne
    rw [InstanceOrder_eq] at hordered
    rw [Before]
    cases hcompare : compare (search_key a.1) (search_key b.1) with
    | lt => rfl
    | eq => exact absurd (Std.LawfulEqOrd.eq_of_compare hcompare) hne
    | gt =>
      rw [hcompare] at hordered
      cases hordered

/-- A numbered instance as a result. -/
def number (capture_id : CaptureId) (entry : InstanceRecord × Nat) : FoundInstance :=
  ⟨⟨capture_id, UInt64.ofNat entry.2⟩, entry.1⟩

/-- A result names the instance that it holds: its reference is read back from its text, and resolves to the record. -/
structure Resolves (manifest : InstanceManifest) (capture_id : CaptureId) (result : FoundInstance) : Prop where
  same_capture : result.reference.capture_id = capture_id
  spelled : InstanceRef.parse result.reference.display = .ok result.reference
  resolved : referenced_instance manifest result.reference = .ok result.record

theorem number_resolves {manifest : InstanceManifest} {capture_id : CaptureId} {query : String}
    (hsize : manifest.instances.length ≤ UInt64.size) {entry : InstanceRecord × Nat}
    (h : entry ∈ sorted_matches manifest.instances query) :
    found capture_id entry = .ok (number capture_id entry) ∧ Resolves manifest capture_id (number capture_id entry) := by
  have hmem := (matches_of_sublist manifest.instances query).mem (List.mem_mergeSort.mp h)
  rw [List.mem_zipIdx_iff_getElem?] at hmem
  have hlt : entry.2 < UInt64.size := by
    have hbound := (List.getElem?_eq_some_iff.mp hmem).1
    omega
  refine ⟨if_pos hlt, rfl, InstanceRef.parse_display _, ?_⟩
  have hordinal : (number capture_id entry).reference.ordinal.toNat = entry.2 := UInt64.toNat_ofNat_of_lt' hlt
  rw [referenced_instance, hordinal, hmem]
  rfl

/-- What a search in a manifest returns: the front of its sorted matches. -/
theorem find_in_eq {manifest : InstanceManifest} (hsize : manifest.instances.length ≤ UInt64.size)
    (capture_id : CaptureId) (query : String) (limit : Nat) :
    find_in manifest capture_id query limit = .ok {
      capture_id
      match_kind := (matches_of manifest.instances query).1
      total_matches := (sorted_matches manifest.instances query).length
      instances := ((sorted_matches manifest.instances query).map (number capture_id)).take limit } := by
  have hfound : ((sorted_matches manifest.instances query).take limit).mapM (found capture_id) =
      .ok (((sorted_matches manifest.instances query).take limit).map (number capture_id)) :=
    mapM_of_ok fun entry hentry => (number_resolves hsize (List.mem_of_mem_take hentry)).1
  rw [← List.map_take]
  change (((sorted_matches manifest.instances query).take limit).mapM (found capture_id) >>= fun instances => _) = _
  rw [hfound]
  rfl

/-- A search is a bounded look at one list of results. The list holds what the query selects, each once and in order;
every result names its record; all its results are counted; and a permuted manifest leads to the same records. -/
theorem find_instances_ranks (Artifact : Type) [Serde (CaptureRecord Artifact)] [Serde InstanceManifest]
    {manifest : InstanceManifest} (hsize : manifest.instances.length ≤ UInt64.size) (capture_id : CaptureId)
    {query : String} (hquery : query ≠ "") :
    ∃ kind, ∃ all : List FoundInstance,
      Ranking manifest.instances query (all.map FoundInstance.record) ∧
      (kind = .Exact ↔ SomeExact manifest.instances query) ∧
      (∀ result ∈ all, Resolves manifest capture_id result) ∧
      (∀ limit, find_in manifest capture_id query limit = .ok ⟨capture_id, kind, all.length, all.take limit⟩) ∧
      (∀ limit limit', limit ≤ limit' → all.take limit <+: all.take limit') ∧
      (∀ manifest' : InstanceManifest, manifest.instances.Perm manifest'.instances → ∀ limit, ∃ results,
        find_in manifest' capture_id query limit = .ok results ∧ results.match_kind = kind ∧
          results.total_matches = all.length ∧
            results.instances.map FoundInstance.record = (all.map FoundInstance.record).take limit) ∧
      ∀ (store : Store) limit, 0 < limit → find_instances Artifact store capture_id query limit =
        (store.read_instances Artifact capture_id).map_err .Store >>= fun manifest =>
          .lift (find_in manifest capture_id query limit) := by
  have hrecords (entries : List (InstanceRecord × Nat)) :
      (entries.map (number capture_id)).map FoundInstance.record = entries.map Prod.fst := by
    rw [List.map_map]
    rfl
  have hranking := sorted_matches_ranking manifest query
  refine ⟨(matches_of manifest.instances query).1, (sorted_matches manifest.instances query).map (number capture_id), ?_,
    matches_of_kind, ?_, ?_, ?_, ?_, ?_⟩
  · rw [hrecords]
    exact hranking
  · intro result hresult
    obtain ⟨entry, hentry, rfl⟩ := List.mem_map.mp hresult
    exact (number_resolves hsize hentry).2
  · intro limit
    rw [find_in_eq hsize, List.length_map]
  · exact fun limit limit' hle => List.take_prefix_take_left hle
  · intro manifest' hperm limit
    have hsize' : manifest'.instances.length ≤ UInt64.size := hperm.length_eq ▸ hsize
    have hsame : (sorted_matches manifest.instances query).map Prod.fst =
        (sorted_matches manifest'.instances query).map Prod.fst :=
      (hranking.perm hperm).unique (sorted_matches_ranking manifest' query)
    have hlength := congrArg List.length hsame
    rw [List.length_map, List.length_map] at hlength
    refine ⟨_, find_in_eq hsize' capture_id query limit, ?_, ?_, ?_⟩
    · have hkind : (matches_of manifest'.instances query).1 = .Exact ↔ (matches_of manifest.instances query).1 = .Exact := by
        simp only [matches_of_kind, SomeExact, hperm.mem_iff]
      cases hfirst : (matches_of manifest.instances query).1 <;>
        cases hsecond : (matches_of manifest'.instances query).1 <;> simp_all
    · rw [List.length_map, hlength]
    · rw [List.map_take, hrecords, hrecords, hsame]
  · intro store limit hlimit
    have hchecked : ensure (decide (query ≠ "")) (FindError.EmptyQuery query) = .ok () :=
      ensure_eq_ok_iff.mpr (decide_eq_true hquery)
    have hbounded : ensure (decide (limit ≠ 0)) (FindError.InvalidLimit limit) = .ok () :=
      ensure_eq_ok_iff.mpr (decide_eq_true (Nat.ne_of_gt hlimit))
    rw [find_instances, hchecked, hbounded]
    rfl

/-- An instance without source, under the names that a search looks at. -/
def ranked_instance (path display symbol : String) (hpath : path ≠ "") (hdisplay : display ≠ "") (hsymbol : symbol ≠ "") :
    InstanceRecord :=
  { function_instance with
    definition := { function_instance.definition with definition_path := path, path_named := hpath }
    display_name := display
    raw_symbol := symbol
    source := .Unavailable .Nonlocal
    display_named := hdisplay
    symbol_named := hsymbol }

/-- Two instances of one function, another function whose name starts alike, and one that has nothing to do with them. -/
def ranked_instances : List InstanceRecord := [
  ranked_instance "k::zip" "k::zip" "z" (by decide) (by decide) (by decide),
  ranked_instance "k::run" "k::run::<u8>" "r8" (by decide) (by decide) (by decide),
  ranked_instance "k::run" "k::run::<u16>" "r16" (by decide) (by decide) (by decide),
  ranked_instance "k::run_all" "k::run_all" "r" (by decide) (by decide) (by decide)]

def ranked_manifest : InstanceManifest where
  capture_id := library_capture.id
  instances := ranked_instances
  artifacts := []
  llvm_provenance := fat_provenance
  llvm := .NotCaptured .FatLto
  consistent := validate_manifest_eq_ok_iff.mp rfl
  current := rfl

/-- The two instances of the function match its path exactly. -/
theorem ranked_exact : Ranking ranked_instances "k::run" [ranked_instances[2], ranked_instances[1]] where
  selected instance_ := by
    have hmatches : (matches_of ranked_instances "k::run").2.map Prod.fst = [ranked_instances[1], ranked_instances[2]] := rfl
    rw [← mem_matches_of, hmatches]
    exact (List.Perm.swap _ _ _).mem_iff
  ordered := by
    rw [List.pairwise_pair, Before]
    decide

/-- No name is the query, but three of them contain it. -/
theorem ranked_substring :
    Ranking ranked_instances "run" [ranked_instances[2], ranked_instances[1], ranked_instances[3]] where
  selected instance_ := by
    have hmatches : (matches_of ranked_instances "run").2.map Prod.fst =
        [ranked_instances[1], ranked_instances[2], ranked_instances[3]] := rfl
    rw [← mem_matches_of, hmatches]
    exact (List.Perm.swap _ _ _).mem_iff
  ordered := by
    have hfirst : Before ranked_instances[2] ranked_instances[1] := by
      rw [Before]
      decide
    have hsecond : Before ranked_instances[1] ranked_instances[3] := by
      rw [Before]
      decide
    have hlast : Before ranked_instances[2] ranked_instances[3] := by
      rw [Before]
      decide
    simp [hfirst, hsecond, hlast]

/-- A search for the path of a function, which returns the later of its two instances first, and a search that only
finds names which contain its query, two of three of them under the limit. -/
theorem find_instances_ranks_function :
    (∃ all : List FoundInstance, all.map FoundInstance.record = [ranked_instances[2], ranked_instances[1]] ∧
      (∀ result ∈ all, Resolves ranked_manifest library_capture.id result) ∧
      find_in ranked_manifest library_capture.id "k::run" 1 = .ok ⟨library_capture.id, .Exact, 2, all.take 1⟩) ∧
    ∃ all : List FoundInstance,
      all.map FoundInstance.record = [ranked_instances[2], ranked_instances[1], ranked_instances[3]] ∧
      (∀ result ∈ all, Resolves ranked_manifest library_capture.id result) ∧
      find_in ranked_manifest library_capture.id "run" 2 = .ok ⟨library_capture.id, .Substring, 3, all.take 2⟩ := by
  let header : Serde (CaptureRecord Unit) := .single library_capture "0"
  let manifest : Serde InstanceManifest := .single ranked_manifest "0"
  have hsize : ranked_manifest.instances.length ≤ UInt64.size := by decide
  constructor
  · obtain ⟨kind, all, hranking, hkind, hresolves, hfound, -⟩ :=
      find_instances_ranks Unit hsize library_capture.id (show "k::run" ≠ "" by decide)
    have hall := hranking.unique ranked_exact
    have hexact : kind = .Exact := hkind.mpr ⟨ranked_instances[1], by simp [ranked_manifest], .inl rfl⟩
    have hlength : all.length = 2 := by simpa using congrArg List.length hall
    exact ⟨all, hall, hresolves, hexact ▸ hlength ▸ hfound 1⟩
  · obtain ⟨kind, all, hranking, hkind, hresolves, hfound, -⟩ :=
      find_instances_ranks Unit hsize library_capture.id (show "run" ≠ "" by decide)
    have hall := hranking.unique ranked_substring
    have hsubstring : kind = .Substring := by
      cases kind with
      | Substring => rfl
      | Exact =>
        have hnone : ∀ instance_ ∈ ranked_instances, is_exact_match instance_ "run" = false := by decide
        obtain ⟨instance_, hmem, hmatch⟩ := hkind.mp rfl
        rw [← is_exact_match_iff, hnone instance_ hmem] at hmatch
        cases hmatch
    have hlength : all.length = 3 := by simpa using congrArg List.length hall
    exact ⟨all, hall, hresolves, hsubstring ▸ hlength ▸ hfound 2⟩

end optic.queries
