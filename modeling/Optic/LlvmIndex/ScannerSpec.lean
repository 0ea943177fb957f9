import Optic.LlvmIndex.HeaderSpec
import Optic.LlvmIndex.Scanner

open byte_scan rust optic.records

namespace optic.llvm_index

variable {s : Contiguous}

/-- How one turn over the modifiers of a global ends. A global variable ends its header
before it skips its initializer. -/
def GlobalTurn (s : Contiguous) : Unit ⊕ Option LlvmDefinitionKind → Contiguous → Prop
  | .inl _, s' => Within s s'
  | .inr none, s' => EndsLine { s with header_start := none } s'
  | .inr (some kind), s' => EndsLine s s' ∧ kind ≠ .Function

theorem global_kind_turn_spec (hactive : s.header_start.isSome) :
    Ensures (global_kind_turn ()) s (GlobalTurn s) := by
  refine (header.read_spec hactive).bind fun token s1 hread => ?_
  have hactive' := hread.1.active hactive
  refine Meets.ite (fun _ => ?_) fun _ => ?_
  · refine (stream.end_header_spec s1).bind fun _ s2 h => ?_
    subst h
    refine (stream.skip_line_spec _).bind fun _ s3 hline => ?_
    obtain ⟨q, hq, hend⟩ := hline
    exact Meets.done ((hread.1.rebudget none).line_end hq hend)
  refine Meets.ite (fun _ => ?_) fun _ => ?_
  · refine (header.read_alias_target_spec hactive').bind fun target s2 h => ?_
    exact Meets.done ⟨hread.1.endsLine h, by cases target <;> simp⟩
  refine Meets.ite (fun _ => ?_) fun _ => ?_
  · refine (header.read_alias_target_spec hactive').bind fun target s2 h => ?_
    exact Meets.done ⟨hread.1.endsLine h, by simp⟩
  refine Meets.ite (fun _ => Meets.done hread.1) fun _ => ?_
  refine Meets.ite (fun _ => ?_) fun _ => ?_
  · refine (header.expect_spec hactive' "(").bind fun _ s2 h => ?_
    have hs2 := hread.1.trans h
    refine (header.group_onward (hs2.active hactive) (by decide)).bind fun _ s3 h => ?_
    exact Meets.done (hs2.trans_onward h)
  refine Meets.ite (fun _ => ?_) fun _ => stream.invalid_spec
  refine (header.group_onward hactive' (by decide)).bind fun _ s2 h => ?_
  exact Meets.done (hread.1.trans_onward h)

theorem GlobalTurn.trans {s s' s'' : Contiguous} {kind : Option LlvmDefinitionKind} (h : Within s s')
    (h' : GlobalTurn s' (.inr kind) s'') : GlobalTurn s (.inr kind) s'' := by
  cases kind with
  | none => exact (h.rebudget none).endsLine h'
  | some kind => exact ⟨h.endsLine h'.1, h'.2⟩

theorem read_global_kind_spec (hactive : s.header_start.isSome) :
    Ensures read_global_kind s fun kind s' => GlobalTurn s (.inr kind) s' := by
  refine Meets.iter (I := fun _ s => s.header_start.isSome) (Q := fun _ s kind s' => GlobalTurn s (.inr kind) s')
    (fun _ s hactive => ?_) () s hactive
  refine (global_kind_turn_spec hactive).mono fun turn s1 hturn => ?_
  cases turn with
  | inl _ => exact ⟨hturn.remaining_lt, hturn.active hactive, fun kind s2 h => GlobalTurn.trans hturn h⟩
  | inr kind => exact hturn

/-- A record of the bytes `q` from the state `s` on. -/
structure Records (s : Contiguous) (q : List UInt8) (definition : LlvmDefinitionRecord) : Prop where
  start : definition.range.start.toNat = s.offset
  length : definition.range.length.toNat = q.length
  function : definition.kind = .Function → text "define" <+: q ∧ q.getLast? = some (ascii '}')
  global : definition.kind ≠ .Function → q.head? = some (ascii '@')

/-- One item was read, with the record it left. A read beyond the item only ever looked
at the end of the input. -/
def ReadItem (s : Contiguous) (definition : Option LlvmDefinitionRecord) (s' : Contiguous) : Prop :=
  ∃ q, q ≠ [] ∧ Consumed s q s' ∧ (s'.looked = false ∨ s'.rest = [] ∧ q.getLast? ≠ some (ascii '\n')) ∧
    ∀ record, definition = some record → Records s q record

theorem EndsLine.readItem {s' : Contiguous} (h : EndsLine s s') : ReadItem s none s' := by
  obtain ⟨q, hq, hne, hstop⟩ := h
  exact ⟨q, hne, hq, hstop.imp And.right And.symm, by simp⟩

theorem invalid_record_spec {α : Type} (start : Nat) (result : Except records.Error α) :
    Ensures (invalid_record start result) s fun value s' => result = .ok value ∧ s' = s := by
  cases result with
  | ok value => exact Meets.done ⟨rfl, rfl⟩
  | error error => exact stream.invalid_spec

/-- A finished record has exactly the range from its start to the current offset. -/
theorem finish_definition_spec (symbol : String) {start : Nat} (kind : LlvmDefinitionKind)
    (hstart : start ≤ s.offset) (hoffset : s.offset < UInt64.size) :
    Ensures (finish_definition symbol start kind) s fun definition s' => s' = s ∧
      definition.raw_symbol = symbol ∧ definition.kind = kind ∧ definition.range.start.toNat = start ∧
      definition.range.length.toNat = s.offset - start := by
  refine (stream.offset_spec s).bind fun stop s1 h => ?_
  obtain ⟨rfl, rfl⟩ := h
  refine (invalid_record_spec start _).bind fun range s2 h => ?_
  obtain ⟨hrange, rfl⟩ := h
  refine (invalid_record_spec start _).mono fun definition s3 h => ?_
  obtain ⟨hdefinition, rfl⟩ := h
  obtain ⟨hsymbol, hrange', hkind⟩ := LlvmDefinitionRecord.new_eq_ok_iff.mp hdefinition
  obtain ⟨hstart', hlength⟩ := ByteRange.new_eq_ok_iff.mp hrange
  refine ⟨rfl, hsymbol, hkind, ?_, ?_⟩
  · rw [hrange', hstart', UInt64.toNat_ofNat_of_lt' (by omega)]
  · rw [hrange', hlength, UInt64.toNat_ofNat_of_lt' (by omega)]

theorem read_global_definition_spec {rest : List UInt8} (hs : s.header_start = none)
    (hoffset : s.offset < UInt64.size) (hrest : s.rest = ascii '@' :: rest) :
    Ensures (read_global_definition s.offset) s (ReadItem s) := by
  refine (stream.begin_header_spec s s.offset).bind fun _ s1 h => ?_
  subst h
  refine (header.read_spec rfl).bind fun symbol s2 hsymbol => ?_
  refine (header.expect_spec (hsymbol.1.active rfl) "=").bind fun _ s3 h => ?_
  have hs3 := hsymbol.1.trans h
  refine (read_global_kind_spec (hs3.active rfl)).bind fun kind s4 hkind => ?_
  have hs4 := GlobalTurn.trans hs3 hkind
  cases kind with
  | none =>
    refine (stream.end_header_spec s4).bind fun _ s5 h => ?_
    subst h
    have hitem : EndsLine s { s4 with header_start := none } := by
      have hends := EndsLine.rebudget hs4 none
      rwa [← hs] at hends ⊢
    exact Meets.pure hitem.readItem
  | some kind =>
    obtain ⟨⟨q, hq, hne, hstop⟩, hfunction⟩ := hs4
    refine (header.decode_spec hsymbol.2).bind fun name s5 h => ?_
    obtain ⟨-, rfl⟩ := h
    have hle : s.offset ≤ s5.offset := by rw [hq.offset]; exact Nat.le_add_right _ _
    refine (finish_definition_spec name kind hle (hq.bounded hoffset)).bind fun definition s6 h => ?_
    obtain ⟨rfl, -, hkind, hstart, hlength⟩ := h
    refine (stream.end_header_spec s6).bind fun _ s7 h => ?_
    subst h
    refine Meets.pure ⟨q, hne, hq.unbudget hs, hstop.imp And.right And.symm, fun record hrecord => ?_⟩
    cases hrecord
    refine ⟨hstart, ?_, fun h => absurd (hkind.symm.trans h) hfunction, fun _ => ?_⟩
    · rw [hlength, hq.offset]
      exact Nat.add_sub_cancel_left _ _
    · obtain ⟨tail, rfl⟩ := hq.head hrest hne
      rfl

/-- A function record runs from its keyword, which was consumed before, through its
closing brace. -/
theorem read_function_definition_spec {keyword : List UInt8} {s s1 : Contiguous} (hs : s.header_start = none)
    (hoffset : s.offset < UInt64.size) (hkeyword : Consumed s keyword s1) (hdefine : text "define" <+: keyword) :
    Ensures (read_function_definition s.offset) s1 fun definition s' => ReadItem s (some definition) s' := by
  refine (stream.begin_header_spec s1 s.offset).bind fun _ s2 h => ?_
  subst h
  refine (header.read_function_spec rfl).bind fun symbol s3 h => ?_
  obtain ⟨q, hq, -, -⟩ := h
  refine (stream.end_header_spec s3).bind fun _ s4 h => ?_
  subst h
  refine (stream.skip_body_spec _).bind fun _ s5 h => ?_
  obtain ⟨body, hbody, hlooked⟩ := h
  have hall : Consumed s (keyword ++ (q ++ (body ++ [ascii '}']))) s5 :=
    hkeyword.trans ((hq.unbudget (hkeyword.header_start.trans hs)).trans hbody)
  have hle : s.offset ≤ s5.offset := by rw [hall.offset]; exact Nat.le_add_right _ _
  refine (finish_definition_spec symbol .Function hle (hall.bounded hoffset)).mono fun definition s6 h => ?_
  obtain ⟨rfl, -, hkind, hstart, hlength⟩ := h
  refine ⟨_, by simp, hall, Or.inl hlooked, fun record hrecord => ?_⟩
  cases hrecord
  refine ⟨hstart, ?_, fun _ => ⟨hdefine.trans (List.prefix_append _ _), by simp [List.getLast?_append]⟩,
    fun h => absurd hkind h⟩
  rw [hlength, hall.offset]
  exact Nat.add_sub_cancel_left _ _

/-- What a keyword probe reads: at most `count` bytes, none of them behind a newline. -/
def ReadPrefix (count : Nat) (s : Contiguous) (bytes : List UInt8) (s' : Contiguous) : Prop :=
  Consumed s bytes s' ∧ ((∃ line, ascii '\n' ∉ line ∧ bytes = line ++ [ascii '\n'] ∧ s'.looked = false) ∨
    ascii '\n' ∉ bytes ∧ (bytes.length = count ∨ s'.rest = []))

theorem read_prefix_bytes_spec (count : Nat) : ∀ s : Contiguous, Ensures (read_prefix_bytes count) s (ReadPrefix count s) := by
  induction count with
  | zero => exact fun s => Meets.pure ⟨Consumed.refl s, Or.inr ⟨by simp, Or.inl rfl⟩⟩
  | succ count ih =>
    intro s
    refine (stream.take_spec s).bind fun byte s1 htook => ?_
    cases byte with
    | none =>
      obtain ⟨hnil, rfl⟩ := htook
      exact Meets.pure ⟨Consumed.look s, Or.inr ⟨by simp, Or.inr hnil⟩⟩
    | some byte =>
      obtain ⟨hbyte, hlooked⟩ := htook
      refine Meets.ite (fun hlf => ?_) fun hlf => ?_
      · exact Meets.pure ⟨hbyte, Or.inl ⟨[], by simp, by simp [hlf], hlooked⟩⟩
      · refine (ih s1).bind fun bytes s2 h => ?_
        obtain ⟨hbytes, ⟨line, hline, rfl, hlooked'⟩ | ⟨hnone, hcount⟩⟩ := h
        · exact Meets.pure ⟨hbyte.cons hbytes,
            Or.inl ⟨byte :: line, by simp [hline, Ne.symm hlf], rfl, hlooked'⟩⟩
        · refine Meets.pure ⟨hbyte.cons hbytes, Or.inr ⟨by simp [hnone, Ne.symm hlf], ?_⟩⟩
          exact hcount.imp (fun h => by simp [h]) id

/-- The padded keyword equals `define` only if exactly those bytes were read. -/
theorem padded_eq_define {bytes : List UInt8}
    (h : bytes ++ List.replicate (6 - bytes.length) 0 = text "define") : bytes = text "define" := by
  have hzero : (0 : UInt8) ∉ text "define" := by decide
  have hpad : 6 - bytes.length = 0 := by
    by_contra hne
    refine hzero (h ▸ List.mem_append_right _ (List.mem_replicate.mpr ⟨hne, rfl⟩))
  simpa [hpad] using h

theorem starts_function_spec (keyword : List UInt8) :
    Ensures (starts_function keyword) s fun starts s' => Consumed s [] s' ∧
      (keyword ≠ text "define" → s' = s ∧ starts = false) := by
  refine Meets.ite (fun hdefine => ?_) fun hdefine => ?_
  · refine (stream.peek_spec s).bind fun next s1 h => ?_
    obtain ⟨-, rfl⟩ := h
    exact Meets.pure ⟨Consumed.look s, fun h => absurd hdefine h⟩
  · exact Meets.pure ⟨Consumed.refl s, fun _ => ⟨rfl, rfl⟩⟩

/-- A keyword probe, and then the function or the rest of the line that it began. -/
theorem scan_keyword_spec {s s1 : Contiguous} {bytes keyword : List UInt8} (hs : s.header_start = none)
    (hoffset : s.offset < UInt64.size) (hrest : s.rest ≠ []) (hread : Consumed s bytes s1)
    (hbytes : keyword = text "define" → bytes = text "define")
    (hline : ascii '\n' ∈ keyword → bytes ≠ [] ∧ s1.looked = false) (hlf : ascii '\n' ∉ keyword → ascii '\n' ∉ bytes) :
    Ensures (scan_keyword s.offset keyword) s1 (ReadItem s) := by
  refine (starts_function_spec keyword).bind fun starts s2 h => ?_
  obtain ⟨hlook, hother⟩ := h
  refine Meets.ite (fun hstarts => ?_) fun _ => ?_
  · have hdefine : keyword = text "define" := by
      by_contra hne
      simp [(hother hne).2] at hstarts
    have hkeyword := hread.trans hlook
    rw [List.append_nil, hbytes hdefine] at hkeyword
    refine (read_function_definition_spec hs hoffset hkeyword (List.prefix_rfl)).bind fun definition s3 h => ?_
    exact Meets.pure h
  refine Meets.ite (fun hmem => ?_) fun hmem => ?_
  · have hne : keyword ≠ text "define" := by
      rintro rfl
      exact absurd hmem (by decide)
    obtain ⟨rfl, -⟩ := hother hne
    obtain ⟨hne, hlooked⟩ := hline hmem
    exact Meets.pure ⟨bytes, hne, hread, Or.inl hlooked, by simp⟩
  · refine (stream.skip_line_spec s2).bind fun _ s3 h => ?_
    obtain ⟨q, hq, hend⟩ := h
    have hconsumed := (hread.trans hlook).trans hq
    rw [List.append_nil] at hconsumed
    have hall : LineEnd (bytes ++ q) s3 := by
      have hlf := hlf hmem
      obtain ⟨line, hline, rfl, hlooked⟩ | ⟨hnone, hnil⟩ := hend
      · exact Or.inl ⟨bytes ++ line, by simp [hlf, hline], by simp, hlooked⟩
      · exact Or.inr ⟨by simp [hlf, hnone], hnil⟩
    exact Meets.pure (hall.endsLine hconsumed (hall.ne_nil hconsumed hrest)).readItem

/-- Every item is read to where the next one can start. -/
theorem scan_item_spec {byte : UInt8} {rest : List UInt8} (hs : s.header_start = none)
    (hoffset : s.offset < UInt64.size) (hrest : s.rest = byte :: rest) :
    Ensures (scan_item byte) s (ReadItem s) := by
  have hne : s.rest ≠ [] := by simp [hrest]
  refine Meets.ite (fun _ => ?_) fun _ => ?_
  · refine (stream.take_spec s).bind fun taken s1 htook => ?_
    cases taken with
    | none => exact absurd htook.1 hne
    | some taken => exact Meets.pure ⟨[taken], by simp, htook.1, Or.inl htook.2, by simp⟩
  refine (stream.offset_spec s).bind fun start s1 h => ?_
  obtain ⟨rfl, rfl⟩ := h
  refine Meets.ite (fun hat => ?_) fun _ => Meets.ite (fun _ => ?_) fun _ => ?_
  · exact read_global_definition_spec hs hoffset (hat ▸ hrest)
  · refine Meets.bind (P := fun keyword s' => ∃ bytes, ReadPrefix 6 s1 bytes s' ∧
      keyword = bytes ++ List.replicate (6 - bytes.length) 0) ?_ fun keyword s2 h => ?_
    · exact (read_prefix_bytes_spec 6 s1).bind fun bytes s2 h => Meets.pure ⟨bytes, h, rfl⟩
    · obtain ⟨bytes, ⟨hread, hprefix⟩, rfl⟩ := h
      have hpad : ascii '\n' ∈ bytes ++ List.replicate (6 - bytes.length) 0 ↔ ascii '\n' ∈ bytes := by
        rw [List.mem_append, List.mem_replicate]
        simp [show ascii '\n' ≠ 0 by decide]
      refine scan_keyword_spec hs hoffset hne hread padded_eq_define (fun hmem => ?_) (fun hmem => ?_)
      · rw [hpad] at hmem
        obtain ⟨line, -, rfl, hlooked⟩ | ⟨hnone, -⟩ := hprefix
        · exact ⟨by simp, hlooked⟩
        · exact absurd hmem hnone
      · rwa [hpad] at hmem
  · exact scan_keyword_spec hs hoffset hne (Consumed.refl s1) (fun h => absurd h (by decide))
      (fun h => absurd h (by decide)) (by simp)

end optic.llvm_index
