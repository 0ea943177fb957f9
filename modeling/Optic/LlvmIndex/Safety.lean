import Optic.ByteScan.Alike
import Optic.LlvmIndex.Checked
import Optic.LlvmIndex.Index
import Optic.LlvmIndex.Sound

open byte_scan rust optic.records

namespace optic.llvm_index

variable {s s' : Stream}

theorem Stream.run_peek_ok {byte : Option UInt8} (h : stream.peek.run s = .ok (byte, s')) : s.peek = .ok (byte, s') := by
  simp only [stream.peek, Scan.run] at h
  split at h
  · next hpeek =>
    cases h
    exact hpeek
  · cases h

theorem Stream.run_take_ok {byte : Option UInt8} (h : stream.take.run s = .ok (byte, s')) : s.take = .ok (byte, s') := by
  simp only [stream.take, Scan.run] at h
  split at h
  · next htake =>
    cases h
    exact htake
  · cases h

/-- At least this many bytes were consumed since the start of the header, which bounds the
buffers that they went to. -/
structure Buffered (count : Nat) (s : Stream) : Prop where
  sound : s.Sound
  fits : ∃ start ∈ s.header_start, start + count ≤ s.offset

namespace Buffered

variable {count : Nat}

theorem lt_limit (h : Buffered (count + 1) s) : count < HEADER_LIMIT := by
  obtain ⟨start, hstart, hfits⟩ := h.fits
  have hbudget := h.sound.budget start hstart
  omega

theorem pos (h : Buffered (count + 1) s) : 0 < s.offset := by
  obtain ⟨start, hstart, hfits⟩ := h.fits
  omega

theorem of_active (h : s.Sound) (hactive : s.header_start.isSome) : Buffered 0 s := by
  obtain ⟨start, hstart⟩ := Option.isSome_iff_exists.mp hactive
  exact ⟨h, start, hstart, (h.budget start hstart).1⟩

theorem mono (h : Buffered count s) {fewer : Nat} (hle : fewer ≤ count) : Buffered fewer s := by
  obtain ⟨hsound, start, hstart, hfits⟩ := h
  exact ⟨hsound, start, hstart, by omega⟩

theorem take (h : Buffered count s) {byte : Option UInt8} (htake : s.take = .ok (byte, s')) :
    Buffered (count + byte.toList.length) s' := by
  obtain ⟨hoffset, hheader⟩ := Stream.take_keeps htake
  obtain ⟨start, hstart, hfits⟩ := h.fits
  exact ⟨h.sound.take htake, start, hheader ▸ hstart, by omega⟩

/-- What was consumed since the start of a header stays consumed. -/
theorem keeps (count : Nat) : Keeps (fun _ => False) (Buffered count) where
  peek s byte s' h hpeek := by
    obtain ⟨hoffset, hheader⟩ := Stream.peek_keeps hpeek
    obtain ⟨start, hstart, hfits⟩ := h.fits
    exact ⟨h.sound.peek hpeek, start, hheader ▸ hstart, hoffset ▸ hfits⟩
  take s byte s' h htake := (h.take htake).mono (Nat.le_add_right _ _)
  budget _ _ hfalse := hfalse.elim

theorem run (h : Buffered count s) {α : Type} {p : Program α} (hp : Budgets (fun _ => False) p) {a : α}
    (hrun : p.run s = .ok (a, s')) : Buffered count s' := (hp.throughout (keeps count) h).final hrun

end Buffered

namespace checked

variable {count : Nat} {bytes : List UInt8}

theorem run_sub {a b : Nat} (h : b ≤ a) : (sub a b).run s = .ok (a - b, s) := by
  rw [sub, if_pos h]
  rfl

theorem run_reserve {buffer : List UInt8} (h : Buffered (buffer.length + 1) s') : (reserve buffer).run s = .ok ((), s) := by
  rw [reserve, if_pos h.lt_limit]
  rfl

theorem run_push {byte : UInt8} (h : Buffered (bytes.length + 1) s) : (push bytes byte).run s = .ok (bytes ++ [byte], s) := by
  rw [push, run_bind, run_reserve h]
  rfl

/-- A byte that was consumed can be pushed. -/
theorem push_alike {byte : UInt8} (h : Buffered (bytes.length + 1) s) :
    Alike (push bytes byte) (.done (bytes ++ [byte])) s fun bytes => Buffered bytes.length := by
  refine ⟨run_push h, fun a s' hrun => ?_⟩
  cases hrun
  rwa [List.length_append, List.length_singleton]

/-- The error at the byte that was consumed last. -/
theorem invalid_before_alike {α : Type} (h : 0 < s.offset) (message : String) {Q : α → Stream → Prop} :
    Alike (invalid_before message) (do invalid ((← stream.offset) - 1) message) s Q := by
  refine ⟨?_, fun a s' hrun => by cases hrun⟩
  change ((sub s.offset 1 >>= fun offset => invalid offset message) : Program α).run s = _
  rw [run_bind, run_sub h]
  rfl

theorem peek_alike {α : Type} (h : Buffered count s) {f f' : Option UInt8 → Program α} {Q : α → Stream → Prop}
    (hf : ∀ byte s', Buffered count s' → Alike (f byte) (f' byte) s' Q) :
    Alike (stream.peek >>= f) (stream.peek >>= f') s Q :=
  Alike.bind (P := fun _ => Buffered count) (.same fun _ _ => h.run stream.peek_calm) hf

theorem take_alike {α : Type} (h : Buffered count s) {f f' : Option UInt8 → Program α} {Q : α → Stream → Prop}
    (hnone : ∀ s', Buffered count s' → Alike (f none) (f' none) s' Q)
    (hsome : ∀ byte s', Buffered (count + 1) s' → Alike (f (some byte)) (f' (some byte)) s' Q) :
    Alike (stream.take >>= f) (stream.take >>= f') s Q := by
  refine Alike.bind (P := fun byte s' => Buffered (count + byte.toList.length) s')
    (.same fun byte s' hrun => h.take (Stream.run_take_ok hrun)) fun byte s' h' => ?_
  cases byte with
  | none => exact hnone s' h'
  | some byte => exact hsome byte s' h'

theorem take_expected_alike {α : Type} (h : Buffered count s) (message : String) {f f' : UInt8 → Program α}
    {Q : α → Stream → Prop} (hf : ∀ byte s', Buffered (count + 1) s' → Alike (f byte) (f' byte) s' Q) :
    Alike (stream.take_expected message >>= f) (stream.take_expected message >>= f') s Q := by
  refine Alike.bind (P := fun _ => Buffered (count + 1)) ?_ hf
  exact take_alike h (fun s' _ => .fail) fun byte s' h' => .done h'

theorem digit_alike (h : Buffered bytes.length s) :
    Alike (digit bytes) (stream.complete_quoted_escape.digit bytes) s fun bytes => Buffered bytes.length := by
  refine take_alike h (fun s' _ => .same fun _ _ hrun => by cases hrun) fun byte s' h' => ?_
  exact .ite (fun _ => push_alike h') fun _ => invalid_before_alike h'.pos _

theorem complete_quoted_escape_alike (h : Buffered bytes.length s) :
    Alike (complete_quoted_escape bytes) (stream.complete_quoted_escape bytes) s fun bytes => Buffered bytes.length := by
  refine peek_alike h fun byte s1 h1 => .ite (fun _ => ?_) fun _ => ?_
  · exact take_expected_alike h1 _ fun byte s2 h2 => push_alike h2
  · exact (digit_alike h1).bind fun bytes s2 h2 => digit_alike h2

theorem complete_quoted_token_alike (h : Buffered bytes.length s) :
    Alike (complete_quoted_token bytes) (stream.complete_quoted_token bytes) s fun _ _ => True := by
  refine Alike.iter (I := fun bytes => Buffered bytes.length) (fun bytes s h => ?_) h
  refine take_alike h (fun s' _ => .same fun _ _ hrun => by cases hrun) fun byte s1 h1 => .after (run_push h1) ?_
  rw [← List.length_singleton (a := byte), ← List.length_append] at h1
  refine .ite (fun _ => .done trivial) fun _ => .ite (fun _ => invalid_before_alike ?_ _) fun _ => ?_
  · rw [List.length_append, List.length_singleton] at h1
    exact h1.pos
  · refine .ite (fun _ => ?_) fun _ => .done h1
    exact (complete_quoted_escape_alike h1).bind fun bytes s2 h2 => .done h2

theorem complete_word_alike (h : Buffered bytes.length s) :
    Alike (Scan.iter word_turn bytes) (stream.complete_word bytes) s fun _ _ => True := by
  refine Alike.iter (I := fun bytes => Buffered bytes.length) (fun bytes s h => ?_) h
  refine peek_alike h fun byte s1 h1 => ?_
  cases byte with
  | none => exact .done trivial
  | some byte =>
    refine .ite (fun _ => ?_) fun _ => .done trivial
    refine take_expected_alike h1 _ fun byte s2 h2 => .after (run_push h2) ?_
    rw [← List.length_singleton (a := byte), ← List.length_append] at h2
    exact .done h2

theorem complete_token_alike {first : UInt8} (h : Buffered 1 s) :
    Alike (complete_token first) (stream.complete_token first) s fun _ _ => True := by
  refine .ite (fun _ => complete_quoted_token_alike h) fun _ => ?_
  refine Alike.bind (P := fun _ => Buffered 1) (.same fun _ _ => h.run (stream.opens_quote_calm first)) ?_
  intro opens s1 h1
  refine .ite (fun _ => ?_) fun _ => .ite (fun _ => .done trivial) fun _ => complete_word_alike h1
  refine take_expected_alike h1 _ fun quote s2 h2 => .after (run_push h2) ?_
  exact complete_quoted_token_alike h2

/-- Reading a token consumes at least a byte. -/
theorem read_token_alike (h : Buffered count s) (stop_at_newline : Bool) :
    Alike (read_token stop_at_newline) (stream.read_token stop_at_newline) s fun token =>
      Buffered (count + token.toList.length) := by
  refine Alike.bind (P := fun _ => Buffered count) (.same fun _ _ => h.run (.active .done)) fun active s1 h1 => ?_
  refine .ite (fun _ => ?_) fun _ => .fail
  refine Alike.bind (P := fun _ => Buffered count) (.same fun _ _ => h1.run (stream.skip_blank_calm _)) fun ended s2 h2 => ?_
  refine .ite (fun _ => .done h2) fun _ => ?_
  refine Alike.bind (P := fun _ => Buffered count) (.same fun _ _ => h2.run stream.offset_calm) fun offset s3 h3 => ?_
  refine take_alike h3 (fun s' h' => .done h') fun first s4 h4 => ?_
  have hfirst : Buffered 1 s4 := h4.mono (Nat.le_add_left _ _)
  exact ((complete_token_alike hfirst).and fun _ _ => h4.run (stream.complete_token_calm first)).bind
    fun bytes s5 h5 => .done h5.2

theorem read_required_token_alike (h : Buffered count s) :
    Alike read_required_token stream.read_required_token s fun _ => Buffered (count + 1) := by
  refine (read_token_alike h false).bind fun token s1 h1 => ?_
  cases token with
  | none => exact .same fun _ _ hrun => by cases hrun
  | some token => exact .done h1

/-- A group keeps no more delimiters than it consumed, with the one that opens it. -/
theorem consume_group_alike (h : Buffered 1 s) (opening : UInt8) :
    Alike (consume_group opening) (stream.consume_group opening) s fun _ _ => True := by
  unfold consume_group stream.consume_group
  cases matching_close opening with
  | none => exact .fail
  | some close =>
    refine Alike.iter (I := fun (closing : List UInt8) => Buffered closing.length) (fun closing s h => ?_) h
    cases closing with
    | nil => exact .done trivial
    | cons expected outer =>
      refine (read_required_token_alike h).bind fun token s1 h1 => ?_
      have hsame := h1.mono (Nat.le_succ _)
      have hpopped : Buffered outer.length s1 := h1.mono (by rw [List.length_cons]; omega)
      obtain ⟨bytes, offset⟩ := token
      rcases bytes with _ | ⟨byte, _ | ⟨second, rest⟩⟩
      · exact .done hsame
      · dsimp only
        cases matching_close byte with
        | some close => exact .after (run_reserve h1) (.done h1)
        | none => exact .ite (fun _ => .done hsame) fun _ => .ite (fun _ => .fail) fun _ => .done hpopped
      · exact .done hsame

/-- The depth of a body is bounded by what was consumed. -/
structure Nested (state : stream.BodyState) (s : Stream) : Prop where
  sound : s.Sound
  depth_pos : 0 < state.depth
  depth_le : state.depth ≤ s.offset

theorem run_add {a b : Nat} (h : a + b < UInt64.size) : (add a b).run s = .ok (a + b, s) := by
  rw [add, if_pos h]
  rfl

theorem skip_body_alike (hsound : s.Sound) (hpos : 0 < s.offset) : Alike skip_body stream.skip_body s fun _ _ => True := by
  refine Alike.iter (I := Nested) (fun state s h => ?_) (b := ({} : stream.BodyState)) ⟨hsound, Nat.one_pos, hpos⟩
  refine Alike.bind (P := fun byte s' => s'.Sound ∧ s'.offset = s.offset + byte.toList.length)
    (.same fun byte s' hrun => ?_) fun byte s1 h1 => ?_
  · have htake := Stream.run_take_ok hrun
    exact ⟨h.sound.take htake, (Stream.take_keeps htake).1⟩
  obtain ⟨hsound1, hoffset⟩ := h1
  cases byte with
  | none => exact .same fun _ _ hrun => by cases hrun
  | some byte =>
    simp only [Option.toList_some, List.length_singleton] at hoffset
    have hdepth := h.depth_le
    have hlt := hsound1.offset_lt
    have hnested (next : stream.BodyState) (hnext : next.depth = state.depth) : Nested next s1 :=
      ⟨hsound1, hnext ▸ h.depth_pos, by omega⟩
    refine .ite (fun _ => .done (hnested _ rfl)) fun _ => .ite (fun _ => .done (hnested _ rfl)) fun _ => ?_
    refine .ite (fun _ => invalid_before_alike (by omega) _) fun _ => .ite (fun hdigits => ?_) fun _ => ?_
    · exact .after (run_sub (Nat.one_le_iff_ne_zero.mpr hdigits)) (.done (hnested _ rfl))
    refine .ite (fun _ => invalid_before_alike (by omega) _) fun _ => .ite (fun _ => .done (hnested _ rfl)) fun _ => ?_
    refine .ite (fun _ => .done (hnested _ rfl)) fun _ => .ite (fun _ => .done (hnested _ rfl)) fun _ => ?_
    refine .ite (fun _ => .done (hnested _ rfl)) fun _ => .ite (fun _ => .done (hnested _ rfl)) fun _ => ?_
    refine .ite (fun _ => ?_) fun _ => .ite (fun _ => .ite (fun _ => .done trivial) fun hlast => ?_) fun _ => ?_
    · exact .after (run_add (by omega)) (.done ⟨hsound1, Nat.succ_pos _, by simp only; omega⟩)
    · have hdeep := h.depth_pos
      exact .after (run_sub h.depth_pos) (.done ⟨hsound1, by simp only; omega, by simp only; omega⟩)
    · exact .done (hnested _ rfl)

theorem finish_definition_run {start : Nat} (h : start ≤ s.offset) (symbol : String) (kind : LlvmDefinitionKind) :
    (finish_definition symbol start kind).run s = (llvm_index.finish_definition symbol start kind).run s := by
  unfold finish_definition llvm_index.finish_definition
  rw [run_bind, run_bind]
  change ((sub s.offset start >>= _) : Program LlvmDefinitionRecord).run s = _
  rw [run_bind, run_sub h]
  rfl

theorem hex_eq {byte : UInt8} (h : is_ascii_hexdigit byte) : hex byte = .ok (llvm_index.hex byte) := by
  have hranges : (((ascii '0' ≤ byte && byte ≤ ascii '9') || (ascii 'A' ≤ byte && byte ≤ ascii 'F')) ||
      (ascii 'a' ≤ byte && byte ≤ ascii 'f')) = true := h
  unfold hex llvm_index.hex
  by_cases hdigit : (ascii '0' ≤ byte && byte ≤ ascii '9') = true
  · rw [if_pos hdigit, if_pos hdigit]
  rw [if_neg hdigit, if_neg hdigit]
  by_cases hlower : (ascii 'a' ≤ byte && byte ≤ ascii 'f') = true
  · rw [if_pos hlower, if_pos hlower]
  rw [if_neg hlower, if_neg hlower, if_pos]
  rw [Bool.or_eq_true, Bool.or_eq_true] at hranges
  have hupper := (hranges.resolve_right hlower).resolve_left hdigit
  rw [Bool.and_eq_true, decide_eq_true_eq] at hupper
  exact hupper.1

/-- The bytes that decoding has not read yet. -/
def unread (stop : Nat) (bytes : List UInt8) (read : Nat) : List UInt8 := (bytes.take stop).drop read

theorem index_byte_unread {stop read : Nat} {bytes content : List UInt8} {byte : UInt8} (before : List UInt8)
    (h : unread stop bytes read = before ++ byte :: content) : index_byte bytes (read + before.length) = .ok byte := by
  have hget : (bytes.take stop)[read + before.length]? = some byte := by
    rw [← List.getElem?_drop]
    change (unread stop bytes read)[before.length]? = _
    rw [h]
    simp
  have hlt := (List.getElem?_eq_some_iff.mp hget).1
  rw [List.length_take] at hlt
  rw [List.getElem?_take_of_lt (by omega)] at hget
  simp [index_byte, hget]

theorem unread_move {stop read write : Nat} {bytes before content : List UInt8} (byte : UInt8) (hwrite : write < read)
    (h : unread stop bytes read = before ++ content) : unread stop (bytes.set write byte) (read + before.length) = content := by
  rw [unread, List.take_set, List.drop_set_of_lt (by omega), ← List.drop_drop]
  change (unread stop bytes read).drop _ = _
  rw [h, List.drop_left]

/-- The byte that a complete spelling starts with, and what is left to read behind it. -/
theorem decode_byte_spelled {stop read : Nat} {bytes content name : List UInt8} (hspells : Spells content name)
    (h : unread stop bytes read = content) (hne : content ≠ []) :
    decode_byte true bytes read = Token.decode_byte true bytes read ∧
      ∃ byte before rest rest_name, Token.decode_byte true bytes read = .ok (byte, read + before.length) ∧
        before ≠ [] ∧ content = before ++ rest ∧ Spells rest rest_name := by
  cases hspells with
  | nil => exact absurd rfl hne
  | @raw byte rest rest_name hquote hbackslash hlf hcr hrest =>
    have hindex : index_byte bytes read = .ok byte := index_byte_unread [] h
    have hdecode : Token.decode_byte true bytes read = .ok (byte, read + 1) := by
      simp [Token.decode_byte, hindex, hbackslash]
    refine ⟨?_, byte, [byte], rest, rest_name, hdecode, by simp, rfl, hrest⟩
    simp [decode_byte, Token.decode_byte, hindex, hbackslash]
  | @backslash rest rest_name hrest =>
    have hindex : index_byte bytes read = .ok (ascii '\\') := index_byte_unread [] h
    have hnext : index_byte bytes (read + 1) = .ok (ascii '\\') := index_byte_unread [ascii '\\'] h
    have hdecode : Token.decode_byte true bytes read = .ok (ascii '\\', read + 2) := by
      simp [Token.decode_byte, Token.decode_escape, hindex, hnext]
    refine ⟨?_, _, [ascii '\\', ascii '\\'], rest, rest_name, hdecode, by simp, rfl, hrest⟩
    simp [decode_byte, Token.decode_byte, decode_escape, Token.decode_escape, hindex, hnext]
  | @hex first second rest rest_name hfirst hsecond hrest =>
    have hindex : index_byte bytes read = .ok (ascii '\\') := index_byte_unread [] h
    have hnext : index_byte bytes (read + 1) = .ok first := index_byte_unread [ascii '\\'] h
    have hlast : index_byte bytes (read + 1 + 1) = .ok second := index_byte_unread [ascii '\\', first] h
    have hescape := hexdigit_ne hfirst (ascii '\\') (by decide)
    have hdecode : Token.decode_byte true bytes read = .ok (llvm_index.hex first <<< 4 ||| llvm_index.hex second, read + 3) := by
      simp [Token.decode_byte, Token.decode_escape, hindex, hnext, hlast, hescape]
    refine ⟨?_, _, [ascii '\\', first, second], rest, rest_name, hdecode, by simp, rfl, hrest⟩
    simp [decode_byte, Token.decode_byte, decode_escape, Token.decode_escape, hindex, hnext, hlast, hescape, hex_eq hfirst,
      hex_eq hsecond]

/-- The loop only meets complete escapes. -/
theorem decode_loop_quoted_eq {stop : Nat} (bound : Nat) : ∀ {bytes content name : List UInt8} {read write : Nat},
    Spells content name → unread stop bytes read = content → write < read →
    decode_loop true stop bound bytes read write = Token.decode_loop true stop bound bytes read write := by
  induction bound with
  | zero => intros; rfl
  | succ bound ih =>
    intro bytes content name read write hspells hunread hwrite
    rw [decode_loop, Token.decode_loop]
    by_cases hread : read < stop
    · rw [if_pos hread, if_pos hread]
      by_cases hne : content = []
      · have hindex : index_byte bytes read = .error (.panicked "index out of bounds") := by
          rw [hne, unread, List.drop_eq_nil_iff, List.length_take] at hunread
          simp [index_byte, List.getElem?_eq_none (show bytes.length ≤ read by omega)]
        simp [decode_byte, Token.decode_byte, hindex]
      · obtain ⟨hsame, byte, before, rest, rest_name, hdecode, hbefore, hsplit, hrest⟩ := decode_byte_spelled hspells hunread hne
        rw [hsame, hdecode, ok_bind, ok_bind]
        by_cases hlt : write < bytes.length
        · have hset : set_byte bytes write byte = .ok (bytes.set write byte) := if_pos hlt
          simp only [hset, ok_bind]
          have hpos := List.length_pos_iff.mpr hbefore
          exact ih hrest (unread_move byte hwrite (hunread.trans hsplit)) (by omega)
        · have hset : set_byte bytes write byte = .error (.panicked "index out of bounds") := if_neg hlt
          simp only [hset, error_bind]
    · rw [if_neg hread, if_neg hread]

theorem decode_loop_word_eq {stop : Nat} (bound : Nat) : ∀ (bytes : List UInt8) (read write : Nat),
    decode_loop false stop bound bytes read write = Token.decode_loop false stop bound bytes read write := by
  induction bound with
  | zero => intros; rfl
  | succ bound ih =>
    intro bytes read write
    rw [decode_loop, Token.decode_loop]
    simp only [decode_byte, Token.decode_byte, Bool.false_and, Bool.false_eq_true, if_false, ih]

/-- Decoding a valid token never converts anything but hex digits. -/
theorem decode_symbol_eq {token : Token} (h : token.Valid) : decode_symbol token = token.decode_symbol := by
  obtain ⟨rest, hlexeme⟩ := h
  obtain ⟨bytes, offset⟩ := token
  by_cases hat : bytes.head? = some (ascii '@')
  · obtain ⟨tail, rfl⟩ := List.head?_eq_some_iff.mp hat
    cases tail with
    | nil => simp [decode_symbol, Token.decode_symbol]
    | cons second word =>
      by_cases hquote : second = ascii '"'
      · subst hquote
        cases hlexeme with
        | word _ hbytes _ _ => exact absurd (hbytes _ List.mem_cons_self) (by decide)
        | symbol _ hbytes =>
          obtain ⟨content, name, hcontent, rfl⟩ := hbytes
          have hunread : unread (content.length + 2) (ascii '@' :: ascii '"' :: (content ++ [ascii '"'])) 2 = content := by
            simp [unread]
          have hloop := decode_loop_quoted_eq content.length hcontent hunread Nat.zero_lt_two
          simp [decode_symbol, Token.decode_symbol, index_byte]
          rewrite [hloop]
          rfl
      · simp [decode_symbol, Token.decode_symbol, index_byte, hquote]
        rewrite [decode_loop_word_eq]
        rfl
  · simp [decode_symbol, Token.decode_symbol, hat]

end checked

/-- The bytes that a stream still has. -/
def Stream.contiguous (s : Stream) : Contiguous where
  rest := (s.chunk.take s.length).drop s.position ++ s.reader.bytes
  failure := s.reader.failure
  offset := s.offset
  header_start := s.header_start

theorem Stream.Sound.refines (h : s.Sound) : Refines s.contiguous s where
  rest := rfl
  failure := rfl
  offset := rfl
  header_start := rfl
  position_le := h.position_le
  length_le := h.chunk_length ▸ h.length_le
  chunk_length := h.chunk_length
  delivers := h.delivers

/-- Tokens that a sound stream leaves are valid. -/
theorem Stream.Sound.token_valid (h : s.Sound) (hactive : s.header_start.isSome) {stop_at_newline : Bool} {token : Token}
    (hrun : (stream.read_token stop_at_newline).run s = .ok (some token, s')) : token.Valid := by
  have hspec := stream.read_token_spec (s := s.contiguous) hactive stop_at_newline
  have hmatch := Refines.simulates.run (stream.read_token stop_at_newline) _ _ h.refines
  cases hcontiguous : (stream.read_token stop_at_newline).run s.contiguous with
  | ok pair =>
    obtain ⟨value, c⟩ := pair
    rw [hcontiguous] at hmatch
    obtain ⟨t, ht, -⟩ := hmatch.resolve_left id
    rw [hrun] at ht
    cases ht
    exact ReadToken.valid (hspec.of_run_ok hcontiguous)
  | error fault =>
    cases fault with
    | stalled => exact absurd hcontiguous hspec.ne_stalled
    | error error =>
      rw [hcontiguous] at hmatch
      rw [hrun] at hmatch
      cases hmatch.resolve_left id

/-- The scan of a stream keeps it sound, since headers begin where the input has been read. -/
theorem read_global_definition_sound (h : s.Sound) : Throughout Stream.Sound (read_global_definition s.offset) s := by
  have hbegun : Stream.Sound { s with header_start := some s.offset } := by
    refine { h with budget := fun start hstart => ?_ }
    obtain rfl := Option.some.inj hstart
    exact ⟨Nat.le_refl _, Nat.le_add_right _ _⟩
  refine Throughout.bind (p := stream.begin_header s.offset) ⟨h, hbegun⟩ fun _ s1 hrun hs1 => ?_
  refine Budgets.throughout Stream.Sound.keeps ?_ hs1
  refine stream.read_required_token_calm.bind fun symbol => (stream.expect_calm _).bind fun _ => ?_
  refine read_global_kind_calm.bind fun kind => ?_
  cases kind with
  | none => exact end_header_calm.bind fun _ => .done _
  | some kind =>
    refine (decode_calm _).bind fun name => (finish_definition_calm name _ kind).bind fun definition => ?_
    exact end_header_calm.bind fun _ => .done _

theorem read_function_definition_sound {start : Nat} (h : s.Sound) (hstart : start ≤ s.offset)
    (hbudget : s.offset ≤ start + HEADER_LIMIT) : Throughout Stream.Sound (read_function_definition start) s := by
  have hbegun : Stream.Sound { s with header_start := some start } := by
    refine { h with budget := fun other hother => ?_ }
    obtain rfl := Option.some.inj hother
    exact ⟨hstart, hbudget⟩
  refine Throughout.bind (p := stream.begin_header start) ⟨h, hbegun⟩ fun _ s1 hrun hs1 => ?_
  refine Budgets.throughout Stream.Sound.keeps ?_ hs1
  refine header.read_function_calm.bind fun symbol => end_header_calm.bind fun _ => ?_
  exact stream.skip_body_calm.bind fun _ => finish_definition_calm symbol start _

/-- A keyword prefix is at most as long as the count of its bytes. -/
theorem read_prefix_bytes_moves (count : Nat) : ∀ {s : Stream} {bytes : List UInt8},
    (read_prefix_bytes count).run s = .ok (bytes, s') → s.offset ≤ s'.offset ∧ s'.offset ≤ s.offset + count := by
  induction count with
  | zero =>
    intro s bytes hrun
    cases hrun
    exact ⟨Nat.le_refl _, Nat.le_refl _⟩
  | succ count ih =>
    intro s bytes hrun
    rw [read_prefix_bytes, run_bind] at hrun
    obtain ⟨byte, s1, htake, hrun⟩ := andThen_eq_ok_iff.mp hrun
    have hoffset := (Stream.take_keeps (Stream.run_take_ok htake)).1
    cases byte with
    | none =>
      cases hrun
      simp only [Option.toList_none, List.length_nil] at hoffset
      omega
    | some byte =>
      simp only [Option.toList_some, List.length_singleton] at hoffset
      simp only [run_ite, run_bind] at hrun
      split at hrun
      · cases hrun
        omega
      · obtain ⟨rest, s2, hrest, hrun⟩ := andThen_eq_ok_iff.mp hrun
        cases hrun
        have hmoves := ih hrest
        omega

theorem starts_function_moves {keyword : List UInt8} {starts : Bool}
    (hrun : (starts_function keyword).run s = .ok (starts, s')) : s'.offset = s.offset := by
  unfold starts_function at hrun
  rw [run_ite] at hrun
  split at hrun
  · rw [run_bind] at hrun
    obtain ⟨next, s1, hpeek, hrun⟩ := andThen_eq_ok_iff.mp hrun
    cases hrun
    exact (Stream.peek_keeps (Stream.run_peek_ok hpeek)).1
  · cases hrun
    rfl

theorem scan_keyword_sound {start : Nat} (keyword : List UInt8) (h : s.Sound) (hstart : start ≤ s.offset)
    (hbudget : s.offset ≤ start + HEADER_LIMIT) : Throughout Stream.Sound (scan_keyword start keyword) s := by
  refine Throughout.bind ((starts_function_calm keyword).throughout Stream.Sound.keeps h) fun starts s1 hrun hs1 => ?_
  have hoffset := starts_function_moves hrun
  refine .ite (fun _ => ?_) fun _ => .ite (fun _ => hs1) fun _ => ?_
  · refine Throughout.bind ?_ fun definition s2 _ hs2 => hs2
    exact read_function_definition_sound hs1 (by omega) (by omega)
  · exact (stream.skip_line_calm.bind fun _ => .done _).throughout Stream.Sound.keeps hs1

theorem scan_item_sound (byte : UInt8) (h : s.Sound) : Throughout Stream.Sound (scan_item byte) s := by
  refine .ite (fun _ => (stream.take_calm.bind fun _ => .done _).throughout Stream.Sound.keeps h) fun _ => ?_
  refine Throughout.bind (stream.offset_calm.throughout Stream.Sound.keeps h) fun start s1 hrun hs1 => ?_
  cases hrun
  refine .ite (fun _ => read_global_definition_sound hs1) fun _ => .ite (fun _ => ?_) fun _ => ?_
  · refine Throughout.bind (((read_prefix_bytes_calm 6).bind fun bytes => .done _).throughout Stream.Sound.keeps hs1) ?_
    intro keyword s2 hrun hs2
    have hmoves : s.offset ≤ s2.offset ∧ s2.offset ≤ s.offset + 6 := by
      unfold read_keyword_prefix at hrun
      rw [run_bind] at hrun
      obtain ⟨bytes, s3, hbytes, hrun⟩ := andThen_eq_ok_iff.mp hrun
      cases hrun
      exact read_prefix_bytes_moves 6 hbytes
    have hlimit : 6 ≤ HEADER_LIMIT := by decide
    have hbudget : s2.offset ≤ s.offset + HEADER_LIMIT := by omega
    exact scan_keyword_sound keyword hs2 hmoves.1 hbudget
  · exact scan_keyword_sound _ hs1 (Nat.le_refl _) (Nat.le_add_right _ _)

theorem scan_sound (h : s.Sound) : Throughout Stream.Sound scan s := by
  refine Throughout.iter (I := fun _ s => s.Sound) h fun definitions s h => ?_
  have hturn : Throughout Stream.Sound (scan_turn definitions) s := by
    refine Throughout.bind (stream.peek_calm.throughout Stream.Sound.keeps h) fun byte s1 _ hs1 => ?_
    cases byte with
    | none => exact hs1
    | some byte => exact Throughout.bind (scan_item_sound byte hs1) fun definition s2 _ hs2 => hs2
  exact ⟨hturn, fun b' s' hrun => hturn.final hrun⟩

/-- The bounds of the chunk, of the offset and of an active header. -/
structure Stream.Bounded (s : Stream) : Prop where
  position_le : s.position ≤ s.length
  length_le : s.length ≤ CHUNK_SIZE
  offset_lt : s.offset < UInt64.size
  budget : ∀ start ∈ s.header_start, start ≤ s.offset ∧ s.offset ≤ start + HEADER_LIMIT

/-- From here on, the checks of every overflow, buffer and digit change nothing: not for a
token, its symbol or a group of a header, not for a body behind its brace, and not for the
definition that an item which starts here may be. -/
structure Stream.Unfailing (s : Stream) : Prop where
  token : s.header_start.isSome → ∀ stop_at_newline,
    (checked.read_token stop_at_newline).run s = (stream.read_token stop_at_newline).run s
  symbol : s.header_start.isSome → ∀ stop_at_newline token s',
    (stream.read_token stop_at_newline).run s = .ok (some token, s') →
      checked.decode_symbol token = token.decode_symbol
  group : (∃ start ∈ s.header_start, start < s.offset) → ∀ opening,
    (checked.consume_group opening).run s = (stream.consume_group opening).run s
  body : 0 < s.offset → checked.skip_body.run s = stream.skip_body.run s
  definition : ∀ byte, Throughout (fun s' => ∀ symbol kind,
    (checked.finish_definition symbol s.offset kind).run s' = (finish_definition symbol s.offset kind).run s')
    (scan_item byte) s

theorem Stream.Sound.bounded (h : s.Sound) : s.Bounded := ⟨h.position_le, h.length_le, h.offset_lt, h.budget⟩

theorem Stream.Sound.unfailing (h : s.Sound) : s.Unfailing where
  token hactive stop_at_newline := (checked.read_token_alike (Buffered.of_active h hactive) stop_at_newline).1
  symbol hactive stop_at_newline token s' hrun := checked.decode_symbol_eq (h.token_valid hactive hrun)
  group hstart opening := by
    obtain ⟨start, hstart, hlt⟩ := hstart
    exact (checked.consume_group_alike ⟨h, start, hstart, hlt⟩ opening).1
  body hpos := (checked.skip_body_alike h hpos).1
  definition byte := by
    have hmoves := (Budgets.all (scan_item byte)).throughout (Stream.keeps_offset s.offset) (Nat.le_refl _)
    exact hmoves.mono fun s' hle symbol kind => checked.finish_definition_run hle symbol kind

/-- The index returns definitions or an error that is no panic, and keeps every bound and
passes every check on the way. -/
theorem index_unfailing {reader : Reader} (hreader : reader.Delivers) :
    ((∃ definitions, index reader = .ok definitions) ∨ ∃ error, index reader = .error (.error error) ∧ error.Reported) ∧
    Throughout (fun s => s.Bounded ∧ s.Unfailing) scan (Stream.new reader) := by
  constructor
  · have hspec := scan_spec (s := { rest := reader.bytes, failure := reader.failure }) [] rfl zero_lt_u64
    rw [index_eq_contiguous hreader]
    unfold index_contiguous
    change (∃ definitions, Except.map _ ((Scan.iter scan_turn []).run _) = _) ∨ _
    cases hrun : (Scan.iter scan_turn []).run ({ rest := reader.bytes, failure := reader.failure } : Contiguous) with
    | ok pair => exact .inl ⟨pair.1, rfl⟩
    | error fault =>
      cases fault with
      | stalled => exact absurd hrun hspec.ne_stalled
      | error error =>
        refine .inr ⟨error, ?_, hspec.of_run_error hrun⟩
        change Except.map _ ((Scan.iter scan_turn []).run _) = _
        rw [hrun]
        rfl
  · exact (scan_sound (Stream.Sound.new hreader)).mono fun s h => ⟨h.bounded, h.unfailing⟩

theorem index_unfailing_short_reads :
    Throughout (fun s => s.Bounded ∧ s.Unfailing) scan
      (Stream.new [.data (text "@a = al"), .error ⟨.Interrupted, "interrupted"⟩, .data (text "ias i8, ptr @b")]) :=
  (index_unfailing (by simp [Reader.Delivers]; decide)).2

end optic.llvm_index
