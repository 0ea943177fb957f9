import Optic.ByteScan.Coupling
import Optic.LlvmIndex.Reader

open byte_scan rust optic.records

namespace optic.llvm_index

/-- The same failure `k` bytes further on. No reader failed. -/
inductive ShiftedError (k : Nat) : Error → Error → Prop where
  | invalid (offset : Nat) (message : String) :
      ShiftedError k (.invalid offset message) (.invalid (offset + k) message)
  | panicked (message : String) : ShiftedError k (.panicked message) (.panicked message)

def Token.shift (k : Nat) (token : Token) : Token := { token with offset := token.offset + k }

@[simp] theorem Token.shift_bytes (k : Nat) (token : Token) : (token.shift k).bytes = token.bytes := rfl

/-- The same value, or the same failure `k` bytes further on. -/
def ShiftedResult {α : Type} (k : Nat) : Except Error α → Except Error α → Prop
  | .ok value, result => result = .ok value
  | .error error, result => ∃ error', result = .error error' ∧ ShiftedError k error error'

namespace ShiftedResult

variable {α β : Type} {k : Nat}

theorem bind {first first' : Except Error α} {next next' : α → Except Error β}
    (h : ShiftedResult k first first') (hnext : ∀ value, ShiftedResult k (next value) (next' value)) :
    ShiftedResult k (first >>= next) (first' >>= next') := by
  cases first with
  | ok value =>
    obtain rfl := h
    exact hnext value
  | error error =>
    obtain ⟨error', rfl, herror⟩ := h
    exact ⟨error', rfl, herror⟩

theorem ite {c : Prop} [Decidable c] {x x' y y' : Except Error α} (hx : ShiftedResult k x x')
    (hy : ShiftedResult k y y') : ShiftedResult k (if c then x else y) (if c then x' else y') := by
  split <;> assumption

theorem index_byte (bytes : List UInt8) (index : Nat) :
    ShiftedResult k (index_byte bytes index) (index_byte bytes index) := by
  unfold llvm_index.index_byte
  split
  · rfl
  · exact ⟨_, rfl, .panicked _⟩

theorem set_byte (bytes : List UInt8) (index : Nat) (byte : UInt8) :
    ShiftedResult k (set_byte bytes index byte) (set_byte bytes index byte) := by
  unfold llvm_index.set_byte
  exact ite rfl ⟨_, rfl, .panicked _⟩

theorem decode_byte (quoted : Bool) (bytes : List UInt8) (read : Nat) :
    ShiftedResult k (Token.decode_byte quoted bytes read) (Token.decode_byte quoted bytes read) := by
  refine (index_byte bytes read).bind fun byte => ite ?_ rfl
  refine (index_byte bytes _).bind fun first => ite rfl ?_
  exact (index_byte bytes _).bind fun _ => rfl

theorem decode_loop (quoted : Bool) (stop bound : Nat) : ∀ (bytes : List UInt8) (read write : Nat),
    ShiftedResult k (Token.decode_loop quoted stop bound bytes read write)
      (Token.decode_loop quoted stop bound bytes read write) := by
  induction bound with
  | zero => exact fun _ _ _ => rfl
  | succ bound ih =>
    intro bytes read write
    refine ite ?_ rfl
    exact (decode_byte quoted bytes read).bind fun _ => (set_byte bytes write _).bind fun _ => ih _ _ _

end ShiftedResult

/-- Only the errors of a decoded token depend on where it stands. -/
theorem Token.decode_symbol_shift (k : Nat) (token : Token) :
    ShiftedResult k token.decode_symbol (token.shift k).decode_symbol := by
  have invalid (message : String) : ShiftedResult k (.error (.invalid token.offset message) : Except Error String)
      (.error (.invalid (token.shift k).offset message)) := ⟨_, rfl, .invalid _ _⟩
  unfold Token.decode_symbol
  refine ShiftedResult.ite (invalid _) ((ShiftedResult.index_byte _ _).bind fun second => ?_)
  refine ShiftedResult.ite (invalid _) ((ShiftedResult.decode_loop _ _ _ _ _ _).bind fun result => ?_)
  obtain ⟨bytes, write⟩ := result
  dsimp only
  split
  · exact rfl
  · exact invalid _

/-- The same complete input `k` bytes further on, with room there for what is left of it.
Both are at or behind `lower`, counted from the first. -/
structure Shifted (k lower : Nat) (s t : Contiguous) : Prop where
  rest : t.rest = s.rest
  failure : s.failure = none ∧ t.failure = none
  offset : t.offset = s.offset + k
  header_start : t.header_start = s.header_start.map (· + k)
  lower_le : lower ≤ s.offset
  fits : k = 0 ∨ s.offset + s.rest.length + k < UInt64.size

theorem Shifted.lower {k lower lower' : Nat} {s t : Contiguous} (h : Shifted k lower s t) (hle : lower' ≤ lower) :
    Shifted k lower' s t := { h with lower_le := Nat.le_trans hle h.lower_le }

theorem Shifted.look {k lower : Nat} {s t : Contiguous} (h : Shifted k lower s t) :
    Shifted k lower s.look t.look := { h with }

/-- Programs that do the same at an input and `k` bytes further on. -/
abbrev Shifts {α β : Type} (k lower lower' : Nat) (V : α → β → Prop) (p : Program α) (q : Program β) : Prop :=
  Coupled (Shifted k lower) (Shifted k lower') (ShiftedError k) V p q

theorem Shifts.lower {α β : Type} {k lower lower' low low' : Nat} {V : α → β → Prop} {p : Program α}
    {q : Program β} (h : Shifts k lower lower' V p q) (hlow : lower ≤ low) (hlow' : low' ≤ lower') :
    Shifts k low low' V p q :=
  h.weaken (fun _ _ h => h.lower hlow) fun _ _ h => h.lower hlow'

theorem charge_shift {offset k : Nat} (header_start : Option Nat) (hfits : k = 0 ∨ offset + 1 + k < UInt64.size) :
    charge offset header_start = .ok (offset + 1) ∧
        charge (offset + k) (header_start.map (· + k)) = .ok (offset + 1 + k) ∨
      ∃ message, charge offset header_start = .error (.invalid offset message) ∧
        charge (offset + k) (header_start.map (· + k)) = .error (.invalid (offset + k) message) := by
  have hany : (header_start.map (· + k)).any (fun start => offset + k - start = HEADER_LIMIT) =
      header_start.any (fun start => offset - start = HEADER_LIMIT) := by
    cases header_start with
    | none => rfl
    | some start => simp [Nat.add_sub_add_right]
  unfold charge
  rw [hany, Nat.add_right_comm offset k 1]
  split
  · exact Or.inr ⟨_, rfl, rfl⟩
  · by_cases hbound : offset + 1 < UInt64.size
    · rw [if_pos hbound, if_pos (show offset + 1 + k < UInt64.size by omega)]
      exact Or.inl ⟨rfl, rfl⟩
    · rw [if_neg hbound, if_neg (show ¬ offset + 1 + k < UInt64.size by omega)]
      exact Or.inr ⟨_, rfl, rfl⟩

namespace stream

variable {k lower : Nat} {α β γ : Type}

theorem peek_shifts : Shifts k lower lower Eq peek peek := by
  intro s t h
  rw [run_peek, run_peek]
  unfold Contiguous.peek
  rw [h.rest, h.failure.1, h.failure.2]
  cases s.rest with
  | cons byte rest => exact ⟨_, _, rfl, rfl, h.look⟩
  | nil => exact ⟨_, _, rfl, rfl, h.look⟩

/-- What a program does behind a taken byte may rely on the byte. -/
theorem take_bind {V : α → β → Prop} {f : Option UInt8 → Program α} {g : Option UInt8 → Program β}
    {lower' : Nat} (hnone : Shifts k lower lower' V (f none) (g none))
    (hsome : ∀ byte, Shifts k (lower + 1) lower' V (f (some byte)) (g (some byte))) :
    Shifts k lower lower' V (take >>= f) (take >>= g) := by
  intro s t h
  rw [run_bind, run_bind, run_take, run_take]
  unfold Contiguous.take
  rw [h.rest, h.failure.1, h.failure.2]
  cases hrest : s.rest with
  | cons byte rest =>
    have hfits := h.fits
    rw [hrest, List.length_cons] at hfits
    have hlower := h.lower_le
    simp only [h.offset, h.header_start]
    obtain ⟨hcharge, hcharge'⟩ | ⟨message, hcharge, hcharge'⟩ :=
      charge_shift s.header_start (show k = 0 ∨ s.offset + 1 + k < UInt64.size by omega)
    · rw [hcharge, hcharge']
      exact hsome byte _ _ ⟨rfl, ⟨rfl, rfl⟩, rfl, rfl, by simp only; omega, by simp only; omega⟩
    · rw [hcharge, hcharge']
      exact ⟨_, rfl, .invalid _ _⟩
  | nil => exact hnone _ _ h.look

theorem take_shifts : Shifts k lower lower Eq take take := by
  refine (take_bind (Coupled.done rfl) fun byte => ?_ : Shifts k lower lower Eq (take >>= .done) (take >>= .done))
  exact Shifts.lower (Coupled.done rfl) (Nat.le_refl _) (Nat.le_succ _)

theorem offset_shifts : Shifts k lower lower (fun offset offset' => offset' = offset + k) offset offset :=
  fun _ _ h => ⟨_, _, rfl, h.offset, h⟩

/-- An offset that a program remembers stays behind it. -/
theorem offset_bind {V : α → β → Prop} {f : Nat → Program α} {g : Nat → Program β}
    (h : ∀ start, Shifts k start start V (f start) (g (start + k))) :
    Shifts k lower lower V (offset >>= f) (offset >>= g) := by
  intro s t hst
  have hshifts := Shifts.lower (h s.offset) (Nat.le_refl _) hst.lower_le
  have hruns := hshifts s t { hst with lower_le := Nat.le_refl _ }
  rw [← hst.offset] at hruns
  exact hruns

theorem header_active_shifts : Shifts k lower lower Eq header_active header_active := by
  intro s t h
  refine ⟨_, _, rfl, ?_, h⟩
  have hstart := congrArg Option.isSome h.header_start
  rw [Option.isSome_map] at hstart
  exact hstart.symm

theorem begin_header_shifts (start : Nat) :
    Shifts k lower lower Eq (begin_header start) (begin_header (start + k)) :=
  fun _ _ h => ⟨(), _, rfl, rfl, { h with header_start := rfl }⟩

theorem end_header_shifts : Shifts k lower lower Eq end_header end_header :=
  fun _ _ h => ⟨(), _, rfl, rfl, { h with header_start := rfl }⟩

theorem invalid_shifts {V : α → β → Prop} {lower' offset : Nat} {message : String} :
    Shifts k lower lower' V (invalid offset message) (invalid (offset + k) message) := Coupled.fail (.invalid _ _)

theorem panicked_shifts {V : α → β → Prop} {lower' : Nat} {message : String} :
    Shifts k lower lower' V (panicked message) (panicked message) := Coupled.fail (.panicked _)

/-- An error at the current offset. -/
theorem invalid_here {V : α → β → Prop} {lower' : Nat} {message : String} :
    Shifts k lower lower' V (do invalid (← offset) message) (do invalid (← offset) message) :=
  offset_shifts.bind fun _ _ h => h ▸ invalid_shifts

/-- An error at the byte that was just taken. -/
theorem invalid_behind {V : α → β → Prop} {lower' : Nat} {message : String} :
    Shifts k (lower + 1) lower' V (do invalid ((← offset) - 1) message) (do invalid ((← offset) - 1) message) := by
  intro s t h
  refine ⟨_, rfl, ?_⟩
  have hlower := h.lower_le
  change ShiftedError k (.invalid (s.offset - 1) message) (.invalid (t.offset - 1) message)
  rw [h.offset, show s.offset + k - 1 = s.offset - 1 + k by omega]
  exact .invalid _ _

/-- Loop bodies that shift, for loops whose states agree. -/
theorem iter_shifts {W : β → γ → Prop} {α' : Type} {V : α → α' → Prop} {body : β → Program (β ⊕ α)}
    {body' : γ → Program (γ ⊕ α')} {init : β} {init' : γ}
    (hbody : ∀ b b', W b b' → Shifts k lower lower (Sum.LiftRel W V) (body b) (body' b')) (hinit : W init init') :
    Shifts k lower lower V (Scan.iter body init) (Scan.iter body' init') :=
  Coupled.iter (fun _ _ h => congrArg List.length h.rest) hbody hinit

theorem again_shifts {α' : Type} {W : β → γ → Prop} {V : α → α' → Prop} {b : β} {b' : γ} (h : W b b') :
    Shifts k lower lower (Sum.LiftRel W V) (.again b) (.again b') := Coupled.done (.inl h)

theorem stop_shifts {α' : Type} {W : β → γ → Prop} {V : α → α' → Prop} {a : α} {a' : α'} (h : V a a') :
    Shifts k lower lower (Sum.LiftRel W V) (.stop a) (.stop a') := Coupled.done (.inr h)

theorem skip_line_shifts : Shifts k lower lower Eq skip_line skip_line := by
  refine iter_shifts (W := Eq) (fun _ _ _ => take_bind ?_ fun byte => ?_) rfl
  · exact stop_shifts rfl
  · refine Shifts.lower (Coupled.ite Iff.rfl (fun _ => ?_) fun _ => ?_) (Nat.le_refl _) (Nat.le_succ _)
    · exact stop_shifts rfl
    · exact again_shifts rfl

theorem take_expected_shifts (message : String) :
    Shifts k lower lower Eq (take_expected message) (take_expected message) := by
  refine take_shifts.bind ?_
  rintro byte _ rfl
  cases byte with
  | none => exact panicked_shifts
  | some byte => exact Coupled.pure rfl

theorem digit_shifts (bytes : List UInt8) :
    Shifts k lower lower Eq (complete_quoted_escape.digit bytes) (complete_quoted_escape.digit bytes) := by
  refine take_bind invalid_here fun digit => Coupled.ite Iff.rfl (fun _ => ?_) fun _ => invalid_behind
  exact Shifts.lower (Coupled.pure rfl) (Nat.le_refl _) (Nat.le_succ _)

theorem complete_quoted_escape_shifts (bytes : List UInt8) :
    Shifts k lower lower Eq (complete_quoted_escape bytes) (complete_quoted_escape bytes) := by
  refine peek_shifts.bind ?_
  rintro byte _ rfl
  refine Coupled.ite Iff.rfl (fun _ => ?_) fun _ => ?_
  · refine (take_expected_shifts _).bind ?_
    rintro byte _ rfl
    exact Coupled.pure rfl
  · refine (digit_shifts bytes).bind ?_
    rintro bytes _ rfl
    exact digit_shifts bytes

theorem complete_quoted_token_shifts (bytes : List UInt8) :
    Shifts k lower lower Eq (complete_quoted_token bytes) (complete_quoted_token bytes) := by
  refine iter_shifts (W := Eq) ?_ rfl
  rintro bytes _ rfl
  refine take_bind invalid_here fun byte => ?_
  refine Coupled.ite Iff.rfl (fun _ => ?_) fun _ => Coupled.ite Iff.rfl (fun _ => invalid_behind) fun _ => ?_
  · exact Shifts.lower (stop_shifts rfl) (Nat.le_refl _) (Nat.le_succ _)
  refine Shifts.lower (Coupled.ite Iff.rfl (fun _ => ?_) fun _ => ?_) (Nat.le_refl _) (Nat.le_succ _)
  · refine (complete_quoted_escape_shifts _).bind ?_
    rintro bytes _ rfl
    exact again_shifts rfl
  · exact again_shifts rfl

theorem complete_word_shifts (bytes : List UInt8) :
    Shifts k lower lower Eq (complete_word bytes) (complete_word bytes) := by
  refine iter_shifts (W := Eq) ?_ rfl
  rintro bytes _ rfl
  refine peek_shifts.bind ?_
  rintro byte _ rfl
  cases byte with
  | none => exact stop_shifts rfl
  | some byte =>
    refine Coupled.ite Iff.rfl (fun _ => ?_) fun _ => stop_shifts rfl
    refine (take_expected_shifts _).bind ?_
    rintro taken _ rfl
    exact again_shifts rfl

theorem opens_quote_shifts (first : UInt8) : Shifts k lower lower Eq (opens_quote first) (opens_quote first) := by
  refine Coupled.ite Iff.rfl (fun _ => ?_) fun _ => Coupled.pure rfl
  refine peek_shifts.bind ?_
  rintro next _ rfl
  exact Coupled.pure rfl

theorem complete_token_shifts (first : UInt8) :
    Shifts k lower lower Eq (complete_token first) (complete_token first) := by
  refine Coupled.ite Iff.rfl (fun _ => complete_quoted_token_shifts _) fun _ => ?_
  refine (opens_quote_shifts first).bind ?_
  rintro quoted _ rfl
  refine Coupled.ite Iff.rfl (fun _ => ?_) fun _ => ?_
  · refine (take_expected_shifts _).bind ?_
    rintro quote _ rfl
    exact complete_quoted_token_shifts _
  · exact Coupled.ite Iff.rfl (fun _ => Coupled.pure rfl) fun _ => complete_word_shifts _

theorem skip_blank_shifts (stop : Bool) : Shifts k lower lower Eq (skip_blank stop) (skip_blank stop) := by
  refine iter_shifts (W := Eq) (fun _ _ _ => peek_shifts.bind ?_) rfl
  rintro byte _ rfl
  cases byte with
  | none => exact stop_shifts rfl
  | some byte =>
    refine Coupled.ite Iff.rfl (fun _ => ?_) fun _ => Coupled.ite Iff.rfl (fun _ => ?_) fun _ => stop_shifts rfl
    · refine skip_line_shifts.bind fun _ _ _ => ?_
      exact Coupled.ite Iff.rfl (fun _ => stop_shifts rfl) fun _ => again_shifts rfl
    · refine take_shifts.bind fun _ _ _ => ?_
      exact Coupled.ite Iff.rfl (fun _ => stop_shifts rfl) fun _ => again_shifts rfl

theorem read_token_shifts (stop : Bool) :
    Shifts k lower lower (fun token token' => token' = token.map (Token.shift k)) (read_token stop)
      (read_token stop) := by
  refine header_active_shifts.bind ?_
  rintro active _ rfl
  refine Coupled.ite Iff.rfl (fun _ => ?_) fun _ => panicked_shifts
  refine (skip_blank_shifts stop).bind ?_
  rintro ended _ rfl
  refine Coupled.ite Iff.rfl (fun _ => Coupled.pure rfl) fun _ => ?_
  refine offset_shifts.bind ?_
  rintro offset _ rfl
  refine take_shifts.bind ?_
  rintro first _ rfl
  cases first with
  | none => exact Coupled.pure rfl
  | some first =>
    refine (complete_token_shifts first).bind ?_
    rintro bytes _ rfl
    exact Coupled.pure rfl

theorem read_required_token_shifts :
    Shifts k lower lower (fun token token' => token' = token.shift k) read_required_token
      read_required_token := by
  refine (read_token_shifts false).bind ?_
  rintro token _ rfl
  cases token with
  | none => exact invalid_here
  | some token => exact Coupled.pure rfl

theorem expect_shifts (expected : String) : Shifts k lower lower Eq (expect expected) (expect expected) := by
  refine read_required_token_shifts.bind ?_
  rintro token _ rfl
  exact Coupled.ite Iff.rfl (fun _ => Coupled.pure rfl) fun _ => invalid_shifts

theorem group_turn_shifts (closing : List UInt8) :
    Shifts k lower lower (Sum.LiftRel Eq Eq) (group_turn closing) (group_turn closing) := by
  cases closing with
  | nil => exact stop_shifts rfl
  | cons expected outer =>
    refine read_required_token_shifts.bind ?_
    rintro token _ rfl
    simp only [Token.shift_bytes]
    split
    · split
      · exact again_shifts rfl
      · refine Coupled.ite Iff.rfl (fun _ => again_shifts rfl) fun _ => ?_
        exact Coupled.ite Iff.rfl (fun _ => invalid_shifts) fun _ => again_shifts rfl
    · exact again_shifts rfl

theorem consume_group_shifts (opening : UInt8) :
    Shifts k lower lower Eq (consume_group opening) (consume_group opening) := by
  unfold consume_group
  split
  · refine iter_shifts (W := Eq) ?_ rfl
    rintro closing _ rfl
    exact group_turn_shifts closing
  · exact panicked_shifts

theorem body_turn_shifts (state : BodyState) :
    Shifts k lower lower (Sum.LiftRel Eq Eq) (body_turn state) (body_turn state) := by
  have again (state : BodyState) : Shifts k (lower + 1) lower (Sum.LiftRel Eq Eq)
      (.again state : Program (BodyState ⊕ Unit)) (.again state) :=
    Shifts.lower (again_shifts rfl) (Nat.le_refl _) (Nat.le_succ _)
  refine take_bind invalid_here fun byte => ?_
  refine Coupled.ite Iff.rfl (fun _ => again _) fun _ => ?_
  refine Coupled.ite Iff.rfl (fun _ => again _) fun _ => ?_
  refine Coupled.ite Iff.rfl (fun _ => invalid_behind) fun _ => ?_
  refine Coupled.ite Iff.rfl (fun _ => again _) fun _ => ?_
  refine Coupled.ite Iff.rfl (fun _ => invalid_behind) fun _ => ?_
  refine Coupled.ite Iff.rfl (fun _ => again _) fun _ => ?_
  refine Coupled.ite Iff.rfl (fun _ => again _) fun _ => ?_
  refine Coupled.ite Iff.rfl (fun _ => again _) fun _ => ?_
  refine Coupled.ite Iff.rfl (fun _ => again _) fun _ => ?_
  refine Coupled.ite Iff.rfl (fun _ => again _) fun _ => ?_
  refine Coupled.ite Iff.rfl (fun _ => again _) fun _ => ?_
  refine Coupled.ite Iff.rfl (fun _ => ?_) fun _ => again _
  refine Coupled.ite Iff.rfl (fun _ => ?_) fun _ => again _
  exact Shifts.lower (stop_shifts rfl) (Nat.le_refl _) (Nat.le_succ _)

theorem skip_body_shifts : Shifts k lower lower Eq skip_body skip_body := by
  refine iter_shifts (W := Eq) ?_ rfl
  rintro state _ rfl
  exact body_turn_shifts state

end stream

end optic.llvm_index
