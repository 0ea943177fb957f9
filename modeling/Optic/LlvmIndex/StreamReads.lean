import Optic.LlvmIndex.Consumed

open byte_scan rust optic.records

namespace optic.llvm_index

/-- The bytes `q` lie ahead in a complete input, with `r` behind them, and no bound of the
input or of the header is in the way of consuming them. `active` tells whether there is a
header. -/
structure Ready (active : Bool) (s : Contiguous) (q r : List UInt8) : Prop where
  rest : s.rest = q ++ r
  complete : s.failure = none
  active : s.header_start.isSome = active
  fits : s.offset + q.length < UInt64.size
  budget : ∀ start ∈ s.header_start, start ≤ s.offset ∧ s.offset + q.length ≤ start + HEADER_LIMIT

/-- A program returns `v` and consumes exactly `q`. -/
def Reads {α : Type} (p : Program α) (s : Contiguous) (q : List UInt8) (v : α) : Prop :=
  ∃ s', p.run s = .ok (v, s') ∧ Consumed s q s'

variable {active : Bool} {s s' : Contiguous} {q q' r : List UInt8}

namespace Ready

theorem first (h : Ready active s (q ++ q') r) : Ready active s q (q' ++ r) where
  rest := by rw [h.rest, List.append_assoc]
  complete := h.complete
  active := h.active
  fits := by
    have hfits := h.fits
    rw [List.length_append] at hfits
    omega
  budget start hstart := by
    have hbudget := h.budget start hstart
    rw [List.length_append] at hbudget
    omega

theorem behind (h : Ready active s (q ++ q') r) (hq : Consumed s q s') : Ready active s' q' r where
  rest := hq.rest_eq (by rw [h.rest, List.append_assoc])
  complete := hq.failure.trans h.complete
  active := by rw [hq.header_start, h.active]
  fits := by
    have hfits := h.fits
    rw [List.length_append] at hfits
    rw [hq.offset]
    omega
  budget start hstart := by
    rw [hq.header_start] at hstart
    have hbudget := h.budget start hstart
    rw [List.length_append] at hbudget
    rw [hq.offset]
    omega

theorem look (h : Ready active s q r) : Ready active s.look q r := { h with }

end Ready

namespace Reads

variable {α β γ : Type}

theorem pure {a : α} : Reads (Pure.pure a) s [] a := ⟨s, rfl, Consumed.refl s⟩

theorem done {a : α} : Reads (.done a) s [] a := ⟨s, rfl, Consumed.refl s⟩

theorem bind {p : Program α} {f : α → Program β} {a : α} {b : β} (h : Ready active s (q ++ q') r)
    (hp : Reads p s q a) (hf : ∀ s', Ready active s' q' r → Reads (f a) s' q' b) :
    Reads (p >>= f) s (q ++ q') b := by
  obtain ⟨s1, hrun, hq⟩ := hp
  obtain ⟨s2, hrun', hq'⟩ := hf s1 (h.behind hq)
  exact ⟨s2, by rw [run_bind, hrun, andThen_ok, hrun'], hq.trans hq'⟩

/-- A first step that consumes nothing. -/
theorem bind_nil {p : Program α} {f : α → Program β} {a : α} {b : β} (h : Ready active s q r)
    (hp : Reads p s [] a) (hf : ∀ s', Ready active s' q r → Reads (f a) s' q b) : Reads (p >>= f) s q b :=
  bind (q := []) h hp hf

/-- A last step that consumes nothing. -/
theorem bind_last {p : Program α} {f : α → Program β} {a : α} {b : β} (hp : Reads p s q a)
    (hf : ∀ s', Reads (f a) s' [] b) : Reads (p >>= f) s q b := by
  obtain ⟨s1, hrun, hq⟩ := hp
  obtain ⟨s2, hrun', hq'⟩ := hf s1
  exact ⟨s2, by rw [run_bind, hrun, andThen_ok, hrun'], by simpa using hq.trans hq'⟩

theorem ite_pos {c : Prop} [Decidable c] {p p' : Program α} {a : α} (hc : c) (h : Reads p s q a) :
    Reads (if c then p else p') s q a := by rwa [if_pos hc]

theorem ite_neg {c : Prop} [Decidable c] {p p' : Program α} {a : α} (hc : ¬ c) (h : Reads p' s q a) :
    Reads (if c then p else p') s q a := by rwa [if_neg hc]

theorem stop {body : β → Program (β ⊕ γ)} {b : β} {c : γ} (h : Reads (body b) s q (.inr c)) :
    Reads (Scan.iter body b) s q c := by
  obtain ⟨s', hrun, hq⟩ := h
  exact ⟨s', by rw [run_iter_unfold, hrun, andThen_ok], hq⟩

theorem again {body : β → Program (β ⊕ γ)} {b : β} {c : γ} (q : List UInt8) (b' : β)
    (h : Ready active s (q ++ q') r) (hq : q ≠ []) (hturn : Reads (body b) s q (.inl b'))
    (hloop : ∀ s', Ready active s' q' r → Reads (Scan.iter body b') s' q' c) :
    Reads (Scan.iter body b) s (q ++ q') c := by
  obtain ⟨s1, hrun, hs1⟩ := hturn
  obtain ⟨s2, hrun', hs2⟩ := hloop s1 (h.behind hs1)
  refine ⟨s2, ?_, hs1.trans hs2⟩
  rw [run_iter_unfold, hrun, andThen_ok]
  simp only [if_pos (hs1.remaining_lt hq), hrun']

end Reads

namespace stream

theorem charge_ready {byte : UInt8} (h : Ready active s [byte] r) :
    charge s.offset s.header_start = .ok (s.offset + 1) := by
  have hfits := h.fits
  have hbudget := h.budget
  unfold charge
  rw [if_neg, if_pos (show s.offset + 1 < UInt64.size from hfits)]
  cases hstart : s.header_start with
  | none => simp
  | some start =>
    have hroom := hbudget start hstart
    simp only [List.length_singleton] at hroom
    simp only [Option.any_some, decide_eq_true_eq]
    omega

theorem take_reads {byte : UInt8} (h : Ready active s [byte] r) : Reads take s [byte] (some byte) := by
  have hrest : s.rest = byte :: r := h.rest
  refine ⟨_, by rw [run_take, Contiguous.take, hrest]; simp only [charge_ready h]; rfl, ?_⟩
  exact ⟨hrest, rfl, rfl, rfl, fun _ => h.fits⟩

theorem peek_reads (h : Ready active s q r) : Reads peek s [] (q ++ r).head? := by
  refine ⟨s.look, ?_, Consumed.look s⟩
  rw [run_peek, Contiguous.peek, h.rest, h.complete]
  cases q ++ r <;> rfl

theorem offset_reads : Reads offset s [] s.offset := ⟨s, rfl, Consumed.refl s⟩

/-- A line is skipped through its newline. -/
theorem skip_line_reads (line : List UInt8) (hline : ascii '\n' ∉ line) :
    ∀ {s : Contiguous}, Ready active s (line ++ [ascii '\n']) r → Reads skip_line s (line ++ [ascii '\n']) () := by
  induction line with
  | nil =>
    intro s h
    exact Reads.stop (Reads.bind_last (take_reads h) fun s' => Reads.ite_pos rfl Reads.done)
  | cons byte line ih =>
    intro s h
    have hne : byte ≠ ascii '\n' := fun heq => hline (heq ▸ List.mem_cons_self)
    refine Reads.again [byte] () h (by simp) ?_ fun s' h' => ih (List.not_mem_of_not_mem_cons hline) h'
    exact Reads.bind_last (take_reads (h.first (q := [byte]))) fun s' => Reads.ite_neg hne Reads.done

theorem take_expected_reads {byte : UInt8} (h : Ready active s [byte] r) (message : String) :
    Reads (take_expected message) s [byte] byte :=
  Reads.bind_last (take_reads h) fun _ => Reads.pure

theorem digit_reads {digit : UInt8} (h : Ready active s [digit] r) (hdigit : is_ascii_hexdigit digit)
    (bytes : List UInt8) : Reads (complete_quoted_escape.digit bytes) s [digit] (bytes ++ [digit]) :=
  Reads.bind_last (take_reads h) fun _ => Reads.ite_pos hdigit Reads.pure

theorem escape_backslash_reads (h : Ready active s [ascii '\\'] r) (bytes : List UInt8) :
    Reads (complete_quoted_escape bytes) s [ascii '\\'] (bytes ++ [ascii '\\']) := by
  refine Reads.bind_nil h (peek_reads h) fun s1 h1 => Reads.ite_pos rfl ?_
  exact Reads.bind_last (take_expected_reads h1 _) fun _ => Reads.pure

theorem escape_hex_reads {first second : UInt8} (h : Ready active s [first, second] r)
    (hfirst : is_ascii_hexdigit first) (hsecond : is_ascii_hexdigit second) (bytes : List UInt8) :
    Reads (complete_quoted_escape bytes) s [first, second] (bytes ++ [first, second]) := by
  have hne := hexdigit_ne hfirst (ascii '\\') (by decide)
  refine Reads.bind_nil h (peek_reads h) fun s1 h1 => Reads.ite_neg (by simpa using hne) ?_
  refine Reads.bind (q := [first]) h1 (digit_reads h1.first hfirst bytes) fun s2 h2 => ?_
  simpa using digit_reads h2 hsecond (bytes ++ [first])

/-- A quote is read through its closing byte. -/
theorem complete_quoted_token_reads {content name : List UInt8} (hcontent : Spells content name) :
    ∀ {s : Contiguous} (bytes : List UInt8), Ready active s (content ++ [ascii '"']) r →
      Reads (complete_quoted_token bytes) s (content ++ [ascii '"']) (bytes ++ content ++ [ascii '"']) := by
  induction hcontent with
  | nil =>
    intro s bytes h
    rw [List.append_nil]
    exact Reads.stop (Reads.bind_last (take_reads h) fun s' => Reads.ite_pos rfl Reads.done)
  | @raw byte content name hquote hbackslash hlf hcr hcontent ih =>
    intro s bytes h
    rw [List.append_cons bytes byte content]
    refine Reads.again [byte] (bytes ++ [byte]) h (by simp) ?_ fun s' h' => ih (bytes ++ [byte]) h'
    refine Reads.bind_last (take_reads (h.first (q := [byte]))) fun s' => ?_
    exact Reads.ite_neg hquote (Reads.ite_neg (by simp [hlf, hcr]) (Reads.ite_neg hbackslash Reads.done))
  | @backslash content name hcontent ih =>
    intro s bytes h
    rw [List.append_cons bytes, List.append_cons (bytes ++ _)]
    refine Reads.again [ascii '\\', ascii '\\'] (bytes ++ [ascii '\\'] ++ [ascii '\\']) h (by simp) ?_
      fun s' h' => ih _ h'
    have h1 := h.first (q := [ascii '\\', ascii '\\'])
    refine Reads.bind (q := [ascii '\\']) h1 (take_reads (h1.first (q := [ascii '\\']))) fun s' h' => ?_
    refine Reads.ite_neg (by decide) (Reads.ite_neg (by decide) (Reads.ite_pos rfl ?_))
    exact Reads.bind_last (escape_backslash_reads h' _) fun _ => Reads.done
  | @hex first second content name hfirst hsecond hcontent ih =>
    intro s bytes h
    rw [show bytes ++ ascii '\\' :: first :: second :: content = bytes ++ [ascii '\\'] ++ [first, second] ++ content by simp]
    refine Reads.again [ascii '\\', first, second] (bytes ++ [ascii '\\'] ++ [first, second]) h (by simp) ?_
      fun s' h' => ih _ h'
    have h1 := h.first (q := [ascii '\\', first, second])
    refine Reads.bind (q := [ascii '\\']) h1 (take_reads (h1.first (q := [ascii '\\']))) fun s' h' => ?_
    refine Reads.ite_neg (by decide) (Reads.ite_neg (by decide) (Reads.ite_pos rfl ?_))
    exact Reads.bind_last (escape_hex_reads h' hfirst hsecond _) fun _ => Reads.done

/-- A word is read up to the first byte that is not part of one. -/
theorem complete_word_reads (word : List UInt8) (hrest : ∀ byte ∈ r.head?, ¬ is_word byte) :
    ∀ {s : Contiguous} (bytes : List UInt8), (∀ byte ∈ word, is_word byte) → Ready active s word r →
      Reads (complete_word bytes) s word (bytes ++ word) := by
  induction word with
  | nil =>
    intro s bytes _ h
    rw [List.append_nil]
    refine Reads.stop (Reads.bind_last (peek_reads h) fun s' => ?_)
    rw [List.nil_append]
    cases r with
    | nil => exact Reads.done
    | cons byte r => exact Reads.ite_neg (hrest byte rfl) Reads.done
  | cons byte word ih =>
    intro s bytes hword h
    rw [List.append_cons bytes byte word]
    refine Reads.again [byte] (bytes ++ [byte]) h (by simp) ?_
      fun s' h' => ih _ (fun byte hbyte => hword byte (List.mem_cons_of_mem _ hbyte)) h'
    have h1 := h.first (q := [byte])
    refine Reads.bind_nil h1 (peek_reads h1) fun s1 h1 => ?_
    refine Reads.ite_pos (hword byte List.mem_cons_self) ?_
    exact Reads.bind_last (take_expected_reads h1 _) fun _ => Reads.done

theorem opens_quote_reads (h : Ready active s q r) (first : UInt8) :
    Reads (opens_quote first) s [] (is_sigil first && (q ++ r).head? = some (ascii '"')) := by
  unfold opens_quote
  cases hsigil : is_sigil first with
  | true => exact Reads.bind_nil (q := []) (h.first (q := [])) (peek_reads h) fun s' _ => Reads.pure
  | false => exact Reads.pure

/-- The tokenizer reads a lexeme. -/
theorem complete_token_reads {first : UInt8} {bytes : List UInt8} (h : Ready active s bytes r)
    (hlexeme : Lexeme (first :: bytes) r) : Reads (complete_token first) s bytes (first :: bytes) := by
  generalize htoken : first :: bytes = token at hlexeme
  cases hlexeme with
  | quoted hbytes =>
    obtain ⟨rfl, rfl⟩ := List.cons.inj htoken
    obtain ⟨content, name, hcontent, rfl⟩ := hbytes
    exact Reads.ite_pos rfl (complete_quoted_token_reads hcontent [ascii '"'] h)
  | @symbol sigil quoted _ hsigil hbytes =>
    obtain ⟨rfl, rfl⟩ := List.cons.inj htoken
    obtain ⟨content, name, hcontent, rfl⟩ := hbytes
    have hquote : first ≠ ascii '"' := by
      rintro rfl
      exact absurd hsigil (by decide)
    refine Reads.ite_neg hquote (Reads.bind_nil h (opens_quote_reads h first) fun s1 h1 => ?_)
    refine Reads.ite_pos (by simp [hsigil]) ?_
    refine Reads.bind (q := [ascii '"']) h1 (take_expected_reads (h1.first (q := [ascii '"'])) _) fun s2 h2 => ?_
    exact complete_quoted_token_reads hcontent [first, ascii '"'] h2
  | word hfirst hbytes hrest hopens =>
    obtain ⟨rfl, rfl⟩ := List.cons.inj htoken
    have hquote : first ≠ ascii '"' := by
      rintro rfl
      exact absurd hfirst (by decide)
    refine Reads.ite_neg hquote (Reads.bind_nil h (opens_quote_reads h first) fun s1 h1 => ?_)
    refine Reads.ite_neg ?_ (Reads.ite_neg ?_ ?_)
    · simp only [Bool.and_eq_true, decide_eq_true_eq, not_and]
      intro hsigil hhead
      cases bytes with
      | nil => exact hopens hsigil rfl hhead
      | cons byte bytes =>
        have hword := hbytes byte List.mem_cons_self
        rw [List.cons_append, List.head?_cons, Option.some.injEq] at hhead
        rw [hhead] at hword
        exact absurd hword (by decide)
    · simp only [Bool.and_eq_true, Bool.not_eq_true', decide_eq_true_eq, not_and]
      intro hword
      rcases hfirst with h | h | h <;> simp_all
    · exact complete_word_reads bytes hrest [first] hbytes h1
  | mark hquote hword hsigil hmetadata =>
    obtain ⟨rfl, rfl⟩ := List.cons.inj htoken
    refine Reads.ite_neg hquote (Reads.bind_nil h (opens_quote_reads h first) fun s1 h1 => ?_)
    refine Reads.ite_neg (by simp [hsigil]) (Reads.ite_pos (by simp [hword, hsigil, hmetadata]) Reads.pure)

/-- Blanks are skipped up to a visible byte. -/
theorem skip_blank_reads {stop : Bool} {gap : List UInt8} (hgap : Blank stop gap) (hr : r ≠ [])
    (hvisible : Visible r) :
    ∀ {s : Contiguous}, Ready active s gap r → Reads (skip_blank stop) s gap false := by
  induction hgap with
  | nil =>
    intro s h
    obtain ⟨byte, rest, rfl⟩ := List.exists_cons_of_ne_nil hr
    obtain ⟨hspace, hcomment⟩ := hvisible byte rfl
    refine Reads.stop (Reads.bind_last (peek_reads h) fun s' => ?_)
    exact Reads.ite_neg hcomment (Reads.ite_neg hspace Reads.done)
  | @space stop byte bytes hbyte hstop hbytes ih =>
    intro s h
    have hcomment : byte ≠ ascii ';' := by
      rintro rfl
      exact absurd hbyte (by decide)
    refine Reads.again [byte] () h (by simp) ?_ fun s' h' => ih h'
    have h1 := h.first (q := [byte])
    refine Reads.bind_nil h1 (peek_reads h1) fun s1 h1 => Reads.ite_neg hcomment (Reads.ite_pos hbyte ?_)
    refine Reads.bind_last (take_reads h1) fun s2 => Reads.ite_neg ?_ Reads.done
    simpa using hstop
  | @comment line bytes hline hbytes ih =>
    intro s h
    refine Reads.again (ascii ';' :: line ++ [ascii '\n']) () h (by simp) ?_ fun s' h' => ih h'
    have h1 := h.first
    refine Reads.bind_nil h1 (peek_reads h1) fun s1 h1 => Reads.ite_pos rfl ?_
    refine Reads.bind_last (skip_line_reads (ascii ';' :: line) ?_ h1) fun s2 => Reads.ite_neg (by simp) Reads.done
    simp [hline, show ascii '\n' ≠ ascii ';' by decide]

theorem read_token_reads {stop : Bool} {gap token : List UInt8} (h : Ready true s (gap ++ token) r)
    (hgap : Blank stop gap) (hvisible : Visible token) (hlexeme : Lexeme token r) :
    Reads (read_token stop) s (gap ++ token) (some ⟨token, s.offset + gap.length⟩) := by
  obtain ⟨first, bytes, rfl⟩ := List.exists_cons_of_ne_nil hlexeme.ne_nil
  have hhead : Visible (first :: bytes ++ r) := hvisible
  obtain ⟨s1, hblank, hs1⟩ := skip_blank_reads hgap (by simp) hhead h.first
  have h1 := h.behind hs1
  obtain ⟨s2, htake, hs2⟩ := take_reads (h1.first (q := [first]))
  obtain ⟨s3, htoken, hs3⟩ := complete_token_reads (h1.behind (q := [first]) hs2) hlexeme
  refine ⟨s3, ?_, hs1.trans (hs2.trans hs3)⟩
  have hactive : header_active.run s = .ok (true, s) := by
    rw [← h.active]
    rfl
  have hoffset : offset.run s1 = .ok (s.offset + gap.length, s1) := by
    rw [← hs1.offset]
    rfl
  unfold read_token
  rw [run_bind, hactive, andThen_ok, if_pos rfl, run_bind, hblank, andThen_ok, if_neg (by simp), run_bind, hoffset,
    andThen_ok, run_bind, htake, andThen_ok]
  simp only [run_bind, htoken, andThen_ok, run_pure]

theorem read_required_token_reads {gap token : List UInt8} (h : Ready true s (gap ++ token) r)
    (hgap : Blank false gap) (hvisible : Visible token) (hlexeme : Lexeme token r) :
    Reads read_required_token s (gap ++ token) ⟨token, s.offset + gap.length⟩ :=
  Reads.bind_last (read_token_reads h hgap hvisible hlexeme) fun _ => Reads.pure

end stream

end optic.llvm_index
