import Optic.LlvmIndex.Index
import Optic.LlvmIndex.ScannerReads

open byte_scan rust optic.records

namespace optic.llvm_index

variable {s s' : Contiguous} {q q' r : List UInt8}

theorem Ready.header_start_eq_none (h : Ready false s q r) : s.header_start = none :=
  Option.isNone_iff_eq_none.mp (by simpa using h.active)

/-- A header that was ended behind `q` leaves the input behind `q`. -/
theorem Ready.ended {start : Option Nat} (q' : List UInt8) (h : Ready false s (q ++ q') r)
    (hq : Consumed { s with header_start := start } q s') :
    Consumed s q { s' with header_start := none } ∧ Ready false { s' with header_start := none } q' r := by
  have hconsumed := hq.unbudget h.header_start_eq_none
  exact ⟨hconsumed, h.behind hconsumed⟩

/-- A global variable is passed over, with the rest of its line. -/
theorem read_variable {bytes rest symbol keyword : List UInt8} {modifiers : List (List UInt8)}
    (hlexes : Lexes bytes (symbol :: text "=" :: (modifiers ++ [keyword])) (rest ++ [ascii '\n']))
    (hmodifiers : Modifiers modifiers) (hkeyword : keyword = text "global" ∨ keyword = text "constant")
    (hrest : ascii '\n' ∉ rest) (hbudget : bytes.length ≤ HEADER_LIMIT)
    (h : Ready false s (bytes ++ (rest ++ [ascii '\n'])) r) :
    Reads (read_global_definition s.offset) s (bytes ++ (rest ++ [ascii '\n'])) none := by
  have h0 := h.begin _ (Nat.le_refl _) (Nat.add_le_add_left hbudget _)
  obtain ⟨offset, first, second, s1, rfl, hsecond, hs1, hrun⟩ := global_leads [] hmodifiers
    (by rwa [List.append_nil]) (hlexes.extend (by simp) r)
  have h1 := h0.behind hs1
  obtain ⟨_, s2, hrun2, hs2⟩ := header.ParsesToken.read keyword s1 second _ h1 hsecond
  obtain ⟨hs2, h2⟩ := h.ended _ (hs1.trans hs2)
  obtain ⟨s3, hrun3, hs3⟩ := stream.skip_line_reads rest hrest h2
  refine ⟨{ s3 with header_start := none }, ?_, { hs2.trans hs3 with header_start := h.header_start_eq_none.symm }⟩
  have hturn : (global_kind_turn ()).run s1 = .ok (.inr none, s3) := by
    have hend : stream.end_header.run s2 = .ok ((), { s2 with header_start := none }) := rfl
    rw [global_kind_turn, run_bind, hrun2, andThen_ok, if_pos (by simpa using hkeyword), run_bind, hend, andThen_ok,
      run_bind, hrun3, andThen_ok]
    rfl
  rw [hrun, run_bind, read_global_kind, run_iter_unfold, hturn, andThen_ok, andThen_ok]
  rfl

/-- The turn that an alias keyword ends. -/
theorem alias_turn_reads {keyword bytes tail : List UInt8} {ty operand : List (List UInt8)} {target : Option String}
    {kind : LlvmDefinitionKind} (hty : AliasType ty) (htyped : ty ≠ []) (hoperand : AliasOperand operand target)
    (hkind : AliasKind keyword target kind) (htail : AliasTail tail)
    (hlexes : Lexes bytes (keyword :: (ty ++ text "," :: operand)) (tail ++ r)) (h : Ready true s (bytes ++ tail) r) :
    Reads read_global_kind s (bytes ++ tail) (some kind) := by
  refine Reads.stop (Parses.first_token h hlexes fun offset s1 bytes h hlexes => ?_)
  have hread : Reads header.read_alias_target s1 (bytes ++ tail) target :=
    header.read_alias_target_reads hty htyped hoperand htail hlexes h
  cases hkind with
  | direct =>
    refine Reads.ite_neg Bool.false_ne_true (Reads.ite_pos rfl ?_)
    exact Reads.bind_last hread fun _ => Reads.done
  | expression =>
    refine Reads.ite_neg Bool.false_ne_true (Reads.ite_pos rfl ?_)
    exact Reads.bind_last hread fun _ => Reads.done
  | ifunc =>
    have hne : text "ifunc" ≠ text "alias" := by decide
    refine Reads.ite_neg Bool.false_ne_true (Reads.ite_neg hne (Reads.ite_pos rfl ?_))
    exact Reads.bind_last hread fun _ => Reads.done

/-- An alias or ifunc is read through the end of its line, and recorded with it. -/
theorem read_alias {bytes tail symbol keyword : List UInt8} {modifiers ty operand : List (List UInt8)}
    {name : String} {target : Option String} {kind : LlvmDefinitionKind}
    (hlexes : Lexes bytes (symbol :: text "=" :: (modifiers ++ keyword :: (ty ++ text "," :: operand))) tail)
    (hsymbol : Symbol symbol name) (hmodifiers : Modifiers modifiers) (hty : AliasType ty) (htyped : ty ≠ [])
    (hoperand : AliasOperand operand target) (hkind : AliasKind keyword target kind) (htail : AliasTail tail)
    (hname : name ≠ "") (hnamed : kind.Named) (hbudget : (bytes ++ tail).length ≤ HEADER_LIMIT)
    (h : Ready false s (bytes ++ tail) r) : ∃ record, Reads (read_global_definition s.offset) s (bytes ++ tail) (some record) ∧
      Describes record name kind s.offset (bytes ++ tail).length := by
  have h0 := Ready.begin [] (by rwa [List.append_nil]) (Nat.le_refl _) (Nat.add_le_add_left hbudget _)
  obtain ⟨offset, first, second, s1, rfl, hsecond, hs1, hrun⟩ := global_leads tail hmodifiers h0 (hlexes.extend htail.ne_nil r)
  rw [List.append_assoc] at h0 h ⊢
  obtain ⟨s2, hrun2, hs2⟩ := alias_turn_reads hty htyped hoperand hkind htail hsecond (h0.behind hs1)
  obtain ⟨hs3, -⟩ := Ready.ended [] (by rwa [List.append_nil]) (hs1.trans hs2)
  have hoffset : s2.offset = s.offset + (first ++ (second ++ tail)).length := hs3.offset
  obtain ⟨record, ⟨s3, hrun3, hs23⟩, hrecord⟩ := finish_definition_reads (s := s2) hname hnamed
    (show s.offset ≤ s2.offset by omega) (by have := h.fits; omega)
  rw [hoffset, Nat.add_sub_cancel_left] at hrecord
  refine ⟨record, ⟨{ s3 with header_start := none }, ?_, ?_⟩, hrecord⟩
  · rw [hrun, run_bind, hrun2, andThen_ok, conclude_global, hsymbol.decode, run_bind, run_ofExcept_ok,
      andThen_ok, run_bind, hrun3, andThen_ok]
    rfl
  · simpa using hs3.trans (hs23.rebudget none)

/-- A function is read behind its keyword, through the brace that closes its body. -/
theorem read_function_item {start : Nat} {bytes body : List UInt8} {tokens : List (List UInt8)} {name : String}
    (hlexes : Lexes bytes tokens body) (hheader : FunctionHeader tokens name) (hbody : Body 1 body) (hname : name ≠ "")
    (hstart : start ≤ s.offset) (hbudget : s.offset + bytes.length ≤ start + HEADER_LIMIT)
    (h : Ready false s (bytes ++ body) r) :
    ∃ record, Reads (read_function_definition start) s (bytes ++ body) record ∧
      Describes record name .Function start (s.offset + (bytes ++ body).length - start) := by
  have hne : body ≠ [] := by cases hbody <;> simp
  obtain ⟨s1, hrun1, hs1⟩ := header.read_function_parses hheader _ bytes _ (h.begin body hstart hbudget) (hlexes.extend hne r)
  obtain ⟨hs2, h2⟩ := h.ended _ hs1
  obtain ⟨s3, hrun3, hs3⟩ := stream.skip_body_reads hbody h2
  have hall := hs2.trans hs3
  obtain ⟨record, ⟨s4, hrun4, hs4⟩, hrecord⟩ := finish_definition_reads (s := s3) hname
    (show LlvmDefinitionKind.Function.Named from trivial)
    (show start ≤ s3.offset by rw [hall.offset]; omega) (by have := h.fits; rw [hall.offset]; omega)
  rw [hall.offset] at hrecord
  refine ⟨record, ⟨s4, ?_, by simpa using hall.trans hs4⟩, hrecord⟩
  have hbegin : (stream.begin_header start).run s = .ok ((), { s with header_start := some start }) := rfl
  have hend : stream.end_header.run s1 = .ok ((), { s1 with header_start := none }) := rfl
  rw [read_function_definition, run_bind, hbegin, andThen_ok, run_bind, hrun1, andThen_ok, run_bind, hend, andThen_ok,
    run_bind, stream.skip_body, hrun3, andThen_ok, hrun4]

/-- A keyword probe of a line reads no more than the line. -/
theorem read_prefix_bytes_reads (count : Nat) : ∀ {s : Contiguous} (line : List UInt8), ascii '\n' ∉ line →
    Ready false s ((line ++ [ascii '\n']).take count) r →
    Reads (read_prefix_bytes count) s ((line ++ [ascii '\n']).take count) ((line ++ [ascii '\n']).take count) := by
  induction count with
  | zero => exact fun _ _ _ => Reads.pure
  | succ count ih =>
    intro s line hline h
    cases line with
    | nil =>
      rw [List.nil_append, List.take_succ_cons, List.take_nil] at h ⊢
      exact Reads.bind_last (stream.take_reads h) fun _ => Reads.ite_pos rfl Reads.pure
    | cons byte line =>
      rw [List.mem_cons, not_or] at hline
      rw [List.cons_append, List.take_succ_cons] at h ⊢
      refine Reads.bind (q := [byte]) h (stream.take_reads (h.first (q := [byte]))) fun s1 h1 => ?_
      refine Reads.ite_neg (Ne.symm hline.1) ?_
      exact Reads.bind_last (ih line hline.2 h1) fun _ => Reads.pure

/-- The scan passes over `q`, and finds the records of `definitions` in it. -/
def Finds (s : Contiguous) (q : List UInt8) (definitions : List LlvmDefinitionRecord) : Prop :=
  ∃ s', Consumed s q s' ∧
    ∀ found, (Scan.iter scan_turn found).run s = (Scan.iter scan_turn (found ++ definitions)).run s'

theorem Finds.nil : Finds s [] [] := ⟨s, Consumed.refl s, fun found => by rw [List.append_nil]⟩

theorem Finds.append {definitions more : List LlvmDefinitionRecord} (h : Ready false s (q ++ q') r)
    (hq : Finds s q definitions) (hq' : ∀ s', Ready false s' q' r → Finds s' q' more) :
    Finds s (q ++ q') (definitions ++ more) := by
  obtain ⟨s1, hs1, hrun⟩ := hq
  obtain ⟨s2, hs2, hrun'⟩ := hq' s1 (h.behind hs1)
  exact ⟨s2, hs1.trans hs2, fun found => by rw [hrun, hrun', List.append_assoc]⟩

/-- A turn of the scan that reads one item. -/
theorem Finds.item {byte : UInt8} (definition : Option LlvmDefinitionRecord) (h : Ready false s (byte :: q) r)
    (hitem : Reads (scan_item byte) s.look (byte :: q) definition) : Finds s (byte :: q) definition.toList := by
  obtain ⟨s', hrun, hs'⟩ := hitem
  have hconsumed := hs'.of_look
  exact ⟨s', hconsumed, fun found => scan_step found h.rest hrun (hconsumed.remaining_lt (List.cons_ne_nil _ _))⟩

theorem Finds.whitespace {byte : UInt8} (hbyte : is_ascii_whitespace byte) (h : Ready false s [byte] r) :
    Finds s [byte] [] :=
  Finds.item none h (Reads.ite_pos hbyte (Reads.bind_last (stream.take_reads h.look) fun _ => Reads.pure))

/-- What a keyword probe of a line that is not a function leads to. -/
theorem scan_keyword_reads {start : Nat} {keyword line : List UInt8} (h : Ready false s (line ++ [ascii '\n']) r)
    (hline : ascii '\n' ∉ line) (hkeyword : ascii '\n' ∉ keyword)
    (hstarts : keyword = text "define" → ∀ byte ∈ (line ++ [ascii '\n']).head?, ¬ is_ascii_whitespace byte) :
    Reads (scan_keyword start keyword) s (line ++ [ascii '\n']) none := by
  have hstarts : Reads (starts_function keyword) s [] false := by
    by_cases hdefine : keyword = text "define"
    · obtain ⟨byte, rest, hfirst⟩ := List.exists_cons_of_ne_nil (show line ++ [ascii '\n'] ≠ [] by simp)
      have hbyte := hstarts hdefine byte (by simp [hfirst])
      refine Reads.ite_pos hdefine (Reads.bind_last (stream.peek_reads h) fun s1 => ?_)
      simp only [hfirst, List.cons_append, List.head?_cons, Option.all_some, hbyte]
      exact Reads.pure
    · exact Reads.ite_neg hdefine Reads.pure
  refine Reads.bind_nil h hstarts fun s1 h1 => Reads.ite_neg Bool.false_ne_true (Reads.ite_neg hkeyword ?_)
  exact Reads.bind_last (stream.skip_line_reads line hline h1) fun _ => Reads.pure

/-- A line that starts like a function keyword is read as a whole. -/
theorem scan_keyword_line_reads {start : Nat} {line : List UInt8} (hline : ascii '\n' ∉ line)
    (hdefine : ∀ byte rest, line ++ [ascii '\n'] = text "define" ++ byte :: rest → ¬ is_ascii_whitespace byte)
    (h : Ready false s (line ++ [ascii '\n']) r) :
    Reads ( read_keyword_prefix >>= scan_keyword start) s (line ++ [ascii '\n']) none := by
  have hsplit := List.take_append_drop 6 (line ++ [ascii '\n'])
  rw [← hsplit] at h
  rw [← hsplit]
  have hread := read_prefix_bytes_reads 6 line hline h.first
  by_cases hlong : 6 ≤ line.length
  · have htake : (line ++ [ascii '\n']).take 6 = line.take 6 := List.take_append_of_le_length hlong
    have hdrop : (line ++ [ascii '\n']).drop 6 = line.drop 6 ++ [ascii '\n'] := List.drop_append_of_le_length hlong
    rw [htake] at hread
    rw [htake, hdrop] at h ⊢
    have hprefix : Reads read_keyword_prefix s (line.take 6) (line.take 6) := by
      refine Reads.bind_last hread fun _ => ?_
      rw [List.length_take, Nat.min_eq_left hlong, Nat.sub_self, List.replicate_zero, List.append_nil]
      exact Reads.pure
    refine Reads.bind h hprefix fun s1 h1 => scan_keyword_reads h1 ?_ ?_ ?_
    · exact fun hmem => hline (List.mem_of_mem_drop hmem)
    · exact fun hmem => hline (List.mem_of_mem_take hmem)
    · intro hkeyword byte hbyte
      obtain ⟨rest, hrest⟩ := List.head?_eq_some_iff.mp hbyte
      refine hdefine byte rest ?_
      rw [← hkeyword, ← hrest, ← hdrop, ← htake, hsplit]
  · have htake : (line ++ [ascii '\n']).take 6 = line ++ [ascii '\n'] := List.take_of_length_le (by simp; omega)
    have hdrop : (line ++ [ascii '\n']).drop 6 = [] := List.drop_of_length_le (by simp; omega)
    rw [htake] at hread
    rw [htake, hdrop] at h ⊢
    refine Reads.bind h (Reads.bind_last hread fun _ => Reads.pure) fun s1 h1 => ?_
    have hmem : ascii '\n' ∈ line ++ [ascii '\n'] ++ List.replicate (6 - (line ++ [ascii '\n']).length) 0 := by simp
    have hne : line ++ [ascii '\n'] ++ List.replicate (6 - (line ++ [ascii '\n']).length) 0 ≠ text "define" := by
      intro heq
      rw [heq] at hmem
      exact absurd hmem (by decide)
    refine Reads.bind_nil h1 (Reads.ite_neg hne Reads.pure) fun s2 _ => ?_
    exact Reads.ite_neg Bool.false_ne_true (Reads.ite_pos hmem Reads.pure)

/-- An unrelated line holds no definition. -/
theorem Finds.unrelated {line : List UInt8} (hline : ascii '\n' ∉ line) (hunrelated : Unrelated line) :
    ∀ {s : Contiguous}, Ready false s (line ++ [ascii '\n']) r → Finds s (line ++ [ascii '\n']) [] := by
  induction line with
  | nil => exact fun h => Finds.whitespace rfl h
  | cons byte line ih =>
    intro s h
    by_cases hbyte : is_ascii_whitespace byte
    · have hdrop : (byte :: line).dropWhile is_ascii_whitespace = line.dropWhile is_ascii_whitespace :=
        List.dropWhile_cons_of_pos hbyte
      rw [Unrelated, hdrop] at hunrelated
      rw [List.mem_cons, not_or] at hline
      exact Finds.append (q := [byte]) h (Finds.whitespace hbyte (h.first (q := [byte]))) fun s' h' => ih hline.2 hunrelated h'
    · have hdrop : (byte :: line).dropWhile is_ascii_whitespace = byte :: line :=
        List.dropWhile_cons_of_neg hbyte
      obtain ⟨hat, hdefine⟩ := hunrelated
      rw [hdrop] at hat hdefine
      refine Finds.item none h (Reads.ite_neg hbyte (Reads.bind_nil h.look stream.offset_reads fun s1 h1 => ?_))
      refine Reads.ite_neg (by simpa using hat) ?_
      by_cases hd : byte = ascii 'd'
      · exact Reads.ite_pos hd (scan_keyword_line_reads hline hdefine h1)
      · refine Reads.ite_neg hd (scan_keyword_reads h1 hline (by decide) ?_)
        exact fun h => absurd h (by decide)

/-- A function definition is read through its closing brace. -/
theorem scan_function {first : UInt8} {bytes body : List UInt8} {tokens : List (List UInt8)} {name : String}
    (hlexes : Lexes (first :: bytes) tokens body) (hfirst : is_ascii_whitespace first)
    (hheader : FunctionHeader tokens name) (hbody : Body 1 body) (hname : name ≠ "")
    (hbudget : (text "define" ++ first :: bytes).length ≤ HEADER_LIMIT)
    (h : Ready false s (text "define" ++ (first :: bytes ++ body)) r) :
    ∃ record, Reads (scan_item (ascii 'd')) s (text "define" ++ (first :: bytes ++ body)) (some record) ∧
      Describes record name .Function s.offset (text "define" ++ (first :: bytes ++ body)).length := by
  have hprefix : Reads read_keyword_prefix s (text "define") (text "define") :=
    Reads.bind_last (read_prefix_bytes_reads 6 (text "define") (by decide) h.first) fun _ => Reads.pure
  obtain ⟨s1, hrun1, hs1⟩ := hprefix
  have h1 := (h.behind hs1).look
  have hoffset : s1.offset = s.offset + 6 := hs1.offset
  have hlength : (text "define").length = 6 := rfl
  rw [List.length_append, hlength] at hbudget
  obtain ⟨record, ⟨s2, hrun2, hs2⟩, hrecord⟩ := read_function_item (s := s1.look) hlexes hheader hbody
    hname (show s.offset ≤ s1.offset by omega) (show s1.offset + _ ≤ _ by omega) h1
  refine ⟨record, ⟨s2, ?_, hs1.trans hs2.of_look⟩, ?_⟩
  · have hstart : stream.offset.run s = .ok (s.offset, s) := rfl
    have hpeek : stream.peek.run s1 = .ok (some first, s1.look) := by
      rw [stream.run_peek, Contiguous.peek, (h.behind hs1).rest]
      rfl
    have hstarts : (starts_function (text "define")).run s1 = .ok (true, s1.look) := by
      rw [starts_function, if_pos rfl, run_bind, hpeek, andThen_ok, Option.all_some, hfirst]
      rfl
    have hspace : ¬ is_ascii_whitespace (ascii 'd') := by decide
    have hat : ascii 'd' ≠ ascii '@' := by decide
    rw [scan_item, if_neg hspace, run_bind, hstart, andThen_ok, if_neg hat, if_pos rfl, run_bind, hrun1, andThen_ok,
      scan_keyword, run_bind, hstarts, andThen_ok, if_pos rfl, run_bind, hrun2, andThen_ok]
    rfl
  · have hend : s1.look.offset + (first :: bytes ++ body).length - s.offset =
        (text "define").length + (first :: bytes ++ body).length := by
      change s1.offset + _ - _ = _
      omega
    rwa [hend, ← List.length_append] at hrecord

theorem scan_global {definition : Option LlvmDefinitionRecord}
    (h : Reads (read_global_definition s.offset) s q definition) : Reads (scan_item (ascii '@')) s q definition := by
  obtain ⟨s', hrun, hs'⟩ := h
  have hstart : stream.offset.run s = .ok (s.offset, s) := rfl
  have hspace : ¬ is_ascii_whitespace (ascii '@') := by decide
  exact ⟨s', by rw [scan_item, if_neg hspace, run_bind, hstart, andThen_ok, if_pos rfl, hrun], hs'⟩

/-- What an index reports of a definition: its symbol, its kind and its range. -/
def summary (record : LlvmDefinitionRecord) : String × LlvmDefinitionKind × Nat × Nat :=
  (record.raw_symbol, record.kind, record.range.start.toNat, record.range.length.toNat)

theorem Describes.summary {record : LlvmDefinitionRecord} {symbol : String} {kind : LlvmDefinitionKind}
    {start length : Nat} (h : Describes record symbol kind start length) :
    llvm_index.summary record = (symbol, kind, start, length) := by
  rw [llvm_index.summary, h.symbol, h.kind, h.start, h.length]

/-- What is reported of an item: its definition, which is all of its bytes. -/
def item_definitions (start : Nat) (bytes : List UInt8) :
    Option (String × LlvmDefinitionKind) → List (String × LlvmDefinitionKind × Nat × Nat)
  | none => []
  | some (symbol, kind) => [(symbol, kind, start, bytes.length)]

/-- The scan passes over an item, and finds the definition that it is. -/
theorem Finds.of_item {bytes : List UInt8} {definition : Option (String × LlvmDefinitionKind)}
    (hitem : Item bytes definition) (h : Ready false s bytes r) :
    ∃ records, Finds s bytes records ∧ records.map summary = item_definitions s.offset bytes definition := by
  cases hitem with
  | unrelated hline hunrelated => exact ⟨[], Finds.unrelated hline hunrelated h, rfl⟩
  | @global bytes rest symbol keyword modifiers hlexes hstart hmodifiers hkeyword hrest hbudget =>
    obtain ⟨bytes, rfl⟩ := List.head?_eq_some_iff.mp hstart
    have hread := read_variable hlexes hmodifiers hkeyword hrest hbudget h.look
    exact ⟨[], Finds.item none h (scan_global hread), rfl⟩
  | @aliased bytes tail symbol keyword modifiers ty operand name target kind hlexes hstart hsymbol hmodifiers hty htyped
      hoperand hkind htail hname hnamed hbudget =>
    obtain ⟨bytes, rfl⟩ := List.head?_eq_some_iff.mp hstart
    obtain ⟨record, hread, hrecord⟩ := read_alias hlexes hsymbol hmodifiers hty htyped hoperand hkind htail hname hnamed
      hbudget h.look
    refine ⟨[record], Finds.item (some record) h (scan_global hread), ?_⟩
    rw [List.map_singleton, hrecord.summary]
    rfl
  | function hlexes hfirst hheader hbody hname hbudget =>
    obtain ⟨record, hread, hrecord⟩ := scan_function hlexes hfirst hheader hbody hname hbudget h.look
    refine ⟨[record], Finds.item (some record) h hread, ?_⟩
    rw [List.map_singleton, hrecord.summary]
    rfl

/-- The definitions of a module whose items are rendered one after another. -/
def module_definitions : Nat → List (List UInt8 × Option (String × LlvmDefinitionKind)) →
    List (String × LlvmDefinitionKind × Nat × Nat)
  | _, [] => []
  | start, (bytes, definition) :: items =>
    item_definitions start bytes definition ++ module_definitions (start + bytes.length) items

/-- The scan passes over a sequence of items, and finds exactly their definitions. -/
theorem Finds.of_items {items : List (List UInt8 × Option (String × LlvmDefinitionKind))}
    (hitems : ∀ item ∈ items, Item item.1 item.2) : ∀ {s : Contiguous}, Ready false s (items.flatMap Prod.fst) r →
      ∃ records, Finds s (items.flatMap Prod.fst) records ∧ records.map summary = module_definitions s.offset items := by
  induction items with
  | nil => exact fun _ => ⟨[], Finds.nil, rfl⟩
  | cons item items ih =>
    intro s h
    obtain ⟨bytes, definition⟩ := item
    rw [List.flatMap_cons] at h ⊢
    obtain ⟨records, ⟨s1, hs1, hrun1⟩, hrecords⟩ := Finds.of_item (hitems (bytes, definition) List.mem_cons_self) h.first
    obtain ⟨more, ⟨s2, hs2, hrun2⟩, hmore⟩ := ih (fun item hitem => hitems item (List.mem_cons_of_mem _ hitem)) (h.behind hs1)
    refine ⟨records ++ more, ⟨s2, hs1.trans hs2, fun found => ?_⟩, ?_⟩
    · rw [hrun1, hrun2, List.append_assoc]
    · rw [List.map_append, hrecords, hmore, hs1.offset]
      rfl

/-- The index of a module lists exactly the definitions among its items, in order: each
with its decoded symbol, its kind and the range of all of its bytes. -/
theorem index_module {items : List (List UInt8 × Option (String × LlvmDefinitionKind))}
    (hitems : ∀ item ∈ items, Item item.1 item.2) (hlength : (items.flatMap Prod.fst).length < UInt64.size) :
    ∃ definitions, index_bytes (items.flatMap Prod.fst) = .ok definitions ∧
      definitions.map summary = module_definitions 0 items := by
  have hready : Ready false { rest := items.flatMap Prod.fst } (items.flatMap Prod.fst) [] :=
    ⟨(List.append_nil _).symm, rfl, rfl, by simpa using hlength, nofun⟩
  obtain ⟨records, ⟨s, hs, hrun⟩, hrecords⟩ := Finds.of_items hitems hready
  refine ⟨records, ?_, hrecords⟩
  have hbehind : Ready false s [] [] := Ready.behind (by rwa [List.append_nil]) hs
  have hend := scan_end records hbehind.rest hbehind.complete
  rw [index_bytes_eq_contiguous, index_contiguous, scan, hrun [], List.nil_append, hend]
  rfl

/-- A module of a comment, an alias and the function that it names. -/
theorem index_module_alias_function :
    ∃ definitions, index_bytes ([text "; m\n", text "@a = alias i8, ptr @f\n", text "define @f()\x7b\x7d", text "\n"].flatten) =
        .ok definitions ∧
      definitions.map summary = [("a", .DirectAlias "f", 4, 22), ("f", .Function, 26, 13)] := by
  have hspace : Blank false (text " ") := Blank.space (by decide) nofun Blank.nil
  have hword {gap bytes rest : List UInt8} {tokens : List (List UInt8)} (first : UInt8) (word : List UInt8)
      (hgap : Blank false gap)
      (htoken : ((is_word first || is_sigil first) && !word.isEmpty && word.all is_word &&
        (bytes ++ rest).head?.all (!is_word ·) && !is_ascii_whitespace first && first != ascii ';') = true)
      (h : Lexes bytes tokens rest) : Lexes (gap ++ (first :: word) ++ bytes) ((first :: word) :: tokens) rest := by
    simp only [Bool.and_eq_true, Bool.or_eq_true, Bool.not_eq_true', List.isEmpty_eq_false_iff, List.all_eq_true,
      Option.all_eq_true, bne_iff_ne] at htoken
    obtain ⟨⟨⟨⟨⟨hfirst, hne⟩, hword⟩, hrest⟩, hspace⟩, hcomment⟩ := htoken
    refine Lexes.cons hgap ?_ (Lexeme.word (hfirst.imp_right Or.inl) hword ?_ fun _ hnil => absurd hnil hne) h
    · rintro _ ⟨⟩
      exact ⟨Bool.not_eq_true _ ▸ hspace, hcomment⟩
    · exact fun byte hbyte => Bool.not_eq_true _ ▸ hrest byte hbyte
  have hmark {gap bytes rest : List UInt8} {tokens : List (List UInt8)} (byte : UInt8) (hgap : Blank false gap)
      (htoken : (byte != ascii '"' && !is_word byte && !is_sigil byte && byte != ascii '!' &&
        !is_ascii_whitespace byte && byte != ascii ';') = true)
      (h : Lexes bytes tokens rest) : Lexes (gap ++ [byte] ++ bytes) ([byte] :: tokens) rest := by
    simp only [Bool.and_eq_true, Bool.not_eq_true', bne_iff_ne] at htoken
    obtain ⟨⟨⟨⟨⟨hquote, hword⟩, hsigil⟩, hmetadata⟩, hspace⟩, hcomment⟩ := htoken
    refine Lexes.cons hgap ?_ (Lexeme.mark hquote (Bool.not_eq_true _ ▸ hword) (Bool.not_eq_true _ ▸ hsigil) hmetadata) h
    rintro _ ⟨⟩
    exact ⟨Bool.not_eq_true _ ▸ hspace, hcomment⟩
  have hcomment : Item (text "; m\n") none := @Item.unrelated (text "; m") (by decide) ⟨by decide, nofun⟩
  have hblank : Item (text "\n") none := @Item.unrelated [] (by decide) ⟨by decide, nofun⟩
  have hsymbol (first : UInt8) (name : String) (hname : text name = [first]) (hword : is_word first) :
      Symbol [ascii '@', first] name := Symbol.word hname (List.forall_mem_singleton.mpr hword) fun _ => nofun
  have hf : Symbol (text "@f") "f" := hsymbol (ascii 'f') "f" rfl rfl
  have halias : Lexes (text "@a = alias i8, ptr @f")
      [text "@a", text "=", text "alias", text "i8", text ",", text "ptr", text "@f"] (text "\n") :=
    hword (ascii '@') (text "a") Blank.nil (by decide) <| hmark (ascii '=') hspace (by decide) <|
    hword (ascii 'a') (text "lias") hspace (by decide) <| hword (ascii 'i') (text "8") hspace (by decide) <|
    hmark (ascii ',') Blank.nil (by decide) <| hword (ascii 'p') (text "tr") hspace (by decide) <|
    hword (ascii '@') (text "f") hspace (by decide) Lexes.nil
  have hordinary : Ordinary (text "i8") := fun _ h => absurd (Nat.succ.inj (congrArg List.length h)) Nat.one_ne_zero
  have htype : AliasType [text "i8"] := Pieces.cons (Piece.token hordinary) (by decide) Pieces.nil
  have halias : Item (text "@a = alias i8, ptr @f\n") (some ("a", .DirectAlias "f")) :=
    @Item.aliased _ (text "\n") (text "@a") _ [] _ _ "a" _ _ halias rfl (hsymbol (ascii 'a') "a" rfl rfl) Modifiers.nil
      htype (by decide) (AliasOperand.direct Addrspace.nil hf) AliasKind.direct (AliasTail.newline Blank.nil) (by decide)
      (by decide : "f" ≠ "") (by decide)
  have hfunction : Lexes (text " @f()\x7b") [text "@f", text "(", text ")", text "\x7b"] (text "\x7d") :=
    hword (ascii '@') (text "f") hspace (by decide) <| hmark (ascii '(') Blank.nil (by decide) <|
    hmark (ascii ')') Blank.nil (by decide) <| hmark (ascii '{') Blank.nil (by decide) Lexes.nil
  have hfunction : Item (text "define @f()\x7b\x7d") (some ("f", .Function)) :=
    @Item.function (ascii ' ') (text "@f()\x7b") (text "\x7d") _ "f" hfunction rfl
      (@FunctionHeader.mk [] [] [] _ _ Pieces.nil hf Balanced.nil FunctionSuffix.nil) Body.last (by decide) (by decide)
  refine @index_module [(text "; m\n", none), (text "@a = alias i8, ptr @f\n", some ("a", .DirectAlias "f")),
    (text "define @f()\x7b\x7d", some ("f", .Function)), (text "\n", none)] ?_ (by decide)
  simp only [List.forall_mem_cons]
  exact ⟨hcomment, halias, hfunction, hblank, nofun⟩

end optic.llvm_index
