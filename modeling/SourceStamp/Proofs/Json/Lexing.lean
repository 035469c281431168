import Mathlib.Data.List.Chain
import Mathlib.Tactic.IntervalCases
import SourceStamp.Proofs.Json.Number
import SourceStamp.Proofs.Json.Strings

/-! Tokens. What the scanner has read at any time is a row of tokens and the beginning of one more. It
finds every row of tokens in which no two values touch, since such a row is cut in one way only.
-/

set_option autoImplicit false

namespace SourceStamp.Json

namespace Scanner

variable {tokens before : List Token} {c : Char}

theorem step?_number (tokens : List Token) (form : NumberForm) (lexeme : List Char) (c : Char) :
    step? ⟨.number form lexeme, tokens⟩ c =
      match form.next? c with
      | some form => some ⟨.number form (c :: lexeme), tokens⟩
      | none => if form.isComplete then begin? (numberToken lexeme :: tokens) c else none := rfl

theorem step?_word (tokens : List Token) (letter : Char) (rest : List Char) (value : Json) (c : Char) :
    step? ⟨.word (letter :: rest) value, tokens⟩ c =
      if c ≠ letter then none
      else if rest.isEmpty then some ⟨.between, .scalar value :: tokens⟩
      else some ⟨.word rest value, tokens⟩ := rfl

/-- The tokens have been read, the last first, but a number may go on. -/
inductive Settled (tokens : List Token) : Scanner → Prop
  | between : Settled tokens ⟨.between, tokens⟩
  | number {form : NumberForm} {lexeme : List Char} {before : List Token} : form.isComplete →
      tokens = numberToken lexeme :: before → Settled tokens ⟨.number form lexeme, before⟩

theorem Settled.finish? {scanner : Scanner} (settled : Settled tokens scanner) :
    scanner.finish? = some tokens.reverse := by
  cases settled with
  | between => rfl
  | number complete last =>
    rw [last, Scanner.finish?]
    exact if_pos complete

def enders : List Char := [' ', '\t', '\n', '\r', '[', ']', '\x7b', '\x7d', ',', ':']

theorem next?_of_mem_enders (ender : c ∈ enders) {form : NumberForm} (complete : form.isComplete) :
    form.next? c = none := by
  have table : [.zero, .integer, .fraction, .exponent].all fun form : NumberForm =>
      enders.all fun c => (form.next? c).isNone := by decide
  have listed : form ∈ [.zero, .integer, .fraction, .exponent] := by
    cases form with
    | minus | point | exponentMark | exponentSign => contradiction
    | zero | integer | fraction | exponent => simp
  exact Option.isNone_iff_eq_none.1 (List.all_eq_true.1 (List.all_eq_true.1 table form listed) c ender)

theorem Settled.step? {scanner : Scanner} (settled : Settled tokens scanner) (ender : c ∈ enders) :
    scanner.step? c = begin? tokens c := by
  cases settled with
  | between => rfl
  | number complete last =>
    rw [step?_number, next?_of_mem_enders ender complete, last]
    exact if_pos complete

theorem Settled.spaces {scanner : Scanner} (settled : Settled tokens scanner) {spaces : List Char}
    (isSpaces : IsSpaces spaces) :
    ∃ scanner', spaces.foldlM Scanner.step? scanner = some scanner' ∧ Settled tokens scanner' := by
  induction spaces generalizing scanner with
  | nil => exact ⟨scanner, rfl, settled⟩
  | cons c spaces ih =>
    obtain ⟨space, spaces⟩ := List.forall_mem_cons.1 isSpaces
    have ender : c ∈ enders := List.subset_append_left [' ', '\t', '\n', '\r'] _ space
    have all : [' ', '\t', '\n', '\r'].all isSpace := by decide
    have stays : begin? tokens c = some ⟨.between, tokens⟩ := if_pos (List.all_eq_true.1 all c space)
    rw [foldlM_cons_of_some ((settled.step? ender).trans stays)]
    exact ih .between spaces

theorem mark_step {token : Token} (mark : token.mark? = some c) (tokens : List Token) :
    c ∈ enders ∧ begin? tokens c = some ⟨.between, token :: tokens⟩ := by
  cases token with
  | scalar => contradiction
  | beginArray | endArray | beginObject | endObject | comma | colon =>
    cases mark
    exact ⟨by decide, rfl⟩

theorem foldlM_number {form form' : NumberForm} {rest : List Char}
    (run : rest.foldlM NumberForm.next? form = some form') (lexeme : List Char) :
    rest.foldlM step? ⟨.number form lexeme, tokens⟩ =
      some ⟨.number form' (rest.reverse ++ lexeme), tokens⟩ := by
  induction rest generalizing form lexeme with
  | nil =>
    cases run
    rfl
  | cons c rest ih =>
    obtain ⟨next, step, run⟩ := foldlM_cons_eq_some_iff.1 run
    rw [List.foldlM_cons, step?_number, step, List.reverse_cons, List.append_assoc]
    exact ih run (c :: lexeme)

-- A number without a sign begins as it goes on behind one.
theorem begin?_of_next? {form : NumberForm} (step : NumberForm.minus.next? c = some form)
    (tokens : List Token) : begin? tokens c = some ⟨.number form [c], tokens⟩ := by
  have digit : c.isDigit := by
    rw [NumberForm.next?] at step
    split at step
    · subst c
      rfl
    · split at step
      · assumption
      · contradiction
  have low : 48 ≤ c.toNat := (Char.isDigit_iff_toNat.1 digit).1
  have high : c.toNat ≤ 57 := (Char.isDigit_iff_toNat.1 digit).2
  rw [← Char.ofNat_toNat c] at step ⊢
  generalize c.toNat = n at step low high ⊢
  interval_cases n <;> cases step <;> rfl

theorem exists_settled_of_isNumber {lexeme : List Char} (number : IsNumber lexeme) (tokens : List Token) :
    ∃ scanner, lexeme.foldlM step? ⟨.between, tokens⟩ = some scanner ∧
      Settled (.scalar (.number (String.ofList lexeme)) :: tokens) scanner := by
  obtain ⟨sign, rest, form, isSign, rfl, run, complete⟩ := NumberForm.isNumber_iff.1 number
  refine ⟨⟨.number form (sign ++ rest).reverse, tokens⟩, ?_, .number complete ?_⟩
  · rcases List.mem_pair.1 isSign with rfl | rfl
    · cases rest with
      | nil =>
        cases run
        contradiction
      | cons c rest =>
        obtain ⟨next, step, run⟩ := foldlM_cons_eq_some_iff.1 run
        have begins : step? ⟨.between, tokens⟩ c = some ⟨.number next [c], tokens⟩ :=
          begin?_of_next? step tokens
        rw [List.nil_append, foldlM_cons_of_some begins, List.reverse_cons]
        exact foldlM_number run [c]
    · have begins : step? ⟨.between, tokens⟩ '-' = some ⟨.number .minus ['-'], tokens⟩ := rfl
      rw [List.singleton_append, foldlM_cons_of_some begins, List.reverse_cons]
      exact foldlM_number run ['-']
  · rw [numberToken, List.reverse_reverse]

theorem exists_settled_of_spelling {token : Token} {part : List Char} (spelled : token.Spelling part)
    (tokens : List Token) : ∃ scanner, part.foldlM step? ⟨.between, tokens⟩ = some scanner ∧
      Settled (token :: tokens) scanner := by
  cases spelled with
  | mark mark => exact ⟨_, congrArg (· >>= _) (mark_step mark tokens).2, .between⟩
  | null => exact ⟨_, rfl, .between⟩
  | true => exact ⟨_, rfl, .between⟩
  | false => exact ⟨_, rfl, .between⟩
  | number number => exact exists_settled_of_isNumber number tokens
  | @string text content spelled =>
    obtain ⟨row, pieces, rfl⟩ := stringSpelling_iff.1 spelled
    have begins : step? ⟨.between, tokens⟩ '"' = some ⟨.string [], tokens⟩ := rfl
    refine ⟨_, ?_, .between⟩
    rw [foldlM_cons_of_some begins, foldlM_append_of_some (Piece.foldlM_row pieces [] tokens)]
    show some (⟨.between, stringToken (row.reverse ++ []) :: tokens⟩ : Scanner) = _
    rw [List.append_nil, stringToken, List.reverse_reverse]

end Scanner

/-- Two values in a row might run together. -/
def Token.Apart (first second : Token) : Prop := ¬ (first.mark? = none ∧ second.mark? = none)

theorem Token.Spelling.of_mark? {token : Token} {part : List Char} (spelled : token.Spelling part)
    (marked : token.mark? ≠ none) : ∃ c, part = [c] ∧ token.mark? = some c := by
  cases spelled with
  | mark mark => exact ⟨_, rfl, mark⟩
  | null | true | false | number | string => contradiction

open Scanner

theorem Lexed.foldlM {tokens : List Token} {text : List Char} (lexed : Lexed tokens text)
    {before : List Token} {scanner : Scanner} (settled : Settled before scanner)
    (apart : (before.head?.toList ++ tokens).IsChain Token.Apart) :
    ∃ scanner', text.foldlM step? scanner = some scanner' ∧ Settled (tokens.reverse ++ before) scanner' := by
  induction lexed generalizing before scanner with
  | nil isSpaces => exact settled.spaces isSpaces
  | @cons token tokens spaces part text isSpaces spelled _ ih =>
    obtain ⟨ready, run, settled⟩ := settled.spaces isSpaces
    -- Behind a number there is no value, so a value begins where no number can go on.
    have tokenRun : ∃ scanner, part.foldlM step? ready = some scanner ∧
        Settled (token :: before) scanner := by
      cases settled with
      | between => exact exists_settled_of_spelling spelled before
      | @number form lexeme before complete last =>
        subst last
        have marked : token.mark? ≠ none := fun none_ => (List.isChain_cons_cons.1 apart).1 ⟨rfl, none_⟩
        obtain ⟨c, rfl, mark⟩ := spelled.of_mark? marked
        obtain ⟨ender, begins⟩ := mark_step mark (numberToken lexeme :: before)
        have settled : Settled (numberToken lexeme :: before) ⟨.number form lexeme, before⟩ :=
          .number complete rfl
        exact ⟨_, foldlM_cons_of_some ((settled.step? ender).trans begins), .between⟩
    obtain ⟨next, tokenRun, settled⟩ := tokenRun
    obtain ⟨last, rest, settled⟩ := ih settled (apart.right_of_append)
    refine ⟨last, ?_, by rwa [List.reverse_cons, List.append_assoc]⟩
    rw [foldlM_append_of_some run, foldlM_append_of_some tokenRun]
    exact rest

theorem Lexed.scan? {tokens : List Token} {text : List Char} (lexed : Lexed tokens text)
    (apart : tokens.IsChain Token.Apart) : Token.scan? text = some tokens := by
  obtain ⟨scanner, run, settled⟩ := lexed.foldlM (.between : Settled [] ⟨.between, []⟩) apart
  rw [Token.scan?, start, run, Option.bind_eq_bind, Option.bind_some, settled.finish?, List.append_nil,
    List.reverse_reverse]

inductive Scan.Reads : Scan → List Char → Prop
  | between : Reads .between []
  | string {pieces : List Piece} {content : List Char} : Row Piece.Spelling pieces.reverse content →
      Reads (.string pieces) ('"' :: content)
  | escape {pieces : List Piece} {content : List Char} : Row Piece.Spelling pieces.reverse content →
      Reads (.escape pieces) ('"' :: (content ++ ['\\']))
  | codeUnit {pieces : List Piece} {content : List Char} {values : List Nat} {digits : List Char}
      {digitsLeft : Nat} : Row Piece.Spelling pieces.reverse content →
      List.Forall₂ IsHexDigit values digits → values.length + digitsLeft = 4 → 0 < digitsLeft →
      Reads (.codeUnit pieces (values.foldl (16 * · + ·) 0) digitsLeft)
        ('"' :: (content ++ ('\\' :: 'u' :: digits)))
  | number {form : NumberForm} {sign rest lexeme : List Char} : sign ∈ [[], ['-']] →
      rest.foldlM NumberForm.next? .minus = some form → lexeme.reverse = sign ++ rest →
      Reads (.number form lexeme) (sign ++ rest)
  | word {part rest : List Char} {value : Json} : Token.Spelling (.scalar value) (part ++ rest) →
      rest ≠ [] → Reads (.word rest value) part

def Scanner.Reads (scanner : Scanner) (text : List Char) : Prop :=
  ∃ before part, text = before ++ part ∧ Lexed scanner.tokens.reverse before ∧ scanner.scan.Reads part

namespace Scanner

variable {tokens : List Token} {scanner scanner' : Scanner} {text part : List Char} {c : Char}

theorem Reads.between (lexed : Lexed tokens.reverse text) : Reads ⟨.between, tokens⟩ text :=
  ⟨text, [], (List.append_nil text).symm, lexed, .between⟩

theorem Reads.token {token : Token} (lexed : Lexed tokens.reverse text) (spelled : token.Spelling part) :
    Reads ⟨.between, token :: tokens⟩ (text ++ part) := by
  refine .between ?_
  rw [List.reverse_cons]
  exact lexed.concat spelled

theorem Reads.begin? (lexed : Lexed tokens.reverse text) (begins : begin? tokens c = some scanner) :
    scanner.Reads (text ++ [c]) := by
  have opens {scan : Scan} (reads : scan.Reads [c]) : Reads ⟨scan, tokens⟩ (text ++ [c]) :=
    ⟨text, [c], rfl, lexed, reads⟩
  unfold Scanner.begin? at begins
  rcases ite_eq_iff.1 begins with ⟨space, begins⟩ | ⟨-, begins⟩
  · cases begins
    have space : c ∈ [' ', '\t', '\n', '\r'] := by simpa [isSpace, or_assoc] using space
    exact .between (lexed.append_spaces (List.forall_mem_singleton.2 space))
  -- Six characters are a token each.
  iterate 6
    rcases ite_eq_iff.1 begins with ⟨rfl, begins⟩ | ⟨-, begins⟩
    · cases begins
      exact .token lexed (.mark rfl)
  rcases ite_eq_iff.1 begins with ⟨rfl, begins⟩ | ⟨-, begins⟩
  · cases begins
    exact opens (.string .nil)
  rcases ite_eq_iff.1 begins with ⟨rfl, begins⟩ | ⟨-, begins⟩
  · cases begins
    have reads : Scan.Reads (.number .minus ['-']) (['-'] ++ []) := .number (.tail _ (.head _)) rfl rfl
    exact opens reads
  rcases ite_eq_iff.1 begins with ⟨rfl, begins⟩ | ⟨nonzero, begins⟩
  · cases begins
    have reads : Scan.Reads (.number .zero ['0']) ([] ++ ['0']) := .number (.head _) rfl rfl
    exact opens reads
  rcases ite_eq_iff.1 begins with ⟨digit, begins⟩ | ⟨-, begins⟩
  · cases begins
    have next : [c].foldlM NumberForm.next? .minus = some .integer := by
      rw [List.foldlM_cons, NumberForm.next?, if_neg nonzero, if_pos digit]
      rfl
    have reads : Scan.Reads (.number .integer [c]) ([] ++ [c]) := .number (.head _) next rfl
    exact opens reads
  rcases ite_eq_iff.1 begins with ⟨rfl, begins⟩ | ⟨-, begins⟩
  · cases begins
    exact opens (.word .true (List.cons_ne_nil _ _))
  rcases ite_eq_iff.1 begins with ⟨rfl, begins⟩ | ⟨-, begins⟩
  · cases begins
    exact opens (.word .false (List.cons_ne_nil _ _))
  rcases ite_eq_iff.1 begins with ⟨rfl, begins⟩ | ⟨-, begins⟩
  · cases begins
    exact opens (.word .null (List.cons_ne_nil _ _))
  · contradiction

theorem isNumber_of_reads {form : NumberForm} {sign rest lexeme : List Char} (isSign : sign ∈ [[], ['-']])
    (run : rest.foldlM NumberForm.next? .minus = some form) (whole : lexeme.reverse = sign ++ rest)
    (complete : form.isComplete) : (numberToken lexeme).Spelling (sign ++ rest) := by
  rw [numberToken, whole]
  exact .number (NumberForm.isNumber_iff.2 ⟨sign, rest, form, isSign, rfl, run, complete⟩)

theorem Reads.step? (reads : scanner.Reads text) (step : scanner.step? c = some scanner') :
    scanner'.Reads (text ++ [c]) := by
  obtain ⟨before, part, rfl, lexed, reads⟩ := reads
  obtain ⟨scan, tokens⟩ := scanner
  have goesOn {scan' : Scan} {part' : List Char} (reads : scan'.Reads part') (same : part ++ [c] = part') :
      Reads ⟨scan', tokens⟩ (before ++ part ++ [c]) :=
    ⟨before, part', by rw [List.append_assoc, same], lexed, reads⟩
  -- What is being read goes on, or it is a token, or it was one before this character began another.
  cases reads with
  | between =>
    rw [List.append_nil]
    exact .begin? lexed step
  | @string pieces content row =>
    rw [step?_string] at step
    rcases ite_eq_iff.1 step with ⟨rfl, step⟩ | ⟨quote, step⟩
    · cases step
      have spelled : (stringToken pieces).Spelling ('"' :: (content ++ ['"'])) :=
        .string (stringSpelling_iff.2 ⟨pieces.reverse, row, rfl⟩)
      rw [List.append_assoc]
      exact .token lexed spelled
    rcases ite_eq_iff.1 step with ⟨rfl, step⟩ | ⟨backslash, step⟩
    · cases step
      exact goesOn (.escape row) rfl
    rcases ite_eq_iff.1 step with ⟨control, step⟩ | ⟨visible, step⟩
    · contradiction
    · cases step
      have plain : Row Piece.Spelling (.plain c :: pieces).reverse (content ++ [c]) := by
        rw [List.reverse_cons]
        exact row.append (.single (.plain quote backslash (Nat.not_lt.1 visible)))
      exact goesOn (.string plain) rfl
  | @escape pieces content row =>
    rw [step?_escape] at step
    rcases ite_eq_iff.1 step with ⟨rfl, step⟩ | ⟨-, step⟩
    · cases step
      have noDigits : List.Forall₂ IsHexDigit [] [] := .nil
      exact goesOn (.codeUnit row noDigits rfl (by decide)) (by simp)
    · obtain ⟨d, escape, step⟩ := Option.map_eq_some_iff.1 step
      subst step
      have short : Row Piece.Spelling (.plain d :: pieces).reverse (content ++ ['\\', c]) := by
        rw [List.reverse_cons]
        exact row.append (.single (.short (escaped?_eq_some_iff.1 escape)))
      exact goesOn (.string short) (by simp)
  | @codeUnit pieces content values digits digitsLeft row isDigits count some_ =>
    rw [step?_codeUnit] at step
    obtain ⟨digit, read, step⟩ := Option.map_eq_some_iff.1 step
    have isDigits : List.Forall₂ IsHexDigit (values ++ [digit]) (digits ++ [c]) :=
      List.rel_append isDigits (.cons (hexValue?_eq_some_iff.1 read) .nil)
    have value : 16 * values.foldl (16 * · + ·) 0 + digit = (values ++ [digit]).foldl (16 * · + ·) 0 := by
      rw [List.foldl_append]
      rfl
    have count' : (values ++ [digit]).length = values.length + 1 := List.length_append
    rw [value] at step
    by_cases last : digitsLeft ≤ 1
    · rw [if_pos last] at step
      subst step
      have unit : Piece.Spelling (.unit ((values ++ [digit]).foldl (16 * · + ·) 0))
          ('\\' :: 'u' :: (digits ++ [c])) := .of_digits isDigits (by omega)
      have whole : Row Piece.Spelling (.unit ((values ++ [digit]).foldl (16 * · + ·) 0) :: pieces).reverse
          (content ++ '\\' :: 'u' :: (digits ++ [c])) := by
        rw [List.reverse_cons]
        exact row.append (.single unit)
      exact goesOn (.string whole) (by simp)
    · rw [if_neg last] at step
      subst step
      exact goesOn (.codeUnit row isDigits (by omega) (by omega)) (by simp)
  | @number form sign rest lexeme isSign run whole =>
    rw [step?_number] at step
    split at step
    · rename_i form' next
      cases step
      have run : (rest ++ [c]).foldlM NumberForm.next? .minus = some form' := by
        rw [foldlM_append_of_some run, foldlM_cons_of_some next]
        rfl
      have whole : (c :: lexeme).reverse = sign ++ (rest ++ [c]) := by
        rw [List.reverse_cons, whole, List.append_assoc]
      exact goesOn (.number isSign run whole) (List.append_assoc ..)
    · rcases ite_eq_iff.1 step with ⟨complete, step⟩ | ⟨-, step⟩
      · refine .begin? ?_ step
        rw [List.reverse_cons]
        exact lexed.concat (isNumber_of_reads isSign run whole complete)
      · contradiction
  | @word part rest value spelled more =>
    cases rest with
    | nil => contradiction
    | cons letter rest =>
      rw [step?_word] at step
      have same : c = letter := by
        by_contra other
        rw [if_pos other] at step
        contradiction
      subst same
      rw [if_neg (not_not.2 rfl)] at step
      rcases ite_eq_iff.1 step with ⟨last, step⟩ | ⟨more, step⟩
      · cases step
        rw [List.isEmpty_iff.1 last] at spelled
        rw [List.append_assoc]
        exact .token lexed spelled
      · cases step
        rw [List.append_cons] at spelled
        exact goesOn (.word spelled fun none_ => more (List.isEmpty_iff.2 none_)) rfl

theorem Reads.foldlM {rest : List Char} (reads : scanner.Reads text)
    (run : rest.foldlM Scanner.step? scanner = some scanner') : scanner'.Reads (text ++ rest) :=
  foldlM_invariant (fun _ _ => Reads.step?) reads run

theorem Reads.finish? (reads : scanner.Reads text) (finish : scanner.finish? = some tokens) :
    Lexed tokens text := by
  obtain ⟨before, part, rfl, lexed, reads⟩ := reads
  obtain ⟨scan, tokens'⟩ := scanner
  cases reads with
  | between =>
    cases finish
    rwa [List.append_nil]
  | number isSign run whole =>
    rcases ite_eq_iff.1 finish with ⟨complete, finish⟩ | ⟨-, finish⟩
    · cases finish
      rw [List.reverse_cons]
      exact lexed.concat (isNumber_of_reads isSign run whole complete)
    · contradiction
  | string | escape | codeUnit | word => contradiction

end Scanner

theorem lexed_of_scan? {tokens : List Token} {text : List Char} (read : Token.scan? text = some tokens) :
    Lexed tokens text := by
  obtain ⟨scanner, run, finish⟩ := Option.bind_eq_some_iff.1 read
  have start : Scanner.start.Reads [] := .between (.nil nofun)
  exact (start.foldlM run).finish? finish

end SourceStamp.Json
