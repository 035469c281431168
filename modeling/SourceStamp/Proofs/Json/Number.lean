import Mathlib.Data.List.Basic
import SourceStamp.Proofs.Json.Grammar
import SourceStamp.Proofs.Outcome

/-! The machine that reads a number ends in a complete form exactly on the numbers of the grammar. Its
forms say how far a number has been read.
-/

set_option autoImplicit false

namespace SourceStamp.Json.NumberForm

/-- What has been read of a number, without its sign. -/
inductive Reads : NumberForm → List Char → Prop
  | minus : Reads .minus []
  | zero : Reads .zero ['0']
  | integer {first : Char} {rest : List Char} : first.isDigit → first ≠ '0' → (∀ c ∈ rest, c.isDigit) →
      Reads .integer (first :: rest)
  | point {whole : List Char} : IsInteger whole → Reads .point (whole ++ ['.'])
  | fraction {whole digits : List Char} : IsInteger whole → IsDigits digits →
      Reads .fraction (whole ++ '.' :: digits)
  | exponentMark {whole fraction : List Char} {mark : Char} : IsInteger whole → IsFraction fraction →
      mark ∈ ['e', 'E'] → Reads .exponentMark (whole ++ fraction ++ [mark])
  | exponentSign {whole fraction : List Char} {mark sign : Char} : IsInteger whole →
      IsFraction fraction → mark ∈ ['e', 'E'] → sign ∈ ['+', '-'] →
      Reads .exponentSign (whole ++ fraction ++ [mark, sign])
  | exponent {whole fraction sign digits : List Char} {mark : Char} : IsInteger whole →
      IsFraction fraction → mark ∈ ['e', 'E'] → sign ∈ [[], ['+'], ['-']] → IsDigits digits →
      Reads .exponent (whole ++ fraction ++ mark :: (sign ++ digits))

theorem isDigits_single {c : Char} (digit : c.isDigit) : IsDigits [c] :=
  ⟨List.cons_ne_nil _ _, List.forall_mem_singleton.2 digit⟩

theorem isDigits_concat {digits : List Char} {c : Char} (before : IsDigits digits) (digit : c.isDigit) :
    IsDigits (digits ++ [c]) :=
  ⟨List.append_ne_nil_of_left_ne_nil before.1 _,
    List.forall_mem_append.2 ⟨before.2, List.forall_mem_singleton.2 digit⟩⟩

theorem Reads.mark {whole : List Char} {mark : Char} (integer : IsInteger whole)
    (isMark : mark = 'e' ∨ mark = 'E') : Reads .exponentMark (whole ++ [mark]) := by
  have read := Reads.exponentMark integer .absent (List.mem_pair.2 isMark)
  rwa [List.append_nil] at read

theorem Reads.next {form form' : NumberForm} {text : List Char} {c : Char} (read : form.Reads text)
    (step : form.next? c = some form') : form'.Reads (text ++ [c]) := by
  cases read with
  | minus =>
    rw [next?] at step
    rcases ite_eq_iff.1 step with ⟨rfl, step⟩ | ⟨nonzero, step⟩
    · cases step
      exact .zero
    rcases ite_eq_iff.1 step with ⟨digit, step⟩ | ⟨-, step⟩
    · cases step
      exact .integer digit nonzero nofun
    · contradiction
  | zero =>
    rw [next?] at step
    rcases ite_eq_iff.1 step with ⟨rfl, step⟩ | ⟨-, step⟩
    · cases step
      exact .point .zero
    rcases ite_eq_iff.1 step with ⟨isMark, step⟩ | ⟨-, step⟩
    · cases step
      exact .mark .zero isMark
    · contradiction
  | @integer first rest firstDigit nonzero digits =>
    rw [next?] at step
    rcases ite_eq_iff.1 step with ⟨digit, step⟩ | ⟨-, step⟩
    · cases step
      have digits := List.forall_mem_append.2 ⟨digits, List.forall_mem_singleton.2 digit⟩
      exact .integer firstDigit nonzero digits
    rcases ite_eq_iff.1 step with ⟨rfl, step⟩ | ⟨-, step⟩
    · cases step
      exact .point (.digits firstDigit nonzero digits)
    rcases ite_eq_iff.1 step with ⟨isMark, step⟩ | ⟨-, step⟩
    · cases step
      exact .mark (.digits firstDigit nonzero digits) isMark
    · contradiction
  | point integer =>
    rw [next?] at step
    rcases ite_eq_iff.1 step with ⟨digit, step⟩ | ⟨-, step⟩
    · cases step
      rw [List.append_assoc]
      exact .fraction integer (isDigits_single digit)
    · contradiction
  | fraction integer digits =>
    rw [next?] at step
    rcases ite_eq_iff.1 step with ⟨digit, step⟩ | ⟨-, step⟩
    · cases step
      rw [List.append_assoc]
      exact .fraction integer (isDigits_concat digits digit)
    rcases ite_eq_iff.1 step with ⟨isMark, step⟩ | ⟨-, step⟩
    · cases step
      exact .exponentMark integer (.digits digits) (List.mem_pair.2 isMark)
    · contradiction
  | @exponentMark whole fraction mark integer isFraction isMark =>
    rw [next?] at step
    rcases ite_eq_iff.1 step with ⟨isSign, step⟩ | ⟨-, step⟩
    · cases step
      rw [List.append_assoc (whole ++ fraction)]
      exact .exponentSign integer isFraction isMark (List.mem_pair.2 isSign)
    rcases ite_eq_iff.1 step with ⟨digit, step⟩ | ⟨-, step⟩
    · cases step
      rw [List.append_assoc (whole ++ fraction)]
      exact .exponent integer isFraction isMark (.head _) (isDigits_single digit)
    · contradiction
  | @exponentSign whole fraction mark sign integer isFraction isMark isSign =>
    rw [next?] at step
    rcases ite_eq_iff.1 step with ⟨digit, step⟩ | ⟨-, step⟩
    · cases step
      rw [List.append_assoc (whole ++ fraction)]
      have signs : [sign] ∈ [[], ['+'], ['-']] := by simpa using isSign
      exact .exponent integer isFraction isMark signs (isDigits_single digit)
    · contradiction
  | @exponent whole fraction sign digits mark integer isFraction isMark isSign isDigits =>
    rw [next?] at step
    rcases ite_eq_iff.1 step with ⟨digit, step⟩ | ⟨-, step⟩
    · cases step
      rw [List.append_assoc (whole ++ fraction), List.cons_append, List.append_assoc sign]
      exact .exponent integer isFraction isMark isSign (isDigits_concat isDigits digit)
    · contradiction

theorem Reads.foldlM {form form' : NumberForm} {text rest : List Char} (read : form.Reads text)
    (run : rest.foldlM next? form = some form') : form'.Reads (text ++ rest) :=
  foldlM_invariant (fun _ _ => Reads.next) read run

theorem Reads.isNumber {form : NumberForm} {sign text : List Char} (read : form.Reads text)
    (complete : form.isComplete) (isSign : sign ∈ [[], ['-']]) : IsNumber (sign ++ text) := by
  cases read with
  | minus | point | exponentMark | exponentSign => cases complete
  | zero => exact .mk isSign .zero .absent .absent
  | integer digit nonzero digits =>
    have number := IsNumber.mk isSign (.digits digit nonzero digits) .absent .absent
    rwa [List.append_nil, List.append_nil] at number
  | fraction integer digits =>
    have number := IsNumber.mk isSign integer (.digits digits) .absent
    rwa [List.append_nil] at number
  | exponent integer isFraction isMark signs digits =>
    exact .mk isSign integer isFraction (.digits isMark signs digits)

theorem foldlM_next?_digits {form : NumberForm} (stays : ∀ c, c.isDigit → form.next? c = some form)
    {digits : List Char} (all : ∀ c ∈ digits, c.isDigit) : digits.foldlM next? form = some form := by
  induction digits with
  | nil => rfl
  | cons c digits ih =>
    obtain ⟨digit, all⟩ := List.forall_mem_cons.1 all
    rw [foldlM_cons_of_some (stays c digit)]
    exact ih all

-- Digits lead from a form that asks for one to the form in which there may be more.
theorem foldlM_next?_isDigits {form form' : NumberForm}
    (begins : ∀ c, c.isDigit → form.next? c = some form')
    (goesOn : ∀ c, c.isDigit → form'.next? c = some form') {digits : List Char}
    (isDigits : IsDigits digits) : digits.foldlM next? form = some form' := by
  obtain ⟨nonempty, all⟩ := isDigits
  cases digits with
  | nil => contradiction
  | cons c digits =>
    obtain ⟨digit, all⟩ := List.forall_mem_cons.1 all
    rw [foldlM_cons_of_some (begins c digit)]
    exact foldlM_next?_digits goesOn all

theorem exists_foldlM_next?_integer {whole : List Char} (integer : IsInteger whole) :
    ∃ form, whole.foldlM next? .minus = some form ∧ (form = .zero ∨ form = .integer) := by
  cases integer with
  | zero => exact ⟨.zero, rfl, .inl rfl⟩
  | @digits first rest digit nonzero digits =>
    have begins : next? .minus first = some .integer := by rw [next?, if_neg nonzero, if_pos digit]
    refine ⟨.integer, ?_, .inr rfl⟩
    rw [foldlM_cons_of_some begins]
    refine foldlM_next?_digits ?_ digits
    exact fun c digit => if_pos digit

theorem exists_foldlM_next?_fraction {fraction : List Char} (isFraction : IsFraction fraction)
    {form : NumberForm} (before : form = .zero ∨ form = .integer) :
    ∃ form', fraction.foldlM next? form = some form' ∧
      (form' = .zero ∨ form' = .integer ∨ form' = .fraction) := by
  cases isFraction with
  | absent => exact ⟨form, rfl, before.imp_right .inl⟩
  | digits isDigits =>
    have point : form.next? '.' = some .point := by rcases before with rfl | rfl <;> rfl
    refine ⟨.fraction, ?_, .inr (.inr rfl)⟩
    rw [foldlM_cons_of_some point]
    refine foldlM_next?_isDigits ?_ ?_ isDigits
    · exact fun c digit => if_pos digit
    · exact fun c digit => if_pos digit

theorem exists_foldlM_next?_exponent {exponent : List Char} (isExponent : IsExponent exponent)
    {form : NumberForm} (before : form = .zero ∨ form = .integer ∨ form = .fraction) :
    ∃ form', exponent.foldlM next? form = some form' ∧ form'.isComplete := by
  cases isExponent with
  | absent =>
    refine ⟨form, rfl, ?_⟩
    rcases before with rfl | rfl | rfl <;> rfl
  | @digits mark sign digits isMark isSign isDigits =>
    have marked : form.next? mark = some .exponentMark := by
      rcases List.mem_pair.1 isMark with rfl | rfl <;> rcases before with rfl | rfl | rfl <;> rfl
    refine ⟨.exponent, ?_, rfl⟩
    rw [foldlM_cons_of_some marked]
    simp only [List.mem_cons, List.not_mem_nil, or_false] at isSign
    rcases isSign with rfl | signed
    · refine foldlM_next?_isDigits (fun c digit => ?_) ?_ isDigits
      · have unsigned : ¬ (c = '+' ∨ c = '-') := by rintro (rfl | rfl) <;> contradiction
        rw [next?, if_neg unsigned, if_pos digit]
      · exact fun c digit => if_pos digit
    · have signs : sign.foldlM next? .exponentMark = some .exponentSign := by
        rcases signed with rfl | rfl <;> rfl
      rw [foldlM_append_of_some signs]
      refine foldlM_next?_isDigits ?_ ?_ isDigits
      · exact fun c digit => if_pos digit
      · exact fun c digit => if_pos digit

/-- A text is a number if it leads to a complete form, behind a minus or not. -/
theorem isNumber_iff {text : List Char} : IsNumber text ↔
    ∃ sign rest form, sign ∈ [[], ['-']] ∧ text = sign ++ rest ∧ rest.foldlM next? .minus = some form ∧
      form.isComplete := by
  constructor
  · rintro ⟨isSign, integer, isFraction, isExponent⟩
    obtain ⟨form, first, before⟩ := exists_foldlM_next?_integer integer
    obtain ⟨form, second, before⟩ := exists_foldlM_next?_fraction isFraction before
    obtain ⟨form, third, complete⟩ := exists_foldlM_next?_exponent isExponent before
    refine ⟨_, _, form, isSign, rfl, ?_, complete⟩
    rw [List.append_assoc, foldlM_append_of_some first, foldlM_append_of_some second]
    exact third
  · rintro ⟨sign, rest, form, isSign, rfl, run, complete⟩
    have read : form.Reads ([] ++ rest) := Reads.minus.foldlM run
    exact read.isNumber complete isSign

end SourceStamp.Json.NumberForm
