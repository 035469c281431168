import SourceStamp.Text.Quoted
import SourceStamp.Text.Template
import SourceStamp.Text.Units

/-! How JavaScript reads the text of its literals. A text is a row of UTF-16 code units; escapes may
spell any of them, also those that are no character of their own. The escapes are those of strict
code: a backslash in front of a digit, other than a lone zero, is an error.
-/

set_option autoImplicit false

namespace SourceStamp.Text

def unitsOf (point : Nat) : List Nat :=
  if point < 0x10000 then [point]
  else [0xD800 + (point - 0x10000) / 0x400, 0xDC00 + (point - 0x10000) % 0x400]

def units (text : List Char) : List Nat := text.flatMap fun c => unitsOf c.toNat

theorem units_append (a b : List Char) : units (a ++ b) = units a ++ units b := List.flatMap_append

-- A character of two units begins with one that no character has alone.
theorem eq_of_unitsOf_append_eq {c d : Char} {rest rest' : List Nat}
    (same : unitsOf c.toNat ++ rest = unitsOf d.toNat ++ rest') : c = d ∧ rest = rest' := by
  have scalar : ∀ c : Char, c.toNat < 0xD800 ∨ 0xDFFF < c.toNat ∧ c.toNat < 0x110000 := Char.valid
  have first := scalar c
  have second := scalar d
  rw [← Char.toNat_inj]
  unfold unitsOf at same
  split at same
  · split at same
    · simpa using same
    · simp only [List.cons_append, List.nil_append, List.cons.injEq] at same
      omega
  · split at same
    · simp only [List.cons_append, List.nil_append, List.cons.injEq] at same
      omega
    · simp only [List.cons_append, List.nil_append, List.cons.injEq] at same
      exact ⟨by omega, same.2.2⟩

theorem units_cons_ne_nil (c : Char) (text : List Char) : units (c :: text) ≠ [] := by
  rw [units, List.flatMap_cons]
  apply List.append_ne_nil_of_left_ne_nil
  unfold unitsOf
  split
  · exact List.cons_ne_nil _ _
  · exact List.cons_ne_nil _ _

theorem units_inj {text text' : List Char} : units text = units text' ↔ text = text' := by
  refine ⟨fun same => ?_, congrArg units⟩
  induction text generalizing text' with
  | nil =>
    cases text' with
    | nil => rfl
    | cons d text' => exact absurd same.symm (units_cons_ne_nil d text')
  | cons c text ih =>
    cases text' with
    | nil => exact absurd same (units_cons_ne_nil c text)
    | cons d text' =>
      obtain ⟨rfl, rest⟩ := eq_of_unitsOf_append_eq same
      exact congrArg (c :: ·) (ih rest)

def prepend (first : List Nat) (result : List Nat × List Char) : List Nat × List Char :=
  (first ++ result.1, result.2)

theorem prepend_comp_prepend (first second : List Nat) :
    prepend first ∘ prepend second = prepend (first ++ second) := by
  funext result
  exact congrArg (fun units => (units, result.2)) (List.append_assoc ..).symm

def hexValue? (c : Char) : Option Nat :=
  if '0' ≤ c ∧ c ≤ '9' then some (c.toNat - 48)
  else if 'a' ≤ c ∧ c ≤ 'f' then some (c.toNat - 87)
  else if 'A' ≤ c ∧ c ≤ 'F' then some (c.toNat - 55)
  else none

def readHex : Nat → Nat → List Char → Option (Nat × List Char)
  | 0, value, cs => some (value, cs)
  | _ + 1, _, [] => none
  | count + 1, value, c :: cs =>
    (hexValue? c).bind fun digit => readHex count (16 * value + digit) cs

def readBraced (value : Nat) : List Char → Option (Nat × List Char)
  | [] => none
  | c :: cs =>
    if c = '\x7d' then some (value, cs)
    else (hexValue? c).bind fun digit => readBraced (16 * value + digit) cs

/-- A code point behind `\u`: four digits, or a number in braces. -/
def readPoint : List Char → Option (Nat × List Char)
  | [] => none
  | c :: cs =>
    if c = '\x7b' ∧ cs.head? ≠ some '\x7d' then
      (readBraced 0 cs).filter fun (point, _) => point ≤ 0x10FFFF
    else readHex 4 0 (c :: cs)

-- A line feed behind a carriage return belongs to it.
def dropFeed : List Char → List Char
  | [] => []
  | c :: cs => if c = '\n' then cs else c :: cs

def letterEscape? (c : Char) : Option Nat :=
  [('b', 8), ('t', 9), ('n', 10), ('v', 11), ('f', 12), ('r', 13)].lookup c

def readEscape : List Char → Option (List Nat × List Char)
  | [] => none
  | c :: cs =>
    match letterEscape? c with
    | some unit => some ([unit], cs)
    | none =>
      if c = 'x' then (readHex 2 0 cs).map fun (unit, rest) => ([unit], rest)
      else if c = 'u' then (readPoint cs).map fun (point, rest) => (unitsOf point, rest)
      else if c.isDigit then
        if c = '0' ∧ ¬ cs.head?.any Char.isDigit then some ([0], cs) else none
      else if c = '\r' then some ([], dropFeed cs)
      else if c = '\n' ∨ c = '\u2028' ∨ c = '\u2029' then some ([], cs)
      else some (unitsOf c.toNat, cs)

/-- A kind of literal: where its text ends, and whether it goes on from line to line. -/
structure Quotation where
  ends : List Char → Bool
  multiline : Bool

namespace Quotation

def doubleQuoted : Quotation := ⟨fun cs => cs.head? = some '"', false⟩

def template : Quotation where
  ends := fun cs => cs.head? = none || cs.head? = some '\x60' || cs.take 2 = ['$', '\x7b']
  multiline := true

variable (kind : Quotation)

def readCharacter : List Char → Option (List Nat × List Char)
  | [] => none
  | c :: cs =>
    if c = '\\' then readEscape cs
    else if kind.multiline then
      if c = '\r' then some ([10], dropFeed cs) else some (unitsOf c.toNat, cs)
    else if c = '\n' ∨ c = '\r' then none
    else some (unitsOf c.toNat, cs)

end Quotation

theorem readHex_length_le {count value number : Nat} {cs rest : List Char}
    (result : readHex count value cs = some (number, rest)) : rest.length ≤ cs.length := by
  induction count generalizing value cs with
  | zero =>
    cases result
    exact Nat.le_refl _
  | succ count ih =>
    cases cs with
    | nil => contradiction
    | cons c cs =>
      obtain ⟨digit, -, result⟩ := Option.bind_eq_some_iff.1 result
      exact Nat.le_succ_of_le (ih result)

theorem readBraced_length_le {value number : Nat} {cs rest : List Char}
    (result : readBraced value cs = some (number, rest)) : rest.length ≤ cs.length := by
  induction cs generalizing value with
  | nil => contradiction
  | cons c cs ih =>
    rw [readBraced] at result
    split at result
    · cases result
      exact Nat.le_succ _
    · obtain ⟨digit, -, result⟩ := Option.bind_eq_some_iff.1 result
      exact Nat.le_succ_of_le (ih result)

theorem readPoint_length_le {point : Nat} {cs rest : List Char}
    (result : readPoint cs = some (point, rest)) : rest.length ≤ cs.length := by
  cases cs with
  | nil => contradiction
  | cons c cs =>
    rw [readPoint] at result
    split at result
    · exact Nat.le_succ_of_le (readBraced_length_le (Option.filter_eq_some_iff.1 result).1)
    · exact readHex_length_le result

theorem dropFeed_length_le (cs : List Char) : (dropFeed cs).length ≤ cs.length := by
  cases cs with
  | nil => exact Nat.le_refl _
  | cons c cs =>
    rw [dropFeed]
    split
    · exact Nat.le_succ _
    · exact Nat.le_refl _

theorem readEscape_length_le {read : List Nat} {cs rest : List Char}
    (result : readEscape cs = some (read, rest)) : rest.length ≤ cs.length := by
  cases cs with
  | nil => contradiction
  | cons c cs =>
    rw [List.length_cons]
    apply Nat.le_succ_of_le
    rw [readEscape] at result
    split at result
    · cases result
      exact Nat.le_refl _
    · split at result
      · obtain ⟨⟨unit, after⟩, digits, same⟩ := Option.map_eq_some_iff.1 result
        cases same
        exact readHex_length_le digits
      · split at result
        · obtain ⟨⟨point, after⟩, spelled, same⟩ := Option.map_eq_some_iff.1 result
          cases same
          exact readPoint_length_le spelled
        · repeat' split at result
          all_goals cases result
          · exact Nat.le_refl _
          · exact dropFeed_length_le cs
          · exact Nat.le_refl _
          · exact Nat.le_refl _

namespace Quotation

variable {kind : Quotation}

theorem readCharacter_length_lt {read : List Nat} {cs rest : List Char}
    (result : kind.readCharacter cs = some (read, rest)) : rest.length < cs.length := by
  cases cs with
  | nil => contradiction
  | cons c cs =>
    rw [List.length_cons, Nat.lt_succ_iff]
    rw [readCharacter] at result
    split at result
    · exact readEscape_length_le result
    · repeat' split at result
      all_goals cases result
      · exact dropFeed_length_le cs
      · exact Nat.le_refl _
      · exact Nat.le_refl _

def read (kind : Quotation) (cs : List Char) : Option (List Nat × List Char) :=
  if kind.ends cs then some ([], cs)
  else
    match _ : kind.readCharacter cs with
    | none => none
    | some (first, rest) => (kind.read rest).map (prepend first)
termination_by cs.length
decreasing_by exact readCharacter_length_lt ‹_›

theorem read_of_ends {kind : Quotation} {cs : List Char} (ended : kind.ends cs) :
    kind.read cs = some ([], cs) := by
  rw [read, if_pos ended]

theorem read_of_readCharacter {kind : Quotation} {first : List Nat} {cs rest : List Char}
    (goesOn : kind.ends cs = false) (found : kind.readCharacter cs = some (first, rest)) :
    kind.read cs = (kind.read rest).map (prepend first) := by
  rw [read, goesOn, if_neg Bool.false_ne_true]
  split
  · rename_i none_
    rw [found] at none_
    contradiction
  · rename_i some_
    rw [found] at some_
    cases some_
    rfl

theorem read_of_readCharacter_eq_none {kind : Quotation} {cs : List Char}
    (goesOn : kind.ends cs = false) (lost : kind.readCharacter cs = none) : kind.read cs = none := by
  rw [read, goesOn, if_neg Bool.false_ne_true]
  split
  · rfl
  · rename_i some_
    rw [lost] at some_
    contradiction

end Quotation

def readQuoted : List Char → Option (List Nat)
  | [] => none
  | c :: cs =>
    if c = '"' then
      (Quotation.doubleQuoted.read cs).bind fun (value, rest) =>
        if rest = ['"'] then some value else none
    else none

def cook (raw : List Char) : Option (List Nat) :=
  (Quotation.template.read raw).bind fun (cooked, rest) => if rest = [] then some cooked else none

-- What is read in front of a text is cooked in front of it.
theorem cook_of_read_eq {raw raw' : List Char} {front : List Nat}
    (read : Quotation.template.read raw = (Quotation.template.read raw').map (prepend front)) :
    cook raw = (cook raw').map (front ++ ·) := by
  unfold cook
  rw [read]
  cases Quotation.template.read raw' with
  | none => rfl
  | some result =>
    by_cases whole : result.2 = [] <;> simp [prepend, whole]

example : cook ("a\\x09\\u\x7b1F600\x7d\\\r\n\r\n".toList) = some (units "a\t😀\n".toList) := by
  cbv

example : cook "\\u\x7b110000\x7d".toList = none := by cbv

end SourceStamp.Text
