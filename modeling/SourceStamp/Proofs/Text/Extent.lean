import SourceStamp.Proofs.Text.Escaping

/-! Where the text of a template ends. The end is found without regard to what the escapes mean, and also
where they mean nothing; a reading that succeeds stops at the same place. An escaped text moves neither
the end nor the meaning of what is written behind it.
-/

set_option autoImplicit false

namespace SourceStamp.Text

open Quotation

/-- What is left of a source where the text of a template ends: from the first backtick or substitution
on that no backslash stands in front of. -/
def templateRest : List Char → List Char
  | [] => []
  | [c] => if template.ends [c] then [c] else []
  | c :: d :: cs =>
    if c = '\\' then templateRest cs
    else if template.ends (c :: d :: cs) then c :: d :: cs
    else templateRest (d :: cs)

theorem templateRest_escape (c : Char) (cs : List Char) :
    templateRest ('\\' :: c :: cs) = templateRest cs := by
  rw [templateRest, if_pos rfl]

theorem templateRest_of_ends {cs : List Char} (ended : template.ends cs) : templateRest cs = cs := by
  match cs with
  | [] => rfl
  | [c] => rw [templateRest, if_pos ended]
  | c :: d :: cs =>
    have plain : c ≠ '\\' := by
      rintro rfl
      contradiction
    rw [templateRest, if_neg plain, if_pos ended]

theorem templateRest_of_not_ends {c : Char} {cs : List Char} (backslash : c ≠ '\\')
    (goesOn : template.ends (c :: cs) = false) : templateRest (c :: cs) = templateRest cs := by
  cases cs with
  | nil =>
    apply if_neg
    rw [goesOn]
    exact Bool.false_ne_true
  | cons d cs => rw [templateRest, if_neg backslash, goesOn, if_neg Bool.false_ne_true]

theorem templateRest_plain {c : Char} (plain : c ∉ ['\\', '\x60', '$']) (cs : List Char) :
    templateRest (c :: cs) = templateRest cs := by
  simp only [List.mem_cons, List.not_mem_nil, or_false, not_or] at plain
  obtain ⟨backslash, quote, dollar⟩ := plain
  exact templateRest_of_not_ends backslash (template_ends_plain quote fun same => absurd same dollar)

-- The digits and braces of an escape do not end a template.
theorem plain_of_hexValue? {c : Char} {digit : Nat} (known : hexValue? c = some digit) :
    c ∉ ['\\', '\x60', '$'] := by
  intro special
  simp only [List.mem_cons, List.not_mem_nil, or_false] at special
  rcases special with rfl | rfl | rfl <;> contradiction

theorem templateRest_of_readHex {count value number : Nat} {cs rest : List Char}
    (result : readHex count value cs = some (number, rest)) : templateRest cs = templateRest rest := by
  induction count generalizing value cs with
  | zero =>
    cases result
    rfl
  | succ count ih =>
    cases cs with
    | nil => contradiction
    | cons c cs =>
      obtain ⟨digit, known, result⟩ := Option.bind_eq_some_iff.1 result
      rw [templateRest_plain (plain_of_hexValue? known), ih result]

theorem templateRest_of_readBraced {value number : Nat} {cs rest : List Char}
    (result : readBraced value cs = some (number, rest)) : templateRest cs = templateRest rest := by
  induction cs generalizing value with
  | nil => contradiction
  | cons c cs ih =>
    rw [readBraced] at result
    split at result
    · rename_i brace
      cases result
      rw [brace, templateRest_plain (by decide)]
    · obtain ⟨digit, known, result⟩ := Option.bind_eq_some_iff.1 result
      rw [templateRest_plain (plain_of_hexValue? known), ih result]

theorem templateRest_of_readPoint {point : Nat} {cs rest : List Char}
    (result : readPoint cs = some (point, rest)) : templateRest cs = templateRest rest := by
  cases cs with
  | nil => contradiction
  | cons c cs =>
    rw [readPoint] at result
    split at result
    · rename_i brace
      rw [brace.1, templateRest_plain (by decide),
        templateRest_of_readBraced (Option.filter_eq_some_iff.1 result).1]
    · exact templateRest_of_readHex result

theorem templateRest_dropFeed (cs : List Char) : templateRest (dropFeed cs) = templateRest cs := by
  cases cs with
  | nil => rfl
  | cons c cs =>
    rw [dropFeed]
    split
    · rename_i feed
      rw [feed, templateRest_plain (by decide)]
    · rfl

-- All that is read behind the first character of an escape is plain.
theorem templateRest_of_readEscape {read : List Nat} {cs rest : List Char}
    (result : readEscape cs = some (read, rest)) : templateRest ('\\' :: cs) = templateRest rest := by
  cases cs with
  | nil => contradiction
  | cons c cs =>
    rw [templateRest_escape]
    rw [readEscape] at result
    split at result
    · cases result
      rfl
    · split at result
      · obtain ⟨⟨unit, after⟩, digits, same⟩ := Option.map_eq_some_iff.1 result
        cases same
        exact templateRest_of_readHex digits
      · split at result
        · obtain ⟨⟨point, after⟩, spelled, same⟩ := Option.map_eq_some_iff.1 result
          cases same
          exact templateRest_of_readPoint spelled
        · repeat' split at result
          all_goals cases result
          · rfl
          · exact (templateRest_dropFeed cs).symm
          · rfl
          · rfl

theorem templateRest_of_readCharacter {read : List Nat} {cs rest : List Char}
    (goesOn : template.ends cs = false) (result : template.readCharacter cs = some (read, rest)) :
    templateRest cs = templateRest rest := by
  cases cs with
  | nil => contradiction
  | cons c cs =>
    rw [readCharacter] at result
    split at result
    · rename_i backslash
      rw [backslash]
      exact templateRest_of_readEscape result
    · rename_i backslash
      rw [templateRest_of_not_ends backslash goesOn]
      repeat' split at result
      all_goals cases result
      · exact (templateRest_dropFeed cs).symm
      · rfl
      · contradiction

/-- A reading that succeeds stops where the text of the template ends. -/
theorem rest_eq_templateRest {cooked : List Nat} {cs rest : List Char}
    (result : template.read cs = some (cooked, rest)) : rest = templateRest cs := by
  induction cs using Quotation.read.induct template generalizing cooked rest with
  | case1 cs ended =>
    rw [read_of_ends ended] at result
    cases result
    exact (templateRest_of_ends ended).symm
  | case2 cs goesOn lost =>
    rw [read_of_readCharacter_eq_none (eq_false_of_ne_true goesOn) lost] at result
    contradiction
  | case3 cs goesOn first behind found ih =>
    have goesOn := eq_false_of_ne_true goesOn
    rw [read_of_readCharacter goesOn found] at result
    obtain ⟨⟨others, left⟩, read, same⟩ := Option.map_eq_some_iff.1 result
    cases same
    rw [templateRest_of_readCharacter goesOn found]
    exact ih read

section

variable {text rest : List Char}

theorem templateRest_escapeTemplateChars (seam : text.getLast? = some '$' → rest.head? ≠ some '\x7b') :
    templateRest (escapeTemplateChars text ++ rest) = templateRest rest := by
  induction text with
  | nil => rfl
  | cons c cs ih =>
    have others := ih (seam_of_cons seam)
    obtain ⟨letter, written, -⟩ | ⟨written, backslash, quote, -, alone⟩ :=
      escapeTemplateChars_cons_cases c cs
    · rw [written, List.cons_append, List.cons_append, templateRest_escape, others]
    · rw [written, List.cons_append, templateRest_of_not_ends backslash, others]
      exact template_ends_plain quote (head?_ne_of_seam seam alone)

/-- A dollar sign at the end and an opening brace behind it do make a substitution. -/
theorem templateRest_of_not_seam (dollar : text.getLast? = some '$') (brace : rest.head? = some '\x7b') :
    templateRest (escapeTemplateChars text ++ rest) = '$' :: rest := by
  obtain ⟨front, rfl⟩ := List.getLast?_eq_some_iff.1 dollar
  obtain ⟨behind, rfl⟩ := List.head?_eq_some_iff.1 brace
  have apart : escapeTemplateChars (front ++ ['$']) = escapeTemplateChars front ++ ['$'] :=
    escapeTemplateChars_append fun _ => by decide
  rw [apart, List.append_assoc, templateRest_escapeTemplateChars fun _ => by simp]
  exact templateRest_of_ends rfl

end

/-- An escaped text may stand in front of any source. Unless its last character makes a substitution
with what is behind, it is read as the text, and everything behind it as without it: the same escapes have
no meaning, and the template ends at the same place, whether they have one or not. Alone it is
a whole template, and its text is the one that was escaped. -/
theorem escapeTemplate_reads (text : String) :
    let raw := (escapeTemplate text).toList
    (∀ rest : List Char, text.toList.getLast? ≠ some '$' ∨ rest.head? ≠ some '\x7b' →
        template.read (raw ++ rest) = (template.read rest).map (prepend (units text.toList)) ∧
        cook (raw ++ rest) = (cook rest).map (units text.toList ++ ·) ∧
        templateRest (raw ++ rest) = templateRest rest ∧
        ∀ cooked left, template.read (raw ++ rest) = some (cooked, left) → left = templateRest rest) ∧
      (∀ rest : List Char, text.toList.getLast? = some '$' → rest.head? = some '\x7b' →
        templateRest (raw ++ rest) = '$' :: rest) ∧
      templateRest raw = [] ∧ cook raw = some (units text.toList) := by
  intro raw
  have source : raw = escapeTemplateChars text.toList := String.toList_ofList
  rw [source]
  refine ⟨fun rest apart => ?_, fun rest => templateRest_of_not_seam, ?_, cook_escapeTemplateChars _⟩
  · have seam : text.toList.getLast? = some '$' → rest.head? ≠ some '\x7b' :=
      fun last => apart.resolve_left (not_not_intro last)
    have read := template_read_escapeTemplateChars seam
    have extent := templateRest_escapeTemplateChars seam
    refine ⟨read, cook_of_read_eq read, extent, fun cooked left result => ?_⟩
    rw [← extent]
    exact rest_eq_templateRest result
  · have alone : templateRest (escapeTemplateChars text.toList ++ []) = [] :=
      templateRest_escapeTemplateChars fun _ => by simp
    rwa [List.append_nil] at alone

/-- Behind the escaped text stands an escape without meaning, and behind that the end. -/
theorem escapeTemplate_reads_malformed :
    let text := "$$\x7b\r\n$"
    let raw := (escapeTemplate text).toList
    let rest := "\\u\x7bz\x7d\x60y".toList
    cook (raw ++ rest) = none ∧ templateRest (raw ++ rest) = "\x60y".toList ∧
      templateRest (raw ++ ['\x7b']) = ['$', '\x7b'] ∧ cook raw = some (units text.toList) := by
  intro text raw rest
  obtain ⟨apart, meets, -, alone⟩ := escapeTemplate_reads text
  obtain ⟨-, cooked, extent, -⟩ := apart rest (.inr (by decide))
  have malformed : cook rest = none := by
    rw [cook, read_of_readCharacter_eq_none (by decide) (by decide)]
    rfl
  refine ⟨?_, ?_, meets ['\x7b'] (by decide) rfl, alone⟩
  · rw [cooked, malformed]
    rfl
  · rw [extent]
    decide

end SourceStamp.Text
