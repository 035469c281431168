import SourceStamp.Proofs.Stamp.Outermost
import SourceStamp.Proofs.Text.Escaping

/-! What a stamped throw throws: the tag, and behind it what was thrown before. A literal says its
text twice, as it is written and as it is meant, and both are changed; that they still agree is read
off the source text, by the rules of the language for it.
-/

set_option autoImplicit false

namespace SourceStamp

open Text

namespace TemplateElement

def fromRaw (element : TemplateElement) : Option (List Nat) := cook element.raw.toList

def fromCooked (element : TemplateElement) : Option (List Nat) :=
  element.cooked.map fun cooked => units cooked.toList

/-- What a template comes to; `values` are the substitutions, one between any two elements. -/
def evaluate (textOf : TemplateElement → Option (List Nat)) :
    List TemplateElement → List (List Nat) → Option (List Nat)
  | [last], [] => textOf last
  | element :: rest, value :: values =>
    (textOf element).bind fun text =>
      (evaluate textOf rest values).map fun others => text ++ value ++ others
  | _, _ => none

-- A template comes to something if it has one element more than substitutions, and all of them have
-- a text.
theorem isSome_evaluate_iff {textOf : TemplateElement → Option (List Nat)}
    {quasis : List TemplateElement} {values : List (List Nat)} :
    (evaluate textOf quasis values).isSome ↔
      quasis.length = values.length + 1 ∧ ∀ element ∈ quasis, (textOf element).isSome := by
  induction values generalizing quasis with
  | nil =>
    rcases quasis with - | ⟨only, - | ⟨next, rest⟩⟩ <;> simp [evaluate]
  | cons value values ih =>
    cases quasis with
    | nil => simp [evaluate]
    | cons element rest =>
      rw [evaluate, List.forall_mem_cons, List.length_cons, List.length_cons, Nat.add_right_cancel_iff]
      cases textOf element with
      | none => simp
      | some text =>
        rw [Option.bind_some, Option.isSome_map, ih]
        simp

-- Only the first element counts for what a template begins with.
theorem evaluate_cons_of_head {textOf : TemplateElement → Option (List Nat)} {text : List Nat}
    {head new : TemplateElement} (first : textOf new = (textOf head).map (text ++ ·))
    (rest : List TemplateElement) (values : List (List Nat)) :
    evaluate textOf (new :: rest) values =
      (evaluate textOf (head :: rest) values).map (text ++ ·) := by
  cases values with
  | nil =>
    cases rest with
    | nil => exact first
    | cons next rest => rfl
  | cons value values =>
    rw [evaluate, evaluate, first]
    cases textOf head with
    | none => rfl
    | some front => simp [Option.map_map, Function.comp_def]

/-- `new` is `head` with a text in front. The source text is read as before once it is past the
text that is put there, whatever comes behind it. -/
structure Prefixed (text : String) (head new : TemplateElement) : Prop where
  span : new.span = head.span
  tail : new.tail = head.tail
  cooked : new.cooked = head.cooked.map (text ++ ·)
  read : ∀ behind, Quotation.template.read (new.raw.toList ++ behind) =
    (Quotation.template.read (head.raw.toList ++ behind)).map (prepend (units text.toList))

namespace Prefixed

variable {text : String} {head new : TemplateElement}

theorem fromRaw_eq (prefixed : Prefixed text head new) :
    new.fromRaw = head.fromRaw.map (units text.toList ++ ·) := by
  have read := prefixed.read []
  rw [List.append_nil, List.append_nil] at read
  exact cook_of_read_eq read

theorem fromCooked_eq (prefixed : Prefixed text head new) :
    new.fromCooked = head.fromCooked.map (units text.toList ++ ·) := by
  unfold fromCooked
  rw [prefixed.cooked]
  cases head.cooked with
  | none => rfl
  | some cooked => simp [units_append]

theorem fromRaw_eq_fromCooked (prefixed : Prefixed text head new)
    (agree : head.fromRaw = head.fromCooked) : new.fromRaw = new.fromCooked := by
  rw [prefixed.fromRaw_eq, prefixed.fromCooked_eq, agree]

-- By either of its texts, a template comes to the text in front and what it came to before.
theorem evaluate_eq (prefixed : Prefixed text head new)
    {textOf : TemplateElement → Option (List Nat)} (either : textOf ∈ [fromRaw, fromCooked])
    (rest : List TemplateElement) (values : List (List Nat)) :
    evaluate textOf (new :: rest) values =
      (evaluate textOf (head :: rest) values).map (units text.toList ++ ·) := by
  apply evaluate_cons_of_head
  simp only [List.mem_cons, List.not_mem_nil, or_false] at either
  obtain rfl | rfl := either
  · exact prefixed.fromRaw_eq
  · exact prefixed.fromCooked_eq

end Prefixed

/-- A text may be put in front of an element unless the two make a substitution where they meet. -/
theorem prefixed_escapeTemplate {text : String} (seam : text.toList.getLast? ≠ some '$')
    (head : TemplateElement) :
    Prefixed text head
      ⟨head.span, head.tail, head.cooked.map (text ++ ·), escapeTemplate text ++ head.raw⟩ where
  span := rfl
  tail := rfl
  cooked := rfl
  read := by
    intro behind
    have raw : (escapeTemplate text ++ head.raw).toList =
        escapeTemplateChars text.toList ++ head.raw.toList := by
      rw [String.toList_append, escapeTemplate, String.toList_ofList]
    dsimp only
    rw [raw, List.append_assoc]
    exact template_read_escapeTemplateChars fun last => absurd last seam

end TemplateElement

/-- The text that a throw throws if no value is put into it. A template with a bad escape has none
but what is written. -/
def Node.constantText? : Node → Option String
  | .string literal => some literal.value
  | .template _ [] [only] => some (only.cooked.getD only.raw)
  | _ => none

namespace Rule

variable {debugCallee text : String} {span : Span}

theorem exists_throwStmt {argument replaced : Node}
    (rule : Rule debugCallee text (.throwStmt span argument) replaced) :
    ∃ new, replaced = .throwStmt span new := by
  cases rule <;> exact ⟨_, rfl⟩

theorem of_constantText {argument new : Node} {thrown : String}
    (rule : Rule debugCallee text (.throwStmt span argument) (.throwStmt span new))
    (constant : argument.constantText? = some thrown) :
    new = .string ⟨argument.span, text ++ thrown, some (quote (text ++ thrown))⟩ := by
  cases rule with
  | string =>
    cases constant
    rfl
  | @plainTemplate _ _ _ rest =>
    cases rest with
    | nil =>
      cases constant
      rfl
    | cons next rest => contradiction
  | emptyTemplate | ident => contradiction
  | @template _ _ exprs | @headlessTemplate _ _ exprs => cases exprs <;> contradiction

theorem of_template {literalSpan : Span} {exprs : List Node} {head : TemplateElement}
    {rest : List TemplateElement} {new : Node} (substitutes : exprs ≠ [])
    (rule : Rule debugCallee text (.throwStmt span (.template literalSpan exprs (head :: rest)))
      (.throwStmt span new)) :
    new = .template literalSpan exprs
      (⟨head.span, head.tail, head.cooked.map (text ++ ·), escapeTemplate text ++ head.raw⟩ ::
        rest) := by
  cases rule with
  | plainTemplate => contradiction
  | template => rfl

theorem of_ident {id : Ident} {new : Node}
    (rule : Rule debugCallee text (.throwStmt span (.ident id)) (.throwStmt span new)) :
    new = .binary id.span "+" (.string ⟨.dummy, text, none⟩) (.ident id) := by
  cases rule
  rfl

end Rule

namespace Stamper

theorem getLast?_tag {stamper : Stamper} {span : Span} {tag : String}
    (found : stamper.tag span = .ok tag) : tag.toList.getLast? = some ' ' := by
  have format : ∀ path line col, (Tag.format path line col).toList.getLast? = some ' ' := by
    intro path line col
    rw [Tag.format, String.toList_append]
    exact List.getLast?_append_of_ne_nil _ (by decide)
  unfold Stamper.tag at found
  split at found
  · cases found
    exact format ..
  · split at found
    · cases found
      exact format ..
    · obtain ⟨place, -, same⟩ := bind_eq_ok_iff.1 found
      cases same
      exact format ..

theorem seam_of_tag {stamper : Stamper} {span : Span} {tag : String}
    (found : stamper.tag span = .ok tag) : tag.toList.getLast? ≠ some '$' := by
  rw [getLast?_tag found]
  decide

theorem textOf_throwStmt (stamper : Stamper) (span : Span) (argument : Node) :
    stamper.textOf (.throwStmt span argument) = stamper.tag span := bind_pure _

/-- How a thrown expression takes a tag in front of its message. A constant text is written out such
that it is read as meant. A template keeps its substitutions and says the tag in front of them, in
the source as well as in the tree, so that it comes to the tag and what it came to before. -/
structure Tags (tag : String) (argument new : Node) : Prop where
  constant : ∀ text, argument.constantText? = some text →
    ∃ raw, new = .string ⟨argument.span, tag ++ text, some raw⟩ ∧
      readQuoted raw.toList = some (units (tag ++ text).toList)
  template : ∀ span exprs head rest, argument = .template span exprs (head :: rest) → exprs ≠ [] →
    ∃ tagged, new = .template span exprs (tagged :: rest) ∧
      TemplateElement.Prefixed tag head tagged ∧
      (head.fromRaw = head.fromCooked → tagged.fromRaw = tagged.fromCooked) ∧
      ∀ textOf ∈ [TemplateElement.fromRaw, TemplateElement.fromCooked],
        (∀ values, TemplateElement.evaluate textOf (tagged :: rest) values =
          (TemplateElement.evaluate textOf (head :: rest) values).map (units tag.toList ++ ·)) ∧
        (rest.length = exprs.length → (∀ element ∈ head :: rest, (textOf element).isSome) →
          ∀ values, values.length = exprs.length →
            (TemplateElement.evaluate textOf (tagged :: rest) values).isSome)
  ident : ∀ id, argument = .ident id →
    new = .binary id.span "+" (.string ⟨.dummy, tag, none⟩) (.ident id)

theorem tags_of_rule {debugCallee tag : String} {span : Span} {argument new : Node}
    (seam : tag.toList.getLast? ≠ some '$')
    (rule : Rule debugCallee tag (.throwStmt span argument) (.throwStmt span new)) :
    Tags tag argument new where
  constant := by
    intro text constant
    refine ⟨_, rule.of_constantText constant, ?_⟩
    rw [quote, String.toList_ofList, readQuoted_quoteChars]
  template := by
    intro literalSpan exprs head rest same substitutes
    subst same
    have prefixed := TemplateElement.prefixed_escapeTemplate seam head
    refine ⟨_, rule.of_template substitutes, prefixed, prefixed.fromRaw_eq_fromCooked, ?_⟩
    intro textOf either
    refine ⟨prefixed.evaluate_eq either rest, ?_⟩
    intro sized texts values count
    rw [prefixed.evaluate_eq either, Option.isSome_map, TemplateElement.isSome_evaluate_iff]
    exact ⟨by rw [List.length_cons, sized, count], texts⟩
  ident := by
    intro id same
    subst same
    exact rule.of_ident

/-- A throw that a pass stamps throws the tag of its place and behind it what it threw before. -/
theorem run_tags_throw (stamper : Stamper) (collects : Bool) (program : Node)
    (answers : stamper.AnswersPass program) :
    ∃ report, stamper.run collects program = .ok report ∧
      ∀ address span argument, program.OutermostTarget address (.throwStmt span argument) →
        ∃ tag new, stamper.tag span = .ok tag ∧
          report.program.at? address = some (.throwStmt span new) ∧ Tags tag argument new := by
  obtain ⟨whole, events, -, result⟩ := exists_run_of_answersPass answers collects
  refine ⟨_, result, ?_⟩
  intro address span argument outermost
  obtain ⟨replaced, ⟨tag, known, rule⟩, found⟩ := run_at?_of_outermostTarget result outermost
  obtain ⟨new, rfl⟩ := rule.exists_throwStmt
  rw [textOf_throwStmt] at known
  exact ⟨tag, new, known, found, tags_of_rule (seam_of_tag known) rule⟩

/-- A file whose name would end the template and begin another one. -/
theorem run_tags_throw_template :
    let stamper : Stamper := ⟨some (.ofSources [("$\x7b\x60.js", "throw \x60a$\x7be\x7d\x60;")]), none, "d"⟩
    let head : TemplateElement := ⟨⟨8, 9⟩, false, some "a", "a"⟩
    let last : TemplateElement := ⟨⟨13, 13⟩, true, some "", ""⟩
    let argument : Node := .template ⟨7, 14⟩ [.ident ⟨⟨11, 12⟩, 0, "e", false⟩] [head, last]
    let program : Node := .throwStmt ⟨1, 15⟩ argument
    stamper.AnswersPass program ∧ ∃ report tagged, stamper.run false program = .ok report ∧
      report.program.at? [] = some (.throwStmt ⟨1, 15⟩
        (.template ⟨7, 14⟩ [.ident ⟨⟨11, 12⟩, 0, "e", false⟩] [tagged, last])) ∧
      TemplateElement.evaluate TemplateElement.fromRaw [tagged, last] [units ['x']] =
        some (units "[$\x7b\x60.js:1:1] ax".toList) := by
  intro stamper head last argument program
  have tag : stamper.tag ⟨1, 15⟩ = .ok "[$\x7b\x60.js:1:1] " := by decide +kernel
  have answers : stamper.AnswersPass program :=
    (answersPass_iff_of_isTarget rfl).2 ⟨_, (textOf_throwStmt ..).trans tag⟩
  obtain ⟨report, result, tagged⟩ := run_tags_throw stamper false program answers
  obtain ⟨text, new, known, found, tags⟩ :=
    tagged [] ⟨1, 15⟩ argument (Node.outermost_nil_iff.2 ⟨rfl, rfl⟩)
  cases tag.symm.trans known
  obtain ⟨tagged, rfl, -, -, comes⟩ := tags.template _ _ head [last] rfl (by simp)
  refine ⟨answers, report, tagged, result, found, ?_⟩
  have front : head.fromRaw = some (units ['a']) := by
    have raw : head.raw.toList = escapeTemplateChars ['a'] := by decide
    rw [TemplateElement.fromRaw, raw, cook_escapeTemplateChars]
  have back : last.fromRaw = some (units []) := cook_escapeTemplateChars []
  rw [(comes TemplateElement.fromRaw (by simp)).1, TemplateElement.evaluate, TemplateElement.evaluate,
    front, back]
  rfl

end Stamper

end SourceStamp
