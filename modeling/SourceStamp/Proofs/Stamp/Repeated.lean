import SourceStamp.Proofs.Stamp.Message
import SourceStamp.Proofs.Stamp.Rounds

/-! Throws that are stamped over and over. A stamped literal is a target again, so it takes one tag in
each pass; a stamped identifier has become a sum, which is none. What is put into a template is part
of a target in every pass, and is never reached.
-/

set_option autoImplicit false

namespace SourceStamp

open Text

namespace Text

def repeated (count : Nat) (text : String) : String := String.join (List.replicate count text)

theorem repeated_one (text : String) : repeated 1 text = text := by
  rw [repeated, List.replicate_one, String.join_cons, String.join_nil, String.append_empty]

theorem repeated_succ (count : Nat) (text : String) :
    repeated (count + 1) text = text ++ repeated count text := by
  rw [repeated, List.replicate_succ, String.join_cons, repeated]

end Text

namespace Node

def literalText? : Node → Option String
  | .string literal => some literal.value
  | .template _ [] quasis => some (TemplateElement.textOf quasis)
  | _ => none

section

variable {debugCallee : String} {label : Node → String}

-- Stamping does not reach further up than the targets, and finds the others where they were.
theorem at?_stampOutermost {root node : Node} {address : Address}
    (clear : NoneAbove (fun node => node.isTarget) root address)
    (reached : root.at? address = some node) :
    (root.stampOutermost debugCallee label).at? address =
        some (node.stampOutermost debugCallee label) ∧
      NoneAbove (fun node => node.isTarget) (root.stampOutermost debugCallee label) address := by
  induction address generalizing root with
  | nil =>
    cases Option.some.inj reached
    exact ⟨rfl, noneAbove_nil _⟩
  | cons index rest ih =>
    obtain ⟨part, found, reached⟩ := at?_cons_eq_some_iff.1 reached
    obtain ⟨atRoot, inPart⟩ := (noneAbove_cons_iff found).1 clear
    obtain ⟨here, above⟩ := ih inPart reached
    have other : root.isTarget = false := by simpa using atRoot
    rw [stampOutermost_of_not_isTarget other]
    have found : (root.mapChildren (stampOutermost debugCallee label)).children[index]? =
        some (part.stampOutermost debugCallee label) := by
      rw [children_mapChildren, List.getElem?_map, found]
      rfl
    refine ⟨at?_cons_eq_some_iff.2 ⟨_, found, here⟩, (noneAbove_cons_iff found).2 ⟨?_, above⟩⟩
    simp [isTarget_mapChildren_stampOutermost other]

end

end Node

namespace Rule

variable {debugCallee text : String} {old new : Node}

theorem span_eq (rule : Rule debugCallee text old new) : new.span = old.span := by
  induction rule with
  | chain _ ih => exact ih
  | _ => rfl

-- What a stamped call would show is the string that was put into it.
theorem subject?_cases (rule : Rule debugCallee text old new) :
    new.subject? = none ∨ new.subject? = some ⟨none, .string ⟨.dummy, text, none⟩⟩ := by
  have inCall : ∀ (c : Call Node) (name : String) (typeArgs : Option Node),
      (Node.call (c.withText name text typeArgs)).subject? = none ∨
        (Node.call (c.withText name text typeArgs)).subject? =
          some ⟨none, .string ⟨.dummy, text, none⟩⟩ := by
    intro c name typeArgs
    rw [Node.subject?]
    split
    · exact .inr rfl
    · exact .inl rfl
  induction rule with
  | print | warn | debug => exact inCall ..
  | chain _ ih => exact ih
  | _ => exact .inl rfl

end Rule

namespace Stamper

variable {stamper : Stamper}

-- A stamped node stands where it stood, and the source map is not asked about what was put in.
theorem exists_textOf_of_rule {debugCallee text : String} {old new : Node}
    (rule : Rule debugCallee text old new) (known : ∃ text, stamper.textOf old = .ok text) :
    ∃ text, stamper.textOf new = .ok text := by
  obtain ⟨_, known⟩ := known
  obtain ⟨tag, place, -⟩ := bind_eq_ok_iff.1 known
  rw [← rule.span_eq] at place
  unfold textOf
  rcases rule.subject?_cases with shown | shown
  · exact ⟨tag, bind_eq_ok_iff.2 ⟨tag, place, by rw [shown]; rfl⟩⟩
  · have source : stamper.sourceText ⟨none, .string ⟨.dummy, text, none⟩⟩ = .ok "<expr>" := by
      obtain ⟨sourceMap, baseDir, debugCallee⟩ := stamper
      cases sourceMap <;> rfl
    refine ⟨tag ++ "<expr>" ++ " = ", bind_eq_ok_iff.2 ⟨tag, place, ?_⟩⟩
    rw [shown]
    exact bind_eq_ok_iff.2 ⟨_, source, rfl⟩

theorem labels_treeAfter {root : Node}
    (answers : root.AllTargets fun node => ∃ text, stamper.textOf node = .ok text) (passes : Nat) :
    stamper.Labels stamper.labelOf (stamper.treeAfter stamper.labelOf passes root) := by
  apply labels_labelOf
  induction passes with
  | zero => exact answers
  | succ passes ih =>
    rw [treeAfter_succ]
    exact Node.allTargets_stampOutermost_of_rule
      (fun _ _ _ rule known _ => exists_textOf_of_rule rule known) ih

theorem at?_treeAfter {label : Node → String} {root node : Node} {address : Node.Address}
    (clear : Node.NoneAbove (fun node => node.isTarget) root address)
    (reached : root.at? address = some node) (passes : Nat) :
    (stamper.treeAfter label passes root).at? address =
      some (stamper.treeAfter label passes node) := by
  induction passes generalizing root node with
  | zero => exact reached
  | succ passes ih =>
    obtain ⟨here, above⟩ := Node.at?_stampOutermost clear reached
    exact ih above here

/-- A thrown expression, and what it is once the passes over it have put `front` in front of the
message, where each of them has the text `tag`. -/
inductive Collected (tag front : String) : Node → Node → Prop
  | literal {argument : Node} {text : String} : argument.literalText? = some text →
      Collected tag front argument
        (.string ⟨argument.span, front ++ text, some (quote (front ++ text))⟩)
  | template {span : Span} {exprs : List Node} {head : TemplateElement}
      {rest : List TemplateElement} : exprs ≠ [] →
      Collected tag front (.template span exprs (head :: rest))
        (.template span exprs
          (⟨head.span, head.tail, head.cooked.map (front ++ ·), escapeTemplate front ++ head.raw⟩ ::
            rest))
  | headlessTemplate {span : Span} {exprs : List Node} : exprs ≠ [] →
      Collected tag front (.template span exprs []) (.template span exprs [])
  -- Only the first pass finds the identifier.
  | ident {id : Ident} :
      Collected tag front (.ident id) (.binary id.span "+" (.string ⟨.dummy, tag, none⟩) (.ident id))

theorem collected_of_rule {debugCallee tag : String} {span : Span} {argument new : Node}
    (rule : Rule debugCallee tag (.throwStmt span argument) (.throwStmt span new)) :
    Collected tag tag argument new := by
  cases rule with
  | string => exact .literal rfl
  | @emptyTemplate _ literalSpan =>
    have collected : Collected tag tag (.template literalSpan [] []) _ := .literal rfl
    rwa [TemplateElement.textOf, String.append_empty] at collected
  | plainTemplate => exact .literal rfl
  | template substitutes => exact .template substitutes
  | headlessTemplate substitutes => exact .headlessTemplate substitutes
  | ident => exact .ident

-- One more pass puts the tag in front of what is there already.
theorem Collected.stampOutermost {debugCallee tag front : String} {label : Node → String}
    {span : Span} {argument new : Node} (seam : tag.toList.getLast? ≠ some '$')
    (tagged : ∀ thrown, label (.throwStmt span thrown) = tag)
    (collected : Collected tag front argument new) :
    ∃ newer, (Node.throwStmt span new).stampOutermost debugCallee label = .throwStmt span newer ∧
      Collected tag (tag ++ front) argument newer := by
  have stamped : ∀ newer, (Node.throwStmt span new).isTarget →
      Rule debugCallee tag (.throwStmt span new) (.throwStmt span newer) →
      (Node.throwStmt span new).stampOutermost debugCallee label = .throwStmt span newer := by
    intro newer kind rule
    rw [Node.stampOutermost_of_isTarget kind, tagged, Node.stampedWith_eq rule]
  cases collected with
  | literal text =>
    refine ⟨_, stamped _ rfl .string, ?_⟩
    rw [← String.append_assoc]
    exact .literal text
  | @template _ _ head _ substitutes =>
    refine ⟨_, stamped _ rfl (.template substitutes), ?_⟩
    rw [← String.append_assoc, ← escapeTemplate_append seam, Option.map_map]
    have cooked : (tag ++ ·) ∘ (front ++ ·) = (tag ++ front ++ ·) := by
      funext text
      exact String.append_assoc.symm
    rw [cooked]
    exact .template substitutes
  | headlessTemplate substitutes =>
    exact ⟨_, stamped _ rfl (.headlessTemplate substitutes), .headlessTemplate substitutes⟩
  | ident => exact ⟨_, rfl, .ident⟩

theorem exists_treeAfter_throwStmt {tag : String} {label : Node → String} {span : Span}
    {argument : Node} (seam : tag.toList.getLast? ≠ some '$')
    (tagged : ∀ thrown, label (.throwStmt span thrown) = tag)
    (kind : (Node.throwStmt span argument).isTarget) (passes : Nat) :
    ∃ new, stamper.treeAfter label (passes + 1) (.throwStmt span argument) = .throwStmt span new ∧
      Collected tag (repeated (passes + 1) tag) argument new := by
  induction passes with
  | zero =>
    have rule : Rule stamper.debugCallee tag (.throwStmt span argument) _ :=
      Node.rule_stampedWith kind
    obtain ⟨new, same⟩ := rule.exists_throwStmt
    rw [same] at rule
    refine ⟨new, ?_, ?_⟩
    · rw [treeAfter_succ, treeAfter, Node.stampOutermost_of_isTarget kind, tagged, same]
    · rw [repeated_one]
      exact collected_of_rule rule
  | succ passes ih =>
    obtain ⟨new, here, collected⟩ := ih
    rw [treeAfter_succ, here, repeated_succ]
    exact collected.stampOutermost seam tagged

/-- A throw that is part of no target says its tag once for every pass if it throws a literal or a
template with text, and once altogether if it throws an identifier. What is put into a template
stays as it is. -/
theorem runTimes_collects_tags (stamper : Stamper) (collects : Bool) (passes : Nat) (program : Node)
    (answers : program.Everywhere fun node =>
      node.isTarget → ∃ text, stamper.textOf node = .ok text) :
    ∃ reports, stamper.runTimes collects passes program = .ok reports ∧ reports.length = passes ∧
      ∀ address span argument, program.OutermostTarget address (.throwStmt span argument) →
        ∃ tag, stamper.tag span = .ok tag ∧ ∀ done report, reports[done]? = some report →
          ∃ new, report.program.at? address = some (.throwStmt span new) ∧
            Collected tag (repeated (done + 1) tag) argument new := by
  obtain ⟨reports, result, size, each⟩ := exists_runTimes (labels_treeAfter answers) collects passes
  refine ⟨reports, result, size, ?_⟩
  intro address span argument outermost
  obtain ⟨tag, known⟩ := answers address _ outermost.reached outermost.holds
  rw [textOf_throwStmt] at known
  have tagged : ∀ thrown, stamper.labelOf (.throwStmt span thrown) = tag :=
    fun thrown => labelOf_eq ((textOf_throwStmt ..).trans known)
  refine ⟨tag, known, ?_⟩
  intro done report found
  obtain ⟨new, here, collected⟩ :=
    exists_treeAfter_throwStmt (seam_of_tag known) tagged outermost.holds done
  refine ⟨new, ?_, collected⟩
  rw [(each done report found).1, at?_treeAfter outermost.clear outermost.reached, here]

/-- The call in the template is not stamped in any of three passes; the name of the file is escaped
as often as it is said. -/
theorem runTimes_collects_tags_three_passes :
    let table : LookupTable := ⟨⟨"\x60.js", "", 1⟩, [(1, 1, 0)], []⟩
    let stamper : Stamper := ⟨some table.sourceMap, none, "log"⟩
    let asked : Node := .call ⟨⟨11, 19⟩, 0, .ident ⟨⟨11, 17⟩, 0, "$print", false⟩, [], none⟩
    let last : TemplateElement := ⟨⟨20, 20⟩, true, some "", ""⟩
    let thrown (head : TemplateElement) : Node :=
      .throwStmt ⟨1, 22⟩ (.template ⟨7, 21⟩ [asked] [head, last])
    let program : Node := .list [thrown ⟨⟨8, 9⟩, false, some "a", "a"⟩]
    ∃ reports report, stamper.runTimes true 3 program = .ok reports ∧ reports[2]? = some report ∧
      report.program.at? [0] = some (thrown ⟨⟨8, 9⟩, false,
        some "[\x60.js:1:1] [\x60.js:1:1] [\x60.js:1:1] a",
        "[\\\x60.js:1:1] [\\\x60.js:1:1] [\\\x60.js:1:1] a"⟩) := by
  intro table stamper asked last thrown program
  have total : ∀ sourceMap ∈ stamper.sourceMap, sourceMap.Answers := by
    rintro _ ⟨⟩
    exact table.answers
  obtain ⟨reports, result, size, each⟩ := runTimes_collects_tags stamper true 3 program
    fun _ node _ _ => stamper.exists_textOf total node
  have outermost : program.OutermostTarget [0] (thrown ⟨⟨8, 9⟩, false, some "a", "a"⟩) :=
    Node.outermost_cons_iff.2 ⟨by simp [program, Node.isTarget], _, rfl,
      Node.outermost_nil_iff.2 ⟨rfl, rfl⟩⟩
  obtain ⟨tag, known, trees⟩ := each [0] _ _ outermost
  have place : stamper.tag ⟨1, 22⟩ = .ok "[\x60.js:1:1] " := by decide +kernel
  cases place.symm.trans known
  obtain ⟨report, found⟩ : ∃ report, reports[2]? = some report :=
    ⟨_, List.getElem?_eq_getElem (by simp [size])⟩
  obtain ⟨new, here, collected⟩ := trees 2 report found
  refine ⟨reports, report, result, found, here.trans ?_⟩
  cases collected with
  | literal => contradiction
  | template =>
    apply congrArg fun head => some (thrown head)
    decide +kernel

end Stamper

end SourceStamp
