import SourceStamp.Json.Reader
import SourceStamp.Proofs.Json.Lexing

/-! Nesting. The open arrays and objects hold every token read so far, so the tokens of the value in the
end are the tokens of the text. With that a text reads as a value exactly if it spells the value.
-/

set_option autoImplicit false

namespace SourceStamp.Json

def finishedItems (items : List Json) : List Token := items.flatMap fun item => item.tokens ++ [.comma]

def finishedMembers (members : List (Option String × Json)) : List Token :=
  members.flatMap fun (key, value) => .scalar (.string key) :: .colon :: (value.tokens ++ [.comma])

theorem itemTokens_cons (item : Json) {rest : List Json} (more : rest ≠ []) :
    itemTokens (item :: rest) = item.tokens ++ .comma :: itemTokens rest := by
  cases rest with
  | nil => contradiction
  | cons => rfl

theorem memberTokens_cons (key : Option String) (value : Json) {rest : List (Option String × Json)}
    (more : rest ≠ []) : memberTokens ((key, value) :: rest) =
      .scalar (.string key) :: .colon :: (value.tokens ++ .comma :: memberTokens rest) := by
  cases rest with
  | nil => contradiction
  | cons => rfl

theorem itemTokens_concat (items : List Json) (last : Json) :
    itemTokens (items ++ [last]) = finishedItems items ++ last.tokens := by
  induction items with
  | nil => rfl
  | cons item items ih =>
    have more : items ++ [last] ≠ [] := List.append_ne_nil_of_right_ne_nil _ (List.cons_ne_nil _ _)
    rw [List.cons_append, itemTokens_cons item more, ih]
    simp [finishedItems]

theorem memberTokens_concat (members : List (Option String × Json)) (key : Option String) (value : Json) :
    memberTokens (members ++ [(key, value)]) =
      finishedMembers members ++ .scalar (.string key) :: .colon :: value.tokens := by
  induction members with
  | nil => rfl
  | cons member members ih =>
    have more : members ++ [(key, value)] ≠ [] :=
      List.append_ne_nil_of_right_ne_nil _ (List.cons_ne_nil _ _)
    rw [List.cons_append, memberTokens_cons member.1 member.2 more, ih]
    simp [finishedMembers]

def Frame.tokens : Frame → List Token
  | .array items => .beginArray :: finishedItems items.reverse
  | .object members key =>
    .beginObject :: (finishedMembers members.reverse ++ [.scalar (.string key), .colon])

namespace Goal

def stackTokens (stack : List Frame) : List Token := stack.reverse.flatMap Frame.tokens

def tokens : Goal → List Token
  | .needValue stack => stackTokens stack
  | .firstItem stack => stackTokens stack ++ [.beginArray]
  | .firstKey stack => stackTokens stack ++ [.beginObject]
  | .needKey members stack => stackTokens stack ++ .beginObject :: finishedMembers members.reverse
  | .needColon members key stack =>
    stackTokens stack ++ .beginObject :: (finishedMembers members.reverse ++ [.scalar (.string key)])
  | .after value stack => stackTokens stack ++ value.tokens

theorem stackTokens_cons (frame : Frame) (stack : List Frame) :
    stackTokens (frame :: stack) = stackTokens stack ++ frame.tokens := by
  rw [stackTokens, List.reverse_cons, List.flatMap_append, List.flatMap_singleton]
  rfl

end Goal

/-- The token stands for itself only: an array or object is no single token. -/
def Token.IsGenuine (token : Token) : Prop := ∀ value, token = .scalar value → value.tokens = [token]

namespace Goal

variable {goal goal' : Goal} {token : Token} {value : Json}

theorem tokens_enter? {stack : List Frame} (genuine : token.IsGenuine)
    (step : enter? stack token = some goal) : goal.tokens = stackTokens stack ++ [token] := by
  cases token with
  | scalar value =>
    cases step
    rw [tokens, genuine value rfl]
  | beginArray | beginObject =>
    cases step
    rfl
  | endArray | endObject | comma | colon => contradiction

theorem tokens_step? (genuine : token.IsGenuine) (step : goal.step? token = some goal') :
    goal'.tokens = goal.tokens ++ [token] := by
  unfold step? at step
  -- A case for each line of the table, in its order.
  split at step
  case h_1 stack => exact tokens_enter? genuine step
  case h_2 stack =>
    cases step
    simp [tokens, Json.tokens, itemTokens]
  case h_3 stack _ _ =>
    rw [tokens_enter? genuine step, stackTokens_cons]
    rfl
  case h_4 stack =>
    cases step
    simp [tokens, Json.tokens, memberTokens]
  case h_5 stack key =>
    cases step
    simp [tokens, finishedMembers]
  case h_6 members stack key =>
    cases step
    simp [tokens]
  case h_7 members key stack =>
    cases step
    simp [tokens, stackTokens_cons, Frame.tokens]
  case h_8 value items stack =>
    cases step
    simp [tokens, stackTokens_cons, Frame.tokens, finishedItems]
  case h_9 value items stack =>
    cases step
    rw [List.reverse_cons]
    simp [tokens, Json.tokens, stackTokens_cons, Frame.tokens, itemTokens_concat]
  case h_10 value members key stack =>
    cases step
    simp [tokens, stackTokens_cons, Frame.tokens, finishedMembers]
  case h_11 value members key stack =>
    cases step
    rw [List.reverse_cons]
    simp [tokens, Json.tokens, stackTokens_cons, Frame.tokens, memberTokens_concat]
  case h_12 => contradiction

theorem tokens_foldlM {read : List Token} (genuine : ∀ token ∈ read, token.IsGenuine)
    (run : read.foldlM step? (.needValue []) = some goal) : goal.tokens = read := by
  have keeps : ∀ token ∈ read, ∀ {goal next : Goal} {before : List Token}, goal.tokens = before →
      goal.step? token = some next → next.tokens = before ++ [token] := by
    intro token member goal next before same step
    rw [tokens_step? (genuine token member) step, same]
  exact foldlM_invariant keeps rfl run

theorem firstItem_step? {stack : List Frame} (notEnd : token ≠ .endArray) :
    (firstItem stack).step? token = (needValue (.array [] :: stack)).step? token := by
  cases token with
  | endArray => contradiction
  | beginArray | beginObject | endObject | comma | colon | scalar => rfl

end Goal

theorem eq_tokens_of_ofTokens? {read : List Token} {value : Json}
    (genuine : ∀ token ∈ read, token.IsGenuine) (found : ofTokens? read = some value) :
    read = value.tokens := by
  obtain ⟨goal, run, finish⟩ := Option.bind_eq_some_iff.1 found
  have whole := Goal.tokens_foldlM genuine run
  unfold Goal.finish? at finish
  split at finish
  · cases finish
    exact whole.symm
  · contradiction

theorem exists_tokens_eq_cons (value : Json) :
    ∃ first rest, value.tokens = first :: rest ∧ first ≠ .endArray := by
  cases value with
  | null | bool | number | string | array | object => exact ⟨_, _, rfl, nofun⟩

theorem exists_itemTokens_eq_cons {items : List Json} (some_ : items ≠ []) :
    ∃ first rest, itemTokens items = first :: rest ∧ first ≠ .endArray := by
  cases items with
  | nil => contradiction
  | cons item items =>
    obtain ⟨first, rest, same, notEnd⟩ := exists_tokens_eq_cons item
    cases items with
    | nil => exact ⟨first, rest, same, notEnd⟩
    | cons next items =>
      rw [itemTokens_cons item (List.cons_ne_nil _ _), same]
      exact ⟨first, _, rfl, notEnd⟩

theorem exists_memberTokens_eq_cons {members : List (Option String × Json)} (some_ : members ≠ []) :
    ∃ key rest, memberTokens members = .scalar (.string key) :: rest := by
  match members with
  | [(key, value)] => exact ⟨key, _, rfl⟩
  | (key, value) :: next :: rest => exact ⟨key, _, memberTokens_cons key value (List.cons_ne_nil _ _)⟩

open Goal

mutual

theorem foldlM_tokens (value : Json) (stack : List Frame) :
    value.tokens.foldlM step? (.needValue stack) = some (.after value stack) :=
  match value with
  | .null | .bool _ | .number _ | .string _ => rfl
  | .array [] => rfl
  | .object [] => rfl
  | .array (item :: rest) => by
    have inside := foldlM_itemTokens (item :: rest) (List.cons_ne_nil _ _) [] stack
    obtain ⟨first, others, same, notEnd⟩ := exists_itemTokens_eq_cons (List.cons_ne_nil item rest)
    rw [same] at inside
    have begins : step? (.needValue stack) .beginArray = some (.firstItem stack) := rfl
    rw [Json.tokens, foldlM_cons_of_some begins, same, List.cons_append, List.foldlM_cons,
      firstItem_step? notEnd]
    exact inside
  | .object (member :: rest) => by
    have inside := foldlM_memberTokens (member :: rest) (List.cons_ne_nil _ _) [] stack
    obtain ⟨key, others, same⟩ := exists_memberTokens_eq_cons (List.cons_ne_nil member rest)
    rw [same] at inside
    have begins : step? (.needValue stack) .beginObject = some (.firstKey stack) := rfl
    rw [Json.tokens, foldlM_cons_of_some begins, same]
    exact inside

theorem foldlM_itemTokens (items : List Json) (some_ : items ≠ []) (done : List Json)
    (stack : List Frame) :
    (itemTokens items ++ [Token.endArray]).foldlM step? (.needValue (.array done :: stack)) =
      some (.after (.array (done.reverse ++ items)) stack) :=
  match items, some_ with
  | [item], _ => by
    have first := foldlM_tokens item (.array done :: stack)
    rw [itemTokens, foldlM_append_of_some first]
    show some (Goal.after (.array (item :: done).reverse) stack) = _
    rw [List.reverse_cons]
  | item :: next :: rest, _ => by
    have first := foldlM_tokens item (.array done :: stack)
    have others := foldlM_itemTokens (next :: rest) (List.cons_ne_nil _ _) (item :: done) stack
    rw [List.reverse_cons, List.append_assoc] at others
    rw [itemTokens_cons item (List.cons_ne_nil _ _), List.append_assoc, foldlM_append_of_some first]
    exact others

theorem foldlM_memberTokens (members : List (Option String × Json)) (some_ : members ≠ [])
    (done : List (Option String × Json)) (stack : List Frame) :
    (memberTokens members ++ [Token.endObject]).foldlM step? (.needKey done stack) =
      some (.after (.object (done.reverse ++ members)) stack) :=
  match members, some_ with
  | [(key, value)], _ => by
    have first := foldlM_tokens value (.object done key :: stack)
    show (value.tokens ++ [Token.endObject]).foldlM step? (.needValue (.object done key :: stack)) = _
    rw [foldlM_append_of_some first]
    show some (Goal.after (.object ((key, value) :: done).reverse) stack) = _
    rw [List.reverse_cons]
  | (key, value) :: next :: rest, _ => by
    have first := foldlM_tokens value (.object done key :: stack)
    have others := foldlM_memberTokens (next :: rest) (List.cons_ne_nil _ _) ((key, value) :: done) stack
    rw [List.reverse_cons, List.append_assoc] at others
    rw [memberTokens_cons key value (List.cons_ne_nil _ _)]
    show ((value.tokens ++ .comma :: memberTokens (next :: rest)) ++ [Token.endObject]).foldlM step?
      (.needValue (.object done key :: stack)) = _
    rw [List.append_assoc, foldlM_append_of_some first]
    exact others

end

theorem ofTokens?_tokens (value : Json) : ofTokens? value.tokens = some value := by
  rw [ofTokens?, foldlM_tokens value []]
  rfl

-- In the tokens of a value there is a mark between any two values.
theorem isChain_apart_append {front back : List Token} {mark : Token} (marked : mark.mark? ≠ none)
    (first : front.IsChain Token.Apart) (second : back.IsChain Token.Apart) :
    (front ++ mark :: back).IsChain Token.Apart := by
  refine List.isChain_append.2 ⟨first, List.isChain_cons.2 ⟨?_, second⟩, ?_⟩
  · exact fun _ _ touch => marked touch.1
  · intro token _ mark' same touch
    cases same
    exact marked touch.2

theorem isChain_apart_enclosed {inside : List Token} {opening closing : Token}
    (opens : opening.mark? ≠ none) (closes : closing.mark? ≠ none) (apart : inside.IsChain Token.Apart) :
    (opening :: (inside ++ [closing])).IsChain Token.Apart :=
  isChain_apart_append opens .nil (isChain_apart_append closes apart .nil)

theorem isChain_apart_member (key : Option String) {back : List Token} (apart : back.IsChain Token.Apart) :
    (.scalar (.string key) :: .colon :: back : List Token).IsChain Token.Apart := by
  have colon : Token.mark? .colon ≠ none := nofun
  exact isChain_apart_append colon (.singleton _) apart

mutual

theorem isChain_apart_tokens (value : Json) : value.tokens.IsChain Token.Apart :=
  match value with
  | .null | .bool _ | .number _ | .string _ => .singleton _
  | .array items => isChain_apart_enclosed nofun nofun (isChain_apart_itemTokens items)
  | .object members => isChain_apart_enclosed nofun nofun (isChain_apart_memberTokens members)

theorem isChain_apart_itemTokens (items : List Json) : (itemTokens items).IsChain Token.Apart :=
  match items with
  | [] => .nil
  | [item] => isChain_apart_tokens item
  | item :: next :: rest => by
    rw [itemTokens_cons item (List.cons_ne_nil _ _)]
    exact isChain_apart_append nofun (isChain_apart_tokens item) (isChain_apart_itemTokens (next :: rest))

theorem isChain_apart_memberTokens (members : List (Option String × Json)) :
    (memberTokens members).IsChain Token.Apart :=
  match members with
  | [] => .nil
  | [(key, value)] => isChain_apart_member key (isChain_apart_tokens value)
  | (key, value) :: next :: rest => by
    rw [memberTokens_cons key value (List.cons_ne_nil _ _)]
    exact isChain_apart_member key
      (isChain_apart_append nofun (isChain_apart_tokens value) (isChain_apart_memberTokens (next :: rest)))

end

theorem Token.Spelling.isGenuine {token : Token} {part : List Char} (spelled : token.Spelling part) :
    token.IsGenuine := by
  rintro value rfl
  cases spelled with
  | mark mark => contradiction
  | null | true | false | number | string => rfl

theorem Lexed.isGenuine {tokens : List Token} {text : List Char} (lexed : Lexed tokens text) :
    ∀ token ∈ tokens, token.IsGenuine := by
  induction lexed with
  | nil => exact nofun
  | cons _ spelled _ ih => exact List.forall_mem_cons.2 ⟨spelled.isGenuine, ih⟩

/-- A text is read as the value that it spells, and not at all if it spells none. -/
theorem read?_eq_some_iff {text : String} {value : Json} :
    read? text = some value ↔ value.Spelling text.toList := by
  constructor
  · intro found
    obtain ⟨tokens, scanned, found⟩ := Option.bind_eq_some_iff.1 found
    have lexed := lexed_of_scan? scanned
    rw [eq_tokens_of_ofTokens? lexed.isGenuine found] at lexed
    exact lexed
  · intro spelled
    rw [read?, Lexed.scan? spelled (isChain_apart_tokens value)]
    exact ofTokens?_tokens value

theorem Spelling.unique {text : List Char} {value value' : Json} (spelled : value.Spelling text)
    (spelled' : value'.Spelling text) : value = value' := by
  rw [← String.toList_ofList (l := text)] at spelled spelled'
  exact Option.some.inj ((read?_eq_some_iff.2 spelled).symm.trans (read?_eq_some_iff.2 spelled'))

end SourceStamp.Json
