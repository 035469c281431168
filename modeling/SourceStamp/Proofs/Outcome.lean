import Mathlib.Data.List.Forall2

/-! Steps in a row that may fail: the whole has a result if every step has one. The same for a machine that
reads a list and may stop on the way. -/

set_option autoImplicit false

namespace SourceStamp

variable {ε α β : Type}

theorem bind_eq_ok_iff {first : Except ε α} {next : α → Except ε β} {result : β} :
    first >>= next = .ok result ↔ ∃ value, first = .ok value ∧ next value = .ok result := by
  cases first with
  | error => simp [bind, Except.bind]
  | ok => simp [bind, Except.bind]

theorem bind_eq_error_iff {first : Except ε α} {next : α → Except ε β} {error : ε} :
    first >>= next = .error error ↔
      first = .error error ∨ ∃ value, first = .ok value ∧ next value = .error error := by
  cases first with
  | error => simp [bind, Except.bind]
  | ok => simp [bind, Except.bind]

theorem bind_congr_of_ok {first : Except ε α} {next next' : α → Except ε β}
    (same : ∀ value, first = .ok value → next value = next' value) :
    first >>= next = first >>= next' := by
  cases first with
  | error => rfl
  | ok value => exact same value rfl

theorem pure_eq_ok_iff {value result : α} : (pure value : Except ε α) = .ok result ↔ value = result := by
  simp [pure, Except.pure]

theorem mapM_eq_ok_iff {step : α → Except ε β} {items : List α} {results : List β} :
    items.mapM step = .ok results ↔
      List.Forall₂ (fun item result => step item = .ok result) items results := by
  induction items generalizing results with
  | nil =>
    rw [List.mapM_nil, pure_eq_ok_iff, List.forall₂_nil_left_iff]
    exact eq_comm
  | cons item items ih =>
    rw [List.mapM_cons, List.forall₂_cons_left_iff, bind_eq_ok_iff]
    constructor
    · rintro ⟨first, known, rest⟩
      obtain ⟨others, rest, whole⟩ := bind_eq_ok_iff.1 rest
      exact ⟨first, others, known, ih.1 rest, (pure_eq_ok_iff.1 whole).symm⟩
    · rintro ⟨first, others, known, rest, rfl⟩
      exact ⟨first, known, bind_eq_ok_iff.2 ⟨others, ih.2 rest, rfl⟩⟩

theorem getElem?_of_mapM {step : α → Except ε β} {items : List α} {results : List β}
    (done : items.mapM step = .ok results) {index : Nat} {item : α} (found : items[index]? = some item) :
    ∃ result, results[index]? = some result ∧ step item = .ok result := by
  have each := mapM_eq_ok_iff.1 done
  induction each generalizing index with
  | nil => simp at found
  | cons first rest ih =>
    cases index with
    | zero =>
      cases Option.some.inj found
      exact ⟨_, rfl, first⟩
    | succ index => exact ih (mapM_eq_ok_iff.2 rest) found

theorem length_of_mapM {step : α → Except ε β} {items : List α} {results : List β}
    (done : items.mapM step = .ok results) : results.length = items.length :=
  (mapM_eq_ok_iff.1 done).length_eq.symm

theorem exists_mem_of_forall₂ {related : α → β → Prop} {items : List α} {results : List β}
    (pairs : List.Forall₂ related items results) {result : β} (member : result ∈ results) :
    ∃ item ∈ items, related item result := by
  induction pairs with
  | nil => cases member
  | @cons item first items results known rest ih =>
    rcases List.mem_cons.1 member with rfl | member
    · exact ⟨item, List.mem_cons_self, known⟩
    · obtain ⟨other, among, known⟩ := ih member
      exact ⟨other, List.mem_cons_of_mem item among, known⟩

theorem exists_mem_of_mapM {step : α → Except ε β} {items : List α} {results : List β}
    (done : items.mapM step = .ok results) {result : β} (member : result ∈ results) :
    ∃ item ∈ items, step item = .ok result :=
  exists_mem_of_forall₂ (mapM_eq_ok_iff.1 done) member

theorem map_eq_map_of_mapM {γ : Type} {step : α → Except ε β} {items : List α} {results : List β}
    {f : α → γ} {g : β → γ} (done : items.mapM step = .ok results)
    (same : ∀ item ∈ items, ∀ result, step item = .ok result → g result = f item) :
    results.map g = items.map f := by
  have each := mapM_eq_ok_iff.1 done
  clear done
  induction each with
  | nil => rfl
  | cons known rest ih =>
    rw [List.map_cons, List.map_cons, same _ List.mem_cons_self _ known,
      ih fun item member => same item (List.mem_cons_of_mem _ member)]

-- The steps of another row give the results of this one, changed, if each step does.
theorem mapM_map_eq_ok {α' β' : Type} {step : α → Except ε β} {step' : α' → Except ε β'}
    {items : List α} {results : List β} {f : α → α'} {g : β → β'}
    (done : items.mapM step = .ok results)
    (each : ∀ item ∈ items, ∀ result, step item = .ok result → step' (f item) = .ok (g result)) :
    (items.map f).mapM step' = .ok (results.map g) := by
  have pairs := mapM_eq_ok_iff.1 done
  clear done
  apply mapM_eq_ok_iff.2
  induction pairs with
  | nil => exact .nil
  | cons known rest ih =>
    exact .cons (each _ List.mem_cons_self _ known)
      (ih fun item member => each item (List.mem_cons_of_mem _ member))

theorem exists_mapM_eq_ok {step : α → Except ε β} {items : List α}
    (each : ∀ item ∈ items, ∃ result, step item = .ok result) :
    ∃ results, items.mapM step = .ok results := by
  induction items with
  | nil => exact ⟨[], rfl⟩
  | cons item items ih =>
    obtain ⟨first, known⟩ := each item List.mem_cons_self
    obtain ⟨others, rest⟩ := ih fun other member => each other (List.mem_cons_of_mem item member)
    exact ⟨first :: others, mapM_eq_ok_iff.2 (.cons known (mapM_eq_ok_iff.1 rest))⟩

theorem exists_mem_of_mapM_eq_error {step : α → Except ε β} {items : List α} {error : ε}
    (failed : items.mapM step = .error error) : ∃ item ∈ items, step item = .error error := by
  induction items with
  | nil =>
    rw [List.mapM_nil] at failed
    contradiction
  | cons item items ih =>
    rw [List.mapM_cons, bind_eq_error_iff] at failed
    obtain first | ⟨result, -, rest⟩ := failed
    · exact ⟨item, List.mem_cons_self, first⟩
    · obtain rest | ⟨results, -, whole⟩ := bind_eq_error_iff.1 rest
      · obtain ⟨other, member, failed⟩ := ih rest
        exact ⟨other, List.mem_cons_of_mem item member, failed⟩
      · contradiction

section Machine

variable {σ : Type} {step : σ → α → Option σ} {state next final : σ} {first : α} {front rest : List α}

theorem foldlM_cons_of_some (one : step state first = some next) :
    (first :: rest).foldlM step state = rest.foldlM step next := by
  rw [List.foldlM_cons, one]
  rfl

theorem foldlM_append_of_some (run : front.foldlM step state = some next) :
    (front ++ rest).foldlM step state = rest.foldlM step next := by
  rw [List.foldlM_append, run]
  rfl

theorem foldlM_cons_eq_some_iff : (first :: rest).foldlM step state = some final ↔
    ∃ next, step state first = some next ∧ rest.foldlM step next = some final := by
  rw [List.foldlM_cons]
  exact Option.bind_eq_some_iff

/-- What each step keeps between a state and all that has been read holds at the end of a run. -/
theorem foldlM_invariant {Invariant : σ → List α → Prop} {read items : List α}
    (keeps : ∀ item ∈ items, ∀ {state next : σ} {read : List α}, Invariant state read →
      step state item = some next → Invariant next (read ++ [item]))
    (start : Invariant state read) (run : items.foldlM step state = some final) :
    Invariant final (read ++ items) := by
  induction items generalizing state read with
  | nil =>
    cases run
    rwa [List.append_nil]
  | cons item items ih =>
    obtain ⟨next, one, run⟩ := foldlM_cons_eq_some_iff.1 run
    obtain ⟨keepsFirst, keeps⟩ := List.forall_mem_cons.1 keeps
    rw [← List.singleton_append, ← List.append_assoc]
    exact ih keeps (keepsFirst start one) run

end Machine

end SourceStamp
