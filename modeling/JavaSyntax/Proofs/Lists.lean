/-!
# Lists

Facts about lists of anything: where an item stands in two lists together, which items are
last, what holds of some item, and how far a run of items goes.
-/

namespace JavaSyntax

variable {α : Type}

/-- Where one item stands in two lists together. -/
theorem append_eq_append_cons {left right before after : List α} {item : α}
    (same : left ++ right = before ++ item :: after) :
    (∃ between, left = before ++ item :: between ∧ after = between ++ right) ∨
      ∃ between, before = left ++ between ∧ right = between ++ item :: after := by
  rcases List.append_eq_append_iff.mp same with ⟨between, rfl, rest⟩ | ⟨between, rfl, rest⟩
  · exact .inr ⟨between, rfl, rest⟩
  · cases between with
    | nil => exact .inr ⟨[], by simp, by simpa using rest.symm⟩
    | cons first between =>
        obtain ⟨rfl, rfl⟩ := List.cons.inj rest
        exact .inl ⟨between, rfl, rfl⟩

/-- The last item stays the last when others are put before it. -/
theorem getLast?_of_suffix {earlier later : List α} {last : α}
    (suffix : earlier <:+ later) (found : earlier.getLast? = some last) :
    later.getLast? = some last := by
  obtain ⟨newer, rfl⟩ := suffix
  rw [List.getLast?_append, found]
  rfl

/-- What holds of some item of two lists holds of some item still when those of the first are
put into the second one by one. -/
theorem exists_mem_foldr {holds : α → Prop} {insert : α → List α → List α}
    (inserts : ∀ {item : α} {items : List α},
      (holds item ∨ ∃ other ∈ items, holds other) → ∃ other ∈ insert item items, holds other)
    {left right : List α}
    (known : (∃ item ∈ left, holds item) ∨ ∃ item ∈ right, holds item) :
    ∃ item ∈ left.foldr insert right, holds item := by
  induction left with
  | nil =>
      rcases known with ⟨_, member, _⟩ | known
      · cases member
      · exact known
  | cons first others ih =>
      rcases known with ⟨item, member, known⟩ | known
      · cases member with
        | head => exact inserts (.inl known)
        | tail _ member => exact inserts (.inr (ih (.inl ⟨item, member, known⟩)))
      · exact inserts (.inr (ih (.inr known)))

/-! ## Runs -/

variable {belongs : α → Bool} {run rest : List α}

theorem takeWhile_append_of_stops (inside : ∀ item ∈ run, belongs item = true)
    (ended : rest.head?.any belongs = false) : (run ++ rest).takeWhile belongs = run := by
  rw [List.takeWhile_append_of_pos inside]
  cases rest with
  | nil => simp
  | cons first rest => simp_all

theorem dropWhile_append_of_stops (inside : ∀ item ∈ run, belongs item = true)
    (ended : rest.head?.any belongs = false) : (run ++ rest).dropWhile belongs = rest := by
  rw [List.dropWhile_append_of_pos inside]
  cases rest with
  | nil => rfl
  | cons first rest => simp_all

theorem any_head?_dropWhile (belongs : α → Bool) (items : List α) :
    (items.dropWhile belongs).head?.any belongs = false := by
  induction items with
  | nil => rfl
  | cons first items ih =>
      by_cases inside : belongs first = true
      · simpa [inside] using ih
      · simp [inside]

end JavaSyntax
