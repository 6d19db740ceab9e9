/-!
# Steps that can fail

What a sequence of steps that can fail comes to, told by its steps: it succeeds if all of them do,
and else fails as the first one that does. A pass over a list is such a sequence, with one step for
each item: `foldlM_eq_error_iff`, `mapM_eq_error_iff`.
-/
namespace TapeMachine

variable {ε α β : Type} {e : ε}

/-! ## Two steps -/

section Steps

variable {x : Except ε α} {f : α → Except ε β} {a a' : α} {b : β}

theorem bind_eq_ok_iff : x >>= f = .ok b ↔ ∃ a, x = .ok a ∧ f a = .ok b := by
  cases x <;> simp [bind, Except.bind]

theorem bind_eq_error_iff :
    x >>= f = .error e ↔ x = .error e ∨ ∃ a, x = .ok a ∧ f a = .error e := by
  cases x <;> simp [bind, Except.bind]

theorem pure_eq_ok_iff : (pure a : Except ε α) = .ok a' ↔ a = a' := by
  simp [pure, Except.pure]

theorem pure_ne_error : (pure a : Except ε α) ≠ .error e := by
  simp [pure, Except.pure]

theorem throw_ne_ok : (throw e : Except ε α) ≠ .ok a := by
  simp [throw, throwThe, MonadExceptOf.throw]

end Steps

/-! ## Passes -/

/-- A pass fails at the first item that its step fails at. -/
theorem foldlM_eq_error_iff {f : β → α → Except ε β} {init : β} {items : List α} :
    items.foldlM f init = .error e ↔ ∃ before item after b,
      items = before ++ item :: after ∧ before.foldlM f init = .ok b ∧ f b item = .error e := by
  constructor
  · intro h
    induction items generalizing init with
    | nil => cases h
    | cons item items ih =>
      rw [List.foldlM_cons] at h
      rcases bind_eq_error_iff.1 h with h | ⟨b, hb, h⟩
      · exact ⟨[], item, items, init, rfl, rfl, h⟩
      · obtain ⟨before, item', after, b', rfl, hb', he⟩ := ih h
        refine ⟨item :: before, item', after, b', rfl, ?_, he⟩
        rw [List.foldlM_cons]
        exact bind_eq_ok_iff.2 ⟨b, hb, hb'⟩
  · rintro ⟨before, item, after, b, rfl, hb, he⟩
    rw [List.foldlM_append]
    refine bind_eq_error_iff.2 (.inr ⟨b, hb, ?_⟩)
    rw [List.foldlM_cons]
    exact bind_eq_error_iff.2 (.inl he)

/-- If a step reads what `g` writes and nothing else, then so does the pass. -/
theorem mapM_eq_ok_iff {f : α → Except ε β} {g : β → α} (h : ∀ a b, f a = .ok b ↔ a = g b)
    {items : List α} {results : List β} :
    items.mapM f = .ok results ↔ items = results.map g := by
  induction items generalizing results with
  | nil => cases results <;> simp [pure, Except.pure]
  | cons item items ih =>
    rw [List.mapM_cons, bind_eq_ok_iff]
    constructor
    · rintro ⟨b, hb, hrest⟩
      obtain ⟨bs, hbs, hp⟩ := bind_eq_ok_iff.1 hrest
      cases pure_eq_ok_iff.1 hp
      rw [List.map_cons, (h item b).1 hb, ih.1 hbs]
    · intro heq
      cases results with
      | nil => cases heq
      | cons b bs =>
        obtain ⟨hb, hbs⟩ := List.cons.inj heq
        exact ⟨b, (h item b).2 hb, bind_eq_ok_iff.2 ⟨bs, ih.2 hbs, rfl⟩⟩

theorem mapM_eq_error_iff {f : α → Except ε β} {items : List α} :
    items.mapM f = .error e ↔ ∃ before item after results,
      items = before ++ item :: after ∧ before.mapM f = .ok results ∧ f item = .error e := by
  constructor
  · intro h
    induction items with
    | nil => cases h
    | cons item items ih =>
      rw [List.mapM_cons] at h
      rcases bind_eq_error_iff.1 h with h | ⟨b, hb, h⟩
      · exact ⟨[], item, items, [], rfl, rfl, h⟩
      · rcases bind_eq_error_iff.1 h with h | ⟨bs, -, h⟩
        · obtain ⟨before, item', after, bs, rfl, hbs, he⟩ := ih h
          refine ⟨item :: before, item', after, b :: bs, rfl, ?_, he⟩
          rw [List.mapM_cons]
          exact bind_eq_ok_iff.2 ⟨b, hb, bind_eq_ok_iff.2 ⟨bs, hbs, rfl⟩⟩
        · exact absurd h pure_ne_error
  · rintro ⟨before, item, after, results, rfl, hok, he⟩
    rw [List.mapM_append]
    refine bind_eq_error_iff.2 (.inr ⟨results, hok, bind_eq_error_iff.2 (.inl ?_)⟩)
    rw [List.mapM_cons]
    exact bind_eq_error_iff.2 (.inl he)

end TapeMachine
