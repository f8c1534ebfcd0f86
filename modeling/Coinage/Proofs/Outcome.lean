import Coinage.Error
import Mathlib.Data.List.Forall2
/-!
# Steps of an outcome

A sequence of steps succeeds just where each of them does. Proofs about operations take them apart with
these equations and never look at how steps are chained.
-/

namespace Coinage

variable {ε α β : Type}

theorem bind_eq_ok {x : Except ε α} {f : α → Except ε β} {b : β} :
    (x >>= f) = .ok b ↔ ∃ a, x = .ok a ∧ f a = .ok b := by
  cases x with
  | error e => exact ⟨fun h => (nomatch h), fun ⟨_, h, _⟩ => (nomatch h)⟩
  | ok a => exact ⟨fun h => ⟨a, rfl, h⟩, fun ⟨_, h, h'⟩ => by cases h; exact h'⟩

theorem bind_eq_error {x : Except ε α} {f : α → Except ε β} {e : ε} :
    (x >>= f) = .error e ↔ x = .error e ∨ ∃ a, x = .ok a ∧ f a = .error e := by
  cases x with
  | error e' => exact ⟨fun h => .inl (by cases h; rfl), fun h => by rcases h with h | ⟨_, h, _⟩ <;> cases h; rfl⟩
  | ok a => exact ⟨fun h => .inr ⟨a, rfl, h⟩, fun h => by rcases h with h | ⟨_, h, h'⟩ <;> cases h; exact h'⟩

theorem ok_bind (a : α) (f : α → Except ε β) : ((Except.ok a : Except ε α) >>= f) = f a := rfl

/-- Where the second step never fails, only the first has to succeed. -/
theorem bind_eq_ok_of_forall {x : Except ε α} {f : α → Except ε β} {g : α → β} {b : β} (hf : ∀ a, f a = .ok (g a)) :
    (x >>= f) = .ok b ↔ ∃ a, x = .ok a ∧ b = g a := by
  rw [bind_eq_ok]
  refine exists_congr fun a => and_congr_right fun _ => ?_
  rw [hf, Except.ok.injEq, eq_comm]

theorem pure_eq_ok {a b : α} : (pure a : Except ε α) = .ok b ↔ a = b :=
  ⟨fun h => Except.ok.inj h, congrArg Except.ok⟩

theorem pure_ne_error {a : α} {e : ε} : (pure a : Except ε α) ≠ .error e :=
  fun h => nomatch h

theorem return_eq_ok {x : Except ε α} {a : α} (h : x = .ok a) (g : α → β) :
    (do return g (← x) : Except ε β) = .ok (g a) := by
  rw [h]
  rfl

theorem map_eq_ok {x : Except ε α} {f : α → β} {b : β} : x.map f = .ok b ↔ ∃ a, x = .ok a ∧ f a = b := by
  cases x with
  | error e => exact iff_of_false (fun h => nomatch h) (fun ⟨_, h, _⟩ => nomatch h)
  | ok a => exact ⟨fun h => ⟨a, rfl, Except.ok.inj h⟩, fun ⟨_, h, hb⟩ => by cases h; exact congrArg Except.ok hb⟩

theorem map_eq_error {x : Except ε α} {f : α → β} {e : ε} : x.map f = .error e ↔ x = .error e := by
  cases x with
  | error e' => exact ⟨fun h => congrArg Except.error (Except.error.inj h), fun h => congrArg Except.error (Except.error.inj h)⟩
  | ok a => exact iff_of_false (fun h => nomatch h) (fun h => nomatch h)

theorem isOk_map (x : Except ε α) (f : α → β) : (x.map f).isOk = x.isOk := by
  cases x <;> rfl

theorem mapError_eq_ok {δ : Type} {x : Except ε α} {f : ε → δ} {a : α} : x.mapError f = .ok a ↔ x = .ok a := by
  cases x with
  | error e => exact iff_of_false (fun h => nomatch h) (fun h => nomatch h)
  | ok b => exact ⟨fun h => congrArg Except.ok (Except.ok.inj h), fun h => congrArg Except.ok (Except.ok.inj h)⟩

theorem mapError_eq_error {δ : Type} {x : Except ε α} {f : ε → δ} {e : δ} :
    x.mapError f = .error e ↔ ∃ e', x = .error e' ∧ e = f e' := by
  cases x with
  | error e' => exact ⟨fun h => ⟨e', rfl, (Except.error.inj h).symm⟩, fun ⟨_, h, he⟩ => by cases h; rw [he]; rfl⟩
  | ok a => exact iff_of_false (fun h => nomatch h) (fun ⟨_, h, _⟩ => nomatch h)

theorem mapError_map {δ : Type} (x : Except ε α) (f : α → β) (g : ε → δ) :
    (x.map f).mapError g = (x.mapError g).map f := by
  cases x <;> rfl

/-- What every step that succeeds preserves, a sequence preserves that succeeds. -/
theorem foldlM_invariant {f : β → α → Except ε β} {P : β → Prop} (hstep : ∀ b a b', P b → f b a = .ok b' → P b')
    {steps : List α} {init b : β} (hinit : P init) (h : steps.foldlM f init = .ok b) : P b := by
  induction steps generalizing init with
  | nil =>
    cases h
    exact hinit
  | cons step rest ih =>
    rw [List.foldlM_cons] at h
    obtain ⟨next, hnext, h⟩ := bind_eq_ok.1 h
    exact ih (hstep init step next hinit hnext) h

/-- A sequence fails just where one of its steps does, after the steps before it have succeeded. -/
theorem foldlM_eq_error {f : β → α → Except ε β} {init : β} {steps : List α} {e : ε} :
    steps.foldlM f init = .error e ↔
      ∃ before step after b, steps = before ++ step :: after ∧ before.foldlM f init = .ok b ∧ f b step = .error e := by
  constructor
  · intro h
    induction steps generalizing init with
    | nil => cases h
    | cons step rest ih =>
      rw [List.foldlM_cons] at h
      cases hstep : f init step with
      | error e' =>
        rw [hstep] at h
        cases h
        exact ⟨[], step, rest, init, rfl, rfl, hstep⟩
      | ok b =>
        rw [hstep, ok_bind] at h
        obtain ⟨before, failing, after, b', rfl, hbefore, hfails⟩ := ih h
        refine ⟨step :: before, failing, after, b', rfl, ?_, hfails⟩
        rw [List.foldlM_cons, hstep, ok_bind, hbefore]
  · rintro ⟨before, step, after, b, rfl, hbefore, hfails⟩
    rw [List.foldlM_append, hbefore, ok_bind, List.foldlM_cons, hfails]
    rfl

/-- A step for each element of a list succeeds where all of them do, and gives their results in order. -/
theorem mapM_eq_ok {f : α → Except ε β} {xs : List α} {ys : List β} :
    xs.mapM f = .ok ys ↔ List.Forall₂ (fun x y => f x = .ok y) xs ys := by
  induction xs generalizing ys with
  | nil =>
    rw [List.mapM_nil, pure_eq_ok, List.forall₂_nil_left_iff]
    exact eq_comm
  | cons x xs ih =>
    rw [List.mapM_cons, bind_eq_ok, List.forall₂_cons_left_iff]
    refine exists_congr fun y => ?_
    rw [bind_eq_ok]
    simp only [ih, pure_eq_ok]
    exact ⟨fun ⟨hy, ys', hys', h⟩ => ⟨ys', hy, hys', h.symm⟩, fun ⟨ys', hy, hys', h⟩ => ⟨hy, ys', hys', h.symm⟩⟩

/-- A sequence with one element more is split at that element, or before it. -/
theorem concat_eq_append_cons_iff {xs before after : List α} {last x : α} :
    xs ++ [last] = before ++ x :: after ↔
      (after = [] ∧ before = xs ∧ x = last) ∨ ∃ after', after = after' ++ [last] ∧ xs = before ++ x :: after' := by
  constructor
  · intro h
    rcases List.eq_nil_or_concat' after with rfl | ⟨after', other, rfl⟩
    · obtain ⟨rfl, hlast⟩ := List.append_inj' h rfl
      cases hlast
      exact .inl ⟨rfl, rfl, rfl⟩
    · rw [← List.cons_append, ← List.append_assoc] at h
      obtain ⟨rfl, hlast⟩ := List.append_inj' h rfl
      cases hlast
      exact .inr ⟨after', rfl, rfl⟩
  · rintro (⟨rfl, rfl, rfl⟩ | ⟨after', rfl, rfl⟩)
    · rfl
    · rw [List.append_assoc, List.cons_append]

end Coinage
