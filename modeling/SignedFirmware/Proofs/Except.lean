import Mathlib.Data.List.Forall2

/-!
# When a computation that can fail succeeds

One equivalence for each way of putting such computations together. Rewriting with them opens a
check that is made of several checks, and gives back what each of them found.
-/

namespace SignedFirmware.Checked

variable {ε ε' α β : Type}

theorem ok_bind (a : α) (f : α → Except ε β) : (Except.ok a >>= f) = f a := rfl

theorem bind_eq_ok_iff {x : Except ε α} {f : α → Except ε β} {b : β} :
    (x >>= f) = .ok b ↔ ∃ a, x = .ok a ∧ f a = .ok b := by
  cases x with
  | error e => simp [bind, Except.bind]
  | ok a => simp [bind, Except.bind]

theorem bind_eq_error_iff {x : Except ε α} {f : α → Except ε β} {e : ε} :
    (x >>= f) = .error e ↔ x = .error e ∨ ∃ a, x = .ok a ∧ f a = .error e := by
  cases x with
  | error e' => simp [bind, Except.bind]
  | ok a => simp [bind, Except.bind]

@[simp] theorem pure_eq_ok_iff {a b : α} : (pure a : Except ε α) = .ok b ↔ a = b := by
  simp [pure, Except.pure]

@[simp] theorem throw_eq_ok_iff {e : ε} {a : α} : (throw e : Except ε α) = .ok a ↔ False := by
  simp [throw, throwThe, MonadExceptOf.throw]

@[simp] theorem map_eq_ok_iff {x : Except ε α} {f : α → β} {b : β} :
    x.map f = .ok b ↔ ∃ a, x = .ok a ∧ f a = b := by
  cases x <;> simp [Except.map]

@[simp] theorem mapError_eq_ok_iff {x : Except ε α} {f : ε → ε'} {a : α} :
    x.mapError f = .ok a ↔ x = .ok a := by
  cases x <;> simp [Except.mapError]

theorem mapError_ok (f : ε → ε') (a : α) : (Except.ok a).mapError f = .ok a := rfl

theorem mapError_eq_error_iff {x : Except ε α} {f : ε → ε'} {e' : ε'} :
    x.mapError f = .error e' ↔ ∃ e, x = .error e ∧ f e = e' := by
  cases x <;> simp [Except.mapError]

theorem isOk_iff {x : Except ε α} : x.isOk = true ↔ ∃ a, x = .ok a := by
  cases x <;> simp [Except.isOk, Except.toBool]

/-! ## Lists -/

theorem forM_eq_ok_iff {xs : List α} {f : α → Except ε Unit} :
    xs.forM f = .ok () ↔ ∀ x ∈ xs, f x = .ok () := by
  induction xs with
  | nil => simp [pure, Except.pure]
  | cons x xs ih =>
    rw [List.forM, bind_eq_ok_iff, List.forall_mem_cons, ← ih]
    exact ⟨fun ⟨_, hx, hxs⟩ ↦ ⟨hx, hxs⟩, fun ⟨hx, hxs⟩ ↦ ⟨_, hx, hxs⟩⟩

theorem forM_eq_error_iff {xs : List α} {f : α → Except ε Unit} {e : ε} :
    xs.forM f = .error e ↔ ∃ i, ∃ hi : i < xs.length,
      (∀ j (hj : j < i), f (xs[j]) = .ok ()) ∧ f xs[i] = .error e := by
  induction xs with
  | nil => simp [pure, Except.pure]
  | cons x xs ih =>
    rw [List.forM, bind_eq_error_iff, ih]
    constructor
    · rintro (hx | ⟨⟨⟩, hx, i, hi, hbefore, he⟩)
      · exact ⟨0, Nat.succ_pos _, fun j hj ↦ absurd hj (Nat.not_lt_zero j), hx⟩
      · refine ⟨i + 1, Nat.succ_lt_succ hi, ?_, he⟩
        intro j hj
        cases j with
        | zero => exact hx
        | succ j => exact hbefore j (Nat.lt_of_succ_lt_succ hj)
    · rintro ⟨i, hi, hbefore, he⟩
      cases i with
      | zero => exact .inl he
      | succ i =>
        have hx : f x = .ok () := hbefore 0 (Nat.succ_pos i)
        exact .inr ⟨(), hx, i, Nat.lt_of_succ_lt_succ hi,
          fun j hj ↦ hbefore (j + 1) (Nat.succ_lt_succ hj), he⟩

theorem mapM_eq_ok_iff {xs : List α} {f : α → Except ε β} {ys : List β} :
    xs.mapM f = .ok ys ↔ List.Forall₂ (fun x y ↦ f x = .ok y) xs ys := by
  induction xs generalizing ys with
  | nil =>
    rw [List.mapM_nil, pure_eq_ok_iff, List.forall₂_nil_left_iff]
    exact eq_comm
  | cons x xs ih =>
    rw [List.mapM_cons, List.forall₂_cons_left_iff, bind_eq_ok_iff]
    simp only [bind_eq_ok_iff, ih, pure_eq_ok_iff]
    constructor
    · rintro ⟨y, hy, more, hmore, rfl⟩
      exact ⟨y, more, hy, hmore, rfl⟩
    · rintro ⟨y, more, hy, hmore, rfl⟩
      exact ⟨y, hy, more, hmore, rfl⟩

theorem mapM_eq_error_iff {xs : List α} {f : α → Except ε β} {e : ε} :
    xs.mapM f = .error e ↔ ∃ i : Nat,
      (∃ x : α, xs[i]? = some x ∧ f x = .error e) ∧
        ∀ j < i, ∀ x : α, xs[j]? = some x → ∃ y, f x = .ok y := by
  induction xs with
  | nil => simp [pure, Except.pure]
  | cons x xs ih =>
    rw [List.mapM_cons, bind_eq_error_iff]
    constructor
    · rintro (hx | ⟨y, hy, hrest⟩)
      · exact ⟨0, ⟨x, rfl, hx⟩, fun j hj ↦ absurd hj (Nat.not_lt_zero j)⟩
      · rcases bind_eq_error_iff.1 hrest with hmore | ⟨ys, -, hpure⟩
        · obtain ⟨i, hfails, hbefore⟩ := ih.1 hmore
          refine ⟨i + 1, hfails, ?_⟩
          intro j hj z hz
          cases j with
          | zero =>
            obtain rfl := Option.some.inj hz
            exact ⟨y, hy⟩
          | succ j => exact hbefore j (Nat.lt_of_succ_lt_succ hj) z hz
        · cases hpure
    · rintro ⟨i, ⟨z, hz, he⟩, hbefore⟩
      cases i with
      | zero =>
        obtain rfl := Option.some.inj hz
        exact .inl he
      | succ i =>
        obtain ⟨y, hy⟩ := hbefore 0 (Nat.succ_pos i) x rfl
        have hmore : xs.mapM f = .error e :=
          ih.2 ⟨i, ⟨z, hz, he⟩, fun j hj ↦ hbefore (j + 1) (Nat.succ_lt_succ hj)⟩
        exact .inr ⟨y, hy, bind_eq_error_iff.2 (.inl hmore)⟩

/-- Checks of members in step end alike if each pair does. -/
theorem forM_congr {xs : List α} {ys : List β} {f : α → Except ε Unit} {g : β → Except ε Unit}
    (h : List.Forall₂ (fun x y ↦ f x = g y) xs ys) : xs.forM f = ys.forM g := by
  induction h with
  | nil => rfl
  | cons hfirst _ ih => rw [List.forM, List.forM, hfirst, ih]

/-- Computations on members in step have the same results if each pair has. -/
theorem mapM_congr {γ : Type} {xs : List α} {ys : List β} {f : α → Except ε γ}
    {g : β → Except ε γ} (h : List.Forall₂ (fun x y ↦ f x = g y) xs ys) :
    xs.mapM f = ys.mapM g := by
  induction h with
  | nil => rfl
  | cons hfirst _ ih => rw [List.mapM_cons, List.mapM_cons, hfirst, ih]

theorem forall_mem_iff {xs : List α} {f : α → Except ε β} {ys : List β} {p : β → Prop}
    (h : List.Forall₂ (fun x y ↦ f x = .ok y) xs ys) :
    (∀ y ∈ ys, p y) ↔ ∀ x ∈ xs, ∀ y, f x = .ok y → p y := by
  induction h with
  | nil => simp
  | cons hfirst _ ih =>
    rw [List.forall_mem_cons, List.forall_mem_cons, ih, hfirst]
    simp

end SignedFirmware.Checked
