import Mathlib.Data.List.Chain
import Mathlib.Data.List.Forall2
import SignedFirmware.Der.SetOf

/-!
# Sorting the members of a set

A set that was sorted stays as it is when it is sorted again. Insertion leaves every member before
its neighbour, provided that a comparison turns around with its arguments (`Mirrors`), and a list in
which every member comes before its neighbour is sorted in place (`sortSet?_eq_self`). Nothing more
is asked of a comparison: it need not be transitive, and of two equal members each may come before
the other, as absent fields do.
-/

namespace SignedFirmware.Der

variable {α : Type} {cmp : α → α → Ordering} {x : α} {xs ys zs : List α}

/-! ## Comparisons that turn around -/

/-- What a comparison says the other way round, as far as sorting needs it. -/
structure Mirrors (there back : Ordering) : Prop where
  lt_of_gt : there = .gt → back = .lt
  eq_of_eq : there = .eq → back = .eq

namespace Mirrors

theorem equal : Mirrors .eq .eq where
  lt_of_gt := by simp
  eq_of_eq := by simp

/-- What comes first in one direction may do anything in the other. -/
theorem first (back : Ordering) : Mirrors .lt back where
  lt_of_gt := by simp
  eq_of_eq := by simp

theorem last : Mirrors .gt .lt where
  lt_of_gt := by simp
  eq_of_eq := by simp

theorem andThen {a a' b b' : Ordering} (ha : Mirrors a a') (hb : Mirrors b b') :
    Mirrors (a.then b) (a'.then b') := by
  cases a with
  | lt => exact first _
  | gt =>
    rw [ha.lt_of_gt rfl]
    exact last
  | eq =>
    rw [ha.eq_of_eq rfl]
    exact hb

/-- Comparisons one after the other turn around together. -/
theorem foldl_then {os os' : List Ordering} (h : List.Forall₂ Mirrors os os') {o o' : Ordering}
    (ho : Mirrors o o') : Mirrors (os.foldl Ordering.then o) (os'.foldl Ordering.then o') := by
  induction h generalizing o o' with
  | nil => exact ho
  | cons hhead _ ih => exact ih (ho.andThen hhead)

theorem compare_nat (m n : Nat) : Mirrors (compare m n) (compare n m) where
  lt_of_gt h := Nat.compare_eq_lt.2 (Nat.compare_eq_gt.1 h)
  eq_of_eq h := Nat.compare_eq_eq.2 (Nat.compare_eq_eq.1 h).symm

theorem compareBytes (a b : Bytes) : Mirrors (compareBytes a b) (compareBytes b a) := by
  induction a generalizing b with
  | nil =>
    cases b with
    | nil => exact equal
    | cons y b => exact first _
  | cons x a ih =>
    cases b with
    | nil => exact last
    | cons y b => exact (compare_nat _ _).andThen (ih b)

theorem compareHeader (a b : Element) : Mirrors (compareHeader a b) (compareHeader b a) :=
  (compare_nat _ _).andThen (compare_nat _ _)

theorem comparePlain (a b : Element) : Mirrors (comparePlain a b) (comparePlain b a) :=
  (compareHeader a b).andThen (compareBytes _ _)

theorem compareNumberSequences (a b : Bytes) :
    Mirrors (compareNumberSequences a b) (compareNumberSequences b a) :=
  (compare_nat _ _).andThen (compareBytes _ _)

theorem compareChoice (a b : Element) : Mirrors (compareChoice a b) (compareChoice b a) :=
  (compareHeader a b).andThen (compareNumberSequences _ _)

theorem compareOptional (h : ∀ a b, Mirrors (cmp a b) (cmp b a)) (a b : Option α) :
    Mirrors (compareOptional cmp a b) (compareOptional cmp b a) := by
  cases a with
  | none => exact first _
  | some a =>
    cases b with
    | none => exact last
    | some b => exact h a b

theorem compareMembers (h : ∀ a b, Mirrors (cmp a b) (cmp b a)) (as bs : List α) :
    Mirrors (compareMembers cmp as bs) (compareMembers cmp bs as) := by
  induction as generalizing bs with
  | nil =>
    cases bs with
    | nil => exact equal
    | cons b bs => exact first _
  | cons a as ih =>
    cases bs with
    | nil => exact last
    | cons b bs => exact (h a b).andThen (ih bs)

end Mirrors

/-! ## Insertion -/

theorem perm_of_insertReversed (h : insertReversed cmp x ys = some zs) : zs.Perm (x :: ys) := by
  induction ys generalizing zs with
  | nil =>
    cases h
    exact .refl _
  | cons y ys ih =>
    rw [insertReversed] at h
    split at h
    · cases h
      exact .refl _
    · cases h
    · obtain ⟨ws, hws, rfl⟩ := Option.map_eq_some_iff.1 h
      exact ((ih hws).cons y).trans (.swap x y ys)

/-- An insertion only changes what stands at the end if it is the new member. -/
theorem head?_of_insertReversed (h : insertReversed cmp x ys = some zs) :
    zs.head? = some x ∨ zs.head? = ys.head? := by
  cases ys with
  | nil =>
    cases h
    exact .inl rfl
  | cons y ys =>
    rw [insertReversed] at h
    split at h
    · cases h
      exact .inl rfl
    · cases h
    · obtain ⟨ws, -, rfl⟩ := Option.map_eq_some_iff.1 h
      exact .inr rfl

theorem isChain_of_insertReversed (hcmp : ∀ a b, Mirrors (cmp a b) (cmp b a))
    (hys : ys.IsChain fun a b ↦ cmp b a = .lt) (h : insertReversed cmp x ys = some zs) :
    zs.IsChain fun a b ↦ cmp b a = .lt := by
  induction ys generalizing zs with
  | nil =>
    cases h
    exact .singleton x
  | cons y ys ih =>
    rw [insertReversed] at h
    split at h
    · rename_i hlt
      cases h
      exact .cons_cons hlt hys
    · cases h
    · rename_i hgt
      obtain ⟨ws, hws, rfl⟩ := Option.map_eq_some_iff.1 h
      obtain ⟨hhead, htail⟩ := List.isChain_cons.1 hys
      refine List.isChain_cons.2 ⟨fun w hw ↦ ?_, ih htail hws⟩
      -- next to `y` stands the new member or what stood there before
      rcases head?_of_insertReversed hws with hx | hy
      · rw [hx] at hw
        cases hw
        exact (hcmp y x).lt_of_gt hgt
      · exact hhead w (hy ▸ hw)

/-- What comes behind the last member is put there. -/
theorem insertReversed_of_isChain (h : (x :: ys).IsChain fun a b ↦ cmp b a = .lt) :
    insertReversed cmp x ys = some (x :: ys) := by
  cases ys with
  | nil => rfl
  | cons y ys =>
    have hlt : cmp y x = .lt := (List.isChain_cons.1 h).1 y rfl
    rw [insertReversed, hlt]

/-! ## Sorting -/

theorem sortSet?_eq_some_iff :
    sortSet? cmp xs = some ys ↔
      xs.foldlM (fun sorted x ↦ insertReversed cmp x sorted) [] = some ys.reverse := by
  rw [sortSet?, Option.map_eq_some_iff]
  constructor
  · rintro ⟨zs, hzs, rfl⟩
    rwa [List.reverse_reverse]
  · exact fun h ↦ ⟨_, h, List.reverse_reverse _⟩

/-- Each insertion of a sort keeps the members and puts them before their neighbours. -/
theorem foldlM_insertReversed {sorted : List α}
    (h : xs.foldlM (fun sorted x ↦ insertReversed cmp x sorted) sorted = some zs) :
    zs.Perm (xs ++ sorted) ∧
      ((∀ a b, Mirrors (cmp a b) (cmp b a)) → (sorted.IsChain fun a b ↦ cmp b a = .lt) →
        zs.IsChain fun a b ↦ cmp b a = .lt) := by
  induction xs generalizing sorted with
  | nil =>
    cases h
    exact ⟨.refl _, fun _ hsorted ↦ hsorted⟩
  | cons x xs ih =>
    rw [List.foldlM_cons, Option.bind_eq_bind, Option.bind_eq_some_iff] at h
    obtain ⟨next, hnext, hrest⟩ := h
    obtain ⟨hperm, hchain⟩ := ih hrest
    refine ⟨?_, fun hcmp hsorted ↦ hchain hcmp (isChain_of_insertReversed hcmp hsorted hnext)⟩
    have hnew : (xs ++ next).Perm (xs ++ x :: sorted) :=
      (perm_of_insertReversed hnext).append_left xs
    exact (hperm.trans hnew).trans List.perm_middle

theorem perm_of_sortSet? (h : sortSet? cmp xs = some ys) : ys.Perm xs := by
  have hperm := (foldlM_insertReversed (sortSet?_eq_some_iff.1 h)).1
  rw [List.append_nil] at hperm
  exact (List.reverse_perm ys).symm.trans hperm

theorem isChain_of_sortSet? (hcmp : ∀ a b, Mirrors (cmp a b) (cmp b a))
    (h : sortSet? cmp xs = some ys) : ys.IsChain fun a b ↦ cmp a b = .lt := by
  have hchain := (foldlM_insertReversed (sortSet?_eq_some_iff.1 h)).2 hcmp .nil
  rwa [List.isChain_reverse] at hchain

/-- Members that come in order are put one behind the other. -/
theorem foldlM_of_isChain {sorted : List α}
    (h : (xs.reverse ++ sorted).IsChain fun a b ↦ cmp b a = .lt) :
    xs.foldlM (fun sorted x ↦ insertReversed cmp x sorted) sorted =
      some (xs.reverse ++ sorted) := by
  induction xs generalizing sorted with
  | nil => rfl
  | cons x xs ih =>
    rw [List.reverse_cons, List.append_assoc, List.singleton_append] at h ⊢
    have hx := (List.isChain_append.1 h).2.1
    rw [List.foldlM_cons, insertReversed_of_isChain hx]
    exact ih h

theorem sortSet?_eq_self (h : xs.IsChain fun a b ↦ cmp a b = .lt) : sortSet? cmp xs = some xs := by
  have hreverse : List.IsChain (fun a b ↦ cmp b a = .lt) (xs.reverse ++ []) := by
    rwa [List.append_nil, List.isChain_reverse]
  rw [sortSet?_eq_some_iff, foldlM_of_isChain hreverse, List.append_nil]

theorem sortSet?_of_sortSet? (hcmp : ∀ a b, Mirrors (cmp a b) (cmp b a))
    (h : sortSet? cmp xs = some ys) : sortSet? cmp ys = some ys :=
  sortSet?_eq_self (isChain_of_sortSet? hcmp h)

end SignedFirmware.Der
