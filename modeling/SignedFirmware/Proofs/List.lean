import Mathlib.Data.List.Basic
import Mathlib.Data.List.Forall2
import Mathlib.Data.List.Infix

/-!
# Lists in step, searches, and pieces

Several passes over one list and the results of an earlier pass come down to a statement about each
member by itself. A search for the first member that fits depends on the order of those that fit and
on nothing else. A piece of a list lies on one side of a member that it does not hold.
-/

namespace SignedFirmware

variable {α β : Type}

/-- Lists in step can be found one member at a time. -/
theorem exists_forall₂_iff {r : α → β → Prop} {xs : List α} :
    (∃ ys, List.Forall₂ r xs ys) ↔ ∀ x ∈ xs, ∃ y, r x y := by
  induction xs with
  | nil => simp
  | cons x xs ih =>
    rw [List.forall_mem_cons, ← ih]
    simp only [List.forall₂_cons_left_iff]
    constructor
    · rintro ⟨_, y, ys, hy, hys, -⟩
      exact ⟨⟨y, hy⟩, ys, hys⟩
    · rintro ⟨⟨y, hy⟩, ys, hys⟩
      exact ⟨_, y, ys, hy, hys, rfl⟩

/-- What is checked of lists in step in three passes is checked of each pair. -/
theorem forall₂_and_iff {r p : α → β → Prop} {q : β → Prop} {xs : List α} {ys : List β} :
    List.Forall₂ (fun x y ↦ r x y ∧ q y ∧ p x y) xs ys ↔
      List.Forall₂ r xs ys ∧ (∀ y ∈ ys, q y) ∧ ∀ z ∈ xs.zip ys, p z.1 z.2 := by
  induction xs generalizing ys with
  | nil =>
    cases ys <;> simp
  | cons x xs ih =>
    cases ys with
    | nil => simp
    | cons y ys =>
      rw [List.forall₂_cons, List.forall₂_cons, List.forall_mem_cons, List.zip_cons_cons,
        List.forall_mem_cons, ih]
      constructor
      · rintro ⟨⟨hr, hq, hp⟩, hrs, hqs, hps⟩
        exact ⟨⟨hr, hrs⟩, ⟨hq, hqs⟩, hp, hps⟩
      · rintro ⟨⟨hr, hrs⟩, ⟨hq, hqs⟩, hp, hps⟩
        exact ⟨⟨hr, hq, hp⟩, hrs, hqs, hps⟩

/-- What does not depend on positions holds of all members if it holds of all of them with their
positions. -/
theorem forall_mem_zipIdx_iff {p : α → Prop} {xs : List α} :
    (∀ x ∈ xs.zipIdx, p x.1) ↔ ∀ x ∈ xs, p x := by
  rw [← List.forall_mem_map (f := Prod.fst), List.zipIdx_map_fst]

theorem forall₂_zipIdx {r : α → β → Prop} {xs : List α} {ys : List β} (h : List.Forall₂ r xs ys)
    (n : Nat) :
    List.Forall₂ (fun p q ↦ r p.1 q.1 ∧ p.2 = q.2) (xs.zipIdx n) (ys.zipIdx n) := by
  induction h generalizing n with
  | nil => exact .nil
  | cons hfirst _ ih => exact .cons ⟨hfirst, rfl⟩ (ih (n + 1))

theorem forall₂_zip {γ : Type} {r : α → β → Prop} {xs : List α} {ys : List β}
    (h : List.Forall₂ r xs ys) (zs : List γ) :
    List.Forall₂ (fun p q ↦ r p.1 q.1 ∧ p.2 = q.2) (xs.zip zs) (ys.zip zs) := by
  induction h generalizing zs with
  | nil => exact .nil
  | cons hfirst _ ih =>
    cases zs with
    | nil => exact .nil
    | cons z zs => exact .cons ⟨hfirst, rfl⟩ (ih zs)

theorem mapM_map_eq_some {write : α → β} {read : β → Option α} {xs : List α}
    (h : ∀ x ∈ xs, read (write x) = some x) : (xs.map write).mapM read = some xs := by
  induction xs with
  | nil => rfl
  | cons x xs ih =>
    rw [List.map_cons, List.mapM_cons, h x List.mem_cons_self,
      ih fun y hy ↦ h y (List.mem_cons_of_mem x hy)]
    rfl

/-- What several things are read as stands in step with them. -/
theorem forall₂_of_mapM_eq_some {f : α → Option β} {xs : List α} {ys : List β}
    (h : xs.mapM f = some ys) : List.Forall₂ (fun x y ↦ f x = some y) xs ys := by
  induction xs generalizing ys with
  | nil =>
    cases h
    exact .nil
  | cons x xs ih =>
    simp only [List.mapM_cons, Option.bind_eq_bind, Option.pure_def, Option.bind_eq_some_iff,
      Option.some.injEq] at h
    obtain ⟨y, hy, rest, hrest, rfl⟩ := h
    exact .cons hy (ih hrest)

theorem exists_of_mapM_eq_some {f : α → Option β} {xs : List α} {ys : List β}
    (h : xs.mapM f = some ys) {y : β} (hy : y ∈ ys) : ∃ x ∈ xs, f x = some y := by
  replace h := forall₂_of_mapM_eq_some h
  induction h with
  | nil => cases hy
  | @cons x z xs zs hread _ ih =>
    rcases List.mem_cons.1 hy with rfl | hy
    · exact ⟨x, List.mem_cons_self, hread⟩
    · obtain ⟨w, hw, hread⟩ := ih hy
      exact ⟨w, List.mem_cons_of_mem x hw, hread⟩

/-- If reading keeps something of each thing that is read, it keeps it of all of them. -/
theorem map_eq_of_mapM_eq_some {γ : Type} {f : α → Option β} {before : α → γ} {after : β → γ}
    (hkept : ∀ x y, f x = some y → after y = before x) {xs : List α} {ys : List β}
    (h : xs.mapM f = some ys) : ys.map after = xs.map before := by
  replace h := forall₂_of_mapM_eq_some h
  induction h with
  | nil => rfl
  | cons hread _ ih => rw [List.map_cons, List.map_cons, hkept _ _ hread, ih]

theorem length_flatMap_le_of_mapM_eq_some {γ : Type} {f : α → Option β} {before : α → List γ}
    {after : β → List γ} (hle : ∀ x y, f x = some y → (after y).length ≤ (before x).length)
    {xs : List α} {ys : List β} (h : xs.mapM f = some ys) :
    (ys.flatMap after).length ≤ (xs.flatMap before).length := by
  replace h := forall₂_of_mapM_eq_some h
  induction h with
  | nil => exact Nat.le_refl 0
  | cons hread _ ih =>
    rw [List.flatMap_cons, List.flatMap_cons, List.length_append, List.length_append]
    exact Nat.add_le_add (hle _ _ hread) ih

/-- What several things are read as is written as they were if and only if this holds of each. -/
theorem map_eq_iff_of_mapM_eq_some {f : α → Option β} {write : β → α} {p : α → Prop} {xs : List α}
    {ys : List β} (hwrite : ∀ x ∈ xs, ∀ y, f x = some y → (write y = x ↔ p x))
    (h : xs.mapM f = some ys) : ys.map write = xs ↔ ∀ x ∈ xs, p x := by
  replace h := forall₂_of_mapM_eq_some h
  induction h with
  | nil => simp
  | cons hread _ ih =>
    obtain ⟨hfirst, hmore⟩ := List.forall_mem_cons.1 hwrite
    rw [List.map_cons, List.cons.injEq, List.forall_mem_cons, hfirst _ hread]
    exact and_congr_right fun _ ↦ ih hmore

/-- Lists with the same images are the same if no two members of theirs have one image. -/
theorem eq_of_map_eq {f : α → β} {xs ys : List α} (hinj : ∀ x ∈ xs, ∀ y ∈ ys, f x = f y → x = y)
    (h : xs.map f = ys.map f) : xs = ys := by
  induction xs generalizing ys with
  | nil => exact (List.map_eq_nil_iff.1 h.symm).symm
  | cons x xs ih =>
    obtain ⟨y, ys, rfl, hhead, htail⟩ := List.map_eq_cons_iff.1 h.symm
    obtain rfl : x = y := hinj x List.mem_cons_self y List.mem_cons_self hhead.symm
    have hrest : xs = ys := ih
      (fun z hz w hw ↦ hinj z (List.mem_cons_of_mem x hz) w (List.mem_cons_of_mem x hw)) htail.symm
    rw [hrest]

/-! ## Repetitions -/

theorem nodup_eraseDups [DecidableEq α] (xs : List α) : xs.eraseDups.Nodup := by
  cases xs with
  | nil => simp
  | cons x xs =>
    have hrest := nodup_eraseDups (xs.filter fun y ↦ !(y == x))
    rw [List.eraseDups_cons, List.nodup_cons, List.mem_eraseDups, List.mem_filter]
    exact ⟨by simp, hrest⟩
termination_by xs.length
decreasing_by exact Nat.lt_succ_of_le (List.length_filter_le _ xs)

/-- Without repetitions, lists with the same members are orders of each other. -/
theorem perm_eraseDups [DecidableEq α] {xs ys : List α} (h : ∀ x, x ∈ xs ↔ x ∈ ys) :
    xs.eraseDups.Perm ys.eraseDups := by
  rw [List.perm_ext_iff_of_nodup (nodup_eraseDups xs) (nodup_eraseDups ys)]
  simpa only [List.mem_eraseDups] using h

/-- Without repetitions, the front of a list that ends as the whole list does is the whole list. -/
theorem eq_of_prefix_of_getLast? {xs ys : List α} {x : α} (hnodup : ys.Nodup) (hfront : xs <+: ys)
    (hxs : xs.getLast? = some x) (hys : ys.getLast? = some x) : xs = ys := by
  obtain ⟨more, rfl⟩ := hfront
  rcases List.eq_nil_or_concat more with rfl | ⟨front, last, rfl⟩
  · exact (List.append_nil xs).symm
  · rw [List.concat_eq_append, ← List.append_assoc, List.getLast?_concat, Option.some.injEq] at hys
    have hmem : x ∈ xs := List.mem_of_getLast? hxs
    have hbehind : x ∈ front.concat last := by simp [hys]
    exact absurd rfl ((List.nodup_append.1 hnodup).2.2 x hmem x hbehind)

/-! ## Searches -/

theorem find?_eq_some_of_unique {p : α → Bool} {x : α} {xs : List α} (hmem : x ∈ xs)
    (hx : p x = true) (hunique : ∀ y ∈ xs, p y = true → y = x) : xs.find? p = some x := by
  cases hfind : xs.find? p with
  | none => exact absurd hx (List.find?_eq_none.1 hfind x hmem)
  | some y => rw [hunique y (List.mem_of_find?_eq_some hfind) (List.find?_some hfind)]

theorem eraseP_eq_erase_of_find?_eq_some [DecidableEq α] {p : α → Bool} {x : α} {xs : List α}
    (h : xs.find? p = some x) : xs.eraseP p = xs.erase x := by
  induction xs with
  | nil => cases h
  | cons y ys ih =>
    by_cases hy : p y = true
    · rw [List.find?_cons_of_pos hy, Option.some.injEq] at h
      rw [List.eraseP_cons_of_pos hy, h, List.erase_cons_head]
    · rw [List.find?_cons_of_neg hy] at h
      have hne : ¬(y == x) = true := fun heq ↦ hy (LawfulBEq.eq_of_beq heq ▸ List.find?_some h)
      rw [List.eraseP_cons_of_neg hy, List.erase_cons_tail hne, ih h]

theorem idxOf_le_of_find?_eq_some [DecidableEq α] {p : α → Bool} {x y : α} {xs : List α}
    (hfind : xs.find? p = some x) (hmem : y ∈ xs) (hy : p y = true) : xs.idxOf x ≤ xs.idxOf y := by
  induction xs with
  | nil => simp at hmem
  | cons z zs ih =>
    by_cases hz : p z = true
    · rw [List.find?_cons_of_pos hz, Option.some.injEq] at hfind
      rw [List.idxOf_cons_eq zs hfind]
      exact Nat.zero_le _
    · rw [List.find?_cons_of_neg hz] at hfind
      have hzx : z ≠ x := fun h ↦ hz (h ▸ List.find?_some hfind)
      have hzy : z ≠ y := fun h ↦ hz (h ▸ hy)
      rw [List.idxOf_cons_ne zs hzx, List.idxOf_cons_ne zs hzy]
      exact Nat.succ_le_succ (ih hfind ((List.mem_cons.1 hmem).resolve_left hzy.symm))

/-- Members that do not fit may be put in anywhere without changing what a search finds. -/
theorem find?_eq_of_inserted {p : α → Bool} {xs ys added : List α} (hsublist : xs.Sublist ys)
    (hperm : ys.Perm (xs ++ added)) (hadded : ∀ x ∈ added, p x = false) :
    ys.find? p = xs.find? p := by
  have hnone : added.filter p = [] :=
    List.filter_eq_nil_iff.2 fun x hx ↦ Bool.eq_false_iff.1 (hadded x hx)
  have hlength : (xs.filter p).length = (ys.filter p).length := by
    rw [(hperm.filter p).length_eq, List.filter_append, hnone, List.append_nil]
  have hfilter : xs.filter p = ys.filter p := (hsublist.filter p).eq_of_length hlength
  rw [← List.head?_filter, ← List.head?_filter, hfilter]

/-- Two lists with the same members give a search the same result if the members that fit come in
the same order. -/
theorem find?_eq_of_order [DecidableEq α] {p : α → Bool} {xs ys : List α}
    (hmem : ∀ x, x ∈ xs ↔ x ∈ ys)
    (horder : ∀ x ∈ xs, ∀ y ∈ xs, p x = true → p y = true →
      xs.idxOf x < xs.idxOf y → ys.idxOf x < ys.idxOf y) :
    xs.find? p = ys.find? p := by
  cases hx : xs.find? p with
  | none =>
    have hnone : ys.find? p = none := by
      rw [List.find?_eq_none] at hx ⊢
      intro y hy
      exact hx y ((hmem y).2 hy)
    exact hnone.symm
  | some x =>
    have hxs : x ∈ xs := List.mem_of_find?_eq_some hx
    have hpx : p x = true := List.find?_some hx
    obtain ⟨y, hy⟩ : ∃ y, ys.find? p = some y := by
      rw [← Option.isSome_iff_exists, List.find?_isSome]
      exact ⟨x, (hmem x).1 hxs, hpx⟩
    have hyxs : y ∈ xs := (hmem y).2 (List.mem_of_find?_eq_some hy)
    have hpy : p y = true := List.find?_some hy
    have hfirst : xs.idxOf x ≤ xs.idxOf y := idxOf_le_of_find?_eq_some hx hyxs hpy
    have hback : ys.idxOf y ≤ ys.idxOf x := idxOf_le_of_find?_eq_some hy ((hmem x).1 hxs) hpx
    -- each is found before the other in its own list, and the order is the same in both
    have hsame : xs.idxOf x = xs.idxOf y := by
      rcases Nat.lt_or_eq_of_le hfirst with hlt | heq
      · exact absurd (horder x hxs y hyxs hpx hpy hlt) (Nat.not_lt.2 hback)
      · exact heq
    rw [hy, (List.idxOf_inj hxs).1 hsame]

/-! ## Pieces -/

/-- What begins with a member that the front of a list does not hold is found behind the front. -/
theorem infix_append_of_not_mem {w front rest : List α} {x : α} (hx : x ∉ front) :
    x :: w <:+: front ++ rest ↔ x :: w <:+: rest := by
  rw [List.infix_append_iff]
  constructor
  · rintro (hfront | hrest | ⟨first, second, hsplit, hfirst, hsecond⟩)
    · exact absurd (hfront.subset List.mem_cons_self) hx
    · exact hrest
    · cases first with
      | nil =>
        obtain rfl : x :: w = second := hsplit
        exact hsecond.isInfix
      | cons y first =>
        obtain ⟨rfl, -⟩ := List.cons.inj hsplit
        exact absurd (hfirst.subset List.mem_cons_self) hx
  · exact fun hrest ↦ .inr (.inl hrest)

/-- What does not hold a member is found on one side of it. -/
theorem infix_append_cons_iff {w front rest : List α} {x : α} (hx : x ∉ w) :
    w <:+: front ++ x :: rest ↔ w <:+: front ∨ w <:+: rest := by
  have hempty : ∀ {part}, part <+: x :: rest → part ⊆ w → part = [] := by
    intro part hpart hsubset
    rcases List.prefix_cons_iff.1 hpart with rfl | ⟨more, rfl, -⟩
    · rfl
    · exact absurd (hsubset List.mem_cons_self) hx
  rw [List.infix_append_iff, List.infix_cons_iff]
  constructor
  · rintro (hfront | (hstart | hrest) | ⟨first, second, rfl, hfirst, hsecond⟩)
    · exact .inl hfront
    · rw [hempty hstart (List.Subset.refl w)]
      exact .inl List.nil_infix
    · exact .inr hrest
    · rw [hempty hsecond (List.subset_append_right first second), List.append_nil]
      exact .inl hfirst.isInfix
  · rintro (hfront | hrest)
    · exact .inl hfront
    · exact .inr (.inl (.inr hrest))

end SignedFirmware
