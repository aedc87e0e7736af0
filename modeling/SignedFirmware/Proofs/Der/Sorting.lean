import Mathlib.Data.List.Pairwise
import SignedFirmware.Proofs.Der.SetOf

/-!
# Sorting does not depend on the order

The comparisons of this library go field by field, and so what they say is transitive if what is
said about each field is (`Transits`). With that, a member of a sorted set comes before all members
behind it and not only before its neighbour. So a set has equal members or not whatever order it is
given in (`exists_sortSet?_of_perm`).

Whether the outcome is the same is another matter, as two members may each come before the other:
these stay in the order in which they were given. Where this happens to no two different members,
sorting gives one outcome for all orders (`sortSet?_eq_of_perm`).
-/

namespace SignedFirmware.Der

variable {α : Type} {cmp : α → α → Ordering} {x : α} {xs xs' ys : List α}

/-! ## Comparisons of three -/

/-- What the comparison of a first thing with a third has to do with how each compares with one that
stands between them. -/
structure Transits (ab bc ac : Ordering) : Prop where
  of_eq_left : ab = .eq → ac = bc
  of_eq_right : bc = .eq → ac = ab
  of_lt : ab = .lt → bc = .lt → ac = .lt

namespace Transits

theorem equal : Transits .eq .eq .eq := by
  constructor <;> simp

/-- A comparison with something that comes after everything so far settles the others. -/
theorem andThen {ab bc ac ab' bc' ac' : Ordering} (h : Transits ab bc ac)
    (h' : Transits ab' bc' ac') : Transits (ab.then ab') (bc.then bc') (ac.then ac') where
  of_eq_left heq := by
    obtain ⟨hab, hab'⟩ := Ordering.then_eq_eq.1 heq
    rw [h.of_eq_left hab, h'.of_eq_left hab']
  of_eq_right heq := by
    obtain ⟨hbc, hbc'⟩ := Ordering.then_eq_eq.1 heq
    rw [h.of_eq_right hbc, h'.of_eq_right hbc']
  of_lt hab hbc := by
    rw [Ordering.then_eq_lt] at hab hbc ⊢
    rcases hab with hab | ⟨hab, hab'⟩ <;> rcases hbc with hbc | ⟨hbc, hbc'⟩
    · exact .inl (h.of_lt hab hbc)
    · exact .inl ((h.of_eq_right hbc).trans hab)
    · exact .inl ((h.of_eq_left hab).trans hbc)
    · exact .inr ⟨(h.of_eq_left hab).trans hbc, h'.of_lt hab' hbc'⟩

theorem compare_nat (l m n : Nat) : Transits (compare l m) (compare m n) (compare l n) where
  of_eq_left h := by rw [Nat.compare_eq_eq.1 h]
  of_eq_right h := by rw [Nat.compare_eq_eq.1 h]
  of_lt h h' := Nat.compare_eq_lt.2 ((Nat.compare_eq_lt.1 h).trans (Nat.compare_eq_lt.1 h'))

theorem compareMembers (h : ∀ a b c, Transits (cmp a b) (cmp b c) (cmp a c)) (as bs cs : List α) :
    Transits (compareMembers cmp as bs) (compareMembers cmp bs cs) (compareMembers cmp as cs) := by
  induction as generalizing bs cs with
  | nil => cases bs <;> cases cs <;> constructor <;> simp [Der.compareMembers]
  | cons a as ih =>
    cases bs with
    | nil => cases cs <;> constructor <;> simp [Der.compareMembers]
    | cons b bs =>
      cases cs with
      | nil => constructor <;> simp [Der.compareMembers]
      | cons c cs => exact (h a b c).andThen (ih bs cs)

theorem compareBytes (a b c : Bytes) :
    Transits (compareBytes a b) (compareBytes b c) (compareBytes a c) := by
  have hmembers : ∀ a b, Der.compareBytes a b =
      Der.compareMembers (fun x y : UInt8 ↦ compare x.toNat y.toNat) a b := by
    intro a
    induction a with
    | nil => intro b; cases b <;> rfl
    | cons x a ih =>
      intro b
      cases b with
      | nil => rfl
      | cons y b => exact congrArg ((compare x.toNat y.toNat).then ·) (ih b)
  rw [hmembers, hmembers, hmembers]
  exact compareMembers (fun x y z ↦ compare_nat x.toNat y.toNat z.toNat) a b c

theorem compareHeader (a b c : Element) :
    Transits (compareHeader a b) (compareHeader b c) (compareHeader a c) :=
  (compare_nat _ _ _).andThen (compare_nat _ _ _)

theorem comparePlain (a b c : Element) :
    Transits (comparePlain a b) (comparePlain b c) (comparePlain a c) :=
  (compareHeader a b c).andThen (compareBytes _ _ _)

theorem compareChoice (a b c : Element) :
    Transits (compareChoice a b) (compareChoice b c) (compareChoice a c) :=
  (compareHeader a b c).andThen ((compare_nat _ _ _).andThen (compareBytes _ _ _))

theorem compareOptional (h : ∀ a b c, Transits (cmp a b) (cmp b c) (cmp a c)) (a b c : Option α) :
    Transits (compareOptional cmp a b) (compareOptional cmp b c) (compareOptional cmp a c) := by
  cases a with
  | none => cases b <;> cases c <;> constructor <;> simp [Der.compareOptional]
  | some a =>
    cases b with
    | none => cases c <;> constructor <;> simp [Der.compareOptional]
    | some b =>
      cases c with
      | none => constructor <;> simp [Der.compareOptional]
      | some c => exact h a b c

end Transits

/-! ## Sorting -/

/-- A member of a sorted set comes before all members behind it. -/
theorem pairwise_of_sortSet? (hmirrors : ∀ a b, Mirrors (cmp a b) (cmp b a))
    (htransits : ∀ a b c, Transits (cmp a b) (cmp b c) (cmp a c)) (h : sortSet? cmp xs = some ys) :
    ys.Pairwise fun a b ↦ cmp a b = .lt := by
  have : Trans (fun a b ↦ cmp a b = .lt) (fun a b ↦ cmp a b = .lt) (fun a b ↦ cmp a b = .lt) :=
    ⟨fun hab hbc ↦ (htransits _ _ _).of_lt hab hbc⟩
  exact (isChain_of_sortSet? hmirrors h).pairwise

theorem exists_insertReversed (h : ∀ y ∈ ys, cmp y x ≠ .eq) :
    ∃ zs, insertReversed cmp x ys = some zs := by
  induction ys with
  | nil => exact ⟨_, rfl⟩
  | cons y ys ih =>
    obtain ⟨hy, hys⟩ := List.forall_mem_cons.1 h
    obtain ⟨zs, hzs⟩ := ih hys
    rw [insertReversed]
    cases hcmp : cmp y x with
    | lt => exact ⟨_, rfl⟩
    | eq => exact absurd hcmp hy
    | gt => exact ⟨_, congrArg (Option.map (y :: ·)) hzs⟩

/-- Without equal members, there is nothing that a sort could fail at. -/
theorem exists_sortSet?_of_pairwise (h : xs.Pairwise fun a b ↦ cmp a b ≠ .eq) :
    ∃ ys, sortSet? cmp xs = some ys := by
  -- by induction on what is still to be inserted, into any members it is not equal to
  suffices hsorts : ∀ sorted : List α, (∀ y ∈ sorted, ∀ x ∈ xs, cmp y x ≠ .eq) →
      ∃ zs, xs.foldlM (fun sorted x ↦ insertReversed cmp x sorted) sorted = some zs by
    obtain ⟨zs, hzs⟩ := hsorts [] (by simp)
    exact ⟨zs.reverse, by rw [sortSet?, hzs, Option.map_some]⟩
  induction h with
  | nil => exact fun sorted _ ↦ ⟨sorted, rfl⟩
  | @cons x xs hx _ ih =>
    intro sorted hsorted
    obtain ⟨next, hnext⟩ := exists_insertReversed fun y hy ↦ hsorted y hy x List.mem_cons_self
    obtain ⟨zs, hzs⟩ := ih next fun y hy z hz ↦ by
      rcases List.mem_cons.1 ((perm_of_insertReversed hnext).mem_iff.1 hy) with rfl | hy
      · exact hx z hz
      · exact hsorted y hy z (List.mem_cons_of_mem x hz)
    exact ⟨zs, by rw [List.foldlM_cons, hnext]; exact hzs⟩

/-- A set that can be sorted can be sorted in any other order. -/
theorem exists_sortSet?_of_perm (hmirrors : ∀ a b, Mirrors (cmp a b) (cmp b a))
    (htransits : ∀ a b c, Transits (cmp a b) (cmp b c) (cmp a c)) (hperm : xs.Perm xs')
    (h : sortSet? cmp xs = some ys) : ∃ ys', sortSet? cmp xs' = some ys' := by
  -- what comes before what depends on the order, but what is equal to what does not
  have hdistinct : ys.Pairwise fun a b ↦ cmp a b ≠ .eq ∧ cmp b a ≠ .eq := by
    refine (pairwise_of_sortSet? hmirrors htransits h).imp ?_
    intro a b hlt
    have hne : cmp a b ≠ .eq := by simp [hlt]
    exact ⟨hne, fun heq ↦ hne ((hmirrors b a).eq_of_eq heq)⟩
  have hany : xs'.Pairwise fun a b ↦ cmp a b ≠ .eq ∧ cmp b a ≠ .eq :=
    (((perm_of_sortSet? h).trans hperm).pairwise_iff fun hab ↦ ⟨hab.2, hab.1⟩).1 hdistinct
  exact exists_sortSet?_of_pairwise (hany.imp fun hab ↦ hab.1)

/-- **Sorting does not depend on the order**, if no two different members come before each other. -/
theorem sortSet?_eq_of_perm (hmirrors : ∀ a b, Mirrors (cmp a b) (cmp b a))
    (htransits : ∀ a b c, Transits (cmp a b) (cmp b c) (cmp a c))
    (hties : ∀ a ∈ xs, ∀ b ∈ xs, cmp a b = .lt → cmp b a = .lt → a = b) (hperm : xs.Perm xs') :
    sortSet? cmp xs = sortSet? cmp xs' := by
  cases h : sortSet? cmp xs with
  | none =>
    cases h' : sortSet? cmp xs' with
    | none => rfl
    | some ys' =>
      obtain ⟨ys, hys⟩ := exists_sortSet?_of_perm hmirrors htransits hperm.symm h'
      rw [h] at hys
      cases hys
  | some ys =>
    obtain ⟨ys', h'⟩ := exists_sortSet?_of_perm hmirrors htransits hperm h
    have hys := perm_of_sortSet? h
    have hys' := (perm_of_sortSet? h').trans hperm.symm
    have hsame : ys = ys' := by
      refine List.Perm.eq_of_pairwise (fun a b ha hb ↦ ?_)
        (pairwise_of_sortSet? hmirrors htransits h) (pairwise_of_sortSet? hmirrors htransits h')
        (hys.trans hys'.symm)
      exact hties a (hys.mem_iff.1 ha) b (hys'.mem_iff.1 hb)
    rw [h', hsame]

end SignedFirmware.Der
