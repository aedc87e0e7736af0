import SignedFirmware.CertList.Workbench
import SignedFirmware.Proofs.CertList

/-!
# A list in the making stays in step with its calls

A workbench keeps the bytes of a list, the number of its records and a scratch buffer, and changes
them one after the other. Still, a call either does what `Builder.push` does or leaves list and
number alone (`push_or_keep`), as no step behind the first byte that is written can fail. The
scratch buffer may change in both cases, but the next call begins by clearing it, so that nothing
depends on it. By induction on the calls, list and number always are those of the calls that
succeeded, and the others might as well not have been made (`run_keeps_step`).
-/

namespace SignedFirmware.CertList

open X509 (Certificate)

namespace Workbench

/-! ## Steps -/

section Steps

variable {α : Type} {grants : Nat → Bool}

theorem run_get_bind (p : Workbench → Work α) (w : Workbench) :
    (get >>= p).run.run w = (p w).run.run w := rfl

theorem run_modify_bind (f : Workbench → Workbench) (p : PUnit → Work α) (w : Workbench) :
    (modify f >>= p).run.run w = (p ⟨⟩).run.run (f w) := rfl

theorem run_modify (f : Workbench → Workbench) (w : Workbench) :
    (modify f : Work PUnit).run.run w = (.ok ⟨⟩, f w) := rfl

theorem run_reserve_bind (size : Nat) (p : PUnit → Work α) (w : Workbench) :
    (reserve grants size >>= p).run.run w =
      if grants size then (p ⟨⟩).run.run w else (.error (.memory size), w) := by
  rw [reserve]
  split <;> rfl

/-- The workbench with one more record. -/
def append (w : Workbench) (der : Bytes) : Workbench :=
  { w with data := (if w.data = [] then [0] else w.data) ++ record der, count := w.count + 1 }

theorem push_append (w : Workbench) {der : Bytes} (h : der.length < recordLimit) :
    w.toBuilder.push der = .ok (w.append der).toBuilder := by
  rw [Builder.push, if_pos h]
  rfl

theorem run_pushDer (der : Bytes) (w : Workbench) :
    (pushDer grants der).run.run w =
      if recordLimit ≤ der.length then (.error (.list (.recordTooLarge der.length)), w)
      else if grants (roomFor w.data der) then (.ok (), w.append der)
      else (.error (.memory (roomFor w.data der)), w) := by
  rw [pushDer]
  split
  · rfl
  · simp only [run_get_bind, run_reserve_bind, run_modify_bind, run_modify, List.append_assoc]
    rfl

theorem run_pushCertificate (cert : Certificate) (w : Workbench) :
    (pushCertificate grants cert).run.run w =
      if Der.maxLength < cert.encode.length then (.error (.encoding w.count), w)
      else if grants cert.encode.length then
        (pushDer grants cert.encode).run.run { w with scratch := cert.encode }
      else (.error (.memory cert.encode.length), { w with scratch := [] }) := by
  rw [pushCertificate, run_get_bind]
  dsimp only
  split
  · rfl
  · simp only [run_get_bind, run_reserve_bind, run_modify_bind, List.nil_append]

end Steps

/-! ## Calls -/

variable {w w' : Workbench} {c : Call} {calls : List Call}

theorem perform_der (grants : Nat → Bool) (bytes : Bytes) :
    (Call.mk (.der bytes) grants).perform = pushDer grants bytes := rfl

theorem perform_certificate (grants : Nat → Bool) (cert : Certificate) :
    (Call.mk (.certificate cert) grants).perform = pushCertificate grants cert := rfl

/-- What may become a record: bytes whose length fits into its field, and a certificate that has an
encoding. -/
def Item.Fits : Item → Prop
  | .der bytes => bytes.length < recordLimit
  | .certificate cert => cert.encode.length ≤ Der.maxLength

/-- The requests for room that are made to append something. -/
def Item.requests (data : Bytes) : Item → List Nat
  | .der bytes => [roomFor data bytes]
  | .certificate cert => [cert.encode.length, roomFor data cert.encode]

theorem Item.Fits.length_lt {item : Item} (h : item.Fits) : item.bytes.length < recordLimit := by
  cases item with
  | der bytes => exact h
  | certificate cert => exact Nat.lt_of_le_of_lt h (by decide)

/-- Whether a call succeeds does not depend on the scratch buffer. -/
def Succeeds (data : Bytes) (c : Call) : Prop :=
  c.item.Fits ∧ ∀ size ∈ c.item.requests data, c.grants size = true

/-- **What a call can do.** It succeeds if what it appends fits and all requests for room are
granted, and then it does what a builder does. Otherwise it leaves the builder as it was. -/
theorem push_or_keep (w : Workbench) (c : Call) :
    (Succeeds w.data c ∧ w.outcome c = .ok () ∧
      w.toBuilder.push c.item.bytes = .ok (w.after c).toBuilder) ∨
    (¬Succeeds w.data c ∧ (∃ e, w.outcome c = .error e) ∧
      (w.after c).toBuilder = w.toBuilder) := by
  obtain ⟨item, grants⟩ := c
  cases item with
  | der bytes =>
    rw [outcome, after, perform_der, run_pushDer]
    by_cases hlong : recordLimit ≤ bytes.length
    · rw [if_pos hlong]
      exact .inr ⟨fun h ↦ absurd h.1 (Nat.not_lt.2 hlong), ⟨_, rfl⟩, rfl⟩
    · have hfits : bytes.length < recordLimit := Nat.lt_of_not_le hlong
      rw [if_neg hlong]
      by_cases hroom : grants (roomFor w.data bytes) = true
      · rw [if_pos hroom]
        exact .inl ⟨⟨hfits, List.forall_mem_singleton.2 hroom⟩, rfl, push_append w hfits⟩
      · rw [if_neg hroom]
        exact .inr ⟨fun h ↦ hroom (h.2 _ List.mem_cons_self), ⟨_, rfl⟩, rfl⟩
  | certificate cert =>
    rw [outcome, after, perform_certificate, run_pushCertificate]
    by_cases hlong : Der.maxLength < cert.encode.length
    · rw [if_pos hlong]
      exact .inr ⟨fun h ↦ absurd h.1 (Nat.not_le.2 hlong), ⟨_, rfl⟩, rfl⟩
    · -- what has an encoding is far shorter than a record may be
      have hencodes : (Item.certificate cert).Fits := Nat.le_of_not_lt hlong
      have hfits : cert.encode.length < recordLimit := hencodes.length_lt
      rw [if_neg hlong]
      by_cases hscratch : grants cert.encode.length = true
      · rw [if_pos hscratch, run_pushDer, if_neg (Nat.not_le.2 hfits)]
        by_cases hroom : grants (roomFor w.data cert.encode) = true
        · rw [if_pos hroom]
          refine .inl ⟨⟨hencodes, List.forall_mem_cons.2 ⟨hscratch, ?_⟩⟩, rfl, push_append w hfits⟩
          exact List.forall_mem_singleton.2 hroom
        · rw [if_neg hroom]
          exact .inr ⟨fun h ↦ hroom (h.2 _ (by simp [Item.requests])), ⟨_, rfl⟩, rfl⟩
      · rw [if_neg hscratch]
        exact .inr ⟨fun h ↦ hscratch (h.2 _ List.mem_cons_self), ⟨_, rfl⟩, rfl⟩

/-- If there always is room, only what does not fit fails. -/
theorem outcome_of_granted (w : Workbench) (hgrants : ∀ size, c.grants size = true) :
    w.outcome c =
      match c.item with
      | .der bytes =>
        if bytes.length < recordLimit then .ok () else .error (.list (.recordTooLarge bytes.length))
      | .certificate cert =>
        if cert.encode.length ≤ Der.maxLength then .ok () else .error (.encoding w.count) := by
  obtain ⟨item, grants⟩ := c
  cases item with
  | der bytes =>
    rw [outcome, perform_der, run_pushDer, if_pos (hgrants _)]
    by_cases hfits : bytes.length < recordLimit
    · simp [hfits, Nat.not_le.2 hfits]
    · simp [hfits, Nat.le_of_not_lt hfits]
  | certificate cert =>
    rw [outcome, perform_certificate, run_pushCertificate, if_pos (hgrants _), run_pushDer,
      if_pos (hgrants _)]
    by_cases hencodes : (Item.certificate cert).Fits
    · have hfits : ¬recordLimit ≤ cert.encode.length := Nat.not_le.2 hencodes.length_lt
      rw [if_neg (Nat.not_lt.2 hencodes), if_neg hfits]
      exact (if_pos hencodes).symm
    · rw [if_pos (Nat.lt_of_not_le hencodes)]
      exact (if_neg hencodes).symm

/-! ## Runs -/

/-- The calls that succeed, in order. -/
def successes (w : Workbench) : List Call → List Call
  | [] => []
  | c :: calls =>
    match w.outcome c with
    | .ok _ => c :: successes (w.after c) calls
    | .error _ => successes (w.after c) calls

theorem run_cons (w : Workbench) (c : Call) (calls : List Call) :
    w.run (c :: calls) = (w.after c).run calls := rfl

theorem successes_cons_of_ok (h : w.outcome c = .ok ()) (calls : List Call) :
    w.successes (c :: calls) = c :: (w.after c).successes calls := by
  rw [successes, h]

theorem successes_cons_of_error {e : Failure} (h : w.outcome c = .error e) (calls : List Call) :
    w.successes (c :: calls) = (w.after c).successes calls := by
  rw [successes, h]

def recordsOf (calls : List Call) : List Bytes := calls.map fun c ↦ c.item.bytes

/-- What is built is what the calls that succeed make of it. -/
theorem toBuilder_run (calls : List Call) {rs : List Bytes}
    (h : w.toBuilder = Builder.ofRecords rs) :
    Short (recordsOf (w.successes calls)) ∧
      (w.run calls).toBuilder = Builder.ofRecords (rs ++ recordsOf (w.successes calls)) := by
  induction calls generalizing w rs with
  | nil =>
    rw [successes, recordsOf, List.map_nil, List.append_nil]
    exact ⟨short_nil, h⟩
  | cons c calls ih =>
    rw [run_cons]
    obtain ⟨⟨hfits, -⟩, hok, hpush⟩ | ⟨-, ⟨e, he⟩, hkept⟩ := push_or_keep w c
    · have hnext : (w.after c).toBuilder = Builder.ofRecords (rs ++ [c.item.bytes]) := by
        rw [h, Builder.push_ofRecords rs hfits.length_lt] at hpush
        exact (Except.ok.inj hpush).symm
      obtain ⟨hshort, hbuilt⟩ := ih hnext
      rw [successes_cons_of_ok hok, recordsOf, List.map_cons, hbuilt, List.append_assoc]
      exact ⟨short_cons_iff.2 ⟨hfits.length_lt, hshort⟩, rfl⟩
    · rw [successes_cons_of_error he]
      exact ih (hkept.trans h)

/-! ## Without the calls that fail -/

/-- How calls end, and what they build, does not depend on the scratch buffer. -/
theorem run_congr (calls : List Call) (h : w.toBuilder = w'.toBuilder) :
    w.successes calls = w'.successes calls ∧
      (w.run calls).toBuilder = (w'.run calls).toBuilder := by
  induction calls generalizing w w' with
  | nil => exact ⟨rfl, h⟩
  | cons c calls ih =>
    have hdata : w.data = w'.data := congrArg Builder.data h
    rw [run_cons, run_cons]
    obtain ⟨hsucceeds, hok, hpush⟩ | ⟨hfails, ⟨e, he⟩, hkept⟩ := push_or_keep w c
    · obtain ⟨-, hok', hpush'⟩ | ⟨hfails', -⟩ := push_or_keep w' c
      · rw [h] at hpush
        obtain ⟨hsame, hbuilt⟩ := ih (Except.ok.inj (hpush.symm.trans hpush'))
        rw [successes_cons_of_ok hok, successes_cons_of_ok hok', hsame]
        exact ⟨rfl, hbuilt⟩
      · exact absurd (hdata ▸ hsucceeds) hfails'
    · obtain ⟨hsucceeds', -⟩ | ⟨-, ⟨e', he'⟩, hkept'⟩ := push_or_keep w' c
      · exact absurd (hdata ▸ hsucceeds') hfails
      · rw [successes_cons_of_error he, successes_cons_of_error he']
        exact ih (hkept.trans (h.trans hkept'.symm))

/-- The calls that succeed still do if the others are not made, and build the same. -/
theorem run_successes (w : Workbench) (calls : List Call) :
    w.successes (w.successes calls) = w.successes calls ∧
      (w.run (w.successes calls)).toBuilder = (w.run calls).toBuilder := by
  induction calls generalizing w with
  | nil => exact ⟨rfl, rfl⟩
  | cons c calls ih =>
    obtain ⟨-, hok, -⟩ | ⟨-, ⟨e, he⟩, hkept⟩ := push_or_keep w c
    · rw [successes_cons_of_ok hok, successes_cons_of_ok hok, run_cons, run_cons]
      obtain ⟨hsame, hbuilt⟩ := ih (w.after c)
      exact ⟨congrArg (c :: ·) hsame, hbuilt⟩
    · rw [successes_cons_of_error he, run_cons]
      obtain ⟨hsame, hbuilt⟩ := ih (w.after c)
      obtain ⟨hsame', hbuilt'⟩ := run_congr ((w.after c).successes calls) hkept
      exact ⟨hsame'.symm.trans hsame, hbuilt'.symm.trans hbuilt⟩

/-! ## In step -/

/-- A builder is in step with records: it is what they make of it, and what it makes is their
list. -/
structure InStep (b : Builder) (rs : List Bytes) : Prop where
  count_eq : b.count = rs.length
  data_eq_nil_iff : b.data = [] ↔ b.count = 0
  /-- Behind a placeholder, each record has its length in front. -/
  data_eq : b.count ≠ 0 → b.data = 0 :: rs.flatMap fun r ↦ Bytes.ofNatLE 4 r.length ++ r
  finish_eq_none_iff : b.finish = none ↔ b.count = 0
  /-- There is a first byte, and the count takes its place. -/
  bytes_finish : ∀ l, b.finish = some l →
    b.data ≠ [] ∧ l.bytes = b.data.set 0 (UInt8.ofNat b.count)

theorem inStep_ofRecords (rs : List Bytes) : InStep (Builder.ofRecords rs) rs := by
  cases rs with
  | nil =>
    exact ⟨rfl, iff_of_true rfl rfl, fun h ↦ absurd rfl h, iff_of_true rfl rfl,
      fun l hl ↦ nomatch hl⟩
  | cons r rs =>
    have hbuilder : Builder.ofRecords (r :: rs) =
        ⟨0 :: (r :: rs).flatMap record, rs.length + 1⟩ := rfl
    have hfinish : (Builder.ofRecords (r :: rs)).finish = some (ofRecords (r :: rs)) :=
      Builder.finish_ofRecords (r :: rs)
    refine ⟨rfl, ?_, fun _ ↦ rfl, ?_, fun l hl ↦ ?_⟩
    · simp [hbuilder]
    · rw [hfinish]
      exact iff_of_false (Option.some_ne_none _) (Nat.succ_ne_zero _)
    · obtain rfl := Option.some.inj (hfinish.symm.trans hl)
      exact ⟨List.cons_ne_nil _ _, rfl⟩

/-- **A list in the making stays in step.** Take any calls on a new workbench. Number and bytes are
those of the records of the calls that succeeded, in order. A further call either succeeds and adds
its record, or it fails and leaves number and bytes as they were; if there always is room, it fails
only for bytes that are too long or a certificate without an encoding. Without the calls that
failed, the others succeed just as well and build the same, which is the list of their records. -/
theorem run_keeps_step (calls : List Call) :
    InStep (run {} calls).toBuilder (recordsOf (successes {} calls)) ∧
    (∀ c, ((run {} calls).outcome c = .ok () ∧
        InStep ((run {} calls).after c).toBuilder
          (recordsOf (successes {} calls) ++ [c.item.bytes])) ∨
      ∃ e, (run {} calls).outcome c = .error e ∧
        ((run {} calls).after c).count = (run {} calls).count ∧
        ((run {} calls).after c).data = (run {} calls).data) ∧
    (∀ c, (∀ size, c.grants size = true) → (run {} calls).outcome c =
      match c.item with
      | .der bytes =>
        if bytes.length < recordLimit then .ok () else .error (.list (.recordTooLarge bytes.length))
      | .certificate cert =>
        if cert.encode.length ≤ Der.maxLength then .ok ()
        else .error (.encoding (run {} calls).count)) ∧
    successes {} (successes {} calls) = successes {} calls ∧
    (run {} (successes {} calls)).toBuilder = (run {} calls).toBuilder ∧
    ofDer (recordsOf (successes {} calls)) = .ok (run {} calls).toBuilder.finish := by
  have hnew : ({} : Workbench).toBuilder = Builder.ofRecords [] := rfl
  obtain ⟨hshort, hbuilt⟩ := toBuilder_run calls hnew
  rw [List.nil_append] at hbuilt
  obtain ⟨hsame, hkept⟩ := run_successes {} calls
  refine ⟨?_, fun c ↦ ?_, fun c ↦ outcome_of_granted _, hsame, hkept, ?_⟩
  · rw [hbuilt]
    exact inStep_ofRecords _
  · obtain ⟨⟨hfits, -⟩, hok, hpush⟩ | ⟨-, ⟨e, he⟩, hstay⟩ := push_or_keep (run {} calls) c
    · rw [hbuilt, Builder.push_ofRecords _ hfits.length_lt] at hpush
      rw [← Except.ok.inj hpush]
      exact .inl ⟨hok, inStep_ofRecords _⟩
    · exact .inr ⟨e, he, congrArg Builder.count hstay, congrArg Builder.data hstay⟩
  · rw [hbuilt, Builder.finish_ofRecords]
    exact ofDer_eq_ok_iff.2 ⟨hshort, rfl⟩

/-- Three calls, of which the second gets no room. -/
def sampleCalls : List Call :=
  [⟨.der [0xaa], fun _ ↦ true⟩, ⟨.der [0xbb], fun _ ↦ false⟩, ⟨.der [], fun _ ↦ true⟩]

/-- Two records are there, behind the placeholder. A record that is too long is not added. -/
theorem run_keeps_step_sampleCalls :
    (run {} sampleCalls).count = 2 ∧
      (run {} sampleCalls).data = [0, 1, 0, 0, 0, 0xaa, 0, 0, 0, 0] ∧
      (run {} sampleCalls).outcome ⟨.der (List.replicate recordLimit 0), fun _ ↦ true⟩ =
        .error (.list (.recordTooLarge recordLimit)) := by
  have hrecords : recordsOf (successes {} sampleCalls) = [[0xaa], []] := by decide
  obtain ⟨hstep, -, hgranted, -⟩ := run_keeps_step sampleCalls
  rw [hrecords] at hstep
  have hcount : (run {} sampleCalls).count = 2 := hstep.count_eq
  refine ⟨hcount, (hstep.data_eq (by rw [hcount]; decide)).trans (by decide), ?_⟩
  rw [hgranted _ fun _ ↦ rfl]
  dsimp only
  rw [List.length_replicate, if_neg (Nat.lt_irrefl _)]

end Workbench

end SignedFirmware.CertList
