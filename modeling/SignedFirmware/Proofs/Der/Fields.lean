import SignedFirmware.Der.Fields
import SignedFirmware.Proofs.Der.Element
import SignedFirmware.Proofs.List

/-!
# Evaluating and inverting readers of fields

A reader of fields is a state machine on the elements that are left. The lemmas here say what each
step does to them: the ones named `…_cons` evaluate a step on elements that are known, which is how
a structure is shown to read back, and the equivalences `…_eq_some_iff` say where the elements came
from if a step succeeded.
-/

namespace SignedFirmware.Der

open Element

variable {α β : Type}

/-! ## Tags -/

/-- A property of all bytes can be checked on the 256 numbers that they stand for. -/
theorem forall_byte {p : UInt8 → Prop} (h : ∀ n : Fin 256, p (UInt8.ofFin n)) (x : UInt8) : p x :=
  h x.toFin

namespace Tag

theorem isContext_integer : isContext integer = false := by decide

theorem isContext_sequence : isContext sequence = false := by decide

theorem isContext_set : isContext set = false := by decide

/-- The tag `[0]` with elements inside is the only one with its class, its number and its form. -/
theorem eq_context_zero {t : Tag} (hclass : t.isContext = true) (hnumber : t.number = 0)
    (hform : t.isConstructed = true) : t = context 0 := by
  revert t
  have hall : ∀ t : UInt8, isContext t = true → number t = 0 → isConstructed t = true →
      t = context 0 := forall_byte (by decide +kernel)
  exact fun {t} ↦ hall t

/-- Numbers that fit into the octet are found again in it. -/
theorem context_of_lt {n : UInt8} (h : n < 0x20) :
    (context n).isContext = true ∧ (context n).number = n ∧
      (context n).isConstructed = Tag.set.isConstructed := by
  revert n
  have hall : ∀ n : UInt8, n < 0x20 → isContext (context n) = true ∧ number (context n) = n ∧
      isConstructed (context n) = isConstructed set := forall_byte (by decide +kernel)
  exact fun {n} ↦ hall n

end Tag

/-- An element reads as a value, if it has a spelling at all. -/
def ReadsAs (decode : Decoder α) (e : Element) (a : α) : Prop := e.Fits → decode e = some a

/-- The content of a set under the tag `[n]`. -/
def numbered (n : UInt8) (e : Element) : Element := ⟨Tag.context n, e.content⟩

@[simp] theorem numbered_tag (n : UInt8) (e : Element) : (numbered n e).tag = Tag.context n := rfl

namespace Fields

/-! ## Steps in a row -/

@[simp] theorem pure_apply (a : α) (es : List Element) :
    (pure a : Fields α) es = some (a, es) := rfl

theorem bind_apply (x : Fields α) (f : α → Fields β) (es : List Element) :
    (x >>= f) es = (x es).bind fun p ↦ f p.1 p.2 := rfl

theorem bind_eq_some_iff {x : Fields α} {f : α → Fields β} {es rest : List Element} {b : β} :
    (x >>= f) es = some (b, rest) ↔
      ∃ a mid, x es = some (a, mid) ∧ f a mid = some (b, rest) := by
  rw [bind_apply, Option.bind_eq_some_iff, Prod.exists]

theorem bind_eq_some {x : Fields α} {f : α → Fields β} {es mid rest : List Element} {a : α} {b : β}
    (hx : x es = some (a, mid)) (hf : f a mid = some (b, rest)) :
    (x >>= f) es = some (b, rest) :=
  bind_eq_some_iff.2 ⟨a, mid, hx, hf⟩

theorem complete_eq_some_iff {fields : Fields α} {es : List Element} {a : α} :
    fields.complete es = some a ↔ fields es = some (a, []) := by
  rw [complete]
  split
  · rename_i hfields
    rw [hfields]
    simp
  · rename_i hfields
    simp only [reduceCtorEq, false_iff]
    exact hfields a

/-! ## Single steps -/

@[simp] theorem next_cons (e : Element) (es : List Element) :
    next (e :: es) = some (e, es) := rfl

@[simp] theorem field_nil (decode : Decoder α) : field decode [] = none := rfl

@[simp] theorem field_cons (decode : Decoder α) (e : Element) (es : List Element) :
    field decode (e :: es) = (decode e).map (·, es) := by
  cases h : decode e with
  | none => simp [field, bind_apply, h, StateT.lift, liftM, monadLift, MonadLift.monadLift]
  | some a => simp [field, bind_apply, h, StateT.lift, liftM, monadLift, MonadLift.monadLift]

theorem field_eq_some_iff {decode : Decoder α} {es rest : List Element} {a : α} :
    field decode es = some (a, rest) ↔ ∃ e, es = e :: rest ∧ decode e = some a := by
  cases es with
  | nil => simp
  | cons e es => simp [and_comm]

theorem field_eq_some {decode : Decoder α} {e : Element} {a : α} (h : decode e = some a)
    (es : List Element) : field decode (e :: es) = some (a, es) :=
  field_eq_some_iff.2 ⟨e, rfl, h⟩

/-- Where fields were read of which the first has to be there, it was. -/
theorem exists_of_field_bind {decode : Decoder α} {f : α → Fields β} {es rest : List Element}
    {b : β} (h : (field decode >>= f) es = some (b, rest)) :
    ∃ e mid a, es = e :: mid ∧ decode e = some a ∧ f a mid = some (b, rest) := by
  obtain ⟨a, mid, hfield, hrest⟩ := bind_eq_some_iff.1 h
  obtain ⟨e, rfl, hdecode⟩ := field_eq_some_iff.1 hfield
  exact ⟨e, mid, a, rfl, hdecode, hrest⟩

@[simp] theorem optional_nil (accepts : Tag → Bool) (decode : Decoder α) :
    optional accepts decode [] = some (none, []) := rfl

theorem optional_cons_of_accepts {accepts : Tag → Bool} {e : Element} (h : accepts e.tag = true)
    (decode : Decoder α) (es : List Element) :
    optional accepts decode (e :: es) = (decode e).map (some ·, es) := if_pos h

theorem optional_cons_of_not_accepts {accepts : Tag → Bool} {e : Element}
    (h : accepts e.tag = false) (decode : Decoder α) (es : List Element) :
    optional accepts decode (e :: es) = some (none, e :: es) := by
  rw [optional, h]
  rfl

/-- An optional field is the next one, or it is absent and nothing is taken. -/
theorem optional_eq_some_iff {accepts : Tag → Bool} {decode : Decoder α} {es rest : List Element}
    {value : Option α} :
    optional accepts decode es = some (value, rest) ↔
      (value = none ∧ rest = es ∧ ∀ e ∈ es.head?, accepts e.tag = false) ∨
      ∃ e a, es = e :: rest ∧ accepts e.tag = true ∧ decode e = some a ∧ value = some a := by
  constructor
  · intro h
    cases es with
    | nil =>
      cases h
      exact .inl ⟨rfl, rfl, by simp⟩
    | cons e es =>
      cases haccepts : accepts e.tag with
      | true =>
        rw [optional_cons_of_accepts haccepts, Option.map_eq_some_iff] at h
        obtain ⟨a, hdecode, hpair⟩ := h
        cases hpair
        exact .inr ⟨e, a, rfl, haccepts, hdecode, rfl⟩
      | false =>
        rw [optional_cons_of_not_accepts haccepts] at h
        cases h
        exact .inl ⟨rfl, rfl, by simpa using haccepts⟩
  · rintro (⟨rfl, rfl, hhead⟩ | ⟨e, a, rfl, haccepts, hdecode, rfl⟩)
    · cases rest with
      | nil => rfl
      | cons e es => exact optional_cons_of_not_accepts (hhead e rfl) decode es
    · rw [optional_cons_of_accepts haccepts, hdecode, Option.map_some]

/-! ## Fields with a number -/

@[simp] theorem context_nil (n : UInt8) : context n [] = some (none, []) := rfl

/-- A field that has no number is left alone. -/
theorem context_cons_of_plain {e : Element} (h : e.tag.isContext = false) (n : UInt8)
    (es : List Element) : context n (e :: es) = some (none, e :: es) := by
  have hbefore : isBefore n e = false := by rw [isBefore, h, Bool.false_and]
  simp [context, hbefore, h]

/-- A field with a higher number is left alone. -/
theorem context_cons_of_lt {e : Element} {n : UInt8} (h : n < e.tag.number) (es : List Element) :
    context n (e :: es) = some (none, e :: es) := by
  have hbefore : isBefore n e = false := by
    rw [isBefore, decide_eq_false (UInt8.not_lt.2 (UInt8.le_of_lt h)), Bool.and_false]
  have hne : (e.tag.number == n) = false := beq_false_of_ne (UInt8.ne_of_lt h).symm
  simp [context, hbefore, hne]

/-- A field with a higher number that may be absent is left alone, if what follows is. -/
theorem context_written_of_lt {n : UInt8} {write : β → Element} (h : ∀ b, n < (write b).tag.number)
    (value : Option β) {rest : List Element} (hrest : context n rest = some (none, rest)) :
    context n ((value.map write).toList ++ rest) =
      some (none, (value.map write).toList ++ rest) := by
  cases value with
  | none => exact hrest
  | some b => exact context_cons_of_lt (h b) rest

theorem context_cons_of_eq {e : Element} {n : UInt8} (hclass : e.tag.isContext = true)
    (hnumber : e.tag.number = n) (es : List Element) :
    context n (e :: es) = some (some e, es) := by
  have hbefore : isBefore n e = false := by
    rw [isBefore, hnumber, decide_eq_false (UInt8.lt_irrefl n), Bool.and_false]
  simp [context, hbefore, hclass, hnumber]

/-- The field that is found is one of those that are left. -/
theorem mem_of_context {n : UInt8} {es rest : List Element} {e : Element}
    (h : context n es = some (some e, rest)) : e ∈ es := by
  rw [context] at h
  split at h
  · cases h
  · rename_i x xs hleft
    split at h
    · cases h
      exact (List.dropWhile_suffix (isBefore n)).mem (hleft ▸ List.mem_cons_self)
    · cases h

/-- What a search for a field leaves is what stood behind the fields that were given up and the one
that was found. -/
theorem exists_eq_append_of_context {n : UInt8} {es rest : List Element} {found : Option Element}
    (h : context n es = some (found, rest)) : ∃ skipped, es = skipped ++ found.toList ++ rest := by
  have hsplit := List.takeWhile_append_dropWhile (p := isBefore n) (l := es)
  refine ⟨es.takeWhile (isBefore n), ?_⟩
  rw [context] at h
  split at h
  · rename_i hleft
    cases h
    rw [Option.toList_none, List.append_nil, ← hleft, hsplit]
  · rename_i e more hleft
    split at h
    · cases h
      rw [Option.toList_some, List.append_assoc, List.singleton_append, ← hleft, hsplit]
    · cases h
      rw [Option.toList_none, List.append_nil, ← hleft, hsplit]

/-- Of fields with the given tags, each there at most once and in this order, the first is found
without giving up any other. -/
theorem context_of_sublist {n : UInt8} {t : Tag} {ts : List Tag} (hclass : t.isContext = true)
    (hnumber : t.number = n) (hlater : ∀ u ∈ ts, n < u.number) {es : List Element}
    (h : (es.map tag).Sublist (t :: ts)) :
    ∃ found rest, context n es = some (found, rest) ∧ es = found.toList ++ rest ∧
      (∀ e, found = some e → e.tag = t) ∧ (rest.map tag).Sublist ts := by
  cases es with
  | nil => exact ⟨none, [], rfl, rfl, by simp, List.nil_sublist ts⟩
  | cons e es =>
    rw [List.map_cons] at h
    rcases List.sublist_cons_iff.1 h with hskip | ⟨tags, heq, hrest⟩
    · have hlt : n < e.tag.number := hlater _ (hskip.subset List.mem_cons_self)
      exact ⟨none, e :: es, context_cons_of_lt hlt es, rfl, by simp, hskip⟩
    · obtain ⟨htag, rfl⟩ := List.cons.inj heq
      refine ⟨some e, es, ?_, rfl, by simpa using htag, hrest⟩
      exact context_cons_of_eq (htag ▸ hclass) (htag ▸ hnumber) es

/-- No field comes before `[0]`, so nothing is given up on the way to it. -/
theorem context_zero_eq_some {es rest : List Element} {e : Element}
    (h : context 0 es = some (some e, rest)) :
    es = e :: rest ∧ e.tag.isContext = true ∧ e.tag.number = 0 := by
  cases es with
  | nil => simp at h
  | cons x xs =>
    have hbefore : isBefore 0 x = false := by
      rw [isBefore, decide_eq_false UInt8.not_lt_zero, Bool.and_false]
    simp only [context, List.dropWhile_cons, hbefore, Bool.false_eq_true, if_false] at h
    split at h
    · rename_i hx
      rw [Bool.and_eq_true, beq_iff_eq] at hx
      simp only [Option.some.injEq, Prod.mk.injEq] at h
      obtain ⟨rfl, rfl⟩ := h
      exact ⟨rfl, hx⟩
    · simp at h

theorem eq_of_context_zero {es rest : List Element} (h : context 0 es = some (none, rest)) :
    es = rest := by
  cases es with
  | nil =>
    cases h
    rfl
  | cons x xs =>
    have hbefore : isBefore 0 x = false := by
      rw [isBefore, decide_eq_false UInt8.not_lt_zero, Bool.and_false]
    simp only [context, List.dropWhile_cons, hbefore, Bool.false_eq_true, if_false] at h
    split at h
    · cases h
    · cases h
      rfl

/-! ## Values under a number -/

/-- A value under a number is the only element inside the field, if that is there at all. -/
theorem explicit_eq_some_iff {n : UInt8} {decode : Decoder α} {es rest : List Element}
    {value : Option α} :
    explicit n decode es = some (value, rest) ↔
      (context n es = some (none, rest) ∧ value = none) ∨
      ∃ e inner a, context n es = some (some e, rest) ∧ e.tag.isConstructed = true ∧
        elements? e.content = some [inner] ∧ decode inner = some a ∧ value = some a := by
  rw [explicit, bind_eq_some_iff]
  constructor
  · rintro ⟨found, mid, hcontext, h⟩
    cases found with
    | none =>
      cases h
      exact .inl ⟨hcontext, rfl⟩
    | some e =>
      dsimp only at h
      by_cases hform : e.tag.isConstructed = true
      · rw [if_pos hform] at h
        rcases hinner : elements? e.content with _ | ⟨_ | ⟨inner, _ | ⟨second, more⟩⟩⟩
        case some.cons.nil =>
          rw [hinner] at h
          cases hdecode : decode inner with
          | none =>
            simp only [hdecode] at h
            cases h
          | some a =>
            simp only [hdecode] at h
            cases h
            exact .inr ⟨e, inner, a, hcontext, hform, hinner, hdecode, rfl⟩
        -- with no element inside, or more than one, the field is refused
        all_goals rw [hinner] at h
        all_goals cases h
      · rw [if_neg hform] at h
        cases h
  · rintro (⟨hcontext, rfl⟩ | ⟨e, inner, a, hcontext, hform, hinner, hdecode, rfl⟩)
    · exact ⟨none, rest, hcontext, rfl⟩
    · refine ⟨some e, rest, hcontext, ?_⟩
      simp only [hform, if_true, hinner, hdecode]
      rfl

/-- A value under a number is the content of the field under another tag, if that is there at
all. -/
theorem implicit_eq_some_iff {n : UInt8} {tag : Tag} {decode : Decoder α} {es rest : List Element}
    {value : Option α} :
    implicit n tag decode es = some (value, rest) ↔
      (context n es = some (none, rest) ∧ value = none) ∨
      ∃ e a, context n es = some (some e, rest) ∧ e.tag.isConstructed = tag.isConstructed ∧
        decode ⟨tag, e.content⟩ = some a ∧ value = some a := by
  rw [implicit, bind_eq_some_iff]
  constructor
  · rintro ⟨found, mid, hcontext, h⟩
    cases found with
    | none =>
      cases h
      exact .inl ⟨hcontext, rfl⟩
    | some e =>
      dsimp only at h
      by_cases hform : e.tag.isConstructed = tag.isConstructed
      · rw [if_pos hform] at h
        cases hdecode : decode ⟨tag, e.content⟩ with
        | none =>
          simp only [hdecode] at h
          cases h
        | some a =>
          simp only [hdecode] at h
          cases h
          exact .inr ⟨e, a, hcontext, hform, hdecode, rfl⟩
      · rw [if_neg hform] at h
        cases h
  · rintro (⟨hcontext, rfl⟩ | ⟨e, a, hcontext, hform, hdecode, rfl⟩)
    · exact ⟨none, rest, hcontext, rfl⟩
    · refine ⟨some e, rest, hcontext, ?_⟩
      simp only [hform, if_true, hdecode]
      rfl

theorem length_of_implicit {n : UInt8} {tag : Tag} {decode : Decoder α} {write : α → Element}
    (hlength : ∀ e a, decode e = some a → (write a).content.length ≤ e.content.length)
    {es rest : List Element} {value : Option α}
    (h : implicit n tag decode es = some (value, rest)) :
    (((value.map write).toList ++ rest).flatMap encode).length ≤ (es.flatMap encode).length := by
  rcases implicit_eq_some_iff.1 h with ⟨hcontext, rfl⟩ | ⟨e, a, hcontext, -, hdecode, rfl⟩
  all_goals
    obtain ⟨skipped, rfl⟩ := exists_eq_append_of_context hcontext
    simp only [Option.map_none, Option.map_some, Option.toList_none, Option.toList_some,
      List.flatMap_append, List.flatMap_singleton, List.flatMap_nil, List.length_append]
  · omega
  · have hencode : (write a).encode.length ≤ e.encode.length :=
      length_encode_mono (hlength ⟨tag, e.content⟩ a hdecode)
    omega

theorem length_of_explicit {n : UInt8} (tag : Tag) {decode : Decoder α} {write : α → Element}
    (hlength : ∀ e a, decode e = some a → (write a).encode.length ≤ e.encode.length)
    {es rest : List Element} {value : Option α}
    (h : explicit n decode es = some (value, rest)) :
    (((value.map fun a ↦ ofElements tag [write a]).toList ++ rest).flatMap encode).length ≤
      (es.flatMap encode).length := by
  rcases explicit_eq_some_iff.1 h with
    ⟨hcontext, rfl⟩ | ⟨e, inner, a, hcontext, -, hinner, hdecode, rfl⟩
  all_goals
    obtain ⟨skipped, rfl⟩ := exists_eq_append_of_context hcontext
    simp only [Option.map_none, Option.map_some, Option.toList_none, Option.toList_some,
      List.flatMap_append, List.flatMap_singleton, List.flatMap_nil, List.length_append]
  · omega
  · have hcontent : (ofElements tag [write a]).content.length ≤ e.content.length := by
      rw [(elements?_eq_some_iff.1 hinner).2, ofElements, List.flatMap_singleton,
        List.flatMap_singleton]
      exact hlength inner a hdecode
    have hencode := length_encode_mono hcontent
    omega

/-- Where the fields that are left have the given tags in this order, each at most once, a value
under a number is read from the first field with no others given up. -/
theorem eq_append_of_implicit {n : UInt8} {t tag : Tag} {ts : List Tag}
    (hclass : t.isContext = true) (hnumber : t.number = n) (hlater : ∀ u ∈ ts, n < u.number)
    {decode : Decoder α} {write : α → Element}
    (hwrite : ∀ e a, e.tag = t → decode ⟨tag, e.content⟩ = some a → write a = e)
    {es rest : List Element} {value : Option α} (hsub : (es.map Element.tag).Sublist (t :: ts))
    (h : implicit n tag decode es = some (value, rest)) :
    es = (value.map write).toList ++ rest ∧ (rest.map Element.tag).Sublist ts := by
  obtain ⟨found, left, hfound, rfl, htag, hrest⟩ := context_of_sublist hclass hnumber hlater hsub
  rcases implicit_eq_some_iff.1 h with ⟨hcontext, rfl⟩ | ⟨e, a, hcontext, -, hdecode, rfl⟩
  all_goals
    rw [hfound] at hcontext
    cases hcontext
  · exact ⟨rfl, hrest⟩
  · rw [Option.map_some, hwrite e a (htag e rfl) hdecode]
    exact ⟨rfl, hrest⟩

/-- Likewise for a value inside a field. -/
theorem eq_append_of_explicit {n : UInt8} {t : Tag} {ts : List Tag}
    (hclass : t.isContext = true) (hnumber : t.number = n) (hlater : ∀ u ∈ ts, n < u.number)
    {decode : Decoder α} {es rest : List Element} {value : Option α}
    (hsub : (es.map Element.tag).Sublist (t :: ts))
    (h : explicit n decode es = some (value, rest)) :
    (rest.map Element.tag).Sublist ts ∧ ((value = none ∧ es = rest) ∨
      ∃ inner a, es = ofElements t [inner] :: rest ∧ decode inner = some a ∧ value = some a) := by
  obtain ⟨found, left, hfound, rfl, htag, hrest⟩ := context_of_sublist hclass hnumber hlater hsub
  rcases explicit_eq_some_iff.1 h with
    ⟨hcontext, rfl⟩ | ⟨e, inner, a, hcontext, -, hinner, hdecode, rfl⟩
  all_goals
    rw [hfound] at hcontext
    cases hcontext
    refine ⟨hrest, ?_⟩
  · exact .inl ⟨rfl, rfl⟩
  · refine .inr ⟨inner, a, ?_, hdecode, rfl⟩
    rw [ofElements, ← (elements?_eq_some_iff.1 hinner).2, ← htag e rfl]
    rfl

/-- The value of a field `[0]` is the only element inside it. -/
theorem explicit_zero_eq_some_iff {es rest : List Element} {inner : Element} :
    explicit 0 some es = some (some inner, rest) ↔
      es = ofElements (Tag.context 0) [inner] :: rest ∧ inner.Fits := by
  rw [explicit_eq_some_iff]
  constructor
  · rintro (⟨-, hnone⟩ | ⟨e, inner, _, hcontext, hform, hinner, hsome, hvalue⟩)
    · cases hnone
    · cases hsome
      cases hvalue
      obtain ⟨rfl, hclass, hnumber⟩ := context_zero_eq_some hcontext
      obtain ⟨hfits, hcontent⟩ := elements?_eq_some_iff.1 hinner
      refine ⟨?_, hfits inner (List.mem_singleton_self _)⟩
      rw [ofElements, ← hcontent, ← Tag.eq_context_zero hclass hnumber hform]
  · rintro ⟨rfl, hfits⟩
    have hinner : elements? (ofElements (Tag.context 0) [inner]).content = some [inner] :=
      elements?_eq_some_iff.2 ⟨by simpa using hfits, rfl⟩
    obtain ⟨hclass, hnumber, hform⟩ := Tag.context_of_lt (n := 0) (by decide)
    exact .inr ⟨_, inner, inner, context_cons_of_eq hclass hnumber rest, hform, hinner, rfl, rfl⟩

/-- A value inside a field that may be absent is read back, if what follows is not taken for it. -/
theorem explicit_written {n : UInt8} (hn : n < 0x20) {decode : Decoder β} {write : β → Element}
    {value : Option β} {rest : List Element} (hrest : context n rest = some (none, rest))
    (hread : ∀ b, value = some b → (write b).Fits ∧ decode (write b) = some b) :
    explicit n decode
        ((value.map fun b ↦ ofElements (Tag.context n) [write b]).toList ++ rest) =
      some (value, rest) := by
  rw [explicit_eq_some_iff]
  cases value with
  | none => exact .inl ⟨hrest, rfl⟩
  | some b =>
    obtain ⟨hfits, hdecode⟩ := hread b rfl
    have hinner : elements? (ofElements (Tag.context n) [write b]).content = some [write b] :=
      elements?_eq_some_iff.2 ⟨by simpa using hfits, rfl⟩
    obtain ⟨hclass, hnumber, hform⟩ := Tag.context_of_lt hn
    exact .inr ⟨_, write b, b, context_cons_of_eq hclass hnumber rest, hform, hinner, hdecode, rfl⟩

/-- A value under the tag of a field that may be absent is read back, if what follows is not taken
for it. -/
theorem implicit_written {n : UInt8} {outer tag : Tag} (hclass : outer.isContext = true)
    (hnumber : outer.number = n) (hform : outer.isConstructed = tag.isConstructed)
    {decode : Decoder β} {content : β → Bytes} {value : Option β} {rest : List Element}
    (hrest : context n rest = some (none, rest))
    (hread : ∀ b, value = some b → decode ⟨tag, content b⟩ = some b) :
    implicit n tag decode
        ((value.map fun b ↦ (⟨outer, content b⟩ : Element)).toList ++ rest) =
      some (value, rest) := by
  rw [implicit_eq_some_iff]
  cases value with
  | none => exact .inl ⟨hrest, rfl⟩
  | some b =>
    exact .inr ⟨_, b, context_cons_of_eq hclass hnumber rest, hform, hread b rfl, rfl⟩

/-- A set under a number that may be absent is read back, if what follows is not taken for it. -/
theorem implicit_numbered {n : UInt8} (hn : n < 0x20) {decode : Decoder β} {write : β → Element}
    {value : Option β} {rest : List Element} (hrest : context n rest = some (none, rest))
    (hfits : ∀ b, value = some b → (numbered n (write b)).Fits)
    (hread : ∀ b, value = some b → (write b).tag = Tag.set ∧ ReadsAs decode (write b) b) :
    implicit n Tag.set decode ((value.map fun b ↦ numbered n (write b)).toList ++ rest) =
      some (value, rest) := by
  obtain ⟨hclass, hnumber, hform⟩ := Tag.context_of_lt hn
  refine implicit_written hclass hnumber hform hrest fun b hb ↦ ?_
  obtain ⟨htag, hreads⟩ := hread b hb
  rw [← htag]
  exact hreads ⟨by rw [htag]; exact Tag.isKnown_set, (hfits b hb).short⟩

end Fields

/-! ## Sequences -/

theorem sequence_eq_some_iff {fields : Fields α} {e : Element} {a : α} :
    sequence fields e = some a ↔
      ∃ es, e = ofElements Tag.sequence es ∧ (∀ x ∈ es, x.Fits) ∧ fields es = some (a, []) := by
  rw [sequence, Option.ite_none_right_eq_some, Option.bind_eq_some_iff]
  simp only [elements?_eq_some_iff, Fields.complete_eq_some_iff]
  constructor
  · rintro ⟨htag, es, ⟨hfits, hcontent⟩, hfields⟩
    exact ⟨es, by rw [ofElements, ← hcontent, ← htag], hfits, hfields⟩
  · rintro ⟨es, rfl, hfits, hfields⟩
    exact ⟨rfl, es, ⟨hfits, rfl⟩, hfields⟩

theorem sequence_ofElements {es : List Element} (h : (ofElements Tag.sequence es).Fits)
    (hknown : ∀ e ∈ es, Tag.isKnown e.tag = true) (fields : Fields α) :
    sequence fields (ofElements Tag.sequence es) = fields.complete es := by
  rw [sequence, elements?_content h hknown, Option.bind_some]
  exact if_pos rfl

/-- A sequence reads as a value if its fields do, given that these have spellings. -/
theorem readsAs_sequence {es : List Element} {fields : Fields α} {a : α}
    (hknown : ∀ e ∈ es, Tag.isKnown e.tag = true)
    (hfields : (∀ e ∈ es, e.Fits) → fields es = some (a, [])) :
    ReadsAs (sequence fields) (ofElements Tag.sequence es) a := fun hfits ↦
  (sequence_ofElements hfits hknown fields).trans
    (Fields.complete_eq_some_iff.2 (hfields (hfits.of_mem hknown)))

theorem readsAs_sequenceOf {decode : Decoder α} {write : α → Element} {xs : List α}
    (hknown : ∀ x ∈ xs, Tag.isKnown (write x).tag = true)
    (hread : ∀ x ∈ xs, ReadsAs decode (write x) x) :
    ReadsAs (sequenceOf decode) (ofElements Tag.sequence (xs.map write)) xs := by
  intro hfits
  have hknown : ∀ e ∈ xs.map write, Tag.isKnown e.tag = true := List.forall_mem_map.2 hknown
  rw [sequenceOf, if_pos (ofElements_tag _ _), elements?_content hfits hknown, Option.bind_some]
  exact mapM_map_eq_some fun x hx ↦ hread x hx (hfits.of_mem hknown _ (List.mem_map_of_mem hx))

theorem sequenceOf_eq_some_iff {decode : Decoder α} {e : Element} {xs : List α} :
    sequenceOf decode e = some xs ↔
      ∃ es, e = ofElements Tag.sequence es ∧ (∀ x ∈ es, x.Fits) ∧ es.mapM decode = some xs := by
  rw [sequenceOf, Option.ite_none_right_eq_some, Option.bind_eq_some_iff]
  simp only [elements?_eq_some_iff]
  constructor
  · rintro ⟨htag, es, ⟨hfits, hcontent⟩, hread⟩
    exact ⟨es, by rw [ofElements, ← hcontent, ← htag], hfits, hread⟩
  · rintro ⟨es, rfl, hfits, hread⟩
    exact ⟨rfl, es, ⟨hfits, rfl⟩, hread⟩

/-- If writing makes none of the values in a row longer than it was, it does not make all of them
together longer. -/
theorem length_content_of_sequenceOf {decode : Decoder α} {write : α → Element} {e : Element}
    {xs : List α} (hlength : ∀ e x, decode e = some x → (write x).encode.length ≤ e.encode.length)
    (h : sequenceOf decode e = some xs) :
    (ofElements Tag.sequence (xs.map write)).content.length ≤ e.content.length := by
  obtain ⟨es, rfl, -, hread⟩ := sequenceOf_eq_some_iff.1 h
  have hcontents := length_flatMap_le_of_mapM_eq_some hlength hread
  rwa [ofElements, ofElements, List.flatMap_map]

theorem exists_of_sequenceOf {decode : Decoder α} {e : Element} {xs : List α}
    (h : sequenceOf decode e = some xs) {x : α} (hx : x ∈ xs) : ∃ e, decode e = some x := by
  obtain ⟨es, -, -, hxs⟩ := sequenceOf_eq_some_iff.1 h
  obtain ⟨e, -, hread⟩ := exists_of_mapM_eq_some hxs hx
  exact ⟨e, hread⟩

/-! ## Whole byte strings -/

theorem readFront?_eq_some_iff {decode : Decoder α} {data rest : Bytes} {a : α} :
    readFront? decode data = some (a, rest) ↔
      data.length ≤ maxLength ∧ ∃ e : Element, e.Fits ∧ data = e.encode ++ rest ∧
        decode e = some a := by
  rw [readFront?, Option.ite_none_right_eq_some]
  simp only [Option.bind_eq_bind, Option.pure_def, Option.bind_eq_some_iff, Prod.exists,
    read?_eq_some_iff, Option.some.injEq, Prod.mk.injEq]
  constructor
  · rintro ⟨hdata, e, _, ⟨hfits, hread⟩, _, hdecode, rfl, rfl⟩
    exact ⟨hdata, e, hfits, hread, hdecode⟩
  · rintro ⟨hdata, e, hfits, hread, hdecode⟩
    exact ⟨hdata, e, rest, ⟨hfits, hread⟩, a, hdecode, rfl, rfl⟩

theorem readFront?_append {decode : Decoder α} {data rest more : Bytes} {a : α}
    (h : readFront? decode data = some (a, rest)) (hsize : (data ++ more).length ≤ maxLength) :
    readFront? decode (data ++ more) = some (a, rest ++ more) := by
  obtain ⟨-, e, hfits, rfl, hdecode⟩ := readFront?_eq_some_iff.1 h
  exact readFront?_eq_some_iff.2 ⟨hsize, e, hfits, List.append_assoc .., hdecode⟩

/-- A value that is a whole byte string is not read once the end of that is cut off. -/
theorem readFront?_eq_none_of_cut {decode : Decoder α} {data cut : Bytes} {a : α}
    (h : readFront? decode data = some (a, [])) (hfront : cut <+: data) (hne : cut ≠ data) :
    readFront? decode cut = none := by
  obtain ⟨-, e, hfits, hdata, -⟩ := readFront?_eq_some_iff.1 h
  rw [List.append_nil] at hdata
  subst hdata
  simp [readFront?, Element.read?_eq_none_of_cut hfits.short hfront hne]

theorem readAll?_eq_some_iff {decode : Decoder α} {data : Bytes} {a : α} :
    readAll? decode data = some a ↔
      data.length ≤ maxLength ∧ ∃ e : Element, e.Fits ∧ data = e.encode ∧ decode e = some a := by
  rw [readAll?, Option.ite_none_right_eq_some]
  simp only [Option.bind_eq_some_iff, ofBytes?_eq_some_iff, and_assoc]

end SignedFirmware.Der
