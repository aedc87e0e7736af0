import SignedFirmware.Proofs.List
import SignedFirmware.Proofs.Pem.Text

/-!
# What a labelled text is made of

`Pem.parse?` takes a text apart from both ends and reads what is left in the middle. Whatever it
accepts is therefore a preamble, the opening line, lines of characters and the closing line, with
ends of lines between them (`exists_parts_of_parse?`). What else may stand in an accepted file can
be read off this: only the preamble is free, and between the tags there is nothing but characters.
-/

namespace SignedFirmware.Pem

variable {label label' : String} {front back text rest body digits data : Bytes}

/-! ## Steps of the reader -/

/-- An end of line, of one or two bytes. -/
def IsLineEnd (b : Bytes) : Prop := b = [10] ∨ b = [13] ∨ b = [13, 10]

theorem IsLineEnd.eq_of_mem {b : Bytes} (h : IsLineEnd b) {x : UInt8} (hx : x ∈ b) :
    x = 10 ∨ x = 13 := by
  rcases h with rfl | rfl | rfl <;> simp_all [or_comm]

/-- What goes over no end of line is found on one side of each. -/
theorem IsLineEnd.infix_iff {e w : Bytes} (he : IsLineEnd e) (hfeed : 10 ∉ w) (hreturn : 13 ∉ w) :
    w <:+: front ++ e ++ rest ↔ w <:+: front ∨ w <:+: rest := by
  rw [List.append_assoc]
  rcases he with rfl | rfl | rfl
  · exact infix_append_cons_iff hfeed
  · exact infix_append_cons_iff hreturn
  · have hbehind : w <:+: [] ++ 10 :: rest ↔ w <:+: [] ∨ w <:+: rest := infix_append_cons_iff hfeed
    have hempty : w <:+: [] → w <:+: rest := fun h ↦ List.infix_nil.1 h ▸ List.nil_infix
    rw [List.nil_append] at hbehind
    rw [List.cons_append, List.cons_append, List.nil_append, infix_append_cons_iff hreturn]
    exact or_congr_right (hbehind.trans (or_iff_right_of_imp hempty))

theorem dropFront?_eq_some (h : dropFront? front text = some rest) : text = front ++ rest := by
  rw [dropFront?, Option.ite_none_right_eq_some, Option.some.injEq] at h
  obtain ⟨hfront, rfl⟩ := h
  exact (List.prefix_iff_eq_append.1 (List.isPrefixOf_iff_prefix.1 hfront)).symm

theorem dropBack?_eq_some (h : dropBack? back text = some rest) : text = rest ++ back := by
  rw [dropBack?, Option.ite_none_right_eq_some, Option.some.injEq] at h
  obtain ⟨hback, rfl⟩ := h
  exact (List.suffix_iff_eq_append.1 (List.isSuffixOf_iff_suffix.1 hback)).symm

theorem dropLineEnd?_eq_some (h : dropLineEnd? text = some rest) :
    ∃ e, IsLineEnd e ∧ text = e ++ rest := by
  unfold dropLineEnd? at h
  split at h
  · cases h
    exact ⟨[13, 10], .inr (.inr rfl), rfl⟩
  · cases h
    exact ⟨[13], .inr (.inl rfl), rfl⟩
  · cases h
    exact ⟨[10], .inl rfl, rfl⟩
  · cases h

theorem dropLineEndBack?_eq_some (h : dropLineEndBack? text = some rest) :
    ∃ e, IsLineEnd e ∧ text = rest ++ e := by
  unfold dropLineEndBack? at h
  split at h
  · rename_i hback
    cases h
    exact ⟨[13, 10], .inr (.inr rfl), by rw [List.reverse_eq_iff.1 hback]; simp⟩
  · rename_i hback
    cases h
    exact ⟨[10], .inl rfl, by rw [List.reverse_eq_iff.1 hback]; simp⟩
  · rename_i hback
    cases h
    exact ⟨[13], .inr (.inl rfl), by rw [List.reverse_eq_iff.1 hback]; simp⟩
  · cases h

theorem search_eq_some (h : dropPreamble?.search text = some rest) :
    ∃ preamble, text = preamble ++ rest := by
  induction text with
  | nil => cases h
  | cons x text ih =>
    rw [dropPreamble?.search, Option.ite_none_left_eq_some] at h
    split at h
    · cases h.2
      exact ⟨[x], rfl⟩
    · obtain ⟨preamble, rfl⟩ := ih h.2
      exact ⟨x :: preamble, rfl⟩

theorem dropPreamble?_eq_some (h : dropPreamble? text = some rest) :
    ∃ preamble, text = preamble ++ rest := by
  rw [dropPreamble?] at h
  split at h
  · cases h
    exact ⟨[], rfl⟩
  · exact search_eq_some h

/-- Lines of characters hold nothing but what is read from them and their ends. -/
theorem mem_of_joinLines? (h : joinLines? body = some digits) {x : UInt8} (hx : x ∈ body) :
    x ∈ digits ∨ x = 10 ∨ x = 13 := by
  fun_induction joinLines? body generalizing digits with
  | case1 body hshort =>
    cases h
    exact .inl hx
  | case2 => cases h
  | case3 body hlong rest hend ih =>
    obtain ⟨more, hmore, rfl⟩ := Option.map_eq_some_iff.1 h
    obtain ⟨e, he, hrest⟩ := dropLineEnd?_eq_some hend
    rw [← List.take_append_drop lineWidth body, hrest, List.mem_append, List.mem_append] at hx
    rcases hx with hx | hx | hx
    · exact .inl (List.mem_append_left more hx)
    · exact .inr (he.eq_of_mem hx)
    · exact (ih hmore hx).imp_left (List.mem_append_right _)

/-! ## Whole texts -/

/-- What stands behind the opening line of a text. -/
structure Parts where
  /-- The end of the opening line. -/
  openingEnd : Bytes
  /-- The lines of characters, up to the end of the last one. -/
  body : Bytes
  /-- The end of the last line of characters. -/
  bodyEnd : Bytes
  /-- The end of the closing line, which it need not have. -/
  closingEnd : Bytes
  isLineEnd_opening : IsLineEnd openingEnd
  isLineEnd_body : IsLineEnd bodyEnd
  isLineEnd_closing : closingEnd = [] ∨ IsLineEnd closingEnd
  isCharacter : ∀ x ∈ body, Base64.IsCharacter x ∨ x = 10 ∨ x = 13

/-- All of a text behind its opening line. -/
def Parts.tail (p : Parts) (label : String) : Bytes :=
  p.openingEnd ++ p.body ++ p.bodyEnd ++ closingLine label ++ p.closingEnd

/-- An accepted text, from its opening line on. -/
theorem exists_parts_of_parse? (h : parse? label text = some data) :
    ∃ p : Parts, dropPreamble? text = some (openingLine label ++ p.tail label) := by
  simp only [parse?, Option.bind_eq_bind, Option.bind_eq_some_iff,
    Option.ite_none_left_eq_some] at h
  obtain ⟨whole, hwhole, behind, hbehind, lines, hlines, front, hfront, body, hbody, -, digits,
    hdigits, hdata⟩ := h
  obtain rfl := dropFront?_eq_some hbehind
  obtain ⟨openingEnd, hopeningEnd, rfl⟩ := dropLineEnd?_eq_some hlines
  obtain ⟨bodyEnd, hbodyEnd, rfl⟩ := dropLineEndBack?_eq_some hbody
  have hcharacter : ∀ x ∈ body, Base64.IsCharacter x ∨ x = 10 ∨ x = 13 := fun x hx ↦
    (mem_of_joinLines? hdigits hx).imp_left (Base64.isCharacter_of_decode? hdata)
  obtain ⟨closingEnd, hclosingEnd, rfl⟩ : ∃ closingEnd, (closingEnd = [] ∨ IsLineEnd closingEnd) ∧
      lines = body ++ bodyEnd ++ closingLine label ++ closingEnd := by
    cases hend : dropLineEndBack? lines with
    | none =>
      rw [hend, Option.getD_none] at hfront
      exact ⟨[], .inl rfl, by rw [List.append_nil]; exact dropBack?_eq_some hfront⟩
    | some shorter =>
      rw [hend, Option.getD_some] at hfront
      obtain ⟨closingEnd, hclosingEnd, rfl⟩ := dropLineEndBack?_eq_some hend
      exact ⟨closingEnd, .inr hclosingEnd, by rw [dropBack?_eq_some hfront]⟩
  let p : Parts :=
    ⟨openingEnd, body, bodyEnd, closingEnd, hopeningEnd, hbodyEnd, hclosingEnd, hcharacter⟩
  refine ⟨p, hwhole.trans ?_⟩
  simp only [p, Parts.tail, List.append_assoc]

/-- A text is accepted with one label only, unless one opening line begins like the other. -/
theorem parse?_eq_none_of_label (h : parse? label text = some data)
    (hlabel : ¬openingLine label <+: openingLine label')
    (hlabel' : ¬openingLine label' <+: openingLine label) : parse? label' text = none := by
  cases hother : parse? label' text with
  | none => rfl
  | some data' =>
    obtain ⟨p, hp⟩ := exists_parts_of_parse? h
    obtain ⟨p', hp'⟩ := exists_parts_of_parse? hother
    rw [hp, Option.some.injEq] at hp'
    have hopening : openingLine label <+: openingLine label' ++ p'.tail label' :=
      hp' ▸ List.prefix_append _ _
    rcases List.prefix_or_prefix_of_prefix hopening (List.prefix_append _ _) with hfront | hfront
    · exact absurd hfront hlabel
    · exact absurd hfront hlabel'

end SignedFirmware.Pem
