import SignedFirmware.Proofs.Credential.Layout
import SignedFirmware.Proofs.Pem.Parts

/-!
# White space in front of a certificate

Whether a file holds labelled text is looked at behind all white space in front (`isText`), but the
lines of the text are taken as they are, and only white space at their ends is taken off
(`layOutLines`). The two agree on white space that fills whole lines: such lines are empty, and the
layout passes over them. White space on the line of the opening tag hides the tag from the layout,
and what follows is then outside of any certificate.
-/

namespace SignedFirmware.Credential

open X509 (Certificate)

variable {w d text digits : Bytes} {lines out : List Bytes} {inside : Bool} {c : Certificate}

/-! ## White space in lines -/

/-- All white space. -/
def IsBlank (w : Bytes) : Prop := ∀ x ∈ w, Bytes.isBlank x = true

instance (w : Bytes) : Decidable (IsBlank w) := List.decidableBAll _ w

/-- Nothing, or whole lines. -/
def IsWholeLines (w : Bytes) : Prop := w = [] ∨ w.getLast? = some 10

instance (w : Bytes) : Decidable (IsWholeLines w) := inferInstanceAs (Decidable (_ ∨ _))

/-- A text is whole lines and, behind these, what stands on its last line. -/
theorem exists_isWholeLines_append (w : Bytes) :
    ∃ front last, w = front ++ last ∧ IsWholeLines front ∧ 10 ∉ last := by
  induction w using List.reverseRecOn with
  | nil => exact ⟨[], [], rfl, .inl rfl, nofun⟩
  | append_singleton w x ih =>
    by_cases hx : x = 10
    · exact ⟨w ++ [x], [], (List.append_nil _).symm, .inr (by rw [List.getLast?_concat, hx]), nofun⟩
    · obtain ⟨front, last, rfl, hfront, hlast⟩ := ih
      refine ⟨front, last ++ [x], List.append_assoc .., hfront, ?_⟩
      simpa [hlast] using Ne.symm hx

theorem IsBlank.trimEnd (h : IsBlank w) : Bytes.trimEnd w = [] := by
  have hmargin : Bytes.trimEnd ([] ++ w) = [] := Bytes.trimEnd_append (by simp) h
  rwa [List.nil_append] at hmargin

theorem layOutLines_blank (h : ∀ line ∈ lines, IsBlank line) (rest : List Bytes) :
    layOutLines inside digits (lines ++ rest) = layOutLines inside digits rest := by
  induction lines with
  | nil => rfl
  | cons line lines ih =>
    rw [List.forall_mem_cons] at h
    rw [List.cons_append, layOutLines, h.1.trimEnd, if_pos rfl, ih h.2]

/-- Whole lines of white space make no difference to the layout. -/
theorem layOutLines_append_of_isWholeLines (hblank : IsBlank w) (hlines : IsWholeLines w)
    (text : Bytes) :
    layOutLines false [] (Bytes.lines (w ++ text)) = layOutLines false [] (Bytes.lines text) := by
  rcases hlines with rfl | hlast
  · rfl
  · obtain ⟨front, rfl⟩ := List.getLast?_eq_some_iff.1 hlast
    rw [List.append_assoc, List.singleton_append, Bytes.lines_append_cons]
    refine layOutLines_blank (fun line hline x hx ↦ hblank x ?_) _
    exact List.mem_append_left _ (Bytes.mem_of_mem_lines hline hx)

/-- White space in front of the first line hides it, whatever it is. -/
theorem exists_layOutLines_append (hblank : IsBlank w) (hlines : ¬IsWholeLines w) (text : Bytes) :
    ∃ line rest, Bytes.lines text = line :: rest ∧
      layOutLines false [] (Bytes.lines (w ++ text)) = layOutLines false [] rest := by
  obtain ⟨front, last, rfl, hfront, hlast⟩ := exists_isWholeLines_append w
  obtain ⟨hblankFront, hblankLast⟩ := List.forall_mem_append.1 hblank
  obtain ⟨x, last, rfl⟩ : ∃ x more, last = x :: more := by
    cases last with
    | nil => exact absurd (by rwa [List.append_nil]) hlines
    | cons x last => exact ⟨x, last, rfl⟩
  obtain ⟨line, rest, htext, hwhole⟩ := Bytes.exists_lines_append hlast text
  refine ⟨line, rest, htext, ?_⟩
  rw [List.append_assoc, layOutLines_append_of_isWholeLines hblankFront hfront, hwhole]
  -- tags begin with a dash, and the line with white space
  have hdash : x ≠ 45 := by
    rintro rfl
    exact absurd (hblankLast 45 List.mem_cons_self) (by decide)
  have htag : ∀ {tag : Bytes}, tag.head? = some 45 → ¬tag <+: x :: last ++ line := by
    intro tag htag hprefix
    cases tag with
    | nil => cases htag
    | cons y tag =>
      rw [List.head?_cons, Option.some.injEq] at htag
      exact hdash ((List.cons_prefix_cons.1 hprefix).1.symm.trans htag)
  exact layOutLines_outside ⟨htag (by decide +kernel), htag (by decide +kernel)⟩

/-- What stands behind the first line of a text. -/
def behindFirstLine (text : Bytes) : Bytes := (text.dropWhile (· != 10)).tail

theorem layOutLines_behindFirstLine {line : Bytes} {rest : List Bytes}
    (h : Bytes.lines text = line :: rest) :
    layOutLines false [] (Bytes.lines (behindFirstLine text)) = layOutLines false [] rest := by
  induction text generalizing line with
  | nil =>
    obtain ⟨-, rfl⟩ := List.cons.inj h
    rfl
  | cons x text ih =>
    obtain ⟨first, more, hlines⟩ := List.exists_cons_of_ne_nil (Bytes.lines_ne_nil text)
    rw [Bytes.lines, List.foldr_cons, ← Bytes.lines, hlines, Bytes.consLine] at h
    by_cases hx : x = 10
    · rw [if_pos hx] at h
      obtain ⟨-, rfl⟩ := List.cons.inj h
      rw [behindFirstLine, List.dropWhile_cons_of_neg (by simpa using hx), List.tail_cons, hlines]
    · rw [if_neg hx] at h
      obtain ⟨-, rfl⟩ := List.cons.inj h
      rw [behindFirstLine, List.dropWhile_cons_of_pos (by simpa using hx), ← behindFirstLine]
      exact ih hlines

theorem isText_append (hblank : IsBlank w) (text : Bytes) : isText (w ++ text) = isText text := by
  rw [isText, isText, Bytes.trimStart, List.dropWhile_append_of_pos hblank, ← Bytes.trimStart]

/-! ## Texts that are read -/

/-- A dash and the letter that the word behind it begins with: where an opening tag says so, and in
no other place of a text that is read. -/
def mark : Bytes := [45, 66]

theorem mark_infix_beginTag : mark <:+: beginTag := by decide +kernel

/-- Behind the opening line, no other tag begins a certificate. -/
theorem not_mark_infix_tail (p : Pem.Parts) : ¬mark <:+: p.tail certificateLabel := by
  have hend : ∀ {b : Bytes}, Pem.IsLineEnd b → 45 ∉ b := fun hb hmem ↦ by
    rcases hb.eq_of_mem hmem with h | h <;> cases h
  have hbody : 45 ∉ p.body := by
    intro hmem
    rcases p.isCharacter 45 hmem with h | h | h
    · exact absurd h (by decide)
    · cases h
    · cases h
  have hfront : 45 ∉ p.openingEnd ++ p.body ++ p.bodyEnd := by
    simp only [List.mem_append, not_or]
    exact ⟨⟨hend p.isLineEnd_opening, hbody⟩, hend p.isLineEnd_body⟩
  rw [mark, Pem.Parts.tail, List.append_assoc, infix_append_of_not_mem hfront]
  rcases p.isLineEnd_closing with h | h | h | h <;> rw [h] <;> decide +kernel

/-- Where a certificate has begun and ends without another one in between, its end is all that is
left of it if its beginning is overlooked. -/
theorem exists_layOutLines_outside (h : layOutLines true digits lines = some out)
    (hbegin : ∀ line ∈ out, ¬beginTag <+: line) :
    ∃ out', layOutLines false [] lines = some out' ∧ ∀ line ∈ out', line ∈ out := by
  induction lines generalizing digits with
  | nil => cases h
  | cons line lines ih =>
    rw [layOutLines] at h ⊢
    generalize Bytes.trimEnd line = line at h ⊢
    by_cases hblank : line = []
    · rw [if_pos hblank] at h ⊢
      exact ih h
    rw [if_neg hblank] at h ⊢
    by_cases hopens : beginTag.isPrefixOf line = true
    · rw [if_pos hopens, Option.map_eq_some_iff] at h
      obtain ⟨more, -, rfl⟩ := h
      exact absurd (List.isPrefixOf_iff_prefix.1 hopens) (hbegin line List.mem_cons_self)
    rw [if_neg hopens] at h ⊢
    by_cases hcloses : endTag.isPrefixOf line = true
    · rw [if_pos hcloses, Option.map_eq_some_iff] at h
      obtain ⟨more, hmore, rfl⟩ := h
      have hnone : Bytes.chunks Pem.lineWidth [] = [] := (Bytes.chunks_eq_nil_iff (by decide)).2 rfl
      rw [if_pos hcloses, hmore, hnone]
      exact ⟨line :: more, rfl, fun _ ↦ List.mem_append_right _⟩
    · rw [if_neg hcloses, if_pos rfl] at h
      rw [if_neg hcloses, if_neg Bool.false_ne_true]
      exact ih h

theorem not_mark_infix_unlines (h : ∀ line ∈ out, ¬mark <:+: line) :
    ¬mark <:+: Pem.unlines out := by
  induction out with
  | nil => decide
  | cons line out ih =>
    rw [List.forall_mem_cons] at h
    have hcons : Pem.unlines (line :: out) = line ++ 10 :: Pem.unlines out := by
      rw [← List.singleton_append, Pem.unlines_append, Pem.unlines_singleton, List.append_assoc,
        List.singleton_append]
    rw [hcons, infix_append_cons_iff (by decide), not_or]
    exact ⟨h.1, ih h.2⟩

theorem parseCertificateText_of_not_mark (h : ∀ line ∈ out, ¬mark <:+: line) :
    parseCertificateText (Pem.unlines out) = .error .loadCertificate := by
  cases hparse : Pem.parse? certificateLabel (Pem.unlines out) with
  | none => rw [parseCertificateText, hparse]; rfl
  | some data =>
    obtain ⟨p, hp⟩ := Pem.exists_parts_of_parse? hparse
    obtain ⟨preamble, htext⟩ := Pem.dropPreamble?_eq_some hp
    have hopening : Pem.openingLine certificateLabel <:+: Pem.unlines out :=
      ⟨preamble, p.tail certificateLabel, by rw [htext, List.append_assoc]⟩
    exact absurd (mark_infix_beginTag.trans hopening) (not_mark_infix_unlines h)

/-- The lines of a text that is read have one opening tag, on the first of them. -/
theorem not_mark_infix_of_parseCertificateText {line : Bytes} (hline : beginTag <+: line)
    (h : parseCertificateText (Pem.unlines (line :: out)) = .ok c) :
    ∀ l ∈ out, ¬mark <:+: l := by
  obtain ⟨data, hparse, -⟩ := parseCertificateText_eq_ok_iff.1 h
  obtain ⟨p, hp⟩ := Pem.exists_parts_of_parse? hparse
  obtain ⟨more, rfl⟩ := hline
  have htext : Pem.unlines ((beginTag ++ more) :: out) =
      Pem.openingLine certificateLabel ++ (more ++ [10] ++ Pem.unlines out) := by
    rw [← List.singleton_append, Pem.unlines_append, Pem.unlines_singleton, beginTag]
    simp only [List.append_assoc]
  rw [htext, Pem.dropPreamble?_openingLine, Option.some.injEq, List.append_cancel_left_eq] at hp
  intro l hl hmark
  have hpiece : l <:+: Pem.unlines out :=
    (List.prefix_append l [10]).isInfix.trans
      (List.infix_of_mem_flatten (List.mem_map_of_mem (f := (· ++ [10])) hl))
  have htail : Pem.unlines out <:+: p.tail certificateLabel :=
    hp ▸ (List.suffix_append _ _).isInfix
  exact not_mark_infix_tail p (hmark.trans (hpiece.trans htail))

/-- What is laid out behind the first line of a certificate that is read is itself not read. -/
theorem parseCertificateText_of_overlooked {line : Bytes} {rest : List Bytes}
    (hline : beginTag <+: line) (hlines : Bytes.lines d = line :: rest)
    (h : (layOut d >>= parseCertificateText) = .ok c) :
    ∃ out, layOutLines false [] rest = some out ∧
      parseCertificateText (Pem.unlines out) = .error .loadCertificate := by
  have htag : beginTag <+: Bytes.trimEnd line :=
    Bytes.prefix_trimEnd (by decide +kernel) hline
  have hne : Bytes.trimEnd line ≠ [] := by
    intro hnil
    rw [hnil, List.prefix_nil] at htag
    exact absurd htag (by decide +kernel)
  rw [layOut, hlines, layOutLines, if_neg hne, if_pos (List.isPrefixOf_iff_prefix.2 htag)] at h
  cases hinside : layOutLines true [] rest with
  | none => rw [hinside] at h; cases h
  | some out =>
    rw [hinside] at h
    have hmark := not_mark_infix_of_parseCertificateText htag h
    obtain ⟨out', hout, hmem⟩ := exists_layOutLines_outside hinside
      fun l hl hopens ↦ hmark l hl (mark_infix_beginTag.trans hopens.isInfix)
    exact ⟨out', hout, parseCertificateText_of_not_mark fun l hl ↦ hmark l (hmem l hl)⟩

/-! ## White space in front of the opening tag -/

theorem layOut_append_of_isWholeLines (hblank : IsBlank w) (hlines : IsWholeLines w)
    (text : Bytes) :
    layOut (w ++ text) = layOut text := by
  rw [layOut, layOutLines_append_of_isWholeLines hblank hlines, ← layOut]

/-- White space that does not fill its lines hides the first line of a text. -/
theorem layOut_append_of_not_isWholeLines (hblank : IsBlank w) (hlines : ¬IsWholeLines w)
    (text : Bytes) : layOut (w ++ text) = layOut (behindFirstLine text) := by
  obtain ⟨line, rest, htext, hhidden⟩ := exists_layOutLines_append hblank hlines text
  rw [layOut, layOut, hhidden, layOutLines_behindFirstLine htext]

/-- A certificate is not read if its first line is overlooked. -/
theorem parse_behindFirstLine (hd : beginTag <+: d)
    (h : (layOut d >>= parseCertificateText) = .ok c) :
    (layOut (behindFirstLine d) >>= parseCertificateText) = .error .loadCertificate := by
  obtain ⟨more, rfl⟩ := hd
  have hfeed : 10 ∉ beginTag := by decide +kernel
  obtain ⟨line, rest, -, hlines⟩ := Bytes.exists_lines_append hfeed more
  obtain ⟨out, hout, hfails⟩ :=
    parseCertificateText_of_overlooked (List.prefix_append beginTag line) hlines h
  rw [layOut, layOutLines_behindFirstLine hlines, hout]
  exact hfails

/-- **White space in front of the opening tag.** White space that fills whole lines makes no
difference to what a text is read as, or to how it fails. White space that goes on in the line of
the opening tag hides this line: only what follows it is laid out and read, and a certificate that
is read without the white space is not read with it. -/
theorem indentation_matters (hd : beginTag <+: d) (hblank : IsBlank w) :
    (IsWholeLines w → parseCertificate (w ++ d) = parseCertificate d) ∧
    (¬IsWholeLines w →
      parseCertificate (w ++ d) = layOut (behindFirstLine d) >>= parseCertificateText ∧
      ∀ c, parseCertificate d = .ok c → parseCertificate (w ++ d) = .error .loadCertificate) := by
  have htext : parseCertificate d = layOut d >>= parseCertificateText := by
    rw [parseCertificate, if_pos (isText_of_begins hd)]
  have hindented : parseCertificate (w ++ d) = layOut (w ++ d) >>= parseCertificateText := by
    rw [parseCertificate, isText_append hblank, if_pos (isText_of_begins hd)]
  rw [hindented, htext]
  constructor
  · intro hlines
    rw [layOut_append_of_isWholeLines hblank hlines]
  · intro hlines
    rw [layOut_append_of_not_isWholeLines hblank hlines]
    exact ⟨rfl, fun c h ↦ parse_behindFirstLine hd h⟩

/-- Empty lines of several kinds in front of the sample certificate do no harm, and a blank does. -/
theorem indentation_matters_sampleLeaf :
    let text := certificateText Trust.Chain.sampleLeaf
    let emptyLines : Bytes := [13, 10, 9, 32, 12, 10]
    (beginTag <+: text ∧ IsBlank emptyLines ∧ IsWholeLines emptyLines ∧ IsBlank [32] ∧
        ¬IsWholeLines [32] ∧ parseCertificate text = .ok Trust.Chain.sampleLeaf) ∧
      parseCertificate (emptyLines ++ text) = .ok Trust.Chain.sampleLeaf ∧
      parseCertificate ([32] ++ text) = .error .loadCertificate := by
  intro text emptyLines
  have hbegin : beginTag <+: text := by decide +kernel
  have hread : parseCertificate text = .ok Trust.Chain.sampleLeaf :=
    parseCertificate_certificateText (by decide +kernel)
  have hempty : IsBlank emptyLines := by decide
  have hwhole : IsWholeLines emptyLines := by decide
  have hblank : IsBlank [32] := by decide
  have hpart : ¬IsWholeLines [32] := by decide
  refine ⟨⟨hbegin, hempty, hwhole, hblank, hpart, hread⟩, ?_, ?_⟩
  · exact ((indentation_matters hbegin hempty).1 hwhole).trans hread
  · exact ((indentation_matters hbegin hblank).2 hpart).2 _ hread

/-- So white space that is passed over when the form of a file is found out is not always passed
over when the file is read. -/
theorem parseCertificate_ne_of_blank :
    ¬∀ w d : Bytes, beginTag <+: d → IsBlank w →
      parseCertificate (w ++ d) = parseCertificate d := by
  intro hsame
  have hbegin : beginTag <+: certificateText Trust.Chain.sampleLeaf := by decide +kernel
  have hread : parseCertificate (certificateText Trust.Chain.sampleLeaf) =
      .ok Trust.Chain.sampleLeaf :=
    parseCertificate_certificateText (by decide +kernel)
  have htext : isText (certificateText Trust.Chain.sampleLeaf) = true := isText_of_begins hbegin
  have hsame := hsame [32] _ hbegin (by decide)
  rw [hread, parseCertificate, isText_append (by decide), if_pos htext,
    layOut_append_of_not_isWholeLines (by decide) (by decide)] at hsame
  rw [parseCertificate, if_pos htext] at hread
  rw [parse_behindFirstLine hbegin hread] at hsame
  cases hsame

end SignedFirmware.Credential
