import SignedFirmware.Pem.Text
import SignedFirmware.Proofs.Bytes.Lines
import SignedFirmware.Proofs.Pem.Base64

/-!
# Labelled text is read back

`Pem.parse?` takes a text apart from both ends: the opening line and its end from the front, the
closing line and its end from the back. What is left in the middle are the lines of characters with
line feeds between them, for the last line feed goes with the closing line. Each step undoes one
that `Pem.render` took, whatever the number of bytes (`parse?_render`).
-/

namespace SignedFirmware.Pem

variable {front back rest body data : Bytes}

/-! ## Ends -/

theorem dropFront?_append (front rest : Bytes) : dropFront? front (front ++ rest) = some rest := by
  rw [dropFront?, if_pos (List.isPrefixOf_iff_prefix.2 (List.prefix_append front rest)),
    List.drop_left]

theorem dropBack?_append (rest back : Bytes) : dropBack? back (rest ++ back) = some rest := by
  rw [dropBack?, if_pos (List.isSuffixOf_iff_suffix.2 (List.suffix_append rest back)),
    List.length_append, Nat.add_sub_cancel, List.take_left]

/-- A line feed at the end is an end of line by itself if no carriage return is in front of it. -/
theorem dropLineEndBack?_concat (h : 13 ∉ body.getLast?) :
    dropLineEndBack? (body ++ [10]) = some body := by
  obtain rfl | ⟨front, x, rfl⟩ := body.eq_nil_or_concat
  · rfl
  · rw [List.concat_eq_append] at h ⊢
    have hx : x ≠ 13 := by simpa using h
    simp [dropLineEndBack?, hx]

/-- A text that begins with an opening line has nothing in front of it. -/
theorem dropPreamble?_openingLine (label : String) (rest : Bytes) :
    dropPreamble? (openingLine label ++ rest) = some (openingLine label ++ rest) := by
  have hopening : opening <+: openingLine label ++ rest := by
    rw [openingLine, List.append_assoc, List.append_assoc]
    exact List.prefix_append opening _
  rw [dropPreamble?, if_pos (List.isPrefixOf_iff_prefix.2 hopening)]

/-! ## Lines -/

theorem unlines_append (ls more : List Bytes) : unlines (ls ++ more) = unlines ls ++ unlines more :=
  List.flatMap_append

theorem unlines_singleton (line : Bytes) : unlines [line] = line ++ [10] :=
  List.flatMap_singleton _ _

theorem unlines_of_ne_nil {ls : List Bytes} (h : ls ≠ []) :
    unlines ls = [10].intercalate ls ++ [10] := by
  induction ls with
  | nil => exact absurd rfl h
  | cons line ls ih =>
    by_cases hls : ls = []
    · rw [hls, unlines_singleton, List.intercalate_singleton]
    · rw [List.intercalate_cons_of_ne_nil hls, ← List.singleton_append, unlines_append, ih hls,
        unlines_singleton, List.append_assoc (line ++ [10])]

/-- After the last line feed begins one more line, without anything in it. -/
theorem unlines_eq_intercalate (ls : List Bytes) : unlines ls = [10].intercalate (ls ++ [[]]) := by
  induction ls with
  | nil => rfl
  | cons line ls ih =>
    rw [List.cons_append, List.intercalate_cons_of_ne_nil (List.concat_ne_nil [] ls), ← ih,
      ← List.singleton_append, unlines_append, unlines_singleton]

theorem joinLines?_append {line : Bytes} (hline : line.length = lineWidth) (rest : Bytes) :
    joinLines? (line ++ 10 :: rest) = (joinLines? rest).map (line ++ ·) := by
  have hend : dropLineEnd? (10 :: rest) = some rest := rfl
  rw [joinLines?, ← hline, List.drop_left, List.take_left, if_neg (List.cons_ne_nil _ _)]
  split
  · rename_i hnone
    rw [hend] at hnone
    cases hnone
  · rename_i more hsome
    rw [hend, Option.some.injEq] at hsome
    rw [hsome]

/-- The characters of lines that are full, up to the last one, come back together. -/
theorem joinLines?_chunks (body : Bytes) :
    joinLines? ([10].intercalate (Bytes.chunks lineWidth body)) = some body := by
  have hwidth : 0 < lineWidth := by decide
  fun_induction Bytes.chunks lineWidth body with
  | case1 body h =>
    obtain rfl : body = [] := h.resolve_right hwidth.ne'
    rw [joinLines?]
    exact if_pos rfl
  | case2 body h ih =>
    by_cases hmore : body.drop lineWidth = []
    · have hwhole : body.take lineWidth = body :=
        List.take_of_length_le (List.drop_eq_nil_iff.1 hmore)
      rw [hmore, hwhole, (Bytes.chunks_eq_nil_iff hwidth).2 rfl, List.intercalate_singleton,
        joinLines?, if_pos hmore]
    · have hlong : lineWidth < body.length := Nat.not_le.1 (mt List.drop_eq_nil_iff.2 hmore)
      rw [List.intercalate_cons_of_ne_nil (mt (Bytes.chunks_eq_nil_iff hwidth).1 hmore),
        List.append_assoc, List.singleton_append,
        joinLines?_append (List.length_take_of_le hlong.le), ih, Option.map_some,
        List.take_append_drop]

/-! ## Whole texts -/

/-- The lines of characters have no carriage return in them. -/
theorem not_mem_intercalate_chunks_encode (data : Bytes) :
    13 ∉ [10].intercalate (Bytes.chunks lineWidth (Base64.encode data)) := by
  intro h
  rcases Bytes.mem_intercalate h with h | ⟨line, hline, h⟩
  · cases h
  · have hmem := (Bytes.cut_chunks (by decide) (Base64.encode data)).mem hline h
    exact absurd (Base64.isCharacter_of_mem_encode hmem) (by decide)

theorem getLast?_closingLine (label : String) : (closingLine label).getLast? = some 45 := by
  have hdashes : dashes = Bytes.ofString "----" ++ [45] := by decide +kernel
  rw [closingLine, hdashes, ← List.append_assoc, List.getLast?_concat]

/-- A text is read as the bytes that it was written for, however many there are. A text without any
bytes is written, but not read. -/
theorem parse?_render (label : String) (hdata : data ≠ []) :
    parse? label (render label data) = some data := by
  have hdigits : Base64.encode data ≠ [] := mt Base64.encode_eq_nil_iff.1 hdata
  have hlines : Bytes.chunks lineWidth (Base64.encode data) ≠ [] :=
    mt (Bytes.chunks_eq_nil_iff (by decide)).1 hdigits
  have hreturn := not_mem_intercalate_chunks_encode data
  have hjoin := joinLines?_chunks (Base64.encode data)
  have hrender : render label data =
      openingLine label ++ 10 ::
        ([10].intercalate (Bytes.chunks lineWidth (Base64.encode data)) ++ [10] ++
          closingLine label ++ [10]) := by
    rw [render, unlines_append, unlines_append, unlines_of_ne_nil hlines, unlines_singleton,
      unlines_singleton]
    simp only [List.append_assoc, List.cons_append, List.nil_append]
  -- from here on, all that counts is how the body is joined and that it has no carriage return
  generalize [10].intercalate (Bytes.chunks lineWidth (Base64.encode data)) = body
    at hreturn hjoin hrender
  have hbody : body ≠ [] := by
    rintro rfl
    rw [joinLines?, if_pos List.drop_nil, Option.some.injEq] at hjoin
    exact hdigits hjoin.symm
  have hfront : dropLineEnd? (10 :: (body ++ [10] ++ closingLine label ++ [10])) =
      some (body ++ [10] ++ closingLine label ++ [10]) := rfl
  have hlast : 13 ∉ (body ++ [10] ++ closingLine label).getLast? := by
    rw [List.getLast?_append, getLast?_closingLine, Option.some_or]
    decide
  have hmiddle : 13 ∉ body.getLast? := fun h ↦ hreturn (List.mem_of_getLast? h)
  simp only [parse?, hrender, dropPreamble?_openingLine, dropFront?_append, hfront,
    dropLineEndBack?_concat hlast, Option.getD_some, dropBack?_append,
    dropLineEndBack?_concat hmiddle, if_neg hbody, hjoin, Option.bind_eq_bind, Option.bind_some,
    Base64.decode?_encode]

/-- A text is ASCII if its label is. -/
theorem lt_of_mem_render {label : String} (hlabel : ∀ x ∈ Bytes.ofString label, x < 128) {x : UInt8}
    (hx : x ∈ render label data) : x < 128 := by
  have hopening : ∀ x ∈ opening, x < 128 := by decide +kernel
  have hclosing : ∀ x ∈ closing, x < 128 := by decide +kernel
  have hdashes : ∀ x ∈ dashes, x < 128 := by decide +kernel
  obtain ⟨line, hline, hx⟩ := List.mem_flatMap.1 hx
  rcases List.mem_append.1 hx with hx | hx
  · simp only [List.mem_append, List.mem_singleton] at hline
    rcases hline with (rfl | hline) | rfl
    · simp only [openingLine, List.mem_append] at hx
      rcases hx with (hx | hx) | hx
      · exact hopening x hx
      · exact hlabel x hx
      · exact hdashes x hx
    · have hmem := (Bytes.cut_chunks (by decide) (Base64.encode data)).mem hline hx
      exact (Base64.isCharacter_of_mem_encode hmem).lt
    · simp only [closingLine, List.mem_append] at hx
      rcases hx with (hx | hx) | hx
      · exact hclosing x hx
      · exact hlabel x hx
      · exact hdashes x hx
  · rw [List.mem_singleton.1 hx]
    decide

end SignedFirmware.Pem
