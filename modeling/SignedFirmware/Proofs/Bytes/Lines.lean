import Mathlib.Data.List.DropRight
import SignedFirmware.Bytes

/-!
# Lines of a text

A text is cut at its line feeds by `Bytes.lines`, at every `n` bytes by `Bytes.chunks`, and at the
white space at its end by `Bytes.trimEnd`. Each of these is known by what it was put together from:
lines that hold no line feed, full pieces with a last one that may be shorter (`Cut`), and a text
that ends with something else in front of white space.
-/

namespace SignedFirmware.Bytes

variable {b margin : Bytes} {n : Nat}

/-! ## Line feeds -/

theorem lines_eq_splitOn (b : Bytes) : lines b = b.splitOn 10 := by
  induction b with
  | nil => rfl
  | cons x b ih =>
    rw [lines, List.foldr_cons, ← lines, ih, List.splitOn_cons_eq_if_modifyHead]
    obtain ⟨line, more, hsplit⟩ := List.exists_cons_of_ne_nil (List.splitOn_ne_nil 10 b)
    rw [hsplit]
    by_cases hx : x = 10
    · simp [consLine, hx]
    · simp [consLine, hx]

/-- Lines with line feeds between them are the lines of the text that they make. -/
theorem lines_intercalate {ls : List Bytes} (hls : ∀ line ∈ ls, 10 ∉ line) (hne : ls ≠ []) :
    lines ([10].intercalate ls) = ls := by
  rw [lines_eq_splitOn]
  exact List.splitOn_intercalate 10 hls hne

theorem lines_ne_nil (b : Bytes) : lines b ≠ [] := by
  rw [lines_eq_splitOn]
  exact List.splitOn_ne_nil 10 b

theorem lines_append_cons (front rest : Bytes) :
    lines (front ++ 10 :: rest) = lines front ++ lines rest := by
  simp only [lines_eq_splitOn]
  exact List.splitOnP_append_cons front rest rfl

/-- What is put in front of a text without a line feed goes into the first line. -/
theorem exists_lines_append {front : Bytes} (h : 10 ∉ front) (rest : Bytes) :
    ∃ line more, lines rest = line :: more ∧ lines (front ++ rest) = (front ++ line) :: more := by
  induction front with
  | nil =>
    obtain ⟨line, more, hlines⟩ := List.exists_cons_of_ne_nil (lines_ne_nil rest)
    exact ⟨line, more, hlines, hlines⟩
  | cons x front ih =>
    rw [List.mem_cons, not_or] at h
    obtain ⟨line, more, hrest, hlines⟩ := ih h.2
    refine ⟨line, more, hrest, ?_⟩
    rw [List.cons_append, lines, List.foldr_cons, ← lines, hlines, consLine, if_neg (Ne.symm h.1)]
    rfl

theorem mem_of_mem_lines {line : Bytes} {x : UInt8} (hline : line ∈ lines b) (hx : x ∈ line) :
    x ∈ b := by
  induction b generalizing line with
  | nil =>
    obtain rfl := List.mem_singleton.1 hline
    cases hx
  | cons y b ih =>
    obtain ⟨first, more, hlines⟩ := List.exists_cons_of_ne_nil (lines_ne_nil b)
    rw [hlines] at ih
    rw [lines, List.foldr_cons, ← lines, hlines, consLine] at hline
    split at hline
    · rcases List.mem_cons.1 hline with rfl | hline
      · cases hx
      · exact List.mem_cons_of_mem y (ih hline hx)
    · rcases List.mem_cons.1 hline with rfl | hline
      · rcases List.mem_cons.1 hx with rfl | hx
        · exact List.mem_cons_self
        · exact List.mem_cons_of_mem y (ih List.mem_cons_self hx)
      · exact List.mem_cons_of_mem y (ih (List.mem_cons_of_mem first hline) hx)

theorem mem_intercalate {ls : List Bytes} {x : UInt8} (h : x ∈ [10].intercalate ls) :
    x = 10 ∨ ∃ line ∈ ls, x ∈ line := by
  induction ls with
  | nil => cases h
  | cons line ls ih =>
    by_cases hls : ls = []
    · rw [hls, List.intercalate_singleton] at h
      exact .inr ⟨line, List.mem_cons_self, h⟩
    · rw [List.intercalate_cons_of_ne_nil hls, List.mem_append, List.mem_append,
        List.mem_singleton] at h
      rcases h with (h | h) | h
      · exact .inr ⟨line, List.mem_cons_self, h⟩
      · exact .inl h
      · exact (ih h).imp_right fun ⟨l, hl, hx⟩ ↦ ⟨l, List.mem_cons_of_mem line hl, hx⟩

/-! ## White space at the end -/

theorem trimEnd_prefix (b : Bytes) : trimEnd b <+: b := List.rdropWhile_prefix isBlank b

/-- White space goes, up to a last byte in front of it that is none. -/
theorem trimEnd_append (hb : ∀ x ∈ b.getLast?, isBlank x = false)
    (hmargin : ∀ x ∈ margin, isBlank x = true) : trimEnd (b ++ margin) = b := by
  rw [trimEnd, List.reverse_append,
    List.dropWhile_append_of_pos fun x hx ↦ hmargin x (List.mem_reverse.1 hx)]
  cases hlast : b.reverse with
  | nil => rw [List.reverse_eq_nil_iff.1 hlast]; rfl
  | cons x front =>
    have hx : isBlank x = false := hb x (by rw [← List.head?_reverse, hlast]; rfl)
    rw [List.dropWhile_cons_of_neg (by rw [hx]; exact Bool.false_ne_true), ← hlast,
      List.reverse_reverse]

/-- A front that does not end in white space is left. -/
theorem prefix_trimEnd {front : Bytes} (hfront : ∀ x ∈ front.getLast?, isBlank x = false)
    (h : front <+: b) : front <+: trimEnd b := by
  obtain ⟨more, rfl⟩ := h
  rw [trimEnd, List.reverse_append, List.dropWhile_append]
  split
  · have hkept : trimEnd (front ++ []) = front := trimEnd_append hfront (by simp)
    rw [List.append_nil, trimEnd] at hkept
    exact hkept.symm ▸ List.prefix_rfl
  · rw [List.reverse_append, List.reverse_reverse]
    exact List.prefix_append _ _

/-! ## Pieces of one length -/

/-- A text cut into pieces: together these are the text, each is as long as it may be, but for the
last one, which may be shorter, and none is empty. -/
structure Cut (n : Nat) (b : Bytes) (pieces : List Bytes) : Prop where
  flatten_eq : pieces.flatten = b
  length_eq : ∀ piece ∈ pieces.dropLast, piece.length = n
  length_pos : ∀ piece ∈ pieces, 0 < piece.length
  length_le : ∀ piece ∈ pieces, piece.length ≤ n

theorem chunks_eq_nil_iff (hn : 0 < n) : chunks n b = [] ↔ b = [] := by
  rw [chunks]
  by_cases hb : b = []
  · rw [dif_pos (.inl hb)]
    exact iff_of_true rfl hb
  · rw [dif_neg (not_or.2 ⟨hb, hn.ne'⟩)]
    exact iff_of_false (List.cons_ne_nil _ _) hb

theorem cut_chunks (hn : 0 < n) (b : Bytes) : Cut n b (chunks n b) := by
  fun_induction chunks n b with
  | case1 b h =>
    obtain rfl : b = [] := h.resolve_right hn.ne'
    exact ⟨rfl, by simp, by simp, by simp⟩
  | case2 b h ih =>
    have hpos : 0 < b.length := List.length_pos_iff.2 fun hb ↦ h (.inl hb)
    refine ⟨?_, ?_, ?_, ?_⟩
    · rw [List.flatten_cons, ih.flatten_eq, List.take_append_drop]
    · -- a piece that is not the last has another one behind it, so the text goes on
      by_cases hmore : b.drop n = []
      · rw [(chunks_eq_nil_iff hn).2 hmore]
        simp
      · rw [List.dropLast_cons_of_ne_nil (mt (chunks_eq_nil_iff hn).1 hmore), List.forall_mem_cons]
        rw [List.drop_eq_nil_iff, Nat.not_le] at hmore
        exact ⟨List.length_take_of_le hmore.le, ih.length_eq⟩
    · rw [List.forall_mem_cons, List.length_take]
      exact ⟨Nat.lt_min.2 ⟨hn, hpos⟩, ih.length_pos⟩
    · rw [List.forall_mem_cons, List.length_take]
      exact ⟨Nat.min_le_left _ _, ih.length_le⟩

theorem Cut.mem {pieces : List Bytes} (h : Cut n b pieces) {piece : Bytes} {x : UInt8}
    (hpiece : piece ∈ pieces) (hx : x ∈ piece) : x ∈ b :=
  h.flatten_eq ▸ List.mem_flatten_of_mem hpiece hx

end SignedFirmware.Bytes
