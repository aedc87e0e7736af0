import Mathlib.Data.String.Basic
import SignedFirmware.Session

/-!
# Programs that look around

Most of what a command does is to look at its surroundings: at files, at variables, at the clock.
Until it writes its output, all that it changes in a session are the lines that it has written, and
it does not see those. What such a program finds is a function of the rest of the session (`Finds`).
As programs compose, so do the functions (`Finds.bind`), and the session is gone from what there is
to say about a command.
-/

namespace SignedFirmware

variable {ε α β : Type}

namespace Session

/-! ## Files -/

/-- From the end of a part without a slash, the search for one goes on to the end. -/
theorem splitOnAux_of_not_mem {rest : List Char} (h : '/' ∉ rest) (front : List Char) :
    String.splitOnAux (String.ofList (front ++ rest)) "/" 0 ⟨String.utf8Len front⟩ 0 [] =
      [String.ofList (front ++ rest)] := by
  induction rest generalizing front with
  | nil =>
    have hend : (⟨String.utf8Len front⟩ : String.Pos.Raw).atEnd
        (String.ofList (front ++ [])) = true := by simp
    have hall := String.extract_of_valid [] front []
    rw [List.nil_append, List.append_nil, String.utf8Len_nil, Nat.zero_add] at hall
    rw [String.splitOnAux, if_pos hend, List.append_nil]
    exact congrArg (fun part ↦ [part]) hall
  | cons c rest ih =>
    have hc : c ≠ '/' := fun hc ↦ h (hc ▸ List.mem_cons_self)
    have hend : ¬(⟨String.utf8Len front⟩ : String.Pos.Raw).atEnd
        (String.ofList (front ++ c :: rest)) = true := by
      have hsize := c.utf8Size_pos
      rw [String.atEnd_iff, String.rawEndPos_ofList, String.Pos.Raw.mk_le_mk, String.utf8Len_append,
        String.utf8Len_cons]
      omega
    have hslash : String.Pos.Raw.get "/" 0 = '/' := by decide
    have hback : String.Pos.Raw.unoffsetBy ⟨String.utf8Len front⟩ 0 =
        (⟨String.utf8Len front⟩ : String.Pos.Raw) := rfl
    have hnext : String.utf8Len front + c.utf8Size = String.utf8Len (front ++ [c]) := by simp
    -- no slash begins here, so the search goes on behind this character
    rw [String.splitOnAux, if_neg hend, String.get_of_valid, hslash, List.headD_cons,
      if_neg (by simpa using hc), hback, String.next_of_valid, hnext, List.append_cons]
    exact ih (fun hmem ↦ h (List.mem_cons_of_mem _ hmem)) _

theorem splitOn_of_not_mem {path : String} (h : '/' ∉ path.toList) : path.splitOn "/" = [path] := by
  have hsplit := splitOnAux_of_not_mem h []
  rw [List.nil_append, String.ofList_toList] at hsplit
  rw [String.splitOn, if_neg (by decide)]
  exact hsplit

/-- A name is that of a file if it has no slash in it and does not stand for something else. -/
def IsFileName (name : String) : Prop :=
  '/' ∉ name.toList ∧ '\x00' ∉ name.toList ∧ name ∉ ["", ".", ".."] ∧
    name.utf8ByteSize ≤ maxNameSize

instance (name : String) : Decidable (IsFileName name) := inferInstanceAs (Decidable (_ ∧ _))

theorem place_of_isFileName {name : String} (h : IsFileName name) : place name = .file name := by
  obtain ⟨hslash, hnul, hname, hsize⟩ := h
  simp only [List.mem_cons, List.not_mem_nil, or_false, not_or] at hname
  obtain ⟨hempty, hdot, hdots⟩ := hname
  have hparts : [name].filter (fun part ↦ part != "" && part != ".") = [name] := by
    simp [hempty, hdot]
  have hstart : name.startsWith "/" = false := by
    rw [String.startsWith_string_eq_false_iff]
    intro hfront
    exact hslash (hfront.subset (by decide))
  rw [place, splitOn_of_not_mem hslash]
  simp [hparts, hstart, hnul, hdots, Nat.not_lt.2 hsize]

variable {s : Session} {path : String} {data : Bytes}

theorem read_of_lookup (hpath : IsFileName path) (hfile : s.files.lookup path = some data) :
    s.read path = .ok data := by
  simp only [read, place_of_isFileName hpath, hfile]

theorem read_of_missing (hpath : IsFileName path) (hfile : s.files.lookup path = none) :
    s.read path = .error .missing := by
  simp only [read, place_of_isFileName hpath, hfile]

theorem size_of_read (h : s.read path = .ok data) : s.size path = some data.length := by
  rw [read] at h
  rw [size]
  cases hplace : place path with
  | file name =>
    rw [hplace] at h
    cases hfile : s.files.lookup name with
    | none => simp [hfile] at h
    | some found =>
      obtain rfl : found = data := by simpa [hfile] using h
      simp [hfile]
  | directory => simp [hplace] at h
  | nowhere => simp [hplace] at h

/-- A file that is there holds what was put in place of its bytes. -/
theorem lookup_replaced {files : List (String × Bytes)} {name : String}
    (h : files.any (·.1 == name) = true) (data : Bytes) :
    (files.map fun (n, old) ↦ (n, if n == name then data else old)).lookup name = some data := by
  induction files with
  | nil => cases h
  | cons file files ih =>
    obtain ⟨n, old⟩ := file
    rw [List.map_cons]
    by_cases hn : n = name
    · rw [hn]
      simp
    · rw [List.any_cons, beq_false_of_ne hn, Bool.false_or] at h
      rw [List.lookup_cons, beq_false_of_ne (Ne.symm hn)]
      exact ih h

theorem lookup_added {files : List (String × Bytes)} {name : String}
    (h : ¬files.any (·.1 == name) = true) (data : Bytes) :
    (files ++ [(name, data)]).lookup name = some data := by
  have hnone : files.lookup name = none := by
    rw [List.lookup_eq_none_iff]
    intro file hfile
    rw [bne_iff_ne]
    exact fun hname ↦ h (List.any_eq_true.2 ⟨file, hfile, beq_iff_eq.2 hname.symm⟩)
  rw [List.lookup_append, hnone]
  simp

/-- If a path leads to a file, bytes can be written there and are read afterwards, whether the file
was there before or not. -/
theorem read_write {name : String} (hplace : place path = .file name) (s : Session) (data : Bytes) :
    (s.write path data).1 = true ∧ (s.write path data).2.read path = .ok data := by
  rw [write, hplace]
  refine ⟨rfl, ?_⟩
  by_cases hthere : s.files.any (·.1 == name) = true
  · simp only [read, hplace, if_pos hthere, lookup_replaced hthere]
  · simp only [read, hplace, if_neg hthere, lookup_added hthere]

/-! ## Runs -/

/-- How a program ends in a session. -/
def outcome (s : Session) (p : ExceptT ε (StateM Session) α) : Except ε α := (p.run.run s).1

/-- The session that a program leaves behind. -/
def after (s : Session) (p : ExceptT ε (StateM Session) α) : Session := (p.run.run s).2

/-- All of a session but the lines that were written. -/
def surroundings (s : Session) : Session := { s with printed := [], reported := [] }

theorem outcome_bind (s : Session) (p : ExceptT ε (StateM Session) α)
    (q : α → ExceptT ε (StateM Session) β) :
    s.outcome (p >>= q) = s.outcome p >>= fun a ↦ (s.after p).outcome (q a) := by
  rw [outcome, outcome, after, ExceptT.run_bind, StateT.run_bind]
  obtain ⟨result, s'⟩ := p.run.run s
  cases result <;> rfl

theorem after_bind (s : Session) (p : ExceptT ε (StateM Session) α)
    (q : α → ExceptT ε (StateM Session) β) :
    s.after (p >>= q) =
      match s.outcome p with
      | .ok a => (s.after p).after (q a)
      | .error _ => s.after p := by
  rw [outcome, after, after, ExceptT.run_bind, StateT.run_bind]
  obtain ⟨result, s'⟩ := p.run.run s
  cases result <;> rfl

end Session

/-- A program finds what `found` says of the surroundings that it is run in, and leaves them as they
are. -/
structure Finds (p : ExceptT ε (StateM Session) α) (found : Session → Except ε α) : Prop where
  outcome_eq : ∀ s : Session, s.outcome p = found s.surroundings
  surroundings_after : ∀ s : Session, (s.after p).surroundings = s.surroundings

namespace Finds

variable {p : ExceptT ε (StateM Session) α} {q : α → ExceptT ε (StateM Session) β}
variable {f f' : Session → Except ε α} {g : α → Session → Except ε β}

/-! ## Composition -/

theorem congr (hp : Finds p f) (hsame : ∀ s, f s = f' s) : Finds p f' := by
  obtain rfl : f = f' := funext hsame
  exact hp

/-- What a program finds is what it ends with. -/
theorem canonical (hp : Finds p f) : Finds p fun s ↦ s.outcome p :=
  ⟨fun s ↦ (hp.outcome_eq s).trans (hp.outcome_eq s.surroundings).symm, hp.surroundings_after⟩

theorem settled (result : Except ε α) : Finds (ExceptT.mk (pure result)) fun _ ↦ result :=
  ⟨fun _ ↦ rfl, fun _ ↦ rfl⟩

/-- A program that goes on behind another finds the same in the surroundings of that one. -/
theorem bind (hp : Finds p f) (hq : ∀ a, Finds (q a) (g a)) :
    Finds (p >>= q) fun s ↦ f s >>= fun a ↦ g a s := by
  constructor
  · intro s
    -- what comes second starts behind more lines, which are not in its surroundings
    rw [Session.outcome_bind, hp.outcome_eq]
    refine congrArg (f s.surroundings >>= ·) (funext fun a ↦ ?_)
    rw [(hq a).outcome_eq, hp.surroundings_after]
  · intro s
    rw [Session.after_bind]
    split
    · rw [(hq _).surroundings_after, hp.surroundings_after]
    · exact hp.surroundings_after s

/-- Programs in a row that find nothing but that all is well. -/
theorem forM {q : β → ExceptT ε (StateM Session) Unit} {xs : List β}
    (hq : ∀ x, Finds (q x) fun _ ↦ .ok ()) : Finds (xs.forM q) fun _ ↦ .ok () := by
  induction xs with
  | nil => exact settled (.ok ())
  | cons x xs ih => exact (hq x).bind fun _ ↦ ih

/-! ## Looking around -/

theorem size (path : String) :
    Finds (Host.size path : ExceptT ε (StateM Session) (Option Nat)) fun s ↦ .ok (s.size path) :=
  ⟨fun _ ↦ rfl, fun _ ↦ rfl⟩

theorem read (path : String) :
    Finds (Host.read path : ExceptT ε (StateM Session) (Except ReadFailure Bytes))
      fun s ↦ .ok (s.read path) :=
  ⟨fun _ ↦ rfl, fun _ ↦ rfl⟩

theorem lookup (name : String) :
    Finds (Host.lookup name : ExceptT ε (StateM Session) (Option String)) fun s ↦
      .ok (s.environment.lookup name) :=
  ⟨fun _ ↦ rfl, fun _ ↦ rfl⟩

theorem random (n : Nat) :
    Finds (Host.random n : ExceptT ε (StateM Session) Bytes) fun s ↦
      .ok (List.replicate n s.randomness) :=
  ⟨fun _ ↦ rfl, fun _ ↦ rfl⟩

theorem now : Finds (Host.now : ExceptT ε (StateM Session) Instant) fun s ↦ .ok s.clock :=
  ⟨fun _ ↦ rfl, fun _ ↦ rfl⟩

theorem overflow :
    Finds (Host.overflow : ExceptT ε (StateM Session) Overflow) fun s ↦ .ok s.overflow :=
  ⟨fun _ ↦ rfl, fun _ ↦ rfl⟩

theorem wanted :
    Finds (Host.wanted : ExceptT ε (StateM Session) (Option Log.Filter)) fun s ↦ .ok s.filter :=
  ⟨fun _ ↦ rfl, fun _ ↦ rfl⟩

/-! ## Writing lines -/

theorem print (line : String) :
    Finds (Host.print line : ExceptT ε (StateM Session) Unit) fun _ ↦ .ok () :=
  ⟨fun _ ↦ rfl, fun _ ↦ rfl⟩

theorem report (line : String) :
    Finds (Host.report line : ExceptT ε (StateM Session) Unit) fun _ ↦ .ok () :=
  ⟨fun _ ↦ rfl, fun _ ↦ rfl⟩

/-- Whatever messages there are, and whether they are wanted or not, a program goes on as if there
were none. -/
theorem narrate (entries : Unit → List Log.Entry) :
    Finds (SignedFirmware.narrate entries : ExceptT ε (StateM Session) Unit) fun _ ↦ .ok () := by
  refine (wanted.bind (g := fun _ _ ↦ .ok ()) fun filter ↦ ?_).congr fun _ ↦ rfl
  cases filter with
  | none => exact settled (.ok ())
  | some filter => exact now.bind fun now ↦ forM fun entry ↦ report _

theorem narrated {f : Session → Except ε α} (entries : Unit → List Log.Entry) (hp : Finds p f) :
    Finds (SignedFirmware.narrate entries >>= fun _ ↦ p) f :=
  (narrate entries).bind fun _ ↦ hp

end Finds

end SignedFirmware
