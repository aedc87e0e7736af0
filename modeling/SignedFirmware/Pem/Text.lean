import SignedFirmware.Pem.Base64

/-!
# Labelled text

Keys and certificates travel as text: a line that begins them and says what they are, the bytes in
base64 with 64 characters to a line, and a line that ends them. `Pem.render` writes such a text and
`Pem.parse?` reads one. The reader is strict: every line but the last is full, and nothing follows
the closing line. Only in front of the first line other text may stand.
-/

namespace SignedFirmware.Pem

/-- The characters of a full line. -/
def lineWidth : Nat := 64

/-- What every opening line starts with. -/
def opening : Bytes := Bytes.ofString "-----BEGIN "

/-- What every closing line starts with. -/
def closing : Bytes := Bytes.ofString "-----END "

/-- What opening and closing lines end with. -/
def dashes : Bytes := Bytes.ofString "-----"

def openingLine (label : String) : Bytes := opening ++ Bytes.ofString label ++ dashes

def closingLine (label : String) : Bytes := closing ++ Bytes.ofString label ++ dashes

/-- Lines with a line feed after each. -/
def unlines (ls : List Bytes) : Bytes := ls.flatMap (· ++ [10])

/-- The text for some bytes. -/
def render (label : String) (data : Bytes) : Bytes :=
  unlines ([openingLine label] ++ Bytes.chunks lineWidth (Base64.encode data) ++
    [closingLine label])

/-! ## Reading -/

/-- The text after an end of line: a carriage return, a line feed, or both in this order. -/
def dropLineEnd? : Bytes → Option Bytes
  | 13 :: 10 :: rest => some rest
  | 13 :: rest => some rest
  | 10 :: rest => some rest
  | _ => none

theorem length_lt_of_dropLineEnd? {text rest : Bytes} (h : dropLineEnd? text = some rest) :
    rest.length < text.length := by
  unfold dropLineEnd? at h
  split at h
  · obtain rfl := Option.some.inj h
    exact Nat.lt_succ_of_lt (Nat.lt_succ_self _)
  · obtain rfl := Option.some.inj h
    exact Nat.lt_succ_self _
  · obtain rfl := Option.some.inj h
    exact Nat.lt_succ_self _
  · exact nomatch h

/-- The text before an end of line. -/
def dropLineEndBack? (text : Bytes) : Option Bytes :=
  match text.reverse with
  | 10 :: 13 :: rest => some rest.reverse
  | 10 :: rest => some rest.reverse
  | 13 :: rest => some rest.reverse
  | _ => none

/-- The text from the first opening line on. No zero character may stand before it. -/
def dropPreamble? (text : Bytes) : Option Bytes :=
  if opening.isPrefixOf text then some text else search text
where
  /-- Looks for an opening line behind an end of line. -/
  search : Bytes → Option Bytes
    | [] => none
    | x :: rest =>
      if x = 0 then none
      else if (x = 10 ∨ x = 13) ∧ opening.isPrefixOf rest then some rest
      else search rest

/-- The text without something that it has to begin with. -/
def dropFront? (front text : Bytes) : Option Bytes :=
  if front.isPrefixOf text then some (text.drop front.length) else none

/-- The text without something that it has to end with. -/
def dropBack? (back text : Bytes) : Option Bytes :=
  if back.isSuffixOf text then some (text.take (text.length - back.length)) else none

/-- The characters of the lines between opening and closing line. As long as there is more than a
full line, a full line is taken with its end. -/
def joinLines? (body : Bytes) : Option Bytes :=
  if body.drop lineWidth = [] then some body
  else
    match _h : dropLineEnd? (body.drop lineWidth) with
    | none => none
    | some rest => (joinLines? rest).map (body.take lineWidth ++ ·)
termination_by body.length
decreasing_by
  exact Nat.lt_of_lt_of_le (length_lt_of_dropLineEnd? _h) (List.length_drop ▸ Nat.sub_le _ _)

/-- The bytes of a text with the given label. The body is decoded as a whole, and strictly: a bad
character, a line of another width or a wrong end makes it fail wherever that is. This is what is
assumed of the decoder of labelled text, in whatever steps it works. -/
def parse? (label : String) (text : Bytes) : Option Bytes := do
  let text ← dropPreamble? text
  let text ← dropFront? (openingLine label) text
  let text ← dropLineEnd? text
  -- the closing line need not have an end of its own
  let text ← dropBack? (closingLine label) ((dropLineEndBack? text).getD text)
  let body ← dropLineEndBack? text
  if body = [] then none
  else
    let digits ← joinLines? body
    Base64.decode? digits

end SignedFirmware.Pem
