/-! Texts as bytes in UTF-8, and bytes as texts.  Bytes that do not form a character stand for the
replacement character, once for each longest beginning of a character among them. -/

namespace PrimScript.Text

def byteCount (cs : List Char) : Nat := cs.foldr (·.utf8Size + ·) 0

def takeBytes : (limit : Nat) → List Char → List Char
  | _, [] => []
  | limit, c :: cs => if c.utf8Size ≤ limit then c :: takeBytes (limit - c.utf8Size) cs else []

def charBytes (c : Char) : List Nat :=
  let n := c.toNat
  if n < 0x80 then [n]
  else if n < 0x800 then [0xC0 + n / 0x40, 0x80 + n % 0x40]
  else if n < 0x10000 then [0xE0 + n / 0x1000, 0x80 + n / 0x40 % 0x40, 0x80 + n % 0x40]
  else [0xF0 + n / 0x40000, 0x80 + n / 0x1000 % 0x40, 0x80 + n / 0x40 % 0x40, 0x80 + n % 0x40]

def bytes (cs : List Char) : List Nat := cs.flatMap charBytes

/-- How a character goes on after its first byte: the payload of that byte, the range of the second
byte, and how many bytes follow. -/
structure Lead where
  payload : Nat
  low : Nat
  high : Nat
  count : Nat

def lead? (b : Nat) : Option Lead :=
  if 0xC2 ≤ b ∧ b ≤ 0xDF then some ⟨b - 0xC0, 0x80, 0xBF, 1⟩
  else if b = 0xE0 then some ⟨0, 0xA0, 0xBF, 2⟩
  else if b = 0xED then some ⟨0xD, 0x80, 0x9F, 2⟩
  else if 0xE1 ≤ b ∧ b ≤ 0xEF then some ⟨b - 0xE0, 0x80, 0xBF, 2⟩
  else if b = 0xF0 then some ⟨0, 0x90, 0xBF, 3⟩
  else if 0xF1 ≤ b ∧ b ≤ 0xF3 then some ⟨b - 0xF0, 0x80, 0xBF, 3⟩
  else if b = 0xF4 then some ⟨4, 0x80, 0x8F, 3⟩
  else none

/-- What is still open after some bytes of a character: its value so far, and what is expected of
the next byte. -/
abbrev Open := Option Lead

def decodeFrom : Open → List Nat → List Char
  | none, [] => []
  | some _, [] => ['\uFFFD']
  | none, b :: bs =>
    if b < 0x80 then Char.ofNat b :: decodeFrom none bs
    else
      match lead? b with
      | some l => decodeFrom (some l) bs
      | none => '\uFFFD' :: decodeFrom none bs
  | some l, b :: bs =>
    if l.low ≤ b ∧ b ≤ l.high then
      let value := l.payload * 0x40 + (b - 0x80)
      if l.count = 1 then Char.ofNat value :: decodeFrom none bs
      else decodeFrom (some ⟨value, 0x80, 0xBF, l.count - 1⟩) bs
    else if b < 0x80 then '\uFFFD' :: Char.ofNat b :: decodeFrom none bs
    else
      match lead? b with
      | some l => '\uFFFD' :: decodeFrom (some l) bs
      | none => '\uFFFD' :: '\uFFFD' :: decodeFrom none bs

def decode (bs : List Nat) : List Char := decodeFrom none bs

end PrimScript.Text
