namespace Doctest.Text.Utf8

def replacement : Char := '\uFFFD'

def tailByte (n : Nat) : UInt8 := UInt8.ofNat (0x80 + n % 64)

def encodeChar (c : Char) : List UInt8 :=
  let n := c.toNat
  if n < 0x80 then [UInt8.ofNat n]
  else if n < 0x800 then [UInt8.ofNat (0xC0 + n / 64), tailByte n]
  else if n < 0x10000 then [UInt8.ofNat (0xE0 + n / 4096), tailByte (n / 64), tailByte n]
  else [UInt8.ofNat (0xF0 + n / 262144), tailByte (n / 4096), tailByte (n / 64), tailByte n]

def encode (s : List Char) : List UInt8 := s.flatMap encodeChar

/-- What a leading byte above ASCII announces: the bits it holds, the number of bytes after it,
and the range of the next one. -/
structure Lead where
  bits : Nat
  following : Nat
  low : UInt8
  high : UInt8

def lead? (b : UInt8) : Option Lead :=
  if 0xC2 ≤ b ∧ b ≤ 0xDF then some ⟨b.toNat % 32, 1, 0x80, 0xBF⟩
  else if b = 0xE0 then some ⟨b.toNat % 16, 2, 0xA0, 0xBF⟩
  else if b = 0xED then some ⟨b.toNat % 16, 2, 0x80, 0x9F⟩
  else if 0xE1 ≤ b ∧ b ≤ 0xEF then some ⟨b.toNat % 16, 2, 0x80, 0xBF⟩
  else if b = 0xF0 then some ⟨b.toNat % 8, 3, 0x90, 0xBF⟩
  else if 0xF1 ≤ b ∧ b ≤ 0xF3 then some ⟨b.toNat % 8, 3, 0x80, 0xBF⟩
  else if b = 0xF4 then some ⟨b.toNat % 8, 3, 0x80, 0x8F⟩
  else none

def isTail (b : UInt8) : Bool := 0x80 ≤ b && b ≤ 0xBF

def finish (bits : Nat) : Nat → List UInt8 → Char × Nat
  | 0, _ => (Char.ofNat bits, 0)
  | _ + 1, [] => (replacement, 0)
  | k + 1, b :: rest =>
    if isTail b then
      let (c, used) := finish (bits * 64 + b.toNat % 64) k rest
      (c, used + 1)
    else (replacement, 0)

/-- The character that a byte begins, and the number of later bytes that belong to it. -/
def decodeChar (b : UInt8) (rest : List UInt8) : Char × Nat :=
  if b < 0x80 then (Char.ofNat b.toNat, 0) else
    match lead? b, rest with
    | some l, b' :: rest' =>
      if l.low ≤ b' ∧ b' ≤ l.high then
        let (c, used) := finish (l.bits * 64 + b'.toNat % 64) (l.following - 1) rest'
        (c, used + 1)
      else (replacement, 0)
    | _, _ => (replacement, 0)

def decode : List UInt8 → List Char
  | [] => []
  | b :: rest =>
    let (c, used) := decodeChar b rest
    c :: decode (rest.drop used)
termination_by bs => bs.length
decreasing_by
  simp only [List.length_cons, List.length_drop]
  omega

def decode? (bs : List UInt8) : Option (List Char) :=
  let s := decode bs
  if encode s = bs then some s else none

@[simp] theorem encode_nil : encode [] = [] := rfl

theorem decode_nil : decode [] = [] := by simp [decode]

theorem decode_cons (b : UInt8) (rest : List UInt8) :
    decode (b :: rest) = (decodeChar b rest).1 :: decode (rest.drop (decodeChar b rest).2) := by
  rw [decode]

def encodeString (s : String) : List UInt8 := encode s.toList

def decodeString (bs : List UInt8) : String := String.ofList (decode bs)

end Doctest.Text.Utf8
