namespace JobShell.Text

def decode? (bytes : ByteArray) : Option String := String.fromUTF8? bytes

/-- The bytes that may follow a leading byte, position by position, as inclusive ranges; none for a
byte that leads no character. -/
def continuations (lead : UInt8) : Option (List (UInt8 × UInt8)) :=
  if lead < 0x80 then some []
  else if lead < 0xc2 then none
  else if lead < 0xe0 then some [(0x80, 0xbf)]
  else if lead = 0xe0 then some [(0xa0, 0xbf), (0x80, 0xbf)]
  else if lead = 0xed then some [(0x80, 0x9f), (0x80, 0xbf)]
  else if lead < 0xf0 then some [(0x80, 0xbf), (0x80, 0xbf)]
  else if lead = 0xf0 then some [(0x90, 0xbf), (0x80, 0xbf), (0x80, 0xbf)]
  else if lead < 0xf4 then some [(0x80, 0xbf), (0x80, 0xbf), (0x80, 0xbf)]
  else if lead = 0xf4 then some [(0x80, 0x8f), (0x80, 0xbf), (0x80, 0xbf)]
  else none

def fitting : List (UInt8 × UInt8) → List UInt8 → Nat
  | (low, high) :: ranges, b :: bytes =>
    if low ≤ b && b ≤ high then fitting ranges bytes + 1 else 0
  | _, _ => 0

def leadBits (width : Nat) (lead : UInt8) : Nat :=
  match width with
  | 1 => lead.toNat
  | 2 => lead.toNat % 32
  | 3 => lead.toNat % 16
  | _ => lead.toNat % 8

def codePoint (lead : UInt8) (rest : List UInt8) : Nat :=
  rest.foldl (fun v b ↦ v * 64 + b.toNat % 64) (leadBits (rest.length + 1) lead)

/-- The characters of `bytes`, broken parts replaced. -/
def lossyChars : List UInt8 → List Char
  | [] => []
  | lead :: bytes =>
    match continuations lead with
    | none => '\ufffd' :: lossyChars bytes
    | some ranges =>
      let n := fitting ranges bytes
      if n = ranges.length then Char.ofNat (codePoint lead (bytes.take n)) :: lossyChars (bytes.drop n)
      else '\ufffd' :: lossyChars (bytes.drop n)
termination_by bytes => bytes.length
decreasing_by all_goals simp only [List.length_cons, List.length_drop]; omega

def lossy (bytes : ByteArray) : String :=
  match decode? bytes with
  | some s => s
  | none => String.ofList (lossyChars bytes.toList)

def ofBytes (b : ByteArray) : String := String.ofList (b.data.toList.map Char.ofUInt8)

def toBytes (s : String) : ByteArray := ⟨(s.toList.map Char.toUInt8).toArray⟩

def isAscii (s : String) : Bool := s.toList.all fun c ↦ decide (c.toNat < 128)

def spell (s : String) : String := if isAscii s then s else ofBytes s.toUTF8

def unspell (s : String) : String := if isAscii s then s else lossy (toBytes s)

theorem toUInt8_ofUInt8 (b : UInt8) : (Char.ofUInt8 b).toUInt8 = b := by
  have hvalue : (Char.ofUInt8 b).toUInt8 = b.toUInt32.toUInt8 := rfl
  rw [hvalue, UInt8.toUInt8_toUInt32]

theorem toBytes_ofBytes (b : ByteArray) : toBytes (ofBytes b) = b := by
  simp [toBytes, ofBytes, Function.comp_def, toUInt8_ofUInt8]

end JobShell.Text
