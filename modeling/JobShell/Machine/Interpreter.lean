import JobShell.Text.Bytes

namespace JobShell.Machine.Interpreter

def reach : Nat := 256

def isBlank (b : UInt8) : Bool := b = 32 || b = 9

def endsName (b : UInt8) : Bool := isBlank b || b = 0

def start (data : ByteArray) : List UInt8 :=
  let bytes := (data.extract 0 reach).toList
  bytes ++ List.replicate (reach - bytes.length) 0

def line? (bytes : List UInt8) : Option (List UInt8) :=
  let line := bytes.takeWhile fun b ↦ b ≠ 10 && b ≠ 0
  if (bytes.drop line.length).head? = some 10 then some line else none

def trimEnd (bytes : List UInt8) : List UInt8 := (bytes.reverse.dropWhile isBlank).reverse

def text (bytes : List UInt8) : String := Text.ofBytes ⟨(bytes.takeWhile (· ≠ 0)).toArray⟩

def words? (line : List UInt8) : Option (String × Option String) :=
  let line := line.dropWhile isBlank
  let name := line.takeWhile (!endsName ·)
  match line.drop name.length with
  | [] => if name.isEmpty then none else some (text name, none)
  | 0 :: _ => some (text name, none)
  | _ :: rest => some (text name, some (text (rest.dropWhile isBlank)))

def ofScript? (data : ByteArray) : Option (String × Option String) :=
  match start data with
  | 35 :: 33 :: rest =>
    match line? rest with
    | some line => words? (trimEnd line)
    | none =>
      let behind := (rest.dropWhile isBlank).dropWhile (!endsName ·)
      if behind.isEmpty then none else words? (trimEnd rest.dropLast)
  | _ => none

end JobShell.Machine.Interpreter
