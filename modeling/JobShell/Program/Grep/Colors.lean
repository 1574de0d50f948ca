import JobShell.Environment
import JobShell.Program.Flags

namespace JobShell.Program.Grep

structure Colors where
  selectedMatch : String := "01;31"
  contextMatch : String := "01;31"
  selectedLine : String := ""
  contextLine : String := ""
  file : String := "35"
  line : String := "32"
  byte : String := "32"
  separator : String := "36"
  turned : Bool := false
  erases : Bool := true

namespace Colors

def start (c : Colors) (color : String) : ByteArray :=
  if color.isEmpty then .empty
  else Text.toBytes ("\x1b[" ++ color ++ "m" ++ if c.erases then "\x1b[K" else "")

def paint (c : Colors) (color : String) (text : ByteArray) : ByteArray :=
  if color.isEmpty then text
  else c.start color ++ text ++ Text.toBytes ("\x1b[m" ++ if c.erases then "\x1b[K" else "")

def isColor (text : String) : Bool := text.toList.all fun c ↦ c = ';' || Decimal.isDigit c

/-- The effect of one assignment. Names that mean nothing are passed over. -/
def assign (c : Colors) (name : String) (value : Option String) : Colors :=
  match name, value with
  | "mt", some v => { c with selectedMatch := v, contextMatch := v }
  | "mt", none => { c with contextMatch := c.selectedMatch }
  | "ms", some v => { c with selectedMatch := v }
  | "mc", some v => { c with contextMatch := v }
  | "fn", some v => { c with file := v }
  | "ln", some v => { c with line := v }
  | "bn", some v => { c with byte := v }
  | "se", some v => { c with separator := v }
  | "sl", some v => { c with selectedLine := v }
  | "cx", some v => { c with contextLine := v }
  | "rv", _ => { c with turned := true }
  | "ne", _ => { c with erases := false }
  | _, _ => c

def assignAll (c : Colors) : List String → Colors
  | [] => c
  | item :: rest =>
    let cs := item.toList
    let name := String.ofList (cs.takeWhile (· ≠ '='))
    match cs.dropWhile (· ≠ '=') with
    | [] => assignAll (c.assign name none) rest
    | _ :: value =>
      let value := String.ofList value
      if name.isEmpty || !isColor value then c else assignAll (c.assign name (some value)) rest

def ofEnvironment (e : Environment) : Colors × Option String :=
  let old := (e.get? "GREP_COLOR").filter fun v ↦ !v.isEmpty && isColor v
  let c : Colors := match old with
    | some v => { selectedMatch := v, contextMatch := v }
    | none => {}
  match e.get? "GREP_COLORS" with
  | some text => (if text.isEmpty then c else c.assignAll (text.splitOn ":"), old)
  | none => (c, old)

end Colors

end JobShell.Program.Grep
