import JobShell.Program.Ends

namespace JobShell.Program

namespace Ends

def takeLines (x : Extent) (fd : Int) : Nat → Nat → ByteArray → Sys (ByteArray × Nat × Option Errno)
  | 0, _, _ => Sys.hang
  | n + 1, wanted, acc => do
    if wanted = 0 then pure (acc, 0, none)
    else
      match ← Sys.read fd 8192 with
      | .error e => pure (acc, 0, some e)
      | .ok piece =>
        let whole := (x.split piece).filter (isWhole x.ending)
        if piece.isEmpty then pure (acc, 0, none)
        else if whole.length < wanted then takeLines x fd n (wanted - whole.length) (acc ++ piece)
        else
          let kept := concat (whole.take wanted)
          pure (acc ++ kept, piece.size - kept.size, none)

def takeBytes (fd : Int) : Nat → Nat → ByteArray → Sys (ByteArray × Nat × Option Errno)
  | 0, _, _ => Sys.hang
  | n + 1, wanted, acc => do
    if wanted = 0 then pure (acc, 0, none)
    else
      match ← Sys.read fd (min wanted 8192) with
      | .error e => pure (acc, 0, some e)
      | .ok piece =>
        if piece.isEmpty then pure (acc, 0, none)
        else takeBytes fd n (wanted - piece.size) (acc ++ piece)

def Extent.without (x : Extent) (data : ByteArray) : ByteArray :=
  if x.inBytes then data.extract 0 (data.size - x.count)
  else
    let ls := x.split data
    concat (ls.take (ls.length - x.count))

def first (x : Extent) (fd : Int) : Sys Part := do
  if x.fromEnd then
    let (data, fault) ← Sys.readAvailable fd
    pure (Part.ofRead (x.without data, fault))
  else
    let (data, extra, fault) ← if x.inBytes then takeBytes fd Sys.patience x.count .empty
      else takeLines x fd Sys.patience x.count .empty
    if extra > 0 then
      let _ ← Sys.ask (.seek fd (.back extra))
    pure (Part.ofRead (data, fault))

def headSwitches : List Switch :=
  [{ key := "bytes", letters := "c", long := "bytes", valued := .always },
    { key := "lines", letters := "n", long := "lines", valued := .always },
    { key := "presume", long := "-presume-input-pipe" },
    { key := "quiet", letters := "q", long := "quiet" },
    { key := "quiet", long := "silent" },
    { key := "verbose", letters := "v", long := "verbose" },
    { key := "zero", letters := "z", long := "zero-terminated" }]
    ++ digitSwitches

def headFlag (x : Extent) : String × Option String → Except Misuse Extent
  | ("quiet", _) => .ok { x with headers := .never }
  | ("verbose", _) => .ok { x with headers := .always }
  | ("zero", _) => .ok { x with ending := 0 }
  | ("bytes", value) => counted true (value.getD "")
  | ("lines", value) => counted false (value.getD "")
  | ("presume", _) | ("help", _) | ("version", _) => .ok x
  | (digit, _) => .error ("invalid trailing option -- " ++ digit, true)
where
  counted (inBytes : Bool) (text : String) : Except Misuse Extent := do
    let turned := text.startsWith "-"
    let count ← plainly (countOf inBytes (if turned then String.ofList (text.toList.drop 1) else text))
    pure { x with count, inBytes, fromEnd := turned }

def headLetter (state : Extent × List Char) (c : Char) : Except Misuse (Extent × List Char) :=
  let (x, unit) := state
  match c with
  | 'c' => .ok ({ x with inBytes := true }, [])
  | 'b' | 'k' | 'm' => .ok ({ x with inBytes := true }, [c])
  | 'l' => .ok ({ x with inBytes := false }, unit)
  | 'q' => .ok ({ x with headers := .never }, unit)
  | 'v' => .ok ({ x with headers := .always }, unit)
  | 'z' => .ok ({ x with ending := 0 }, unit)
  | c => .error ("invalid trailing option -- " ++ String.singleton c, true)

def headFront (words : List String) : Except Misuse (Extent × List String) :=
  let x : Extent := { fromEnd := false }
  match words with
  | word :: rest =>
    match word.toList with
    | '-' :: d :: cs =>
      if Decimal.isDigit d then do
        let digits := (d :: cs).takeWhile Decimal.isDigit
        let (x, unit) ← ((d :: cs).drop digits.length).foldlM headLetter (x, [])
        let count ← plainly (countOf x.inBytes (String.ofList (digits ++ unit)))
        pure ({ x with count }, rest)
      else .ok (x, words)
    | _ => .ok (x, words)
  | [] => .ok (x, [])

end Ends

open Ends

def head (words : List String) : Sys Int := do
  let name := words.headD "head"
  match headFront words.tail with
  | .error m => refuse name m
  | .ok (x, rest) =>
    let f := Switch.read headSwitches rest
    match f.flags.foldlM headFlag x with
    | .error m => refuse name m
    | .ok x =>
      f.run name 1 do
        let paths := if f.words.isEmpty then ["-"] else f.words
        let (_, ok) ← showParts name (x.wantsHeaders paths) false false (first x) true true [] paths
        Held.closeStandard name paths (if ok then 0 else 1)

end JobShell.Program
