import JobShell.Program.Ends
import JobShell.Program.Floating

namespace JobShell.Program

namespace Ends

def last (x : Extent) (fd : Int) : Sys Part := do
  match ← Sys.ask (.inspectOpen fd) with
  | .error e => pure (.empty, some ("cannot fstat", e))
  | .ok _ => do
    let (data, fault) ← Sys.readAvailable fd
    let shown :=
      if x.inBytes then
        data.extract (if x.fromEnd then data.size - x.count else x.count - 1) data.size
      else
        let ls := x.split data
        concat (ls.drop (if x.fromEnd then ls.length - x.count else x.count - 1))
    pure (Part.ofRead (if fault.isSome && x.fromEnd then .empty else shown, fault))

def tailSwitches : List Switch :=
  [{ key := "bytes", letters := "c", long := "bytes", valued := .always },
    { key := "follow", letters := "f" },
    { key := "follow", long := "follow", valued := .sometimes },
    { key := "lines", letters := "n", long := "lines", valued := .always },
    { key := "unchanged", long := "max-unchanged-stats", valued := .always },
    { key := "still", long := "-disable-inotify" },
    { key := "pid", long := "pid", valued := .always },
    { key := "presume", long := "-presume-input-pipe" },
    { key := "quiet", letters := "q", long := "quiet" },
    { key := "retry", long := "retry" },
    { key := "quiet", long := "silent" },
    { key := "seconds", letters := "s", long := "sleep-interval", valued := .always },
    { key := "verbose", letters := "v", long := "verbose" },
    { key := "zero", letters := "z", long := "zero-terminated" },
    { key := "name", letters := "F" }]
    ++ digitSwitches

def followings : List String := ["descriptor", "name"]

def isDuration (text : String) : Bool :=
  match Precision.double.read text.toList with
  | some (.finite negative m _, _, []) => !negative || m = 0
  | some (.infinite negative, _, []) => !negative
  | _ => false

/-- The effect of one flag. A count from the start stays one, whatever follows. -/
def tailFlag (x : Extent) : String × Option String → Except Misuse Extent
  | ("quiet", _) => .ok { x with headers := .never }
  | ("verbose", _) => .ok { x with headers := .always }
  | ("zero", _) => .ok { x with ending := 0 }
  | ("bytes", value) => counted true (value.getD "")
  | ("lines", value) => counted false (value.getD "")
  | ("follow", some value) =>
    if (chosen? followings value).isSome then .ok x
    else .error (notChosen followings "--follow" value, true)
  | ("unchanged", some value) => do
    let _ ← number "invalid maximum number of unchanged stats between opens" value
    pure x
  | ("pid", some value) => do
    let _ ← number "invalid PID" value
    pure x
  | ("seconds", some value) =>
    if isDuration value then .ok x
    else .error ("invalid number of seconds: " ++ quote value, false)
  | (key, _) =>
    if key.toList.all Decimal.isDigit then
      .error ("option used in invalid context -- " ++ key, false)
    else .ok x
where
  counted (inBytes : Bool) (text : String) : Except Misuse Extent := do
    let shown := if text.startsWith "-" then String.ofList (text.toList.drop 1) else text
    let count ← plainly (countOf inBytes shown)
    pure { x with count, inBytes, fromEnd := x.fromEnd && !text.startsWith "+" }
  number (what text : String) : Except Misuse Nat :=
    plainly ((Amount.read "" text).mapError (Amount.refusal what text))

def mayLead : List String → Bool
  | [] => true
  | [word] => !(word.startsWith "-" && 1 < word.length)
  | [word, _] => word = "--"
  | _ => false

/-- A count in front of all words: digits behind a sign, with a letter for the unit and one to go on. It
gives the extent and whether to go on. -/
def tailFront? (word : String) (rest : List String) : Except Misuse (Option (Extent × Bool)) := do
  let numbered (fromEnd : Bool) (cs : List Char) : Except Misuse (Option (Extent × Bool)) := do
    let digits := cs.takeWhile Decimal.isDigit
    let (factor, inBytes, after) : Nat × Bool × List Char := match cs.drop digits.length with
      | 'b' :: after => (512, true, after)
      | 'c' :: after => (1, true, after)
      | 'l' :: after => (1, false, after)
      | after => (1, false, after)
    let (goesOn, after) : Bool × List Char := match after with
      | 'f' :: after => (true, after)
      | after => (false, after)
    if !after.isEmpty then pure none
    else if digits.isEmpty then pure (some ({ count := 10 * factor, inBytes, fromEnd }, goesOn))
    else if Amount.bound ≤ Decimal.value digits * (if factor = 512 then 512 else 1) then
      .error ("invalid number: " ++ quote word ++ ": Numerical result out of range", false)
    else pure (some ({ count := Decimal.value digits * factor, inBytes, fromEnd }, goesOn))
  if !mayLead rest then pure none
  else
    match word.toList with
    | '+' :: cs => numbered false cs
    | ['-'] | ['-', 'c'] => pure none
    | '-' :: cs => numbered true cs
    | _ => pure none

def follow (name : String) (headers : Bool) (files : List (Int × String)) :
    Nat → Option String → Held Unit
  | 0, _ => pure ()
  | n + 1, shown => do
    Held.release
    Held.ask (.sleep 100)
    let shown ← files.foldlM (fun (shown : Option String) f ↦ do
      let (data, _) : ByteArray × Option Errno ← liftM (Sys.readAvailable f.1)
      if data.isEmpty then pure shown
      else do
        if headers && shown ≠ some f.2 then Held.say ("\n==> " ++ f.2 ++ " <==\n")
        Held.put data
        pure (some f.2)) shown
    if (← get).broken then pure () else follow name headers files n shown

end Ends

open Ends

def tail (words : List String) : Sys Int := do
  let name := words.headD "tail"
  let front : Except Misuse (Option (Extent × Bool)) := match words.tail with
    | word :: rest => tailFront? word rest
    | [] => .ok none
  match front with
  | .error m => refuse name m
  | .ok front =>
    let ((x, goesOn), rest) : (Extent × Bool) × List String := match front with
      | some front => (front, words.tail.tail)
      | none => (({ fromEnd := true }, false), words.tail)
    let f := Switch.read tailSwitches rest
    match f.flags.foldlM tailFlag x with
    | .error m => refuse name m
    | .ok x =>
      f.run name 1 do
        let goesOn := goesOn || f.has "follow" || f.has "name"
        if f.has "retry" && !goesOn then
          Held.blame (name ++ ": warning: --retry ignored; --retry is useful only when following")
        if f.has "pid" && !goesOn then
          Held.blame (name ++ ": warning: PID ignored; --pid=PID is useful only when following")
        let paths := if f.words.isEmpty then ["-"] else f.words
        if x.count = 0 && x.fromEnd && !goesOn then pure 0
        else do
          let headers := x.wantsHeaders paths
          let strict := x.inBytes || (!x.fromEnd && x.count ≤ 1)
          let (files, ok) ← showParts name headers goesOn strict (last x) true true [] paths
          if goesOn && !files.isEmpty then
            follow name headers files Sys.patience (files.getLast?.map (·.2))
          Held.closeStandard name paths (if ok then 0 else 1)

end JobShell.Program
