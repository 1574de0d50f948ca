import JobShell.Program.Grep.Search
import JobShell.Program.Pattern.Ranked
import JobShell.Program.Pattern.Written

namespace JobShell.Program

namespace Grep

def distinctTexts (asked : List Asked) : List Asked :=
  asked.foldl (fun acc a ↦ if acc.any fun b ↦ b.text = a.text then acc else acc ++ [a]) []

def explain (a : Asked) (problem : String) : String :=
  match a.source with
  | some (path, line) => path ++ ":" ++ Decimal.text line ++ ": " ++ problem
  | none => problem

def warn (name : String) (remarks : List Pattern.Remark) : Held Unit := do
  let quiet := ((← Held.ask .environment).get? "POSIXLY_CORRECT").isSome
  remarks.forM fun r ↦
    match r with
    | .repeatsNothing sign => do
      if !quiet then Held.blame (name ++ ": warning: " ++ sign ++ " at start of expression")
    | .refused fault => refuse name fault.message

structure Compiled where
  pattern : Pattern
  lines : Option Pattern := none
  byLength : Bool := true

/-- Reads regular expressions. All that is wrong is told of. Unless one of them is hard, lines
are selected by a pattern for all of them together. -/
def written (name : String) (manner : Pattern.Manner) (w : Wish) (asked : List Asked) :
    Held Compiled := do
  let read := asked.map fun a ↦ (a, Pattern.read manner .parts w.ignoreCase a.text)
  let wrong := read.filterMap fun r ↦ match r.2 with
    | .error fault => some (explain r.1 fault.message)
    | .ok _ => none
  wrong.forM fun problem ↦ Held.blame (name ++ ": " ++ problem)
  if !wrong.isEmpty then Held.leave failure
  let good := read.filterMap fun r ↦ r.2.toOption
  let (front, behind) :=
    if w.wholeLines || w.wholeWords then Pattern.around manner w.wholeLines else ("", "")
  let all := [newline].intercalate (asked.map (·.text))
  let text := (Text.toBytes front).toList ++ all ++ (Text.toBytes behind).toList
  match Pattern.read manner .lines w.ignoreCase text with
  | .error fault => refuse name fault.message
  | .ok whole => do
    warn name whole.remarks
    pure
      { pattern := Pattern.oneOf (good.map (·.pattern))
        lines := if good.any (·.hard) then none else some whole.pattern }

def ranked (name : String) (w : Wish) (asked : List Asked) : Held Compiled :=
  match asked with
  | [a] =>
    match Pattern.Ranked.read w.ignoreCase (w.ending = 0) a.text with
    | .ok pattern => pure { pattern, byLength := false }
    | .error fault => refuse name fault.message
  | _ => refuse name "the -P option only supports a single pattern"

def compile (name : String) (w : Wish) (asked : List Asked) : Held Compiled :=
  match w.matcher with
  | some "perl" => ranked name w asked
  | some "fgrep" =>
    pure { pattern := Pattern.oneOf (asked.map fun a ↦ Pattern.fixed w.ignoreCase a.text) }
  | none | some "grep" => written name .basic w asked
  | _ => written name .extended w asked

structure Tour where
  shownAny : Bool := false
  failed : Bool := false
  found : Bool := false
  named : Option Bool

def Tour.trouble (t : Tour) (p : Plan) (name label problem : String) : Held Tour := do
  Grep.trouble p name label problem
  pure { t with failed := true }

def widthFor (w : Wish) (info : FileInfo) : Nat :=
  if !w.tabs then 0
  else if info.kind ≠ .regular then 20
  else (Decimal.text ((info.size : Int) + if w.numbers then 1 else 0)).length

def drain (fd : Int) : Held Unit := do
  let _ : Except Errno ByteArray ← liftM (Sys.readAll fd)

def settle (o : Outcome) : Held Unit := do
  if o.left = some 0 then
    let _ ← Held.ask (.seek Sys.stdin (.back o.extra))
  else if !o.atEnd then
    match ← Held.ask (.seek Sys.stdin .«end») with
    | .ok _ => pure ()
    | .error _ => drain Sys.stdin

def isOutput (p : Plan) (info : FileInfo) : Held Bool := do
  if p.quiet || info.kind ≠ .regular || p.wish.most.any (· ≤ 1) then pure false
  else
    match ← Held.ask (.inspectOpen Sys.stdout) with
    | .ok out => pure (out.index = info.index)
    | .error _ => pure false

/-- Searches an open file that is no directory to be walked through. -/
def searchData (p : Plan) (name : String) (t : Tour) (fd : Int) (label : String) (info : FileInfo) :
    Held Tour := do
  let w := p.wish
  if ← isOutput p info then
    Grep.trouble p name label "input file is also the output"
    return { t with failed := true }
  let place : Place := { label, named := t.named.getD false, width := widthFor w info }
  let o ← searchPieces p name place fd Sys.patience 0 .empty
    { left := w.most, shownAny := t.shownAny, stopped := false }
  if w.quiet && 0 < o.found then Held.leave 0
  if o.holdsZeros then Held.blame (name ++ ": " ++ label ++ ": binary file matches")
  let front (mark : String) : ByteArray :=
    p.paintText (·.file) label
      ++ if w.zeroNames then ⟨#[0]⟩ else if mark = "\n" then Text.toBytes mark else
        p.paintText (·.separator) mark
  if w.counts then
    emit name p ((if place.named then front ":" else .empty)
      ++ Text.toBytes (Decimal.text o.found ++ "\n"))
  let listed : Bool := match w.listing with
    | .none => false
    | .matching => 0 < o.found
    | .others => o.found = 0
  if listed then emit name p (front "\n")
  if fd = Sys.stdin then settle o
  pure { t with
    shownAny := o.shownAny, failed := t.failed || o.failed, found := t.found || 0 < o.found }

def openFile (path : String) : Sys (Except Errno Int) := do
  match ← Sys.ask (.«open» path { readable := true } 0) with
  | .error e => pure (.error e)
  | .ok fd =>
    if Sys.stderr < fd then pure (.ok fd)
    else
      let r ← Sys.ask (.duplicateAbove fd (Sys.stderr + 1))
      Sys.drop fd
      pure r

/-- Searches a file below a directory, or walks on through a directory. -/
def visit (p : Plan) (name : String) (strip : Bool) : Nat → Tour → String → Held Tour
  | 0, t, _ => pure t
  | n + 1, t, directory => do
    let label (path : String) : String := if strip then String.ofList (path.toList.drop 2) else path
    match ← Held.ask (.listDirectory directory) with
    | .error e => t.trouble p name (label directory) e.libraryText
    | .ok names =>
      names.foldlM (fun t child ↦ do
        let path := if directory.endsWith "/" then directory ++ child else directory ++ "/" ++ child
        match ← Held.ask (.inspect path) with
        | .error e => t.trouble p name (label path) e.libraryText
        | .ok info =>
          if info.kind = .directory then
            if p.wish.skipsDirectory false child then pure t else visit p name strip n t path
          else if p.wish.skipsFile false child then pure t
          else if info.kind ≠ .regular && p.wish.skipsDevices.getD true then pure t
          else
            match ← liftM (openFile path) with
            | .error e => t.trouble p name (label path) e.libraryText
            | .ok fd => do
              let t ← searchData p name t fd (label path) info
              liftM (Sys.drop fd)
              pure t) t

def searchNamed (p : Plan) (name : String) (strip : Bool) (t : Tour) (fd : Int) (path label : String) :
    Held Tour := do
  match ← Held.ask (.inspectOpen fd) with
  | .error e => t.trouble p name label e.libraryText
  | .ok info =>
    let w := p.wish
    let isDirectory := info.kind = .directory
    let isDevice : Bool := match info.kind with
      | .device | .pipe => true
      | _ => false
    let unwanted :=
      if isDirectory then (w.directories = .skip || !strip) && w.skipsDirectory true path
      else w.skipsFile true path
    let passed := fd ≠ Sys.stdin && ((w.skipsDevices = some true && isDevice) || unwanted)
    let t := { t with named := some (t.named.getD isDirectory) }
    if passed then pure t
    else if fd ≠ Sys.stdin && w.directories = .recurse && isDirectory then visit p name strip 4096 t path
    else searchData p name t fd label info

def searchPath (p : Plan) (name : String) (strip : Bool) (t : Tour) (path : String) : Held Tour := do
  if path = "-" then
    searchNamed p name false t Sys.stdin path (p.wish.label.getD "(standard input)")
  else
    match ← liftM (openFile path) with
    | .error e => t.trouble p name path e.libraryText
    | .ok fd => do
      let t ← searchNamed p name strip t fd path path
      liftM (Sys.drop fd)
      pure t

def isSilenced : Held Bool := do
  match ← Held.ask (.inspectOpen Sys.stdout), ← Held.ask (.inspect "/dev/null") with
  | .ok out, .ok null => pure (out.kind = .device && out.index = null.index)
  | _, _ => pure false

/-- The colors for the output, if it is to be colored. -/
def colors (name : String) (w : Wish) : Held (Option Colors) := do
  let environment ← Held.ask .environment
  let wanted ← match w.coloring with
    | .never => pure false
    | .always => pure true
    | .terminal => do
      let able := (environment.get? "TERM").any (· ≠ "dumb")
      pure (able && (← Held.ask (.isTerminal Sys.stdout)))
  if wanted then
    let (c, old) := Colors.ofEnvironment environment
    match old with
    | some v =>
      Held.blame (name ++ ": warning: GREP_COLOR='" ++ v ++ "' is deprecated; use GREP_COLORS='mt=" ++ v
        ++ "'")
    | none => pure ()
    pure (some c)
  else pure none

def split (name : String) (w : Wish) (words : List String) : Held (Wish × List Asked × List String) := do
  match w.asked, words with
  | some [], words =>
    pure ({ w with inverted := !w.inverted, wholeWords := false, wholeLines := false }, [{ text := [] }],
      words)
  | some asked, words => pure (w, distinctTexts asked, words)
  | none, first :: words =>
    let asked := (splitPatterns (Text.toBytes first).toList).map fun text ↦ ({ text } : Asked)
    pure (w, distinctTexts asked, words)
  | none, [] => usage name failure

def search (name : String) (w : Wish) (words : List String) : Held Int := do
  let (w, asked, words) ← split name w words
  let silenced ← isSilenced
  let muted := w.quiet || silenced
  let listing := if muted then .none else w.listing
  let once := muted || listing ≠ .none
  let w := { w with listing, counts := w.counts && !once }
  let nothing := match asked with
    | [a] => a.text.isEmpty && w.inverted && !w.wholeLines && !w.wholeWords
    | _ => false
  if (w.most = some 0 || nothing) && w.listing ≠ .others then Held.leave 1
  let colors ← colors name w
  let compiled ← compile name w asked
  let plan : Plan :=
    { wish := w, pattern := compiled.pattern, lines := compiled.lines
      byLength := compiled.byLength, colors, once
      before := (w.before.or w.around).getD 0
      after := (w.after.or w.around).getD 0
      separated := (w.before.or (w.after.or w.around)).isSome
      quiet := w.counts || once }
  let recursive := w.directories = .recurse
  let strip := words.isEmpty && recursive
  let named := match w.named with
    | some n => some n
    | none => if 1 < words.length then some true else if recursive then none else some false
  let paths := if !words.isEmpty then words else if recursive then ["."] else ["-"]
  let t ← paths.foldlM (searchPath plan name strip) { named }
  pure (if t.failed then failure else if t.found then 0 else 1)

end Grep

def grep (words : List String) : Sys Int := do
  let name := words.headD "grep"
  let f := Switch.read Grep.switches words.tail
  let quiet := f.has "quiet"
  Held.run name (if quiet then 0 else Grep.failure) do
    let w ← f.flags.foldlM (Grep.flag name) {}
    match f.problem with
    | some problem => do
      Held.blame (name ++ ": " ++ problem)
      Grep.usage name Grep.failure
    | none => if w.help then pure 0 else Grep.search name w f.words

end JobShell.Program
