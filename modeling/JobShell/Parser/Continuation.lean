import JobShell.Parser.Scan

namespace JobShell.Parser

/-- Why a parser waits for a line. -/
inductive Reason
  | joinedLine
  | required (expected : String)
  | document (request : Request) (body : String) (later : List Request)
  deriving DecidableEq, Repr

structure Waiting where
  state : State
  reason : Reason
  deriving DecidableEq, Repr

/-- What a source of lines has to say. -/
inductive Answer
  | line (text : String)
  | endOfInput
  | failed (f : Failure)
  deriving DecidableEq, Repr

inductive Progress
  | finished (result : Except Fault (List Command))
  | waiting (w : Waiting)

inductive Turn
  | reading (s : State)
  | stopped (p : Progress)

namespace State

/-- Puts a body into its here-document, which stands in a finished command or the current one. -/
def fill (s : State) (r : Request) (body : String) : Except Fault State :=
  match s.commands[r.command]? with
  | some c =>
    match Command.fillDocument c.redirections r.redirection body with
    | .ok rs => .ok { s with commands := s.commands.set r.command { c with redirections := rs } }
    | .error d => .error (.defect d)
  | none =>
    match Command.fillDocument s.redirections r.redirection body with
    | .ok rs => .ok { s with redirections := rs }
    | .error d => .error (.defect d)

/-- The commands read, the last of which no longer continues. -/
def commandsAtEnd (s : State) : Except Fault (List Command) := do
  let s ← if s.words.isEmpty then .ok s else s.closeCommand .single
  match s.commands.getLast? with
  | some c =>
    if c.connector = .sequential then
      .ok (s.commands.dropLast ++ [{ c with connector := .single }])
    else .ok s.commands
  | none => .ok s.commands

/-- The line is complete unless a connector dangles. -/
def endLine (s : State) : Progress :=
  if s.words.isEmpty then
    if s.redirections.isEmpty then
      match s.lastConnector? with
      | some .and | some .or | some .piped => .waiting ⟨s, .required "a command"⟩
      | _ => .finished s.commandsAtEnd
    else .finished (unexpected "newline")
  else .finished s.commandsAtEnd

def readDocuments (s : State) : List Request → Progress
  | [] => s.endLine
  | r :: later => .waiting ⟨s, .document r "" later⟩

/-- The buffer has ended and no line is joined to it. -/
def endBuffer (s : State) : Progress :=
  match s.nesting with
  | closer :: _ => .waiting ⟨s, .required ("matching \x60" ++ closer.char.toString ++ "'")⟩
  | [] =>
    match s.quoting with
    | .single => .waiting ⟨s, .required "matching \x60''"⟩
    | .double => .waiting ⟨s, .required "matching \x60\x22'"⟩
    | .none =>
      match s.finishWord with
      | .error f => .finished (.error f)
      | .ok s =>
        if s.pending.isSome then .finished (unexpected "newline")
        else { s with requests := [] }.readDocuments s.requests

def meetEnd (s : State) : Progress :=
  if s.joinsNext then .waiting ⟨{ s with joinsNext := false }, .joinedLine⟩ else s.endBuffer

def advance (homes : HomeDirs) (s : State) : Progress :=
  match s.scan homes with
  | .error f => .finished (.error f)
  | .ok s => s.meetEnd

end State

def Turn.settle (homes : HomeDirs) : Turn → Progress
  | reading s => s.advance homes
  | stopped p => p

namespace Request

def trim (r : Request) (line : String) : String :=
  if r.stripTabs then String.ofList (line.toList.dropWhile (· == '\t')) else line

end Request

namespace Waiting

/-- What a line adds to the buffer of a parser that reads on with it: the line after a newline, or
directly after a trailing backslash. A line of a here-document adds nothing. -/
def extension (w : Waiting) (text : String) : List Char :=
  match w.reason with
  | .joinedLine => text.toList
  | .required _ => '\n' :: text.toList
  | .document .. => []

def endDocument (w : Waiting) (r : Request) (body : String) (later : List Request) : Progress :=
  match w.state.fill r body with
  | .error f => .finished (.error f)
  | .ok s => s.readDocuments later

/-- Takes the answer to a wait. A line continues the buffer, or it belongs to a here-document, which
takes every line up to its delimiter. -/
def take (w : Waiting) : Answer → Turn
  | .failed f => .stopped (.finished (.error (.failure f)))
  | .line text =>
    match w.reason with
    | .joinedLine | .required _ => .reading { w.state with rest := w.extension text }
    | .document r body later =>
      .stopped <|
        if r.trim text = r.delimiter then w.endDocument r body later
        else .waiting ⟨w.state, .document r (body ++ r.trim text ++ "\n") later⟩
  | .endOfInput =>
    .stopped <|
      match w.reason with
      | .joinedLine => w.state.endBuffer
      | .required expected => .finished (.error (.failure (.unexpectedEnd expected)))
      | .document r body later => w.endDocument r body later

def resume (homes : HomeDirs) (w : Waiting) (a : Answer) : Progress := (w.take a).settle homes

def rank (w : Waiting) : Nat :=
  match w.reason with
  | .required _ => 1
  | .document _ _ later => later.length + 2
  | .joinedLine => w.state.requests.length + 4

end Waiting

def Progress.rank : Progress → Nat
  | finished _ => 0
  | waiting w => w.rank

namespace State

theorem length_requests_finishWord {s t : State} (h : s.finishWord = .ok t) :
    t.requests.length ≤ s.requests.length + 1 := by
  simp only [finishWord] at h
  split at h
  · cases h; omega
  · split at h
    · cases h; simp
    · split at h
      · simp only [bind, Except.bind] at h
        split at h <;> cases h
        simp
      · split at h <;> cases h <;> simp

theorem rank_endLine (s : State) : s.endLine.rank ≤ 1 := by
  unfold endLine
  split
  · split
    · split <;> simp [Progress.rank, Waiting.rank]
    · simp [Progress.rank]
  · simp [Progress.rank]

theorem rank_readDocuments (s : State) (rs : List Request) :
    (s.readDocuments rs).rank ≤ rs.length + 1 := by
  cases rs with
  | nil => simpa [readDocuments] using s.rank_endLine
  | cons r later => simp [readDocuments, Progress.rank, Waiting.rank]

theorem rank_endBuffer (s : State) : s.endBuffer.rank ≤ s.requests.length + 2 := by
  unfold endBuffer
  split
  · simp [Progress.rank, Waiting.rank]
  · split
    · simp [Progress.rank, Waiting.rank]
    · simp [Progress.rank, Waiting.rank]
    · split
      · simp [Progress.rank]
      · rename_i t ht
        have := length_requests_finishWord ht
        have := rank_readDocuments { t with requests := [] } t.requests
        split <;> simp only [Progress.rank] at * <;> omega

end State

theorem Waiting.rank_resume_endOfInput (homes : HomeDirs) (w : Waiting) :
    (w.resume homes .endOfInput).rank < w.rank := by
  obtain ⟨s, reason⟩ := w
  cases reason with
  | joinedLine =>
    have := s.rank_endBuffer
    simp only [resume, take, Turn.settle, rank]
    omega
  | required => simp [resume, take, Turn.settle, Progress.rank, rank]
  | document r body later =>
    simp only [resume, take, Turn.settle, endDocument, rank]
    split
    · simp [Progress.rank]
    · rename_i t _
      have := t.rank_readDocuments later
      omega

end JobShell.Parser
