import JobShell.Program.Numeral
import JobShell.Program.Sh.Tree

namespace JobShell.Program.Sh.Arithmetic

/-- The operators between two operands. -/
inductive Operator
  | multiply
  | divide
  | remainder
  | add
  | subtract
  | shiftLeft
  | shiftRight
  | less
  | lessOrEqual
  | greater
  | greaterOrEqual
  | equal
  | notEqual
  | bitAnd
  | bitXor
  | bitOr
  deriving DecidableEq

namespace Operator

def rank : Operator → Nat
  | multiply | divide | remainder => 0
  | add | subtract => 1
  | shiftLeft | shiftRight => 2
  | less | lessOrEqual | greater | greaterOrEqual => 3
  | equal | notEqual => 4
  | bitAnd => 5
  | bitXor => 6
  | bitOr => 7

def wrap (n : Int) : Int := Int.bmod n 18446744073709551616

def truth (b : Bool) : Int := if b then 1 else 0

def bitwise (f : Nat → Nat → Nat) (a b : Int) : Int :=
  let word (n : Int) : Nat := (n % 18446744073709551616).toNat
  wrap (f (word a) (word b))

/-- The value of an operation; there is none of a division by zero. -/
def result? (op : Operator) (a b : Int) : Option Int :=
  match op with
  | multiply => some (wrap (a * b))
  | divide => if b = 0 then none else some (wrap (Int.tdiv a b))
  | remainder => if b = 0 then none else some (wrap (Int.tmod a b))
  | add => some (wrap (a + b))
  | subtract => some (wrap (a - b))
  | shiftLeft => some (wrap (a * Int.pow 2 (b % 64).toNat))
  | shiftRight => some (a / Int.pow 2 (b % 64).toNat)
  | less => some (truth (decide (a < b)))
  | lessOrEqual => some (truth (decide (a ≤ b)))
  | greater => some (truth (decide (a > b)))
  | greaterOrEqual => some (truth (decide (a ≥ b)))
  | equal => some (truth (decide (a = b)))
  | notEqual => some (truth (decide (a ≠ b)))
  | bitAnd => some (bitwise Nat.land a b)
  | bitXor => some (bitwise Nat.xor a b)
  | bitOr => some (bitwise Nat.lor a b)

end Operator

inductive Sign
  | finish
  | senseless
  | number (n : Int)
  | name (s : String)
  | operator (op : Operator)
  | assign (op : Option Operator)
  | both
  | either
  | not
  | complement
  | opening
  | closing
  | question
  | colon
  deriving DecidableEq

def assignable (op : Operator) (cs : List Char) : Sign × List Char :=
  match cs with
  | '=' :: rest => (.assign (some op), rest)
  | _ => (.operator op, cs)

/-- The sign at the front of an expression, and the rest. -/
def readSign : List Char → Sign × List Char
  | [] => (.finish, [])
  | c :: cs =>
    match c, cs with
    | ' ', _ | '\t', _ | '\n', _ => readSign cs
    | '=', '=' :: rest => (.operator .equal, rest)
    | '=', _ => (.assign none, cs)
    | '>', '=' :: rest => (.operator .greaterOrEqual, rest)
    | '>', '>' :: rest => assignable .shiftRight rest
    | '>', _ => (.operator .greater, cs)
    | '<', '=' :: rest => (.operator .lessOrEqual, rest)
    | '<', '<' :: rest => assignable .shiftLeft rest
    | '<', _ => (.operator .less, cs)
    | '|', '|' :: rest => (.either, rest)
    | '|', _ => assignable .bitOr cs
    | '&', '&' :: rest => (.both, rest)
    | '&', _ => assignable .bitAnd cs
    | '!', '=' :: rest => (.operator .notEqual, rest)
    | '!', _ => (.not, cs)
    | '(', _ => (.opening, cs)
    | ')', _ => (.closing, cs)
    | '*', _ => assignable .multiply cs
    | '/', _ => assignable .divide cs
    | '%', _ => assignable .remainder cs
    | '+', _ => assignable .add cs
    | '-', _ => assignable .subtract cs
    | '^', _ => assignable .bitXor cs
    | '~', _ => (.complement, cs)
    | '?', _ => (.question, cs)
    | ':', _ => (.colon, cs)
    | _, _ =>
      if Decimal.isDigit c then
        match readInteger none (c :: cs) with
        | some (n, rest) => (.number (clamp n), rest)
        | none => (.senseless, cs)
      else if isNameStart c then
        (.name (String.ofList ((c :: cs).takeWhile isNameChar)), cs.dropWhile isNameChar)
      else (.senseless, cs)

inductive Problem
  | malformed (text : String)
  | badNumber (text : String)

structure Reading where
  rest : List Char
  behind : Sign := .finish
  assigned : List (String × Int) := []

abbrev Compute := ExceptT Problem (StateM Reading)

def take : Compute Sign := do
  let r ← get
  let (t, rest) := readSign r.rest
  set { r with rest }
  pure t

def refuse {α : Type} (text : String) : Compute α := throw (.malformed text)

def leaveBehind (t : Sign) : Compute Unit := modify fun r ↦ { r with behind := t }

def numberOf (look : String → Option String) (name : String) : Compute Int := do
  match (← get).assigned.find? fun v ↦ v.1 == name with
  | some (_, n) => pure n
  | none =>
    let text := (look name).getD ""
    if text.toList.all isSpace then pure 0
    else
      match wholeInteger? none text with
      | some n => pure n
      | none => throw (.badNumber text)

def operate (op : Operator) (a b : Int) : Compute Int :=
  match op.result? a b with
  | some n => pure n
  | none => refuse "division by zero"

mutual

/-- The value of what has no operator between operands; `t` is its first sign and `next` the one behind
that. With `idle` its value is not asked for. -/
def primary (look : String → Option String) (idle : Bool) : Nat → Sign → Sign → Compute Int
  | 0, _, _ => refuse "expecting primary"
  | n + 1, t, next => do
    match t with
    | .opening => do
      let v ← assignment look idle n next
      if (← get).behind ≠ .closing then refuse "expecting ')'"
      leaveBehind (← take)
      pure v
    | .number v => do
      leaveBehind next
      pure v
    | .name s => do
      leaveBehind next
      if idle then pure 0 else numberOf look s
    | .operator .add => do primary look idle n next (← take)
    | .operator .subtract => return Operator.wrap (-(← primary look idle n next (← take)))
    | .not => return Operator.truth (decide ((← primary look idle n next (← take)) = 0))
    | .complement => return -(← primary look idle n next (← take)) - 1
    | _ => refuse "expecting primary"

def operations (look : String → Option String) (idle : Bool) : Nat → Int → Operator → Nat → Compute Int
  | 0, _, _, _ => refuse "expecting primary"
  | n + 1, a, op, rank => do
    let t ← take
    let b ← primary look idle n t (← take)
    let b ← match (← get).behind with
      | .operator op' => if op'.rank < op.rank then operations look idle n b op' op.rank else pure b
      | _ => pure b
    let a ← if idle then pure b else operate op a b
    match (← get).behind with
    | .operator op' => if op'.rank ≥ rank then pure a else operations look idle n a op' rank
    | _ => pure a

def operation (look : String → Option String) (idle : Bool) : Nat → Sign → Sign → Compute Int
  | 0, _, _ => refuse "expecting primary"
  | n + 1, t, next => do
    let a ← primary look idle n t next
    match (← get).behind with
    | .operator op => operations look idle n a op 8
    | _ => pure a

def conjunction (look : String → Option String) (idle : Bool) : Nat → Sign → Sign → Compute Int
  | 0, _, _ => refuse "expecting primary"
  | n + 1, t, next => do
    let a ← operation look idle n t next
    if (← get).behind ≠ .both then pure a
    else
      let t ← take
      let b ← conjunction look (idle || a = 0) n t (← take)
      pure (Operator.truth (a ≠ 0 && b ≠ 0))

def disjunction (look : String → Option String) (idle : Bool) : Nat → Sign → Sign → Compute Int
  | 0, _, _ => refuse "expecting primary"
  | n + 1, t, next => do
    let a ← conjunction look idle n t next
    if (← get).behind ≠ .either then pure a
    else
      let t ← take
      let b ← disjunction look (idle || a ≠ 0) n t (← take)
      pure (Operator.truth (a ≠ 0 || b ≠ 0))

def choice (look : String → Option String) (idle : Bool) : Nat → Sign → Sign → Compute Int
  | 0, _, _ => refuse "expecting primary"
  | n + 1, t, next => do
    let a ← disjunction look idle n t next
    if (← get).behind ≠ .question then pure a
    else
      let b ← assignment look (idle || a = 0) n (← take)
      if (← get).behind ≠ .colon then refuse "expecting ':'"
      let t ← take
      let c ← choice look (idle || a ≠ 0) n t (← take)
      pure (if a ≠ 0 then b else c)

def assignment (look : String → Option String) (idle : Bool) : Nat → Sign → Compute Int
  | 0, _ => refuse "expecting primary"
  | n + 1, t => do
    let next ← take
    match t, next with
    | .name s, .assign op => do
      let v ← assignment look idle n (← take)
      if idle then pure v
      else
        let v ← match op with
          | some op => do operate op (← numberOf look s) v
          | none => pure v
        modify fun r ↦ { r with assigned := (s, v) :: r.assigned }
        pure v
    | _, _ => choice look idle n t next

end

def evaluate (look : String → Option String) (text : String) :
    Except Problem Int × List (String × Int) :=
  let cs := text.toList
  let work : Compute Int := do
    let v ← assignment look false (8 * cs.length + 16) (← take)
    if (← get).behind ≠ .finish then refuse "expecting EOF"
    pure v
  let (result, r) := (work.run.run { rest := cs })
  (result, r.assigned.reverse)

end JobShell.Program.Sh.Arithmetic
