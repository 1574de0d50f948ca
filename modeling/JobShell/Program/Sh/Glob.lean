import JobShell.Program.Sh.Pattern
import JobShell.Sys.Basic

namespace JobShell.Program.Sh

def closesBracket : List Char → Bool
  | '\\' :: c :: cs => c ≠ '/' && (cs.head? = some ']' || closesBracket cs)
  | c :: cs => c ≠ '/' && (cs.head? = some ']' || closesBracket cs)
  | [] => false

structure Split where
  front : List Char
  name : List Char
  behind : Option (List Char)

/-- Splits a path at its first pattern; `front` and `name` have been passed, the last character first. -/
def splitPath? (isOpen : Bool) (front name : List Char) : List Char → Option Split
  | [] => if isOpen then some ⟨front.reverse, name.reverse, none⟩ else none
  | '\\' :: '/' :: cs =>
    if isOpen then some ⟨front.reverse, name.reverse, some cs⟩
    else splitPath? false ('/' :: '\\' :: name ++ front) [] cs
  | '\\' :: c :: cs => splitPath? isOpen front (c :: '\\' :: name) cs
  | '/' :: cs =>
    if isOpen then some ⟨front.reverse, name.reverse, some cs⟩
    else splitPath? false ('/' :: name ++ front) [] cs
  | c :: cs =>
    let opens := c = '*' || c = '?' ||
      (c = '[' && closesBracket (match cs with
        | '!' :: cs => cs
        | cs => cs))
    splitPath? (isOpen || opens) front (c :: name) cs

def unescaped : List Char → List Char
  | '\\' :: c :: cs => c :: unescaped cs
  | c :: cs => c :: unescaped cs
  | [] => []

/-- The paths that fit a pattern, behind a directory that is written up to its last slash. -/
def pathsFor : Nat → String → List Char → Sys (List String)
  | 0, _, _ => pure []
  | n + 1, directory, p => do
    match splitPath? false [] [] p with
    | none =>
      if directory.isEmpty then pure []
      else
        let path := directory ++ String.ofList (unescaped p)
        match ← Sys.ask (.inspect path) with
        | .ok _ => pure [path]
        | .error _ => pure []
    | some ⟨front, name, behind⟩ => do
      let directory := directory ++ String.ofList (unescaped front)
      match ← Sys.ask (.listDirectory (if directory.isEmpty then "." else directory)) with
      | .error _ => pure []
      | .ok names => do
        let hidden := match name with
          | '.' :: _ | '\\' :: '.' :: _ => true
          | _ => false
        let fitting := ("." :: ".." :: names).filter fun s ↦
          (hidden || !s.startsWith ".") && Pattern.fits name s.toList
        match behind with
        | none => pure (fitting.map (directory ++ ·))
        | some rest => do
          let found ← fitting.mapM fun s ↦ pathsFor n (directory ++ s ++ "/") rest
          pure found.flatten

def filesFor (p : List Char) : Sys (List String) := do
  let paths ← pathsFor (p.length + 1) "" p
  pure (paths.mergeSort fun a b ↦ decide (a ≤ b))

end JobShell.Program.Sh
