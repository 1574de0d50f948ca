namespace JobShell.Decimal

def digit (n : Nat) : Char := Char.ofNat (48 + n)

def isDigit (c : Char) : Bool := decide ('0' ≤ c) && decide (c ≤ '9')

def digits (n : Nat) : List Char :=
  if n < 10 then [digit n] else digits (n / 10) ++ [digit (n % 10)]

def value (ds : List Char) : Nat :=
  ds.foldl (fun v c ↦ 10 * v + (c.toNat - 48)) 0

def text (n : Int) : String :=
  if n < 0 then "-" ++ String.ofList (digits n.natAbs) else String.ofList (digits n.natAbs)

theorem toNat_digit {n : Nat} (h : n < 10) : (digit n).toNat = 48 + n := by
  have : n = 0 ∨ n = 1 ∨ n = 2 ∨ n = 3 ∨ n = 4 ∨ n = 5 ∨ n = 6 ∨ n = 7 ∨ n = 8 ∨ n = 9 := by omega
  rcases this with h | h | h | h | h | h | h | h | h | h <;> subst h <;> rfl

theorem isDigit_digit {n : Nat} (h : n < 10) : isDigit (digit n) = true := by
  have : n = 0 ∨ n = 1 ∨ n = 2 ∨ n = 3 ∨ n = 4 ∨ n = 5 ∨ n = 6 ∨ n = 7 ∨ n = 8 ∨ n = 9 := by omega
  rcases this with h | h | h | h | h | h | h | h | h | h <;> subst h <;> rfl

theorem value_append_singleton (ds : List Char) (c : Char) :
    value (ds ++ [c]) = 10 * value ds + (c.toNat - 48) := by
  simp [value, List.foldl_append]

theorem value_digits (n : Nat) : value (digits n) = n := by
  induction n using Nat.strongRecOn with
  | _ n ih =>
    rw [digits]
    split
    · rename_i h
      simp [value, toNat_digit h]
    · rename_i h
      rw [value_append_singleton, ih (n / 10) (by omega), toNat_digit (by omega)]
      omega

theorem all_isDigit_digits (n : Nat) : (digits n).all isDigit = true := by
  induction n using Nat.strongRecOn with
  | _ n ih =>
    rw [digits]
    split
    · rename_i h
      simp [isDigit_digit h]
    · rename_i h
      simp [List.all_append, ih (n / 10) (by omega), isDigit_digit (Nat.mod_lt n (by omega : 10 > 0))]

theorem digits_ne_nil (n : Nat) : digits n ≠ [] := by
  rw [digits]
  split <;> simp

def natural? (ds : List Char) : Option Nat :=
  if ds.isEmpty || !ds.all isDigit then none else some (value ds)

/-- An integer between `low` and `high`, with an optional sign in front; a minus sign is refused
where no negative number is allowed. -/
def bounded? (low high : Int) (s : String) : Option Int :=
  let magnitude : Option Int :=
    match s.toList with
    | '+' :: ds => (natural? ds).map Int.ofNat
    | '-' :: ds => if low < 0 then (natural? ds).map fun n ↦ -(n : Int) else none
    | ds => (natural? ds).map Int.ofNat
  magnitude.filter fun n ↦ decide (low ≤ n) && decide (n ≤ high)

def int32? (s : String) : Option Int := bounded? (-2147483648) 2147483647 s

def nat32? (s : String) : Option Nat := (bounded? 0 4294967295 s).map Int.toNat

end JobShell.Decimal
