/-!
# Digits — positional numerals

Numerals in any base from two to sixteen, as lists of characters with the most significant digit first.  `write` makes
the one numeral without leading zeros (letters in lower case), `read?` takes any non-empty run of digits of the base
(letters in either case) to its positional value.
-/
namespace GlyphChain
namespace Digits

/-- The character of a digit below sixteen. -/
def symbol (d : Nat) : Char :=
  if d < 10 then Char.ofNat (48 + d) else Char.ofNat (87 + d)

/-- The digit below sixteen that a character stands for. -/
def ofSymbol? (c : Char) : Option Nat :=
  if '0' ≤ c ∧ c ≤ '9' then some (c.toNat - 48)
  else if 'a' ≤ c ∧ c ≤ 'f' then some (c.toNat - 87)
  else if 'A' ≤ c ∧ c ≤ 'F' then some (c.toNat - 55)
  else none

/-- The digit of the base that a character stands for. -/
def digit? (base : Nat) (c : Char) : Option Nat := (ofSymbol? c).filter (· < base)

/-- The value of a list of digits, most significant first. -/
def value (base : Nat) (ds : List Nat) : Nat := ds.foldl (fun n d => n * base + d) 0

/-- The numeral of `n` without leading zeros; zero is a single digit. -/
def write (base n : Nat) : List Char :=
  if _h : base < 2 ∨ n < base then [symbol n] else write base (n / base) ++ [symbol (n % base)]
termination_by n
decreasing_by exact Nat.div_lt_self (by omega) (by omega)

/-- The numeral of an integer: a minus sign stands before the digits of a negative one. -/
def writeInt (base : Nat) : Int → List Char
  | .ofNat n => write base n
  | .negSucc n => '-' :: write base (n + 1)

/-- The value of a non-empty run of digits, and nothing for any other text. -/
def read? (base : Nat) (cs : List Char) : Option Nat :=
  if cs.isEmpty then none else (cs.mapM (digit? base)).map (value base)

def decimal (n : Nat) : String := String.ofList (write 10 n)

def decimalInt (x : Int) : String := String.ofList (writeInt 10 x)

theorem digit?_symbol (base d : Nat) (hb : base ≤ 16) (hd : d < base) : digit? base (symbol d) = some d := by
  have h : ∀ d < 16, ofSymbol? (symbol d) = some d := by decide
  simp [digit?, h d (by omega), hd]

theorem value_append (base : Nat) (ds : List Nat) (d : Nat) : value base (ds ++ [d]) = value base ds * base + d := by
  simp [value]

theorem write_ne_nil (base n : Nat) : write base n ≠ [] := by
  unfold write; split <;> simp

/-- The characters of a written numeral are digits of the base, and their value is the number. -/
theorem mapM_write (base : Nat) (h2 : 2 ≤ base) (hb : base ≤ 16) (n : Nat) :
    ∃ ds, (write base n).mapM (digit? base) = some ds ∧ value base ds = n := by
  induction n using write.induct base with
  | case1 n h =>
    have hn : n < base := by omega
    refine ⟨[n], ?_, by simp [value]⟩
    rw [write, dif_pos h]
    simp [digit?_symbol base n hb hn]
  | case2 n h ih =>
    obtain ⟨ds, hds, hv⟩ := ih
    refine ⟨ds ++ [n % base], ?_, ?_⟩
    · rw [write, dif_neg h, List.mapM_append, hds]
      simp [digit?_symbol base (n % base) hb (Nat.mod_lt _ (by omega))]
    · rw [value_append, hv, Nat.div_add_mod']

/-- **A written numeral reads back.** -/
theorem read?_write (base : Nat) (h2 : 2 ≤ base) (hb : base ≤ 16) (n : Nat) :
    read? base (write base n) = some n := by
  obtain ⟨ds, hds, hv⟩ := mapM_write base h2 hb n
  simp [read?, write_ne_nil, hds, hv]

end Digits
end GlyphChain
