
set_option autoImplicit false

namespace BuildGate.Word

def count (bits : Nat) : Nat := Nat.pow 2 bits

def size : Nat := 18446744073709551616

def holds (bits : Nat) (value : Int) : Bool :=
  -(count (bits - 1) : Int) ≤ value && value < (count bits : Int)

def add (a b : Nat) : Nat := (a + b) % size

theorem add_eq_of_lt {a b : Nat} (bounded : a + b < size) : add a b = a + b :=
  Nat.mod_eq_of_lt bounded

def sum (counts : List Nat) : Nat := counts.foldr add 0

@[simp] theorem sum_nil : sum [] = 0 := rfl

@[simp] theorem sum_cons (count : Nat) (counts : List Nat) :
    sum (count :: counts) = add count (sum counts) := rfl

end BuildGate.Word
