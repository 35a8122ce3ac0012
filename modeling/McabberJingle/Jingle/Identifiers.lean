/-! jingle.c, ibb.c and s5b.c: random identifiers of sessions, streams and candidates. -/

namespace McabberJingle

/-- What successive calls of `g_random_int_range` give. -/
structure RandomSource where
  intRange : (first stop : Nat) → (call : Nat) → Nat
  within : ∀ first stop call, first < stop →
    first ≤ intRange first stop call ∧ intRange first stop call < stop

/-- The terminator of a C string. -/
def NUL : Char := Char.ofNat 0

/-- The array `car`, with its terminator. -/
def car : List Char :=
  "abcdefghijklmnopqrstuvwxyzABCDEFGHIJKLMNOPQRSTUVWXYZ0123456789".toList ++ [NUL]

variable (random : RandomSource)

/-- The loop `str[i] = car[g_random_int_range (0, stop)]` from `i` on for `n` rounds, none when it
leaves one of the arrays.
-/
def fillRandom (stop : Nat) : (n i : Nat) → (str : List Char) → Option (List Char)
  | 0, _, str => some str
  | n + 1, i, str => do
      let c ← car[random.intRange 0 stop i]?
      if i < str.length then
        fillRandom stop n (i + 1) (str.set i c)
      else
        none

/-- A buffer of `size` zeros that gets `len` random characters and a terminator. -/
def randomIdentifier (size stop len : Nat) : Option (List Char) := do
  let str ← fillRandom random stop len 0 (List.replicate size NUL)
  if len < str.length then
    some (str.set len NUL)
  else
    none

/-- `jingle_generate_sid`. -/
def jingleGenerateSid : Option (List Char) := randomIdentifier random 11 (car.length - 1) 10

/-- `gen_ibb_sid`. The range ends behind the terminator. -/
def genIbbSid : Option (List Char) := randomIdentifier random 7 car.length 6

namespace S5b

/-- `random_str`: a buffer of 8 whatever `len` is. -/
def randomStr (len : Nat) : Option (List Char) := randomIdentifier random 8 (car.length - 1) len

def genRandomSid : Option (List Char) := randomStr random 7

def genRandomCid : Option (List Char) := randomStr random 7

end S5b

-----------------------------------------------------------------------------------------
-- The table
-----------------------------------------------------------------------------------------

theorem car_length : car.length = 63 := by decide +kernel

/-- Letters and digits, then the terminator. -/
theorem car_cases {n : Nat} (inside : n < 63)
    : (n < 62 ∧ (car.getD n NUL).isAlphanum = true) ∨ (n = 62 ∧ car.getD n NUL = NUL) := by
  have all : ∀ n : Fin 63, (n.val < 62 ∧ (car.getD n NUL).isAlphanum = true)
      ∨ (n.val = 62 ∧ car.getD n NUL = NUL) := by decide +kernel
  exact all ⟨n, inside⟩

-----------------------------------------------------------------------------------------
-- What is drawn
-----------------------------------------------------------------------------------------

variable {random : RandomSource} {stop : Nat}

/-- The character that one call draws. -/
def RandomSource.drawn (random : RandomSource) (stop call : Nat) : Char :=
  car.getD (random.intRange 0 stop call) NUL

theorem fillRandom_next (positive : 0 < stop) (inside : stop ≤ car.length) (i : Nat)
    : car[random.intRange 0 stop i]? = some (random.drawn stop i) := by
  have below := (random.within 0 stop i positive).2
  have there : random.intRange 0 stop i < car.length := Nat.lt_of_lt_of_le below inside
  rw [RandomSource.drawn, List.getD_eq_getElem?_getD, List.getElem?_eq_getElem there]
  rfl

/-- By induction on the rounds that are left: the characters are written one after the other. -/
theorem fillRandom_eq (positive : 0 < stop) (inside : stop ≤ car.length) (n : Nat)
    (front : List Char) (left : Nat)
    : fillRandom random stop n front.length (front ++ List.replicate (n + left) NUL)
      = some (front ++ (List.range' front.length n).map (random.drawn stop)
          ++ List.replicate left NUL) := by
  induction n generalizing front with
  | zero => simp [fillRandom]
  | succ n ih =>
      have room : front.length < (front ++ List.replicate (n + 1 + left) NUL).length := by
        rw [List.length_append, List.length_replicate]
        omega
      have written : (front ++ List.replicate (n + 1 + left) NUL).set front.length
          (random.drawn stop front.length)
          = (front ++ [random.drawn stop front.length]) ++ List.replicate (n + left) NUL := by
        have more : n + 1 + left = (n + left) + 1 := by omega
        rw [more, List.replicate_succ]
        simp
      have next := ih (front ++ [random.drawn stop front.length])
      rw [List.length_append, List.length_singleton] at next
      rw [fillRandom, fillRandom_next positive inside]
      simp only [Option.bind_eq_bind, Option.bind_some, if_pos room, written, next]
      simp [List.range'_succ]

/-- An identifier that leaves room for its terminator is drawn and terminated. -/
theorem randomIdentifier_eq {size len : Nat} (positive : 0 < stop) (inside : stop ≤ car.length)
    (room : len < size)
    : randomIdentifier random size stop len
      = some ((List.range' 0 len).map (random.drawn stop)
          ++ List.replicate (size - len) NUL) := by
  have sizes : size = len + (size - len) := by omega
  have filled : fillRandom random stop len ([] : List Char).length
      ([] ++ List.replicate (len + (size - len)) NUL) = _ :=
    fillRandom_eq positive inside len [] (size - len)
  rw [List.nil_append, ← sizes] at filled
  have zeros : List.replicate (size - len) NUL = NUL :: List.replicate (size - len - 1) NUL := by
    rw [← List.replicate_succ]
    congr 1
    omega
  have drawn : ((List.range' 0 len).map (random.drawn stop)).length = len := by simp
  simp only [randomIdentifier, List.length_nil] at filled ⊢
  rw [filled]
  have inBuffer : len < ([] ++ (List.range' 0 len).map (random.drawn stop)
      ++ List.replicate (size - len) NUL).length := by
    rw [List.nil_append, List.length_append, drawn, List.length_replicate]
    omega
  simp only [Option.bind_eq_bind, Option.bind_some, if_pos inBuffer]
  congr 1
  rw [List.nil_append, List.set_append_right _ _ (Nat.le_of_eq drawn), drawn, Nat.sub_self, zeros]
  rfl

end McabberJingle
