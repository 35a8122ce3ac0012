/-! Base64 with padding: three bytes become four letters. Decoding is only meant for texts that
encoding gives; of any other it takes what it can.
-/

namespace Program.Base64

def alphabet : List Char :=
  "ABCDEFGHIJKLMNOPQRSTUVWXYZabcdefghijklmnopqrstuvwxyz0123456789+/".toList

/-- The letter for six bits. -/
def letter (bits : Nat) : Char := alphabet.getD bits 'A'

/-- The six bits of a letter. -/
def bits (letter : Char) : Nat := alphabet.idxOf letter

def encodeChars : List UInt8 → List Char
  | [] => []
  | [a] => [letter (a.toNat / 4), letter (a.toNat % 4 * 16), '=', '=']
  | [a, b] =>
      [letter (a.toNat / 4), letter (a.toNat % 4 * 16 + b.toNat / 16),
        letter (b.toNat % 16 * 4), '=']
  | a :: b :: c :: rest =>
      letter (a.toNat / 4) :: letter (a.toNat % 4 * 16 + b.toNat / 16)
        :: letter (b.toNat % 16 * 4 + c.toNat / 64) :: letter (c.toNat % 64) :: encodeChars rest

def decodeChars : List Char → List UInt8
  | w :: x :: y :: z :: rest =>
      let first := UInt8.ofNat (bits w * 4 + bits x / 16)
      let second := UInt8.ofNat (bits x % 16 * 16 + bits y / 4)
      let third := UInt8.ofNat (bits y % 4 * 64 + bits z)
      if y = '=' then [first]
      else if z = '=' then [first, second]
      else first :: second :: third :: decodeChars rest
  | _ => []

def encode (bytes : List UInt8) : String := String.ofList (encodeChars bytes)

def decode (text : String) : List UInt8 := decodeChars text.toList

/-- The alphabet has every letter once, and the padding is none of them. -/
theorem bits_letter {n : Nat} (small : n < 64) : bits (letter n) = n ∧ letter n ≠ '=' := by
  have all : ∀ n : Fin 64, bits (letter n) = n ∧ letter n ≠ '=' := by decide +kernel
  exact all ⟨n, small⟩

/-- A byte is what its value says. -/
theorem ofNat_eq {n : Nat} {byte : UInt8} (same : n = byte.toNat) : UInt8.ofNat n = byte := by
  rw [same, UInt8.ofNat_toNat]

/-- By induction on the groups of three bytes. -/
theorem decodeChars_encodeChars (bytes : List UInt8) : decodeChars (encodeChars bytes) = bytes := by
  induction bytes using encodeChars.induct with
  | case1 => rfl
  | case2 a =>
      have smallA := a.toNat_lt
      have w := bits_letter (n := a.toNat / 4) (by omega)
      have x := bits_letter (n := a.toNat % 4 * 16) (by omega)
      have first : UInt8.ofNat (a.toNat / 4 * 4 + a.toNat % 4 * 16 / 16) = a :=
        ofNat_eq (by omega)
      simp only [encodeChars, decodeChars, if_true, w.1, x.1, first]
  | case3 a b =>
      have smallA := a.toNat_lt
      have smallB := b.toNat_lt
      have w := bits_letter (n := a.toNat / 4) (by omega)
      have x := bits_letter (n := a.toNat % 4 * 16 + b.toNat / 16) (by omega)
      have y := bits_letter (n := b.toNat % 16 * 4) (by omega)
      have first
          : UInt8.ofNat (a.toNat / 4 * 4 + (a.toNat % 4 * 16 + b.toNat / 16) / 16) = a :=
        ofNat_eq (by omega)
      have second
          : UInt8.ofNat ((a.toNat % 4 * 16 + b.toNat / 16) % 16 * 16 + b.toNat % 16 * 4 / 4) = b :=
        ofNat_eq (by omega)
      simp only [encodeChars, decodeChars, if_true, if_neg y.2, w.1, x.1, y.1, first, second]
  | case4 a b c rest ih =>
      have smallA := a.toNat_lt
      have smallB := b.toNat_lt
      have smallC := c.toNat_lt
      have w := bits_letter (n := a.toNat / 4) (by omega)
      have x := bits_letter (n := a.toNat % 4 * 16 + b.toNat / 16) (by omega)
      have y := bits_letter (n := b.toNat % 16 * 4 + c.toNat / 64) (by omega)
      have z := bits_letter (n := c.toNat % 64) (by omega)
      have first
          : UInt8.ofNat (a.toNat / 4 * 4 + (a.toNat % 4 * 16 + b.toNat / 16) / 16) = a :=
        ofNat_eq (by omega)
      have second
          : UInt8.ofNat ((a.toNat % 4 * 16 + b.toNat / 16) % 16 * 16
            + (b.toNat % 16 * 4 + c.toNat / 64) / 4) = b :=
        ofNat_eq (by omega)
      have third
          : UInt8.ofNat ((b.toNat % 16 * 4 + c.toNat / 64) % 4 * 64 + c.toNat % 64) = c :=
        ofNat_eq (by omega)
      simp only [encodeChars, decodeChars, if_neg y.2, if_neg z.2, w.1, x.1, y.1, z.1, first,
        second, third, ih]

theorem decode_encode (bytes : List UInt8) : decode (encode bytes) = bytes := by
  rw [decode, encode, String.toList_ofList, decodeChars_encodeChars]

end Program.Base64
