import Mathlib.Tactic

/-! # Base64 for URLs, without padding

`base64.RawURLEncoding`: six bits a character, no padding.  `decode` is the library's lenient
decoder: it skips line breaks and ignores the unused bits of a last incomplete group, so a
text is canonical only if it is what `encode` makes of its decoding. -/

namespace Base64

/-- The URL alphabet, in the order of its values. -/
def alphabet : List Char :=
  "ABCDEFGHIJKLMNOPQRSTUVWXYZabcdefghijklmnopqrstuvwxyz0123456789-_".toList

/-- The character of a six-bit value. -/
def toChar (n : ℕ) : Char := alphabet.getD n 'A'

/-- The six-bit value of a character. -/
def ofChar (c : Char) : Option ℕ := alphabet.idxOf? c

theorem ofChar_toChar_all : ∀ n ∈ List.range 64, ofChar (toChar n) = some n := by
  decide +kernel

theorem ofChar_toChar {n : ℕ} (h : n < 64) : ofChar (toChar n) = some n :=
  ofChar_toChar_all n (List.mem_range.mpr h)

theorem toChar_mem_all : ∀ n ∈ List.range 64, toChar n ∈ alphabet := by
  decide +kernel

theorem toChar_mem {n : ℕ} (h : n < 64) : toChar n ∈ alphabet :=
  toChar_mem_all n (List.mem_range.mpr h)

/-! ### Groups of three bytes and of four characters -/

def encodeChars : List UInt8 → List Char
  | [] => []
  | [a] => [toChar (a.toNat / 4), toChar (a.toNat % 4 * 16)]
  | [a, b] =>
      [toChar (a.toNat / 4), toChar (a.toNat % 4 * 16 + b.toNat / 16),
        toChar (b.toNat % 16 * 4)]
  | a :: b :: c :: rest =>
      toChar (a.toNat / 4) :: toChar (a.toNat % 4 * 16 + b.toNat / 16) ::
        toChar (b.toNat % 16 * 4 + c.toNat / 64) :: toChar (c.toNat % 64) :: encodeChars rest

/-- The bytes of a list of six-bit values; a single left over value is an error. -/
def decodeValues : List ℕ → Option (List UInt8)
  | [] => some []
  | [_] => none
  | [x, y] => some [UInt8.ofNat (x * 4 + y / 16)]
  | [x, y, z] => some [UInt8.ofNat (x * 4 + y / 16), UInt8.ofNat (y % 16 * 16 + z / 4)]
  | x :: y :: z :: w :: rest =>
      (decodeValues rest).map fun bytes =>
        UInt8.ofNat (x * 4 + y / 16) :: UInt8.ofNat (y % 16 * 16 + z / 4) ::
          UInt8.ofNat (z % 4 * 64 + w) :: bytes

/-- `EncodeToString`. -/
def encode (bytes : List UInt8) : String := String.ofList (encodeChars bytes)

/-- `DecodeString`. -/
def decode (text : String) : Option (List UInt8) :=
  ((text.toList.filter fun c => c ≠ '\r' && c ≠ '\n').mapM ofChar).bind decodeValues

/-! ### What an encoding looks like -/

theorem encodeChars_mem (bytes : List UInt8) : ∀ c ∈ encodeChars bytes, c ∈ alphabet := by
  induction bytes using encodeChars.induct with
  | case1 => simp [encodeChars]
  | case2 a =>
      have ha := a.toNat_lt
      intro c hc
      simp only [encodeChars, List.mem_cons, List.not_mem_nil, or_false] at hc
      rcases hc with rfl | rfl <;> exact toChar_mem (by omega)
  | case3 a b =>
      have ha := a.toNat_lt
      have hb := b.toNat_lt
      intro c hc
      simp only [encodeChars, List.mem_cons, List.not_mem_nil, or_false] at hc
      rcases hc with rfl | rfl | rfl <;> exact toChar_mem (by omega)
  | case4 a b d rest ih =>
      have ha := a.toNat_lt
      have hb := b.toNat_lt
      have hd := d.toNat_lt
      intro c hc
      simp only [encodeChars, List.mem_cons] at hc
      rcases hc with rfl | rfl | rfl | rfl | hc
      · exact toChar_mem (by omega)
      · exact toChar_mem (by omega)
      · exact toChar_mem (by omega)
      · exact toChar_mem (by omega)
      · exact ih c hc

theorem encodeChars_length (bytes : List UInt8) :
    (encodeChars bytes).length = (bytes.length * 4 + 2) / 3 := by
  induction bytes using encodeChars.induct with
  | case1 => rfl
  | case2 a => simp [encodeChars]
  | case3 a b => simp [encodeChars]
  | case4 a b c rest ih =>
      simp only [encodeChars, List.length_cons, ih]
      omega

theorem encode_length (bytes : List UInt8) :
    (encode bytes).length = (bytes.length * 4 + 2) / 3 := by
  rw [encode, String.length_ofList, encodeChars_length]

/-! ### Decoding an encoding -/

theorem decode_encodeChars (bytes : List UInt8) :
    ((encodeChars bytes).mapM ofChar).bind decodeValues = some bytes := by
  induction bytes using encodeChars.induct with
  | case1 => rfl
  | case2 a =>
      have ha := a.toNat_lt
      simp only [encodeChars, List.mapM_cons, List.mapM_nil]
      rw [ofChar_toChar (show a.toNat / 4 < 64 by omega),
        ofChar_toChar (show a.toNat % 4 * 16 < 64 by omega)]
      show some [UInt8.ofNat (a.toNat / 4 * 4 + a.toNat % 4 * 16 / 16)] = some [a]
      rw [show a.toNat / 4 * 4 + a.toNat % 4 * 16 / 16 = a.toNat by omega, UInt8.ofNat_toNat]
  | case3 a b =>
      have ha := a.toNat_lt
      have hb := b.toNat_lt
      simp only [encodeChars, List.mapM_cons, List.mapM_nil]
      rw [ofChar_toChar (show a.toNat / 4 < 64 by omega),
        ofChar_toChar (show a.toNat % 4 * 16 + b.toNat / 16 < 64 by omega),
        ofChar_toChar (show b.toNat % 16 * 4 < 64 by omega)]
      show some [UInt8.ofNat (a.toNat / 4 * 4 + (a.toNat % 4 * 16 + b.toNat / 16) / 16),
        UInt8.ofNat ((a.toNat % 4 * 16 + b.toNat / 16) % 16 * 16 + b.toNat % 16 * 4 / 4)] =
          some [a, b]
      rw [show a.toNat / 4 * 4 + (a.toNat % 4 * 16 + b.toNat / 16) / 16 = a.toNat by omega,
        show (a.toNat % 4 * 16 + b.toNat / 16) % 16 * 16 + b.toNat % 16 * 4 / 4 = b.toNat by
          omega, UInt8.ofNat_toNat, UInt8.ofNat_toNat]
  | case4 a b c rest ih =>
      have ha := a.toNat_lt
      have hb := b.toNat_lt
      have hc := c.toNat_lt
      simp only [encodeChars, List.mapM_cons]
      rw [ofChar_toChar (show a.toNat / 4 < 64 by omega),
        ofChar_toChar (show a.toNat % 4 * 16 + b.toNat / 16 < 64 by omega),
        ofChar_toChar (show b.toNat % 16 * 4 + c.toNat / 64 < 64 by omega),
        ofChar_toChar (show c.toNat % 64 < 64 by omega)]
      cases hrest : (encodeChars rest).mapM ofChar with
      | none => rw [hrest] at ih; cases ih
      | some values =>
          rw [hrest] at ih
          show (decodeValues values).map (fun bytes =>
            UInt8.ofNat (a.toNat / 4 * 4 + (a.toNat % 4 * 16 + b.toNat / 16) / 16) ::
              UInt8.ofNat ((a.toNat % 4 * 16 + b.toNat / 16) % 16 * 16 +
                (b.toNat % 16 * 4 + c.toNat / 64) / 4) ::
              UInt8.ofNat ((b.toNat % 16 * 4 + c.toNat / 64) % 4 * 64 + c.toNat % 64) ::
                bytes) = some (a :: b :: c :: rest)
          rw [show decodeValues values = some rest from ih,
            show a.toNat / 4 * 4 + (a.toNat % 4 * 16 + b.toNat / 16) / 16 = a.toNat by omega,
            show (a.toNat % 4 * 16 + b.toNat / 16) % 16 * 16 +
              (b.toNat % 16 * 4 + c.toNat / 64) / 4 = b.toNat by omega,
            show (b.toNat % 16 * 4 + c.toNat / 64) % 4 * 64 + c.toNat % 64 = c.toNat by omega,
            UInt8.ofNat_toNat, UInt8.ofNat_toNat, UInt8.ofNat_toNat]
          rfl

theorem alphabet_no_break : (alphabet.all fun c => c ≠ '\r' && c ≠ '\n') = true := by decide

/-- What is encoded is decoded. -/
theorem decode_encode (bytes : List UInt8) : decode (encode bytes) = some bytes := by
  unfold decode encode
  rw [String.toList_ofList, List.filter_eq_self.mpr fun c hc =>
    List.all_eq_true.mp alphabet_no_break c (encodeChars_mem bytes c hc)]
  exact decode_encodeChars bytes

end Base64
