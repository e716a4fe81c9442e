import Mathlib.Data.List.Nodup

/-!
# Base64

The encoding of RFC 4648 with the URL-safe alphabet and without padding. Three bytes make four
characters; one or two bytes left over make two or three, whose unused low bits are zero.

An `Engine` is any decoder that accepts exactly the encodings. `decode` is one.
-/

namespace KafkaCli.Base64

/-- The digits of value 0 to 63. -/
def alphabet : List Char :=
  "ABCDEFGHIJKLMNOPQRSTUVWXYZabcdefghijklmnopqrstuvwxyz0123456789-_".toList

/-- The digit of a value. -/
def digit (n : Nat) : Char := alphabet.getD n 'A'

/-- The value of a digit, 64 for a character that is none. -/
def value (c : Char) : Nat := alphabet.idxOf c

theorem value_digit {n : Nat} (h : n < 64) : value (digit n) = n := by
  have hnodup : alphabet.Nodup := by decide +kernel
  have hlength : n < alphabet.length := h
  rw [digit, List.getD_eq_getElem?_getD, List.getElem?_eq_getElem hlength, Option.getD_some, value,
    hnodup.idxOf_getElem]

/-! ## Encoding -/

def encode : List UInt8 → List Char
  | [] => []
  | [a] =>
    let n := a.toNat * 16
    [digit (n / 64), digit (n % 64)]
  | [a, b] =>
    let n := (a.toNat * 256 + b.toNat) * 4
    [digit (n / 4096), digit (n / 64 % 64), digit (n % 64)]
  | a :: b :: c :: rest =>
    let n := a.toNat * 65536 + b.toNat * 256 + c.toNat
    digit (n / 262144) :: digit (n / 4096 % 64) :: digit (n / 64 % 64) :: digit (n % 64) ::
      encode rest

/-- The text of some bytes. -/
def encodeText (bytes : List UInt8) : String := String.ofList (encode bytes)

theorem length_encode (bytes : List UInt8) :
    (encode bytes).length = (4 * bytes.length + 2) / 3 := by
  fun_induction encode bytes with
  | case1 => rfl
  | case2 => simp
  | case3 => simp
  | case4 a b c rest n ih =>
    simp only [List.length_cons, ih]
    omega

/-! ## Decoding -/

/-- The bytes of a text's digits, which may or may not be an encoding. -/
def bytesOf : List Char → List UInt8
  | a :: b :: c :: d :: rest =>
    let n := value a * 262144 + value b * 4096 + value c * 64 + value d
    .ofNat (n / 65536) :: .ofNat (n / 256 % 256) :: .ofNat (n % 256) :: bytesOf rest
  | [a, b, c] =>
    let n := (value a * 4096 + value b * 64 + value c) / 4
    [.ofNat (n / 256), .ofNat (n % 256)]
  | [a, b] => [.ofNat ((value a * 64 + value b) / 16)]
  | _ => []

theorem bytesOf_encode (bytes : List UInt8) : bytesOf (encode bytes) = bytes := by
  fun_induction encode bytes with
  | case1 => rfl
  | case2 a n =>
    have ha := a.toNat_lt
    simp only [bytesOf, value_digit (show n / 64 < 64 by omega),
      value_digit (show n % 64 < 64 by omega)]
    rw [show (n / 64 * 64 + n % 64) / 16 = a.toNat by omega, UInt8.ofNat_toNat]
  | case3 a b n =>
    have ha := a.toNat_lt
    have hb := b.toNat_lt
    simp only [bytesOf, value_digit (show n / 4096 < 64 by omega),
      value_digit (show n / 64 % 64 < 64 by omega), value_digit (show n % 64 < 64 by omega)]
    rw [show (n / 4096 * 4096 + n / 64 % 64 * 64 + n % 64) / 4 / 256 = a.toNat by omega,
      show (n / 4096 * 4096 + n / 64 % 64 * 64 + n % 64) / 4 % 256 = b.toNat by omega,
      UInt8.ofNat_toNat, UInt8.ofNat_toNat]
  | case4 a b c rest n ih =>
    have ha := a.toNat_lt
    have hb := b.toNat_lt
    have hc := c.toNat_lt
    simp only [bytesOf, value_digit (show n / 262144 < 64 by omega),
      value_digit (show n / 4096 % 64 < 64 by omega),
      value_digit (show n / 64 % 64 < 64 by omega), value_digit (show n % 64 < 64 by omega), ih]
    have hn : n / 262144 * 262144 + n / 4096 % 64 * 4096 + n / 64 % 64 * 64 + n % 64 = n := by
      omega
    rw [hn, show n / 65536 = a.toNat by omega, show n / 256 % 256 = b.toNat by omega,
      show n % 256 = c.toNat by omega, UInt8.ofNat_toNat, UInt8.ofNat_toNat, UInt8.ofNat_toNat]

/-- The bytes that a text encodes. -/
def decode (text : String) : Option (List UInt8) :=
  let bytes := bytesOf text.toList
  if encodeText bytes = text then some bytes else none

theorem decode_eq_some {text : String} {bytes : List UInt8} :
    decode text = some bytes ↔ encodeText bytes = text := by
  simp only [decode, Option.ite_none_right_eq_some, Option.some.injEq]
  refine ⟨?_, ?_⟩
  · intro ⟨htext, hbytes⟩
    rw [← hbytes, htext]
  · intro htext
    have hbytes : bytesOf text.toList = bytes := by
      rw [← htext, encodeText, String.toList_ofList, bytesOf_encode]
    exact ⟨by rw [hbytes, htext], hbytes⟩

/-- A decoder of the encoding, with its error texts. -/
structure Engine where
  decode : String → Except String (List UInt8)
  decode_eq_ok : ∀ {text bytes}, decode text = .ok bytes ↔ encodeText bytes = text

/-- The decoder above as an engine. -/
def Engine.standard : Engine where
  decode text := (Base64.decode text).elim (.error "Invalid input") .ok
  decode_eq_ok {text bytes} := by
    rw [← decode_eq_some]
    cases Base64.decode text <;> simp

/-- What is decoded has three bytes for every four characters. -/
theorem Engine.length_of_decode (engine : Engine) {text : String} {bytes : List UInt8}
    (h : engine.decode text = .ok bytes) : bytes.length = text.length * 3 / 4 := by
  rw [engine.decode_eq_ok] at h
  have hlength : text.length = (4 * bytes.length + 2) / 3 := by
    rw [← h, encodeText, String.length_ofList, length_encode]
  omega

end KafkaCli.Base64
