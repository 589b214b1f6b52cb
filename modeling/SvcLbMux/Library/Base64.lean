import Mathlib.Data.List.Basic
import Mathlib.Data.UInt

namespace Base64

def alphabet : List Char :=
  "ABCDEFGHIJKLMNOPQRSTUVWXYZabcdefghijklmnopqrstuvwxyz0123456789+/".toList

def digit (n : ℕ) : Char := alphabet.getD n 'A'

def value (c : Char) : Option ℕ := alphabet.idxOf? c

theorem digit_spec : ∀ n < 64,
    value (digit n) = some n ∧ digit n ≠ '=' ∧ (digit n).toNat < 128 := by
  decide +kernel

theorem value_digit {n : ℕ} (h : n < 64) : value (digit n) = some n := (digit_spec n h).1

theorem digit_ne_pad {n : ℕ} (h : n < 64) : digit n ≠ '=' := (digit_spec n h).2.1

theorem digit_toNat_lt {n : ℕ} (h : n < 64) : (digit n).toNat < 128 := (digit_spec n h).2.2

def encode : List UInt8 → List Char
  | [] => []
  | [a] => [digit (a.toNat / 4), digit (a.toNat % 4 * 16), '=', '=']
  | [a, b] =>
    [digit (a.toNat / 4), digit (a.toNat % 4 * 16 + b.toNat / 16), digit (b.toNat % 16 * 4), '=']
  | a :: b :: c :: rest =>
    digit (a.toNat / 4) :: digit (a.toNat % 4 * 16 + b.toNat / 16) ::
      digit (b.toNat % 16 * 4 + c.toNat / 64) :: digit (c.toNat % 64) :: encode rest

/-- The decoder at the position `pos` of a group of four digits, with the bits `left` of the digit
before and `pads` padding characters since. It fails when the text ends inside a group. -/
def decodeFrom : ℕ → ℕ → ℕ → List Char → Option (List UInt8)
  | pos, _, _, [] => if pos = 0 then some [] else none
  | pos, left, pads, c :: text =>
    if c = '=' then
      if 2 ≤ pos then
        -- The padding is complete.
        if 4 ≤ pos + (pads + 1) then some [] else decodeFrom pos left (pads + 1) text
      else decodeFrom pos left pads text
    else
      match value c with
      | none => decodeFrom pos left pads text
      | some v =>
        match pos with
        | 0 => decodeFrom 1 v 0 text
        | 1 => (decodeFrom 2 (v % 16) 0 text).map (UInt8.ofNat (left * 4 + v / 16) :: ·)
        | 2 => (decodeFrom 3 (v % 4) 0 text).map (UInt8.ofNat (left * 16 + v / 4) :: ·)
        | _ => (decodeFrom 0 0 0 text).map (UInt8.ofNat (left * 64 + v) :: ·)

def decode (text : List Char) : Option (List UInt8) := decodeFrom 0 0 0 text

/-! ## The round trip -/

section Digits

variable {left pads n : ℕ} (h : n < 64) (text : List Char)

include h

theorem decodeFrom_digit_zero : decodeFrom 0 left pads (digit n :: text) = decodeFrom 1 n 0 text := by
  simp only [decodeFrom, if_neg (digit_ne_pad h), value_digit h]

theorem decodeFrom_digit_one : decodeFrom 1 left pads (digit n :: text) =
    (decodeFrom 2 (n % 16) 0 text).map (UInt8.ofNat (left * 4 + n / 16) :: ·) := by
  simp only [decodeFrom, if_neg (digit_ne_pad h), value_digit h]

theorem decodeFrom_digit_two : decodeFrom 2 left pads (digit n :: text) =
    (decodeFrom 3 (n % 4) 0 text).map (UInt8.ofNat (left * 16 + n / 4) :: ·) := by
  simp only [decodeFrom, if_neg (digit_ne_pad h), value_digit h]

theorem decodeFrom_digit_three : decodeFrom 3 left pads (digit n :: text) =
    (decodeFrom 0 0 0 text).map (UInt8.ofNat (left * 64 + n) :: ·) := by
  simp only [decodeFrom, if_neg (digit_ne_pad h), value_digit h]

end Digits

theorem ofNat_of_eq {n : ℕ} {a : UInt8} (h : n = a.toNat) : UInt8.ofNat n = a := by
  rw [h, UInt8.ofNat_toNat]

theorem decode_encode (bytes : List UInt8) : decode (encode bytes) = some bytes := by
  unfold decode
  induction bytes using encode.induct with
  | case1 => rfl
  | case2 a =>
    have ha := a.toNat_lt
    rw [encode, decodeFrom_digit_zero (by omega), decodeFrom_digit_one (by omega)]
    rw [ofNat_of_eq (a := a) (by omega)]
    rfl
  | case3 a b =>
    have ha := a.toNat_lt
    have hb := b.toNat_lt
    rw [encode, decodeFrom_digit_zero (by omega), decodeFrom_digit_one (by omega),
      decodeFrom_digit_two (by omega), ofNat_of_eq (a := a) (by omega),
      ofNat_of_eq (a := b) (by omega)]
    rfl
  | case4 a b c rest ih =>
    have ha := a.toNat_lt
    have hb := b.toNat_lt
    have hc := c.toNat_lt
    rw [encode, decodeFrom_digit_zero (by omega), decodeFrom_digit_one (by omega),
      decodeFrom_digit_two (by omega), decodeFrom_digit_three (by omega), ih,
      ofNat_of_eq (a := a) (by omega), ofNat_of_eq (a := b) (by omega),
      ofNat_of_eq (a := c) (by omega)]
    rfl

theorem toNat_lt_of_mem_encode {bytes : List UInt8} {c : Char} (h : c ∈ encode bytes) :
    c.toNat < 128 := by
  induction bytes using encode.induct with
  | case1 => exact nomatch h
  | case2 a =>
    have ha := a.toNat_lt
    simp only [encode, List.mem_cons, List.not_mem_nil, or_false] at h
    obtain rfl | rfl | rfl | rfl := h
    · exact digit_toNat_lt (by omega)
    · exact digit_toNat_lt (by omega)
    · decide
    · decide
  | case3 a b =>
    have ha := a.toNat_lt
    have hb := b.toNat_lt
    simp only [encode, List.mem_cons, List.not_mem_nil, or_false] at h
    obtain rfl | rfl | rfl | rfl := h
    · exact digit_toNat_lt (by omega)
    · exact digit_toNat_lt (by omega)
    · exact digit_toNat_lt (by omega)
    · decide
  | case4 a b c' rest ih =>
    have ha := a.toNat_lt
    have hb := b.toNat_lt
    have hc := c'.toNat_lt
    simp only [encode, List.mem_cons] at h
    obtain rfl | rfl | rfl | rfl | h := h
    · exact digit_toNat_lt (by omega)
    · exact digit_toNat_lt (by omega)
    · exact digit_toNat_lt (by omega)
    · exact digit_toNat_lt (by omega)
    · exact ih h

end Base64
