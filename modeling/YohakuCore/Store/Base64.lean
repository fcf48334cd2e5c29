import YohakuCore.Framework.Utf8
import Mathlib.Data.Option.Basic

/-! # Base64 -/

namespace YohakuCore

open Framework

def base64Alphabet : List Char :=
  "ABCDEFGHIJKLMNOPQRSTUVWXYZabcdefghijklmnopqrstuvwxyz0123456789+/".toList

/-- The character for the low six bits of a number. -/
def base64Char (n : Nat) : Char := base64Alphabet.getD (n % 64) 'A'

/-- Three bytes at a time; the shifted bytes do not overlap, so they are added. -/
def base64Chars : List UInt8 → List Char
  | [] => []
  | [a] =>
      let triple := a.toNat * 2 ^ 16
      [base64Char (triple / 2 ^ 18), base64Char (triple / 2 ^ 12), '=', '=']
  | [a, b] =>
      let triple := a.toNat * 2 ^ 16 + b.toNat * 2 ^ 8
      [base64Char (triple / 2 ^ 18), base64Char (triple / 2 ^ 12), base64Char (triple / 2 ^ 6),
        '=']
  | a :: b :: c :: rest =>
      let triple := a.toNat * 2 ^ 16 + b.toNat * 2 ^ 8 + c.toNat
      [base64Char (triple / 2 ^ 18), base64Char (triple / 2 ^ 12), base64Char (triple / 2 ^ 6),
        base64Char triple] ++ base64Chars rest

def base64Encode (data : List UInt8) : String := String.ofList (base64Chars data)

def base64Value (byte : UInt8) : Option Nat :=
  let n := byte.toNat
  if 'A'.toNat ≤ n ∧ n ≤ 'Z'.toNat then some (n - 'A'.toNat)
  else if 'a'.toNat ≤ n ∧ n ≤ 'z'.toNat then some (n - 'a'.toNat + 26)
  else if '0'.toNat ≤ n ∧ n ≤ '9'.toNat then some (n - '0'.toNat + 52)
  else if n = '+'.toNat then some 62
  else if n = '/'.toNat then some 63
  else none

def base64Pad : UInt8 := 0x3D

/-- The three bytes of four sextets. -/
def base64Triple (v0 v1 v2 v3 : Nat) : List UInt8 :=
  let triple := v0 * 2 ^ 18 + v1 * 2 ^ 12 + v2 * 2 ^ 6 + v3
  [UInt8.ofNat (triple / 2 ^ 16), UInt8.ofNat (triple / 2 ^ 8), UInt8.ofNat triple]

/-- Four bytes at a time. Only the last group is padded, and a length that is no multiple of four is
refused. -/
def base64DecodeBytes : List UInt8 → Option (List UInt8)
  | [] => some []
  | p :: q :: r :: s :: rest => do
      let pad ←
        if r = base64Pad then
          if s = base64Pad then some 2 else none
        else if s = base64Pad then some 1
        else some 0
      guard (pad = 0 ∨ rest = [])
      let v0 ← base64Value p
      let v1 ← base64Value q
      let v2 ← if 2 ≤ pad then some 0 else base64Value r
      let v3 ← if 1 ≤ pad then some 0 else base64Value s
      let decoded ← base64DecodeBytes rest
      return (base64Triple v0 v1 v2 v3).take (3 - pad) ++ decoded
  | _ => none

def base64Decode (text : String) : Option (List UInt8) := base64DecodeBytes (Utf8.encode text)

def base64Byte (n : Nat) : UInt8 := (base64Char n).toUInt8

theorem base64Digit (m : Fin 64) :
    base64Value (base64Byte m) = some m.val ∧ base64Byte m ≠ base64Pad ∧
      (base64Char m).val ≤ 0x7F := by
  revert m
  decide +kernel

theorem base64Char_mod (n : Nat) : base64Char n = base64Char (n % 64) := by
  simp [base64Char]

theorem base64Byte_mod (n : Nat) : base64Byte n = base64Byte (n % 64) := by
  rw [base64Byte, base64Char_mod]
  rfl

@[simp] theorem base64Value_byte (n : Nat) : base64Value (base64Byte n) = some (n % 64) := by
  rw [base64Byte_mod]
  exact (base64Digit ⟨n % 64, by omega⟩).1

@[simp] theorem base64Byte_ne_pad (n : Nat) : base64Byte n ≠ base64Pad := by
  rw [base64Byte_mod]
  exact (base64Digit ⟨n % 64, by omega⟩).2.1

@[simp] theorem base64Char_ascii (n : Nat) : (base64Char n).val ≤ 0x7F := by
  rw [base64Char_mod]
  exact (base64Digit ⟨n % 64, by omega⟩).2.2

theorem base64Chars_ascii (data : List UInt8) : ∀ c ∈ base64Chars data, c.val ≤ 0x7F := by
  induction data using base64Chars.induct with
  | case1 => simp [base64Chars]
  | case2 a => simp [base64Chars]
  | case3 a b => simp [base64Chars]
  | case4 a b c rest ih =>
      simp only [base64Chars, List.mem_append]
      rintro d (hd | hd)
      · simp only [List.mem_cons, List.not_mem_nil, or_false] at hd
        rcases hd with rfl | rfl | rfl | rfl <;> exact base64Char_ascii _
      · exact ih d hd

theorem byte_of_mod {a : UInt8} {n : Nat} (h : n % 256 = a.toNat) : UInt8.ofNat n = a := by
  apply UInt8.toNat_inj.mp
  rwa [UInt8.toNat_ofNat']

theorem base64Triple_sextets (a b c : UInt8) {t : Nat}
    (ht : t = a.toNat * 65536 + b.toNat * 256 + c.toNat) :
    base64Triple (t / 262144 % 64) (t / 4096 % 64) (t / 64 % 64) (t % 64) = [a, b, c] := by
  have ha := a.toNat_lt
  have hb := b.toNat_lt
  have hc := c.toNat_lt
  have hsextets : t / 262144 % 64 * 2 ^ 18 + t / 4096 % 64 * 2 ^ 12 + t / 64 % 64 * 2 ^ 6 +
      t % 64 = t := by
    omega
  rw [base64Triple, hsextets, byte_of_mod (show t / 2 ^ 16 % 256 = a.toNat by omega),
    byte_of_mod (show t / 2 ^ 8 % 256 = b.toNat by omega),
    byte_of_mod (show t % 256 = c.toNat by omega)]

theorem base64DecodeBytes_chars (data : List UInt8) :
    base64DecodeBytes ((base64Chars data).map (fun c => c.toUInt8)) = some data := by
  have hbyte (n : Nat) : (base64Char n).toUInt8 = base64Byte n := rfl
  have hpad : '='.toUInt8 = base64Pad := rfl
  induction data using base64Chars.induct with
  | case1 => rfl
  | case2 a =>
      have htriple := base64Triple_sextets a 0 0 rfl
      have hlow : (a.toNat * 65536) / 64 % 64 = 0 ∧ a.toNat * 65536 % 64 = 0 := by
        omega
      simp only [UInt8.toNat_zero, Nat.zero_mul, Nat.add_zero, hlow] at htriple
      simp only [base64Chars, List.map_cons, hbyte, hpad]
      simp [base64DecodeBytes, htriple]
  | case3 a b =>
      have htriple := base64Triple_sextets a b 0 rfl
      have hlow : (a.toNat * 65536 + b.toNat * 256) % 64 = 0 := by
        omega
      simp only [UInt8.toNat_zero, Nat.add_zero, hlow] at htriple
      simp only [base64Chars, List.map_cons, hbyte, hpad]
      simp [base64DecodeBytes, htriple]
  | case4 a b c rest ih =>
      have htriple := base64Triple_sextets a b c rfl
      simp only [base64Chars, List.map_cons, List.cons_append, List.nil_append, hbyte]
      rw [base64DecodeBytes, ih]
      simp [htriple]

theorem base64Decode_encode (data : List UInt8) : base64Decode (base64Encode data) = some data := by
  rw [base64Decode, base64Encode, Utf8.encode_ofList (base64Chars_ascii data)]
  exact base64DecodeBytes_chars data

end YohakuCore
