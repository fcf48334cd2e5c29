import YohakuCore.Framework.BitGroups
import YohakuCore.Store.KeyedStores

/-!
# Base64 against its standard

The standard reads the data as one word of bits, cuts it into groups of six and pads the characters
to a multiple of four.
-/

namespace YohakuCore

open Framework
open Framework.BitGroups

/-- `A` to `Z`, `a` to `z`, `0` to `9`, `+` and `/`. -/
def standardAlphabet : List Char :=
  (List.range 26).map (fun i => Char.ofNat ('A'.toNat + i)) ++
    (List.range 26).map (fun i => Char.ofNat ('a'.toNat + i)) ++
    (List.range 10).map (fun i => Char.ofNat ('0'.toNat + i)) ++ ['+', '/']

def dataBits (data : List UInt8) : List Bool := data.flatMap (fun byte => bitsOf 8 byte.toNat)

/-- One character for each group of six bits, the last group filled with zeros. -/
def standardDigits (data : List UInt8) : List Char :=
  (groups 6 (dataBits data)).map (fun group => standardAlphabet.getD (valueOf group) '=')

/-- The digits, padded to a multiple of four characters. -/
def standardBase64 (data : List UInt8) : List Char :=
  let digits := standardDigits data
  digits ++ List.replicate ((4 - digits.length % 4) % 4) '='

theorem standardAlphabet_eq : standardAlphabet = base64Alphabet := by
  decide +kernel

theorem standardAlphabet_bits (n : Nat) :
    standardAlphabet.getD (valueOf (bitsOf 6 n)) '=' = base64Char n := by
  have hlength : base64Alphabet.length = 64 := by decide +kernel
  have hlt : n % 64 < base64Alphabet.length := by omega
  rw [valueOf_bitsOf, standardAlphabet_eq, base64Char]
  simp [List.getD, List.getElem?_eq_getElem hlt]

theorem dataBits_two (a b : UInt8) :
    bitsOf 8 a.toNat ++ bitsOf 8 b.toNat = bitsOf 16 (a.toNat * 2 ^ 8 + b.toNat) :=
  bitsOf_append 8 a.toNat b.toNat_lt

theorem dataBits_three (a b c : UInt8) (rest : List UInt8) :
    dataBits (a :: b :: c :: rest) =
      bitsOf 24 (a.toNat * 2 ^ 16 + b.toNat * 2 ^ 8 + c.toNat) ++ dataBits rest := by
  have hword := bitsOf_append 16 (a.toNat * 2 ^ 8 + b.toNat) c.toNat_lt
  have hnumber : (a.toNat * 2 ^ 8 + b.toNat) * 2 ^ 8 + c.toNat =
      a.toNat * 2 ^ 16 + b.toNat * 2 ^ 8 + c.toNat := by
    omega
  rw [← dataBits_two, hnumber] at hword
  simp only [dataBits, List.flatMap_cons]
  rw [← hword, List.append_assoc, List.append_assoc]

theorem standardDigits_three (a b c : UInt8) (rest : List UInt8) :
    standardDigits (a :: b :: c :: rest) =
      let triple := a.toNat * 2 ^ 16 + b.toNat * 2 ^ 8 + c.toNat
      [base64Char (triple / 2 ^ 18), base64Char (triple / 2 ^ 12), base64Char (triple / 2 ^ 6),
        base64Char triple] ++ standardDigits rest := by
  have hgroup (n : Nat) : (bitsOf 6 n).length = 6 := bitsOf_length 6 n
  dsimp only
  generalize hn : a.toNat * 2 ^ 16 + b.toNat * 2 ^ 8 + c.toNat = triple
  have hcut : bitsOf 24 triple = bitsOf 6 (triple / 2 ^ 18) ++ (bitsOf 6 (triple / 2 ^ 12) ++
      (bitsOf 6 (triple / 2 ^ 6) ++ bitsOf 6 triple)) := by
    rw [bitsOf_add 6 18, bitsOf_add 6 12, bitsOf_add 6 6]
  rw [standardDigits, dataBits_three, hn, hcut]
  simp only [List.append_assoc]
  rw [groups_append (by decide) (hgroup _), groups_append (by decide) (hgroup _),
    groups_append (by decide) (hgroup _), groups_append (by decide) (hgroup _)]
  simp only [List.map_cons, standardAlphabet_bits]
  rfl

theorem standardDigits_two (a b : UInt8) :
    standardDigits [a, b] =
      let triple := a.toNat * 2 ^ 16 + b.toNat * 2 ^ 8
      [base64Char (triple / 2 ^ 18), base64Char (triple / 2 ^ 12),
        base64Char (triple / 2 ^ 6)] := by
  have hgroup (n : Nat) : (bitsOf 6 n).length = 6 := bitsOf_length 6 n
  have hcut : bitsOf 16 (a.toNat * 2 ^ 8 + b.toNat) =
      bitsOf 6 ((a.toNat * 2 ^ 8 + b.toNat) / 2 ^ 10) ++
        (bitsOf 6 ((a.toNat * 2 ^ 8 + b.toNat) / 2 ^ 4) ++
          bitsOf 4 (a.toNat * 2 ^ 8 + b.toNat)) := by
    rw [bitsOf_add 6 10, bitsOf_add 6 4]
  have hfirst : (a.toNat * 2 ^ 8 + b.toNat) / 2 ^ 10 =
      (a.toNat * 2 ^ 16 + b.toNat * 2 ^ 8) / 2 ^ 18 := by
    omega
  have hsecond : (a.toNat * 2 ^ 8 + b.toNat) / 2 ^ 4 =
      (a.toNat * 2 ^ 16 + b.toNat * 2 ^ 8) / 2 ^ 12 := by
    omega
  have hthird : (a.toNat * 2 ^ 8 + b.toNat) * 2 ^ 2 =
      (a.toNat * 2 ^ 16 + b.toNat * 2 ^ 8) / 2 ^ 6 := by
    omega
  have hlast : groups 6 (bitsOf 4 (a.toNat * 2 ^ 8 + b.toNat)) =
      [bitsOf 6 ((a.toNat * 2 ^ 8 + b.toNat) * 2 ^ 2)] := by
    rw [groups_short (by simp) (by simp), fill_bitsOf 4 _ 2]
  rw [standardDigits, dataBits, List.flatMap_cons, List.flatMap_cons, List.flatMap_nil,
    List.append_nil, dataBits_two, hcut, groups_append (by decide) (hgroup _),
    groups_append (by decide) (hgroup _), hlast]
  simp only [List.map_cons, List.map_nil, standardAlphabet_bits, hfirst, hsecond, hthird]

theorem standardDigits_one (a : UInt8) :
    standardDigits [a] =
      [base64Char (a.toNat * 2 ^ 16 / 2 ^ 18), base64Char (a.toNat * 2 ^ 16 / 2 ^ 12)] := by
  have hfirst : a.toNat / 2 ^ 2 = a.toNat * 2 ^ 16 / 2 ^ 18 := by
    omega
  have hsecond : a.toNat * 2 ^ 4 = a.toNat * 2 ^ 16 / 2 ^ 12 := by
    omega
  have hlast : groups 6 (bitsOf 2 a.toNat) = [bitsOf 6 (a.toNat * 2 ^ 4)] := by
    rw [groups_short (by simp) (by simp), fill_bitsOf 2 _ 4]
  rw [standardDigits, dataBits, List.flatMap_cons, List.flatMap_nil, List.append_nil,
    bitsOf_add 6 2, groups_append (by decide) (bitsOf_length 6 _), hlast]
  simp only [List.map_cons, List.map_nil, standardAlphabet_bits, hfirst, hsecond]

theorem base64Chars_standard (data : List UInt8) : base64Chars data = standardBase64 data := by
  induction data using base64Chars.induct with
  | case1 => rfl
  | case2 a => simp [base64Chars, standardBase64, standardDigits_one]
  | case3 a b => simp [base64Chars, standardBase64, standardDigits_two]
  | case4 a b c rest ih =>
      have hpad : (4 - (4 + (standardDigits rest).length) % 4) % 4 =
          (4 - (standardDigits rest).length % 4) % 4 := by
        omega
      rw [base64Chars, ih]
      simp only [standardBase64, standardDigits_three, List.length_append, List.length_cons,
        List.length_nil, Nat.zero_add, hpad, List.append_assoc]

@[simp] theorem base64Value_pad : base64Value base64Pad = none := by
  decide

@[simp] theorem take_base64Triple (v0 v1 v2 v3 : Nat) :
    (base64Triple v0 v1 v2 v3).take 3 = base64Triple v0 v1 v2 v3 := rfl

@[simp] theorem base64Triple_length (v0 v1 v2 v3 : Nat) :
    (base64Triple v0 v1 v2 v3).length = 3 := rfl

/-- Four bytes that are decoded: four digits before any rest, or at the end with the last one or
the last two of them padding. -/
theorem base64DecodeBytes_quartet {p q r s : UInt8} {rest data : List UInt8} :
    base64DecodeBytes (p :: q :: r :: s :: rest) = some data ↔
      ∃ v0 v1, base64Value p = some v0 ∧ base64Value q = some v1 ∧
        ((∃ v2 v3 decoded, base64Value r = some v2 ∧ base64Value s = some v3 ∧
            base64DecodeBytes rest = some decoded ∧ data = base64Triple v0 v1 v2 v3 ++ decoded) ∨
          (∃ v2, base64Value r = some v2 ∧ s = base64Pad ∧ rest = [] ∧
            data = (base64Triple v0 v1 v2 0).take 2) ∨
          (r = base64Pad ∧ s = base64Pad ∧ rest = [] ∧
            data = (base64Triple v0 v1 0 0).take 1)) := by
  rw [base64DecodeBytes]
  cases hp : base64Value p with
  | none => simp
  | some v0 =>
    cases hq : base64Value q with
    | none => simp
    | some v1 =>
      by_cases hs : s = base64Pad
      · by_cases hrest : rest = []
        · by_cases hr : r = base64Pad
          · simp [hr, hs, hrest, base64DecodeBytes, @eq_comm _ data]
          · cases hv : base64Value r <;>
              simp [hr, hs, hrest, base64DecodeBytes, @eq_comm _ data]
        · by_cases hr : r = base64Pad
          · simp [hr, hs, hrest, guard]
          · simp [hr, hs, hrest, guard]
      · by_cases hr : r = base64Pad
        · simp [hr, hs]
        · cases hv : base64Value r <;> cases hw : base64Value s <;>
            cases base64DecodeBytes rest <;> simp [hr, hs, @eq_comm _ data]

/-- Quartets of digits of which the last one or two may be padding instead. -/
structure PaddedBytes (bytes : List UInt8) (padding : Nat) : Prop where
  quartets : bytes.length % 4 = 0
  padding_le : padding ≤ 2
  digits : ∃ body, bytes = body ++ List.replicate padding base64Pad ∧
    ∀ b ∈ body, (base64Value b).isSome = true

/-- Bytes by their quartets; what is left at the end is shorter than one. -/
theorem quartet_induction {motive : List UInt8 → Prop} (nil : motive [])
    (short : ∀ bytes, bytes ≠ [] → bytes.length < 4 → motive bytes)
    (quartet : ∀ p q r s rest, motive rest → motive (p :: q :: r :: s :: rest)) :
    ∀ bytes, motive bytes
  | [] => nil
  | [p] => short [p] (by simp) (by simp)
  | [p, q] => short [p, q] (by simp) (by simp)
  | [p, q, r] => short [p, q, r] (by simp) (by simp)
  | p :: q :: r :: s :: rest => quartet p q r s rest (quartet_induction nil short quartet rest)

theorem base64DecodeBytes_short {bytes : List UInt8} (hne : bytes ≠ []) (hlt : bytes.length < 4) :
    base64DecodeBytes bytes = none := by
  match bytes with
  | [] => exact absurd rfl hne
  | [_] => rfl
  | [_, _] => rfl
  | [_, _, _] => rfl
  | _ :: _ :: _ :: _ :: _ =>
      simp only [List.length_cons] at hlt
      omega

theorem PaddedBytes.of_decode {bytes : List UInt8} : ∀ {data : List UInt8},
    base64DecodeBytes bytes = some data →
    ∃ padding, PaddedBytes bytes padding ∧ data.length + padding = 3 * (bytes.length / 4) := by
  induction bytes using quartet_induction with
  | nil =>
      intro data h
      obtain rfl := Option.some.inj h
      exact ⟨0, ⟨rfl, by omega, [], rfl, by simp⟩, rfl⟩
  | short bytes hne hlt =>
      intro data h
      rw [base64DecodeBytes_short hne hlt] at h
      contradiction
  | quartet p q r s rest ih =>
      intro data h
      obtain ⟨v0, v1, hp, hq, hquartet | hquartet | hquartet⟩ := base64DecodeBytes_quartet.mp h
      · obtain ⟨v2, v3, decoded, hr, hs, hdecoded, rfl⟩ := hquartet
        obtain ⟨padding, ⟨hlength, hle, body, rfl, hbody⟩, hdata⟩ := ih hdecoded
        refine ⟨padding, ⟨?_, hle, p :: q :: r :: s :: body, rfl, ?_⟩, ?_⟩
        · simp only [List.length_cons]
          omega
        · simpa [hp, hq, hr, hs] using hbody
        · simp only [List.length_append, base64Triple_length, List.length_cons] at hdata ⊢
          omega
      · obtain ⟨v2, hr, rfl, rfl, rfl⟩ := hquartet
        exact ⟨1, ⟨by simp, by omega, [p, q, r], rfl, by simp [hp, hq, hr]⟩, by simp⟩
      · obtain ⟨rfl, rfl, rfl, rfl⟩ := hquartet
        exact ⟨2, ⟨by simp, by omega, [p, q], rfl, by simp [hp, hq]⟩, by simp⟩

theorem PaddedBytes.decodes {bytes : List UInt8} {padding : Nat} (h : PaddedBytes bytes padding) :
    ∃ data, base64DecodeBytes bytes = some data := by
  obtain ⟨hlength, hle, body, rfl, hbody⟩ := h
  rw [List.length_append, List.length_replicate] at hlength
  induction body using quartet_induction with
  | nil =>
      have hpadding : padding = 0 := by
        rw [List.length_nil] at hlength
        omega
      exact ⟨[], by rw [hpadding]; rfl⟩
  | short body hne hlt =>
      have hpos := List.length_pos_iff.mpr hne
      match body with
      | [] => exact absurd rfl hne
      | [p] =>
          rw [List.length_singleton] at hlength
          omega
      | [p, q] =>
          obtain rfl : padding = 2 := by
            simp only [List.length_cons, List.length_nil] at hlength
            omega
          simp only [List.forall_mem_cons, Option.isSome_iff_exists] at hbody
          obtain ⟨⟨v0, hp⟩, ⟨v1, hq⟩, -⟩ := hbody
          exact ⟨_, base64DecodeBytes_quartet.mpr
            ⟨v0, v1, hp, hq, Or.inr (Or.inr ⟨rfl, rfl, rfl, rfl⟩)⟩⟩
      | [p, q, r] =>
          obtain rfl : padding = 1 := by
            simp only [List.length_cons, List.length_nil] at hlength
            omega
          simp only [List.forall_mem_cons, Option.isSome_iff_exists] at hbody
          obtain ⟨⟨v0, hp⟩, ⟨v1, hq⟩, ⟨v2, hr⟩, -⟩ := hbody
          exact ⟨_, base64DecodeBytes_quartet.mpr
            ⟨v0, v1, hp, hq, Or.inr (Or.inl ⟨v2, hr, rfl, rfl, rfl⟩)⟩⟩
      | _ :: _ :: _ :: _ :: _ =>
          simp only [List.length_cons] at hlt
          omega
  | quartet p q r s rest ih =>
      simp only [List.forall_mem_cons, Option.isSome_iff_exists] at hbody
      obtain ⟨⟨v0, hp⟩, ⟨v1, hq⟩, ⟨v2, hr⟩, ⟨v3, hs⟩, hrest⟩ := hbody
      simp only [List.length_cons] at hlength
      obtain ⟨decoded, hdecoded⟩ := ih
        (fun b hb => Option.isSome_iff_exists.mpr (hrest b hb)) (by omega)
      exact ⟨_, base64DecodeBytes_quartet.mpr
        ⟨v0, v1, hp, hq, Or.inl ⟨v2, v3, decoded, hr, hs, hdecoded, rfl⟩⟩⟩

theorem PaddedBytes.count_pad {bytes : List UInt8} {padding : Nat} (h : PaddedBytes bytes padding) :
    bytes.count base64Pad = padding := by
  obtain ⟨-, -, body, rfl, hbody⟩ := h
  have hnone : base64Pad ∉ body := by
    intro hmem
    simpa using hbody _ hmem
  rw [List.count_append, List.count_eq_zero.mpr hnone, List.count_replicate_self, Nat.zero_add]

/-- A text of quartets in the alphabet, of which the last one or two characters may be `=`. -/
structure Base64Text (text : String) (padding : Nat) : Prop where
  quartets : (Utf8.encode text).length % 4 = 0
  padding_le : padding ≤ 2
  digits : ∃ body, text.toList = body ++ List.replicate padding '=' ∧
    ∀ c ∈ body, c ∈ standardAlphabet

theorem standardAlphabet_ascii : ∀ c ∈ standardAlphabet, c.val ≤ 0x7F := by
  have hall : standardAlphabet.all (fun c => decide (c.val ≤ 0x7F)) = true := by
    decide +kernel
  intro c hc
  exact of_decide_eq_true (List.all_eq_true.mp hall c hc)

theorem base64Value_char (c : Char) :
    (decide (c.val ≤ 0x7F) && (base64Value c.toUInt8).isSome) = decide (c ∈ standardAlphabet) := by
  apply Utf8.ascii_char_iff (p := fun b => (base64Value b).isSome)
  · decide +kernel
  · intro c hc
    have hmem : c ∉ standardAlphabet := by
      intro h
      exact absurd hc (UInt32.not_lt.mpr (standardAlphabet_ascii c h))
    simp [hmem]

theorem high_byte_not_digit64 {b : UInt8} (h : 0x80 ≤ b) : base64Value b = none := by
  rw [UInt8.le_iff_toNat_le] at h
  have h : 128 ≤ b.toNat := h
  have hA : 'A'.toNat = 65 ∧ 'Z'.toNat = 90 ∧ 'a'.toNat = 97 ∧ 'z'.toNat = 122 ∧
      '0'.toNat = 48 ∧ '9'.toNat = 57 ∧ '+'.toNat = 43 ∧ '/'.toNat = 47 := by
    decide
  unfold base64Value
  dsimp only
  simp only [hA]
  rw [if_neg (by omega), if_neg (by omega), if_neg (by omega), if_neg (by omega),
    if_neg (by omega)]

theorem pad_char {c : Char} (hc : c.val ≤ 0x7F) (h : c.toUInt8 = base64Pad) : c = '=' := by
  have hpad := Utf8.ascii_char_iff (p := fun b => b = base64Pad) (q := fun c => c = '=')
    (by decide +kernel)
    (by
      intro c hc
      have hne : c ≠ '=' := by
        rintro rfl
        revert hc
        decide
      simp [hne]) c
  simpa [hc, h] using hpad

theorem Base64Text.ascii {text : String} {padding : Nat} (h : Base64Text text padding) :
    ∀ c ∈ text.toList, c.val ≤ 0x7F := by
  obtain ⟨_, _, body, hbody, halphabet⟩ := h
  intro c hc
  rw [hbody, List.mem_append] at hc
  rcases hc with hc | hc
  · exact standardAlphabet_ascii c (halphabet c hc)
  · rw [List.eq_of_mem_replicate hc]
    decide

theorem Base64Text.paddedBytes {text : String} {padding : Nat} (h : Base64Text text padding) :
    PaddedBytes (Utf8.encode text) padding := by
  have hbytes : Utf8.encode text = text.toList.map (fun c => c.toUInt8) := by
    have hencode := Utf8.encode_ofList h.ascii
    rwa [String.ofList_toList] at hencode
  obtain ⟨hlength, hle, body, hbody, halphabet⟩ := h
  refine ⟨hlength, hle, body.map (fun c => c.toUInt8), ?_, ?_⟩
  · rw [hbytes, hbody, List.map_append, List.map_replicate]
    rfl
  · intro b hb
    obtain ⟨c, hc, rfl⟩ := List.mem_map.mp hb
    have hvalue := base64Value_char c
    rw [decide_eq_true (halphabet c hc), Bool.and_eq_true] at hvalue
    exact hvalue.2

theorem PaddedBytes.ascii {text : String} {padding : Nat}
    (h : PaddedBytes (Utf8.encode text) padding) : ∀ c ∈ text.toList, c.val ≤ 0x7F := by
  obtain ⟨_, _, body, hbody, hdigits⟩ := h
  have hall : (Utf8.encode text).all
      (fun b => b = base64Pad || (base64Value b).isSome) = true := by
    rw [List.all_eq_true]
    intro b hb
    rw [hbody, List.mem_append] at hb
    rcases hb with hb | hb
    · simp [hdigits b hb]
    · simp [List.eq_of_mem_replicate hb]
  have hchars := Utf8.encode_all (p := fun b => b = base64Pad || (base64Value b).isSome)
    (by
      intro b hb
      have hne : b ≠ base64Pad := by
        rintro rfl
        revert hb
        decide
      simp [hne, high_byte_not_digit64 hb]) text.toList
  rw [String.ofList_toList, hall, eq_comm, List.all_eq_true] at hchars
  intro c hc
  have hchar := hchars c hc
  rw [Bool.and_eq_true, decide_eq_true_eq] at hchar
  exact hchar.1

theorem PaddedBytes.base64Text {text : String} {padding : Nat}
    (h : PaddedBytes (Utf8.encode text) padding) : Base64Text text padding := by
  have hascii := h.ascii
  have hencode := Utf8.encode_ofList hascii
  obtain ⟨hlength, hle, body, hbody, hdigits⟩ := h
  rw [String.ofList_toList, hbody] at hencode
  obtain ⟨front, back, htext, hfront, hback⟩ := List.map_eq_append_iff.mp hencode.symm
  rw [htext] at hascii
  have hreplicate : back = List.replicate padding '=' := by
    rw [List.eq_replicate_iff]
    rw [List.eq_replicate_iff, List.length_map] at hback
    refine ⟨hback.1, ?_⟩
    intro c hc
    exact pad_char (hascii c (List.mem_append_right _ hc)) (hback.2 _ (List.mem_map_of_mem hc))
  refine ⟨hlength, hle, front, by rw [htext, hreplicate], ?_⟩
  intro c hc
  have hdigit := hdigits c.toUInt8 (by rw [← hfront]; exact List.mem_map_of_mem hc)
  have hvalue := base64Value_char c
  rw [hdigit, Bool.and_true, decide_eq_true (hascii c (List.mem_append_left _ hc))] at hvalue
  exact of_decide_eq_true hvalue.symm

theorem Base64Text.iff_bytes {text : String} {padding : Nat} :
    Base64Text text padding ↔ PaddedBytes (Utf8.encode text) padding :=
  ⟨Base64Text.paddedBytes, PaddedBytes.base64Text⟩

theorem base64Decode_length {text : String} {data : List UInt8} {padding : Nat}
    (hdecode : base64Decode text = some data) (htext : Base64Text text padding) :
    data.length = 3 * ((Utf8.encode text).length / 4) - padding := by
  obtain ⟨padding', hpadded, hlength⟩ := PaddedBytes.of_decode hdecode
  have hpadding : padding' = padding := by
    rw [← hpadded.count_pad, (Base64Text.iff_bytes.mp htext).count_pad]
  omega

/-- The encoder writes the standard encoding and the decoder reads it back. The decoder takes
quartets in the standard alphabet with at most two `=` at the end, and nothing else, and returns
three bytes for each quartet, less the padding. A token that was set is the token that is read. -/
theorem base64_standard_and_strict {Text : Type*} {json : MapText Text String Json} {dpapi : Dpapi}
    (hjson : json.Restores IsStored) (hdpapi : dpapi.Inverts) :
    (∀ data, base64Decode (base64Encode data) = some data ∧
      (base64Encode data).toList = standardBase64 data) ∧
    (∀ text,
      ((∃ data, base64Decode text = some data) ↔ ∃ padding, Base64Text text padding) ∧
      ∀ data padding, base64Decode text = some data → Base64Text text padding →
        data.length = 3 * ((Utf8.encode text).length / 4) - padding) ∧
    ∀ file deviceId token seed writes,
      (DpapiCredentialStore.set json dpapi file deviceId token seed writes).2 = .ok () →
      DpapiCredentialStore.get json dpapi
        (DpapiCredentialStore.set json dpapi file deviceId token seed writes).1 deviceId =
          some token := by
  refine ⟨?_, ?_, ?_⟩
  · intro data
    refine ⟨base64Decode_encode data, ?_⟩
    rw [base64Encode, String.toList_ofList, base64Chars_standard]
  · intro text
    refine ⟨?_, fun data padding => base64Decode_length⟩
    constructor
    · rintro ⟨data, hdata⟩
      obtain ⟨padding, hpadded, -⟩ := PaddedBytes.of_decode hdata
      exact ⟨padding, Base64Text.iff_bytes.mpr hpadded⟩
    · rintro ⟨padding, htext⟩
      exact (Base64Text.iff_bytes.mp htext).decodes
  · intro file deviceId token seed writes hset
    rcases set_case json dpapi file deviceId token seed writes with
      ⟨-, error, herror⟩ | ⟨-, encrypted, hprotect, hdone⟩
    · rw [herror] at hset
      contradiction
    · rw [hdone]
      apply get_of_lookup hdpapi hprotect
      rw [MapText.lookup_put hjson (IsStored.string _)]
      simp [MapText.put]

theorem base64_standard_and_strict_headed :
    DpapiCredentialStore.get (MapText.documents : MapText _ String Json) headedDpapi
      (DpapiCredentialStore.set MapText.documents headedDpapi none "device" "token" 0 true).1
        "device" = some "token" :=
  (base64_standard_and_strict (MapText.documents_restores IsStored) headedDpapi_inverts).2.2
    none "device" "token" 0 true (by decide +kernel)

end YohakuCore
