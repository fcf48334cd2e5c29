import Mathlib.Tactic.Common
import Mathlib.Algebra.GroupWithZero.Nat

/-!
# Texts and their bytes

UTF-8 both ways, and the decoding that never fails.
-/

namespace YohakuCore.Framework.Utf8

def encode (text : String) : List UInt8 := text.toByteArray.data.toList

def decode? (bytes : List UInt8) : Option String := String.fromUTF8? ⟨bytes.toArray⟩

theorem decode?_encode (text : String) : decode? (encode text) = some text := by
  rw [decode?, encode, Array.toArray_toList, String.fromUTF8?, dif_pos text.isValidUTF8]
  rfl

theorem encode_ofList_cons {c : Char} (h : c.val ≤ 0x7F) (l : List Char) :
    encode (String.ofList (c :: l)) = c.toUInt8 :: encode (String.ofList l) := by
  have hsize : c.utf8Size = 1 := by
    simp [Char.utf8Size, h]
  rw [encode, String.toByteArray_ofList, List.utf8Encode_cons, List.utf8Encode_singleton,
    String.utf8EncodeChar_eq_singleton hsize]
  simp [encode]

theorem encode_ofList {l : List Char} (h : ∀ c ∈ l, c.val ≤ 0x7F) :
    encode (String.ofList l) = l.map (fun c => c.toUInt8) := by
  induction l with
  | nil => rfl
  | cons c l ih =>
      rw [encode_ofList_cons (h c (by simp)), ih (fun d hd => h d (by simp [hd])), List.map_cons]

theorem encode_eq_flatMap (l : List Char) :
    encode (String.ofList l) = l.flatMap String.utf8EncodeChar := by
  rw [encode, String.toByteArray_ofList, List.utf8Encode, List.toList_data_toByteArray]

theorem utf8EncodeChar_high {c : Char} (h : ¬ c.val ≤ 0x7F) :
    ∀ b ∈ String.utf8EncodeChar c, 0x80 ≤ b := by
  intro b hb
  rw [UInt32.le_iff_toNat_le] at h
  have hhigh : ¬ c.val.toNat ≤ 0x7F := h
  rw [UInt8.le_iff_toNat_le]
  change 128 ≤ b.toNat
  simp only [String.utf8EncodeChar, if_neg hhigh] at hb
  split at hb
  · simp only [List.mem_cons, List.not_mem_nil, or_false] at hb
    rcases hb with rfl | rfl <;> rw [UInt8.toNat_ofNat'] <;> omega
  · split at hb
    · simp only [List.mem_cons, List.not_mem_nil, or_false] at hb
      rcases hb with rfl | rfl | rfl <;> rw [UInt8.toNat_ofNat'] <;> omega
    · simp only [List.mem_cons, List.not_mem_nil, or_false] at hb
      rcases hb with rfl | rfl | rfl | rfl <;> rw [UInt8.toNat_ofNat'] <;> omega

theorem encode_all {p : UInt8 → Bool} (hp : ∀ b, 0x80 ≤ b → p b = false) (l : List Char) :
    (encode (String.ofList l)).all p = l.all (fun c => c.val ≤ 0x7F && p c.toUInt8) := by
  rw [encode_eq_flatMap]
  induction l with
  | nil => rfl
  | cons c l ih =>
      rw [List.flatMap_cons, List.all_append, List.all_cons, ih]
      congr 1
      by_cases hc : c.val ≤ 0x7F
      · have hsize : c.utf8Size = 1 := by
          simp [Char.utf8Size, hc]
        simp [String.utf8EncodeChar_eq_singleton hsize, hc]
      · rw [decide_eq_false hc, Bool.false_and, List.all_eq_false]
        have hne := String.utf8EncodeChar_ne_nil (c := c)
        obtain ⟨b, hb⟩ := List.exists_mem_of_ne_nil _ hne
        exact ⟨b, hb, by simp [hp b (utf8EncodeChar_high hc b hb)]⟩

theorem ascii_char_iff {p : UInt8 → Bool} {q : Char → Bool}
    (h : ∀ n : Fin 128, p (Char.ofNat n).toUInt8 = q (Char.ofNat n))
    (hq : ∀ c, 0x7F < c.val → q c = false) (c : Char) :
    (decide (c.val ≤ 0x7F) && p c.toUInt8) = q c := by
  by_cases hc : c.val ≤ 0x7F
  · have hlt : c.toNat < 128 := by
      rw [UInt32.le_iff_toNat_le] at hc
      have hc : c.toNat ≤ 127 := hc
      omega
    have hchar := h ⟨c.toNat, hlt⟩
    rw [Char.ofNat_toNat] at hchar
    simp [hc, hchar]
  · simp [hc, hq c (by simpa using hc)]

/-- The bytes that a text takes. -/
def byteLength (l : List Char) : Nat := (l.map Char.utf8Size).sum

@[simp] theorem byteLength_nil : byteLength [] = 0 := rfl

@[simp] theorem byteLength_cons (c : Char) (l : List Char) :
    byteLength (c :: l) = c.utf8Size + byteLength l := by
  simp [byteLength]

@[simp] theorem byteLength_append (l m : List Char) :
    byteLength (l ++ m) = byteLength l + byteLength m := by
  simp [byteLength]

theorem encode_length (l : List Char) : (encode (String.ofList l)).length = byteLength l := by
  induction l with
  | nil => rfl
  | cons c l ih =>
      rw [encode, String.toByteArray_ofList] at ih
      rw [encode, String.toByteArray_ofList, List.utf8Encode_cons, List.utf8Encode_singleton,
        byteLength_cons, ← ih]
      simp

theorem byteLength_le (l : List Char) : byteLength l ≤ 4 * l.length := by
  induction l with
  | nil => exact Nat.le_refl 0
  | cons c l ih =>
      have hsize := c.utf8Size_le_four
      rw [byteLength_cons, List.length_cons]
      omega

theorem byteLength_flatMap_le {f : Char → List Char} {n : Nat} (h : ∀ c, byteLength (f c) ≤ n)
    (l : List Char) : byteLength (l.flatMap f) ≤ n * l.length := by
  induction l with
  | nil => exact Nat.le_refl 0
  | cons c l ih =>
      have hc := h c
      rw [List.flatMap_cons, byteLength_append, List.length_cons, Nat.mul_succ]
      omega

/-- The text before a byte index and the text from it on. An index within a character, or past the
end, has neither. -/
def splitAt? : List Char → Nat → Option (List Char × List Char)
  | l, 0 => some ([], l)
  | [], _ + 1 => none
  | c :: l, n + 1 =>
      if c.utf8Size ≤ n + 1 then
        (splitAt? l (n + 1 - c.utf8Size)).map (fun cut => (c :: cut.1, cut.2))
      else none

theorem splitAt?_eq_some_iff {l p q : List Char} {n : Nat} :
    splitAt? l n = some (p, q) ↔ l = p ++ q ∧ byteLength p = n := by
  induction l generalizing n p with
  | nil =>
      cases n with
      | zero => cases p <;> simp [splitAt?, eq_comm]
      | succ n => cases p <;> simp [splitAt?]
  | cons c l ih =>
      have hsize := c.utf8Size_pos
      cases n with
      | zero =>
          cases p with
          | nil => simp [splitAt?, eq_comm]
          | cons d p =>
              have hd := d.utf8Size_pos
              simp only [splitAt?, Option.some.injEq, Prod.mk.injEq, byteLength_cons]
              constructor
              · simp
              · omega
      | succ n =>
          rw [splitAt?]
          cases p with
          | nil => split <;> simp
          | cons d p =>
              simp only [List.cons_append, List.cons.injEq, byteLength_cons]
              split
              · rename_i hle
                simp only [Option.map_eq_some_iff, Prod.mk.injEq, List.cons.injEq, Prod.exists]
                constructor
                · rintro ⟨p', q', hcut, ⟨rfl, rfl⟩, rfl⟩
                  obtain ⟨hl, hn⟩ := ih.mp hcut
                  exact ⟨⟨rfl, hl⟩, by omega⟩
                · rintro ⟨⟨rfl, hl⟩, hn⟩
                  exact ⟨p, q, ih.mpr ⟨hl, by omega⟩, ⟨rfl, rfl⟩, rfl⟩
              · simp only [reduceCtorEq, false_iff, not_and]
                rintro ⟨rfl, -⟩
                omega

/-- The end, or the index of the first byte of a character. -/
def IsBoundary (l : List Char) (n : Nat) : Prop :=
  n = byteLength l ∨ ∃ b, (encode (String.ofList l))[n]? = some b ∧ b.IsUTF8FirstByte

theorem splitAt?_isSome_iff {l : List Char} {n : Nat} :
    (splitAt? l n).isSome = true ↔ IsBoundary l n := by
  unfold IsBoundary
  rw [encode_eq_flatMap]
  induction l generalizing n with
  | nil => cases n <;> simp [splitAt?]
  | cons c l ih =>
      have hlength : (String.utf8EncodeChar c).length = c.utf8Size := by simp
      have hpos := c.utf8Size_pos
      rw [List.flatMap_cons]
      by_cases hle : c.utf8Size ≤ n
      · obtain ⟨n, rfl⟩ : ∃ m, n = m + 1 := ⟨n - 1, by omega⟩
        rw [splitAt?, if_pos hle, Option.isSome_map, ih, List.getElem?_append_right (by omega),
          hlength, byteLength_cons]
        constructor
        · rintro (h | h)
          · exact Or.inl (by omega)
          · exact Or.inr h
        · rintro (h | h)
          · exact Or.inl (by omega)
          · exact Or.inr h
      · have hlt : n < (String.utf8EncodeChar c).length := by omega
        rw [List.getElem?_append_left hlt, List.getElem?_eq_getElem hlt, byteLength_cons]
        simp only [Option.some.injEq, exists_eq_left',
          UInt8.isUTF8FirstByte_getElem_utf8EncodeChar]
        cases n with
        | zero => simp [splitAt?]
        | succ n =>
            simp [splitAt?, hle]
            omega

def replacement : Char := Char.ofNat 0xFFFD

def isContinuation (b : UInt8) : Bool := 0x80 ≤ b && b ≤ 0xBF

/-- The second byte of a sequence of three: no overlong form, no surrogate. -/
def isSecondOfThree (lead b : UInt8) : Bool :=
  if lead = 0xE0 then 0xA0 ≤ b && b ≤ 0xBF
  else if lead = 0xED then 0x80 ≤ b && b ≤ 0x9F
  else isContinuation b

/-- The second byte of a sequence of four: no overlong form, nothing past U+10FFFF. -/
def isSecondOfFour (lead b : UInt8) : Bool :=
  if lead = 0xF0 then 0x90 ≤ b && b ≤ 0xBF
  else if lead = 0xF4 then 0x80 ≤ b && b ≤ 0x8F
  else isContinuation b

/-- The scalar value of a lead byte's bits followed by those of its continuation bytes. -/
def scalar (lead : Nat) (rest : List UInt8) : Char :=
  Char.ofNat (rest.foldl (fun value b => value * 64 + b.toNat % 64) lead)

def lossyChars : List UInt8 → List Char
  | [] => []
  | a :: rest =>
      if a < 0x80 then Char.ofNat a.toNat :: lossyChars rest
      else if 0xC2 ≤ a && a ≤ 0xDF then
        match rest with
        | b :: rest' =>
            if isContinuation b then scalar (a.toNat % 32) [b] :: lossyChars rest'
            else replacement :: lossyChars (b :: rest')
        | [] => [replacement]
      else if 0xE0 ≤ a && a ≤ 0xEF then
        match rest with
        | b :: rest' =>
            if isSecondOfThree a b then
              match rest' with
              | c :: rest'' =>
                  if isContinuation c then scalar (a.toNat % 16) [b, c] :: lossyChars rest''
                  else replacement :: lossyChars (c :: rest'')
              | [] => [replacement]
            else replacement :: lossyChars (b :: rest')
        | [] => [replacement]
      else if 0xF0 ≤ a && a ≤ 0xF4 then
        match rest with
        | b :: rest' =>
            if isSecondOfFour a b then
              match rest' with
              | c :: rest'' =>
                  if isContinuation c then
                    match rest'' with
                    | d :: rest''' =>
                        if isContinuation d then
                          scalar (a.toNat % 8) [b, c, d] :: lossyChars rest'''
                        else replacement :: lossyChars (d :: rest''')
                    | [] => [replacement]
                  else replacement :: lossyChars (c :: rest'')
              | [] => [replacement]
            else replacement :: lossyChars (b :: rest')
        | [] => [replacement]
      else replacement :: lossyChars rest

def lossy (bytes : List UInt8) : String := String.ofList (lossyChars bytes)

example : lossy [0x61, 0xC3, 0xA9, 0xE2, 0x82, 0x41] = "aé\uFFFDA" := by decide +kernel

theorem lossyChars_eq_nil {bytes : List UInt8} : lossyChars bytes = [] ↔ bytes = [] := by
  cases bytes with
  | nil => simp [lossyChars]
  | cons a rest =>
      simp only [reduceCtorEq, iff_false]
      rw [lossyChars.eq_def]
      dsimp only
      by_cases hone : a < 0x80
      · simp [hone]
      by_cases htwo : (0xC2 ≤ a && a ≤ 0xDF) = true
      · simp only [hone, htwo, if_true, if_false]
        repeat' split
        all_goals simp
      by_cases hthree : (0xE0 ≤ a && a ≤ 0xEF) = true
      · simp only [hone, htwo, hthree, if_true, if_false]
        repeat' split
        all_goals simp
      by_cases hfour : (0xF0 ≤ a && a ≤ 0xF4) = true
      · simp only [hone, htwo, hthree, hfour, if_true, if_false]
        repeat' split
        all_goals simp
      · simp [hone, htwo, hthree, hfour]

theorem lossy_eq_empty {bytes : List UInt8} : lossy bytes = "" ↔ bytes = [] := by
  rw [lossy, ← lossyChars_eq_nil]
  constructor
  · intro h
    simpa using congrArg String.toList h
  · intro h
    rw [h]

theorem isContinuation_iff {b : UInt8} :
    isContinuation b = true ↔ 128 ≤ b.toNat ∧ b.toNat ≤ 191 := by
  simp only [isContinuation, Bool.and_eq_true, decide_eq_true_eq, UInt8.le_iff_toNat_le]
  exact Iff.rfl

theorem between_iff {low high a : UInt8} :
    (low ≤ a && a ≤ high) = true ↔ low.toNat ≤ a.toNat ∧ a.toNat ≤ high.toNat := by
  simp only [Bool.and_eq_true, decide_eq_true_eq, UInt8.le_iff_toNat_le]

theorem not_between {low high a : UInt8} (h : ¬ (low.toNat ≤ a.toNat ∧ a.toNat ≤ high.toNat)) :
    (low ≤ a && a ≤ high) = false := by
  rw [Bool.eq_false_iff, Ne, between_iff]
  exact h

theorem not_ascii {a : UInt8} (h : 128 ≤ a.toNat) : ¬ a < 0x80 := by
  rw [UInt8.lt_iff_toNat_lt]
  exact Nat.not_lt.mpr h

theorem isSecondOfThree_of {a b : UInt8} (hb : 128 ≤ b.toNat ∧ b.toNat ≤ 191)
    (hlow : a.toNat = 224 → 160 ≤ b.toNat) (hhigh : a.toNat = 237 → b.toNat ≤ 159) :
    isSecondOfThree a b = true := by
  unfold isSecondOfThree
  split
  · rename_i ha
    exact between_iff.mpr ⟨hlow (by rw [ha]; rfl), hb.2⟩
  split
  · rename_i ha
    exact between_iff.mpr ⟨hb.1, hhigh (by rw [ha]; rfl)⟩
  · exact isContinuation_iff.mpr hb

theorem isSecondOfFour_of {a b : UInt8} (hb : 128 ≤ b.toNat ∧ b.toNat ≤ 191)
    (hlow : a.toNat = 240 → 144 ≤ b.toNat) (hhigh : a.toNat = 244 → b.toNat ≤ 143) :
    isSecondOfFour a b = true := by
  unfold isSecondOfFour
  split
  · rename_i ha
    exact between_iff.mpr ⟨hlow (by rw [ha]; rfl), hb.2⟩
  split
  · rename_i ha
    exact between_iff.mpr ⟨hb.1, hhigh (by rw [ha]; rfl)⟩
  · exact isContinuation_iff.mpr hb

theorem lossyChars_one {a : UInt8} (ha : a.toNat < 128) (rest : List UInt8) :
    lossyChars (a :: rest) = Char.ofNat a.toNat :: lossyChars rest := by
  have hone : a < 0x80 := UInt8.lt_iff_toNat_lt.mpr ha
  rw [lossyChars.eq_def]
  simp only [hone, if_true]

theorem lossyChars_two {a b : UInt8} (ha : 194 ≤ a.toNat ∧ a.toNat ≤ 223)
    (hb : isContinuation b = true) (rest : List UInt8) :
    lossyChars (a :: b :: rest) = scalar (a.toNat % 32) [b] :: lossyChars rest := by
  have hone : ¬ a < 0x80 := not_ascii (by omega)
  have htwo : (0xC2 ≤ a && a ≤ 0xDF) = true := between_iff.mpr ha
  rw [lossyChars.eq_def]
  simp only [hone, htwo, hb, if_true, if_false]

theorem lossyChars_three {a b c : UInt8} (ha : 224 ≤ a.toNat ∧ a.toNat ≤ 239)
    (hb : isSecondOfThree a b = true) (hc : isContinuation c = true) (rest : List UInt8) :
    lossyChars (a :: b :: c :: rest) = scalar (a.toNat % 16) [b, c] :: lossyChars rest := by
  have hone : ¬ a < 0x80 := not_ascii (by omega)
  have htwo : (0xC2 ≤ a && a ≤ 0xDF) = false := by
    apply not_between
    change ¬ (194 ≤ _ ∧ _ ≤ 223)
    omega
  have hthree : (0xE0 ≤ a && a ≤ 0xEF) = true := between_iff.mpr ha
  rw [lossyChars.eq_def]
  simp only [hone, htwo, hthree, hb, hc, if_true, if_false, Bool.false_eq_true]

theorem lossyChars_four {a b c d : UInt8} (ha : 240 ≤ a.toNat ∧ a.toNat ≤ 244)
    (hb : isSecondOfFour a b = true) (hc : isContinuation c = true) (hd : isContinuation d = true)
    (rest : List UInt8) :
    lossyChars (a :: b :: c :: d :: rest) = scalar (a.toNat % 8) [b, c, d] :: lossyChars rest := by
  have hone : ¬ a < 0x80 := not_ascii (by omega)
  have htwo : (0xC2 ≤ a && a ≤ 0xDF) = false := by
    apply not_between
    change ¬ (194 ≤ _ ∧ _ ≤ 223)
    omega
  have hthree : (0xE0 ≤ a && a ≤ 0xEF) = false := by
    apply not_between
    change ¬ (224 ≤ _ ∧ _ ≤ 239)
    omega
  have hfour : (0xF0 ≤ a && a ≤ 0xF4) = true := between_iff.mpr ha
  rw [lossyChars.eq_def]
  simp only [hone, htwo, hthree, hfour, hb, hc, hd, if_true, if_false, Bool.false_eq_true]

theorem scalar_eq {c : Char} {lead : Nat} {rest : List UInt8}
    (h : rest.foldl (fun value b => value * 64 + b.toNat % 64) lead = c.val.toNat) :
    scalar lead rest = c := by
  rw [scalar, h]
  exact Char.ofNat_toNat c

theorem lossyChars_utf8EncodeChar (c : Char) (rest : List UInt8) :
    lossyChars (String.utf8EncodeChar c ++ rest) = c :: lossyChars rest := by
  have hvalid := c.valid
  simp only [UInt32.isValidChar, Nat.isValidChar] at hvalid
  have hbyte {n : Nat} (h : n < 256) : (UInt8.ofNat n).toNat = n := by
    rw [UInt8.toNat_ofNat']
    omega
  have hrest (n : Nat) : (UInt8.ofNat (n % 64 + 128)).toNat = n % 64 + 128 := hbyte (by omega)
  simp only [String.utf8EncodeChar]
  generalize hv : c.val.toNat = v at hvalid
  -- the four lengths
  split
  · have ha : (UInt8.ofNat v).toNat = v := hbyte (by omega)
    rw [List.singleton_append, lossyChars_one (by omega), ha, ← hv]
    exact congrArg (· :: lossyChars rest) (Char.ofNat_toNat c)
  split
  · have ha : (UInt8.ofNat (v / 64 % 32 + 192)).toNat = v / 64 + 192 := by
      rw [hbyte (by omega)]
      omega
    have hb := hrest v
    simp only [List.cons_append, List.nil_append]
    rw [lossyChars_two (by omega) (isContinuation_iff.mpr (by omega)), scalar_eq]
    simp only [List.foldl_cons, List.foldl_nil]
    omega
  split
  · have ha : (UInt8.ofNat (v / 4096 % 16 + 224)).toNat = v / 4096 + 224 := by
      rw [hbyte (by omega)]
      omega
    have hb := hrest (v / 64)
    have hd := hrest v
    simp only [List.cons_append, List.nil_append]
    rw [lossyChars_three (by omega) (isSecondOfThree_of (by omega) (by omega) (by omega))
      (isContinuation_iff.mpr (by omega)), scalar_eq]
    simp only [List.foldl_cons, List.foldl_nil]
    omega
  · have ha : (UInt8.ofNat (v / 262144 % 8 + 240)).toNat = v / 262144 + 240 := by
      rw [hbyte (by omega)]
      omega
    have hb := hrest (v / 4096)
    have hd := hrest (v / 64)
    have he := hrest v
    simp only [List.cons_append, List.nil_append]
    rw [lossyChars_four (by omega) (isSecondOfFour_of (by omega) (by omega) (by omega))
      (isContinuation_iff.mpr (by omega)) (isContinuation_iff.mpr (by omega)), scalar_eq]
    simp only [List.foldl_cons, List.foldl_nil]
    omega

/-- The bytes of a text are read as that text. -/
theorem lossy_encode (text : String) : lossy (encode text) = text := by
  have hchars (l : List Char) : lossyChars (l.flatMap String.utf8EncodeChar) = l := by
    induction l with
    | nil => simp [lossyChars]
    | cons c l ih => rw [List.flatMap_cons, lossyChars_utf8EncodeChar, ih]
  rw [← String.ofList_toList (s := text), encode_eq_flatMap, lossy, hchars]

end YohakuCore.Framework.Utf8
