import Mathlib

/-!
Base64URL without padding. The decoder accepts canonical text only: no padding,
no character outside the alphabet, and no bits left over in the last group.
-/

namespace Authguard.Base64Url

def digit (value : Nat) : Char :=
  if value < 26 then Char.ofNat (65 + value)
  else if value < 52 then Char.ofNat (71 + value)
  else if value < 62 then Char.ofNat (value - 4)
  else if value = 62 then '-'
  else '_'

def value (c : Char) : Option Nat :=
  let n := c.toNat
  if 65 ≤ n ∧ n ≤ 90 then some (n - 65)
  else if 97 ≤ n ∧ n ≤ 122 then some (n - 71)
  else if 48 ≤ n ∧ n ≤ 57 then some (n + 4)
  else if c = '-' then some 62
  else if c = '_' then some 63
  else none

def isDigit (c : Char) : Bool := (value c).isSome

def encodeDigits : List UInt8 → List Nat
  | [] => []
  | [a] => [a.toNat / 4, a.toNat % 4 * 16]
  | [a, b] => [a.toNat / 4, a.toNat % 4 * 16 + b.toNat / 16, b.toNat % 16 * 4]
  | a :: b :: c :: rest =>
      a.toNat / 4 :: (a.toNat % 4 * 16 + b.toNat / 16) :: (b.toNat % 16 * 4 + c.toNat / 64) ::
        c.toNat % 64 :: encodeDigits rest

def encode (bytes : List UInt8) : String := String.ofList ((encodeDigits bytes).map digit)

def decodeDigits : List Nat → Option (List UInt8)
  | [] => some []
  | [_] => none
  | [p, q] => if q % 16 = 0 then some [UInt8.ofNat (p * 4 + q / 16)] else none
  | [p, q, r] =>
      if r % 4 = 0 then
        some [UInt8.ofNat (p * 4 + q / 16), UInt8.ofNat (q % 16 * 16 + r / 4)]
      else none
  | p :: q :: r :: s :: rest =>
      (decodeDigits rest).map fun bytes =>
        UInt8.ofNat (p * 4 + q / 16) :: UInt8.ofNat (q % 16 * 16 + r / 4) ::
          UInt8.ofNat (r % 4 * 64 + s) :: bytes

/-- The values of the characters, when all are in the alphabet. -/
def values : List Char → Option (List Nat)
  | [] => some []
  | c :: cs => (value c).bind fun first => (values cs).map (first :: ·)

def decode (text : String) : Option (List UInt8) := (values text.toList).bind decodeDigits

theorem value_digit {n : Nat} (h : n < 64) : value (digit n) = some n := by
  have hall : ∀ i : Fin 64, value (digit i) = some i.val := by decide
  exact hall ⟨n, h⟩

theorem values_map_digit {digits : List Nat} (h : ∀ n ∈ digits, n < 64) :
    values (digits.map digit) = some digits := by
  induction digits with
  | nil => rfl
  | cons n digits ih =>
      rw [List.forall_mem_cons] at h
      rw [List.map_cons, values, value_digit h.1, ih h.2]
      rfl

theorem encodeDigits_lt (bytes : List UInt8) : ∀ n ∈ encodeDigits bytes, n < 64 := by
  fun_induction encodeDigits bytes with
  | case1 => simp
  | case2 a =>
      have ha := a.toNat_lt
      simp only [List.mem_cons, List.not_mem_nil, or_false, forall_eq_or_imp, forall_eq]
      omega
  | case3 a b =>
      have ha := a.toNat_lt
      have hb := b.toNat_lt
      simp only [List.mem_cons, List.not_mem_nil, or_false, forall_eq_or_imp, forall_eq]
      omega
  | case4 a b c rest ih =>
      have ha := a.toNat_lt
      have hb := b.toNat_lt
      have hc := c.toNat_lt
      simp only [List.mem_cons, forall_eq_or_imp]
      exact ⟨by omega, by omega, by omega, by omega, ih⟩

theorem ofNat_eq_of_toNat {n : Nat} (byte : UInt8) (h : n = byte.toNat) : UInt8.ofNat n = byte := by
  rw [h, UInt8.ofNat_toNat]

theorem decodeDigits_encodeDigits (bytes : List UInt8) :
    decodeDigits (encodeDigits bytes) = some bytes := by
  fun_induction encodeDigits bytes with
  | case1 => rfl
  | case2 a =>
      rw [decodeDigits, if_pos (by omega), ofNat_eq_of_toNat a (by omega)]
  | case3 a b =>
      have hb := b.toNat_lt
      rw [decodeDigits, if_pos (by omega), ofNat_eq_of_toNat a (by omega),
        ofNat_eq_of_toNat b (by omega)]
  | case4 a b c rest ih =>
      have hb := b.toNat_lt
      have hc := c.toNat_lt
      rw [decodeDigits, ih, ofNat_eq_of_toNat a (by omega),
        ofNat_eq_of_toNat b (by omega), ofNat_eq_of_toNat c (by omega)]
      rfl

theorem decode_encode (bytes : List UInt8) : decode (encode bytes) = some bytes := by
  rw [decode, encode, String.toList_ofList, values_map_digit (encodeDigits_lt bytes)]
  exact decodeDigits_encodeDigits bytes

theorem isDigit_of_mem_encode {bytes : List UInt8} {c : Char} (h : c ∈ (encode bytes).toList) :
    isDigit c = true := by
  rw [encode, String.toList_ofList] at h
  obtain ⟨n, hn, rfl⟩ := List.mem_map.mp h
  rw [isDigit, value_digit (encodeDigits_lt bytes n hn)]
  rfl

theorem isDigit_bounds {c : Char} (h : isDigit c = true) : 45 ≤ c.toNat ∧ c.toNat ≤ 122 := by
  simp only [isDigit, value] at h
  split at h
  · omega
  · split at h
    · omega
    · split at h
      · omega
      · split at h
        · rename_i hc
          rw [hc]
          decide
        · split at h
          · rename_i hc
            rw [hc]
            decide
          · cases h

theorem isDigit_ne_dot {c : Char} (h : isDigit c = true) : c ≠ '.' := by
  rintro rfl
  cases h

theorem encode_length (bytes : List UInt8) :
    (encode bytes).toList.length = (bytes.length * 4 + 2) / 3 := by
  rw [encode, String.toList_ofList, List.length_map]
  fun_induction encodeDigits bytes with
  | case1 | case2 | case3 => simp
  | case4 a b c rest ih =>
      simp only [List.length_cons, ih]
      omega

theorem encode_ne_empty {bytes : List UInt8} (h : bytes ≠ []) : encode bytes ≠ "" := by
  intro hempty
  have hlength := encode_length bytes
  rw [hempty] at hlength
  have hpos := List.length_pos_iff.mpr h
  simp only [String.toList_empty, List.length_nil] at hlength
  omega

theorem digit_value {c : Char} {n : Nat} (h : value c = some n) : n < 64 ∧ digit n = c := by
  simp only [value] at h
  split at h
  · cases h
    refine ⟨by omega, ?_⟩
    rw [digit, if_pos (by omega), Nat.add_sub_cancel' (by omega), Char.ofNat_toNat]
  · split at h
    · cases h
      refine ⟨by omega, ?_⟩
      rw [digit, if_neg (by omega), if_pos (by omega), Nat.add_sub_cancel' (by omega),
        Char.ofNat_toNat]
    · split at h
      · cases h
        refine ⟨by omega, ?_⟩
        rw [digit, if_neg (by omega), if_neg (by omega), if_pos (by omega), Nat.add_sub_cancel,
          Char.ofNat_toNat]
      · split at h
        · rename_i hminus
          cases h
          exact ⟨by omega, hminus ▸ rfl⟩
        · split at h
          · rename_i hline
            cases h
            exact ⟨by omega, hline ▸ rfl⟩
          · cases h

theorem values_eq_some {cs : List Char} {digits : List Nat} (h : values cs = some digits) :
    (∀ n ∈ digits, n < 64) ∧ digits.map digit = cs := by
  induction cs generalizing digits with
  | nil =>
      cases h
      exact ⟨fun n hn => absurd hn List.not_mem_nil, rfl⟩
  | cons c cs ih =>
      obtain ⟨first, hfirst, h⟩ := Option.bind_eq_some_iff.mp h
      obtain ⟨rest, hrest, rfl⟩ := Option.map_eq_some_iff.mp h
      obtain ⟨hbound, hmap⟩ := ih hrest
      obtain ⟨hlt, hdigit⟩ := digit_value hfirst
      exact ⟨List.forall_mem_cons.mpr ⟨hlt, hbound⟩, by rw [List.map_cons, hdigit, hmap]⟩

theorem encodeDigits_of_decodeDigits {digits : List Nat} {bytes : List UInt8}
    (hbound : ∀ n ∈ digits, n < 64) (h : decodeDigits digits = some bytes) :
    encodeDigits bytes = digits := by
  fun_induction decodeDigits digits generalizing bytes with
  | case1 =>
      cases h
      rfl
  | case2 => cases h
  | case3 p q hrest =>
      cases h
      simp only [List.mem_cons, List.not_mem_nil, or_false, forall_eq_or_imp, forall_eq] at hbound
      simp only [encodeDigits, UInt8.toNat_ofNat']
      rw [List.cons.injEq, List.cons.injEq, and_iff_left rfl]
      exact ⟨by omega, by omega⟩
  | case4 => cases h
  | case5 p q r hrest =>
      cases h
      simp only [List.mem_cons, List.not_mem_nil, or_false, forall_eq_or_imp, forall_eq] at hbound
      simp only [encodeDigits, UInt8.toNat_ofNat', List.cons.injEq, and_true]
      exact ⟨by omega, by omega, by omega⟩
  | case6 => cases h
  | case7 p q r s rest ih =>
      obtain ⟨tail, htail, rfl⟩ := Option.map_eq_some_iff.mp h
      simp only [List.mem_cons, forall_eq_or_imp] at hbound
      obtain ⟨hp, hq, hr, hs, hrest⟩ := hbound
      simp only [encodeDigits, UInt8.toNat_ofNat', List.cons.injEq]
      exact ⟨by omega, by omega, by omega, by omega, ih hrest htail⟩

/-- The decoder accepts nothing but what the encoder writes. -/
theorem encode_of_decode {text : String} {bytes : List UInt8} (h : decode text = some bytes) :
    encode bytes = text := by
  obtain ⟨digits, hdigits, h⟩ := Option.bind_eq_some_iff.mp h
  obtain ⟨hbound, hmap⟩ := values_eq_some hdigits
  rw [encode, encodeDigits_of_decodeDigits hbound h, hmap, String.ofList_toList]

end Authguard.Base64Url
