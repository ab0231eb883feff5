-- Characters from bytes and bytes from characters: what a text is written as is
-- read back as the text.
import Provisioning.Text.Utf8

namespace Provisioning.Utf8

/-! ## First bytes -/

theorem decode_cons {b : UInt8} {owed low high bits : Nat}
    (h : lead b.toNat = some (owed, low, high, bits)) (rest : List UInt8) :
    decode (b :: rest) =
      (follow owed low high bits 0 rest).1 ::
        decode (rest.drop (follow owed low high bits 0 rest).2) := by
  rw [decode, h]

theorem toNat_ofNat_of_lt {n : Nat} (h : n < 256) : (UInt8.ofNat n).toNat = n := by
  rw [UInt8.toNat_ofNat', Nat.mod_eq_of_lt h]

theorem lead_of_one {v : Nat} (h : v ≤ 0x7F) : lead v = some (0, 0x80, 0xBF, v) := by
  rw [lead, if_pos (by omega)]

theorem lead_of_two {v : Nat} (hlow : 0x7F < v) (hhigh : v ≤ 0x7FF) :
    lead (v / 64 % 32 + 192) = some (1, 0x80, 0xBF, v / 64) := by
  have hbits : v / 64 % 32 + 192 - 0xC0 = v / 64 := by omega
  rw [lead, if_neg (by omega), if_neg (by omega), if_pos (by omega), hbits]

/-- Three bytes are for what two cannot hold, less the code points that are no
characters; so the range of the second byte depends on the first. -/
theorem lead_of_three {v : Nat} (hlow : 0x7FF < v) (hhigh : v ≤ 0xFFFF)
    (hvalid : v < 0xD800 ∨ 0xDFFF < v) :
    ∃ low high, lead (v / 4096 % 16 + 224) = some (2, low, high, v / 4096) ∧
      low ≤ v / 64 % 64 + 128 ∧ v / 64 % 64 + 128 ≤ high := by
  have hlead : v / 4096 % 16 + 224 = v / 4096 + 0xE0 := by omega
  have hbits : v / 4096 + 0xE0 - 0xE0 = v / 4096 := by omega
  rw [hlead, lead, if_neg (by omega), if_neg (by omega), if_neg (by omega)]
  by_cases hfirst : v / 4096 = 0
  · rw [if_pos (by omega), hfirst]
    exact ⟨0xA0, 0xBF, rfl, by omega, by omega⟩
  · rw [if_neg (by omega)]
    by_cases hlast : v / 4096 = 0xD
    · rw [if_pos (by omega), hlast]
      exact ⟨0x80, 0x9F, rfl, by omega, by omega⟩
    · rw [if_neg (by omega), if_pos (by omega), hbits]
      exact ⟨0x80, 0xBF, rfl, by omega, by omega⟩

theorem lead_of_four {v : Nat} (hlow : 0xFFFF < v) (hhigh : v < 0x110000) :
    ∃ low high, lead (v / 262144 % 8 + 240) = some (3, low, high, v / 262144) ∧
      low ≤ v / 4096 % 64 + 128 ∧ v / 4096 % 64 + 128 ≤ high := by
  have hlead : v / 262144 % 8 + 240 = v / 262144 + 0xF0 := by omega
  have hbits : v / 262144 + 0xF0 - 0xF0 = v / 262144 := by omega
  rw [hlead, lead, if_neg (by omega), if_neg (by omega), if_neg (by omega), if_neg (by omega),
    if_neg (by omega), if_neg (by omega)]
  by_cases hfirst : v / 262144 = 0
  · rw [if_pos (by omega), hfirst]
    exact ⟨0x90, 0xBF, rfl, by omega, by omega⟩
  · rw [if_neg (by omega)]
    by_cases hlast : v / 262144 = 4
    · rw [if_neg (by omega), if_pos (by omega), hlast]
      exact ⟨0x80, 0x8F, rfl, by omega, by omega⟩
    · rw [if_pos (by omega), hbits]
      exact ⟨0x80, 0xBF, rfl, by omega, by omega⟩

/-! ## Further bytes -/

theorem follow_nothing (low high bits taken : Nat) (rest : List UInt8) :
    follow 0 low high bits taken rest = (some (Char.ofNat bits), taken) := rfl

theorem follow_byte {low high t : Nat} (hlow : low ≤ t % 64 + 128) (hhigh : t % 64 + 128 ≤ high)
    (owed bits taken : Nat) (rest : List UInt8) :
    follow (owed + 1) low high bits taken (UInt8.ofNat (t % 64 + 128) :: rest) =
      follow owed 0x80 0xBF (bits * 64 + t % 64) (taken + 1) rest := by
  have hbyte : (UInt8.ofNat (t % 64 + 128)).toNat = t % 64 + 128 := toNat_ofNat_of_lt (by omega)
  rw [follow, hbyte, if_pos ⟨hlow, hhigh⟩, Nat.add_sub_cancel]

/-- A byte after the second may be any that goes on. -/
theorem follow_later_byte (owed t bits taken : Nat) (rest : List UInt8) :
    follow (owed + 1) 0x80 0xBF bits taken (UInt8.ofNat (t % 64 + 128) :: rest) =
      follow owed 0x80 0xBF (bits * 64 + t % 64) (taken + 1) rest :=
  follow_byte (by omega) (by omega) owed bits taken rest

/-! ## Characters -/

section
variable {v : Nat} (rest : List UInt8)

theorem decode_of_one (h : v ≤ 0x7F) :
    decode (UInt8.ofNat v :: rest) = some (Char.ofNat v) :: decode rest := by
  have hlead : lead (UInt8.ofNat v).toNat = some (0, 0x80, 0xBF, v) := by
    rw [toNat_ofNat_of_lt (by omega), lead_of_one h]
  rw [decode_cons hlead, follow_nothing]
  rfl

theorem decode_of_two (hlow : 0x7F < v) (hhigh : v ≤ 0x7FF) :
    decode (UInt8.ofNat (v / 64 % 32 + 192) :: UInt8.ofNat (v % 64 + 128) :: rest) =
      some (Char.ofNat v) :: decode rest := by
  have hlead : lead (UInt8.ofNat (v / 64 % 32 + 192)).toNat = some (1, 0x80, 0xBF, v / 64) := by
    rw [toNat_ofNat_of_lt (by omega), lead_of_two hlow hhigh]
  have hbits : v / 64 * 64 + v % 64 = v := by omega
  rw [decode_cons hlead, follow_later_byte, follow_nothing, hbits]
  rfl

theorem decode_of_three (hlow : 0x7FF < v) (hhigh : v ≤ 0xFFFF)
    (hvalid : v < 0xD800 ∨ 0xDFFF < v) :
    decode (UInt8.ofNat (v / 4096 % 16 + 224) :: UInt8.ofNat (v / 64 % 64 + 128) ::
        UInt8.ofNat (v % 64 + 128) :: rest) =
      some (Char.ofNat v) :: decode rest := by
  obtain ⟨low, high, hlead, hfrom, hto⟩ := lead_of_three hlow hhigh hvalid
  rw [← toNat_ofNat_of_lt (n := v / 4096 % 16 + 224) (by omega)] at hlead
  have hbits : (v / 4096 * 64 + v / 64 % 64) * 64 + v % 64 = v := by omega
  rw [decode_cons hlead, follow_byte hfrom hto, follow_later_byte, follow_nothing, hbits]
  rfl

theorem decode_of_four (hlow : 0xFFFF < v) (hhigh : v < 0x110000) :
    decode (UInt8.ofNat (v / 262144 % 8 + 240) :: UInt8.ofNat (v / 4096 % 64 + 128) ::
        UInt8.ofNat (v / 64 % 64 + 128) :: UInt8.ofNat (v % 64 + 128) :: rest) =
      some (Char.ofNat v) :: decode rest := by
  obtain ⟨low, high, hlead, hfrom, hto⟩ := lead_of_four hlow hhigh
  rw [← toNat_ofNat_of_lt (n := v / 262144 % 8 + 240) (by omega)] at hlead
  have hbits : ((v / 262144 * 64 + v / 4096 % 64) * 64 + v / 64 % 64) * 64 + v % 64 = v := by
    omega
  rw [decode_cons hlead, follow_byte hfrom hto, follow_later_byte, follow_later_byte,
    follow_nothing, hbits]
  rfl

theorem decode_utf8EncodeChar (c : Char) :
    decode (String.utf8EncodeChar c ++ rest) = some c :: decode rest := by
  have hvalid : c.val.toNat < 0xD800 ∨ 0xDFFF < c.val.toNat ∧ c.val.toNat < 0x110000 := c.valid
  have hchar : Char.ofNat c.val.toNat = c := Char.ofNat_toNat c
  unfold String.utf8EncodeChar
  dsimp only
  generalize c.val.toNat = v at hvalid hchar
  subst hchar
  split
  · exact decode_of_one rest ‹_›
  split
  · exact decode_of_two rest (by omega) ‹_›
  split
  · exact decode_of_three rest (by omega) ‹_› (by omega)
  · exact decode_of_four rest (by omega) (by omega)

end

/-- The bytes of a text are read back as the text. -/
theorem decode_flatMap_utf8EncodeChar (cs : List Char) :
    decode (cs.flatMap String.utf8EncodeChar) = cs.map some := by
  induction cs with
  | nil => rw [List.flatMap_nil, decode, List.map_nil]
  | cons c cs ih => rw [List.flatMap_cons, decode_utf8EncodeChar, ih, List.map_cons]

theorem lenient_utf8Bytes (text : String) : lenient (utf8Bytes text) = text := by
  unfold lenient utf8Bytes
  rw [decode_flatMap_utf8EncodeChar, List.map_map]
  change String.ofList (text.toList.map id) = text
  rw [List.map_id, String.ofList_toList]

theorem strict_utf8Bytes (text : String) : strict (utf8Bytes text) = some text := by
  have hpresent : ∀ cs : List Char, (cs.map some).mapM id = some cs := by
    intro cs
    induction cs with
    | nil => rfl
    | cons c cs ih => simp [List.mapM_cons, ih]
  unfold strict utf8Bytes
  rw [decode_flatMap_utf8EncodeChar, hpresent, Option.map_some, String.ofList_toList]

end Provisioning.Utf8
