-- Percent-encoding and its undoing. An encoding that also encodes the percent sign
-- loses nothing: what it writes stands for what it was given.
import Provisioning.Proofs.Text.Utf8
import Provisioning.Url.Percent

namespace Provisioning.Percent

/-! ## Bytes -/

theorem hexDigit?_upperHexDigit : ∀ d < 16, hexDigit? (upperHexDigit d) = some d := by
  decide

theorem upperHexDigit_ne_slash : ∀ d < 16, upperHexDigit d ≠ '/' := by
  decide

theorem decodeBytes_encodeByte (b : UInt8) (rest : List Char) :
    decodeBytes (encodeByte b ++ rest) = b :: decodeBytes rest := by
  have hb : b.toNat < 256 := b.toNat_lt
  have hvalue : b.toNat / 16 * 16 + b.toNat % 16 = b.toNat := by omega
  simp only [encodeByte, List.cons_append, List.nil_append, decodeBytes,
    hexDigit?_upperHexDigit _ (show b.toNat / 16 < 16 by omega),
    hexDigit?_upperHexDigit _ (show b.toNat % 16 < 16 by omega), hvalue, UInt8.ofNat_toNat]

theorem decodeBytes_flatMap_encodeByte (bytes : List UInt8) (rest : List Char) :
    decodeBytes (bytes.flatMap encodeByte ++ rest) = bytes ++ decodeBytes rest := by
  induction bytes with
  | nil => rfl
  | cons b bytes ih =>
    rw [List.flatMap_cons, List.append_assoc, decodeBytes_encodeByte, ih, List.cons_append]

theorem slash_notMem_encodeByte (b : UInt8) : '/' ∉ encodeByte b := by
  have hb : b.toNat < 256 := b.toNat_lt
  have hhigh := upperHexDigit_ne_slash (b.toNat / 16) (by omega)
  have hlow := upperHexDigit_ne_slash (b.toNat % 16) (by omega)
  simp [encodeByte, hhigh.symm, hlow.symm]

/-! ## Characters -/

/-- A character that is no percent sign stands for its own bytes. -/
theorem decodeBytes_cons {c : Char} (h : c ≠ '%') (rest : List Char) :
    decodeBytes (c :: rest) = String.utf8EncodeChar c ++ decodeBytes rest := by
  rw [decodeBytes]
  intro _ _ _ hc
  exact absurd hc h

section
variable {set : EncodedSet}

theorem isPlain_of_mem {c : Char} (h : c ∈ set) : isPlain set c = false := by
  simp [isPlain, h]

theorem decodeBytes_encodeChar (hpercent : '%' ∈ set) (c : Char) (rest : List Char) :
    decodeBytes (encodeChar set c ++ rest) = String.utf8EncodeChar c ++ decodeBytes rest := by
  unfold encodeChar
  split
  case isTrue hplain =>
    apply decodeBytes_cons
    rintro rfl
    rw [isPlain_of_mem hpercent] at hplain
    cases hplain
  case isFalse => exact decodeBytes_flatMap_encodeByte ..

/-- Only a slash is written with one. -/
theorem eq_slash_of_mem_encodeChar {c : Char} (h : '/' ∈ encodeChar set c) : c = '/' := by
  unfold encodeChar at h
  split at h
  case isTrue => exact (List.mem_singleton.mp h).symm
  case isFalse =>
    obtain ⟨b, -, hb⟩ := List.mem_flatMap.mp h
    exact absurd hb (slash_notMem_encodeByte b)

theorem slash_notMem_encodeChar (hslash : '/' ∈ set) (c : Char) : '/' ∉ encodeChar set c := by
  intro h
  rw [eq_slash_of_mem_encodeChar h] at h
  unfold encodeChar at h
  rw [isPlain_of_mem hslash, if_neg Bool.false_ne_true] at h
  obtain ⟨b, -, hb⟩ := List.mem_flatMap.mp h
  exact slash_notMem_encodeByte b hb

/-! ## Texts -/

theorem decodeBytes_encode (hpercent : '%' ∈ set) (cs : List Char) :
    decodeBytes (encode set cs) = cs.flatMap String.utf8EncodeChar := by
  induction cs with
  | nil => rfl
  | cons c cs ih =>
    rw [encode, List.flatMap_cons, decodeBytes_encodeChar hpercent, ← encode, ih,
      List.flatMap_cons]

/-- A text whose bytes are those of some characters stands for these. -/
theorem decode?_of_decodeBytes {text cs : List Char}
    (h : decodeBytes text = cs.flatMap String.utf8EncodeChar) : decode? text = some cs := by
  have hall : cs.mapM (fun c => some (id c)) = some (cs.map id) := List.mapM_pure
  rw [List.map_id] at hall
  rw [decode?, h, Utf8.decode_flatMap_utf8EncodeChar, List.mapM_map]
  exact hall

/-- What is encoded is read back. -/
theorem decode?_encode (hpercent : '%' ∈ set) (cs : List Char) :
    decode? (encode set cs) = some cs :=
  decode?_of_decodeBytes (decodeBytes_encode hpercent cs)

theorem slash_notMem_encode (hslash : '/' ∈ set) (cs : List Char) : '/' ∉ encode set cs := by
  intro h
  obtain ⟨c, -, hc⟩ := List.mem_flatMap.mp h
  exact slash_notMem_encodeChar hslash c hc

theorem slash_mem_of_encode {cs : List Char} (h : '/' ∈ encode set cs) : '/' ∈ cs := by
  obtain ⟨c, hc, hslash⟩ := List.mem_flatMap.mp h
  rw [eq_slash_of_mem_encodeChar hslash] at hc
  exact hc

end

end Provisioning.Percent
