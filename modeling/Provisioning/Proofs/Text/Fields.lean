-- Numbers in fields of fixed widths, with zeros in front: a text of such fields sorts, by its
-- characters and by its bytes, as the list of its numbers does.
import Mathlib.Algebra.Group.Nat.Defs
import Mathlib.Data.List.Forall2
import Mathlib.Data.List.Induction
import Provisioning.Proofs.Text.Digits
import Provisioning.Text.Utf8
import Provisioning.Time.Timestamp

namespace Provisioning

/-! ## The order of lists -/

/-- Behind parts of one length, the rests decide only when the parts are equal. -/
theorem append_lt_append_iff {α : Type} [LT α] {as bs cs ds : List α}
    (h : as.length = cs.length) : as ++ bs < cs ++ ds ↔ as < cs ∨ as = cs ∧ bs < ds := by
  induction as generalizing cs with
  | nil =>
    rw [List.eq_nil_of_length_eq_zero h.symm]
    simp
  | cons a as ih =>
    cases cs with
    | nil => simp at h
    | cons c cs =>
      have htail : as.length = cs.length := by simpa using h
      rw [List.cons_append, List.cons_append, List.cons_lt_cons_iff, List.cons_lt_cons_iff,
        ih htail, List.cons_eq_cons]
      tauto

/-- Two lists are equal when neither is before the other. -/
theorem eq_iff_not_lt {α : Type} [LT α] [Std.Irrefl (α := α) (· < ·)] [Std.Asymm (α := α) (· < ·)]
    [Std.Trichotomous (α := α) (· < ·)] {xs ys : List α} : xs = ys ↔ ¬ xs < ys ∧ ¬ ys < xs := by
  constructor
  · rintro rfl
    exact ⟨List.lt_irrefl xs, List.lt_irrefl xs⟩
  · rintro ⟨hlow, hhigh⟩
    exact List.le_antisymm hhigh hlow

/-- A map that keeps the order of the members keeps that of the lists. -/
theorem map_lt_map_iff {α β : Type} [LT α] [LT β] {f : α → β} (hlt : ∀ x y, f x < f y ↔ x < y)
    (heq : ∀ x y, f x = f y ↔ x = y) {xs ys : List α} : xs.map f < ys.map f ↔ xs < ys := by
  induction xs generalizing ys with
  | nil => cases ys <;> simp
  | cons x xs ih =>
    cases ys with
    | nil => simp
    | cons y ys =>
      rw [List.map_cons, List.map_cons, List.cons_lt_cons_iff, List.cons_lt_cons_iff, hlt, heq, ih]

theorem map_toNat_lt_iff {cs ds : List Char} :
    cs.map Char.toNat < ds.map Char.toNat ↔ cs < ds :=
  map_lt_map_iff (f := Char.toNat) (fun _ _ => Iff.rfl) fun _ _ => Char.toNat_inj

/-! ## Digits -/

theorem digitsValue_cons (d : Nat) (ds : List Nat) :
    digitsValue (d :: ds) = d * 10 ^ ds.length + digitsValue ds := by
  induction ds using List.reverseRecOn with
  | nil => simp [digitsValue]
  | append_singleton ds e ih =>
    rw [← List.cons_append, digitsValue_append, digitsValue_append, ih, List.length_append,
      List.length_singleton, Nat.pow_succ, Nat.add_mul, Nat.mul_assoc, Nat.add_assoc]

theorem digitsValue_lt {ds : List Nat} (h : ∀ d ∈ ds, d < 10) :
    digitsValue ds < 10 ^ ds.length := by
  induction ds with
  | nil => simp [digitsValue]
  | cons d ds ih =>
    rw [List.forall_mem_cons] at h
    have hrest := ih h.2
    have htop : d * 10 ^ ds.length ≤ 9 * 10 ^ ds.length := Nat.mul_le_mul_right _ (by omega)
    rw [digitsValue_cons, List.length_cons, Nat.pow_succ]
    omega

/-- Of two multiples of a base, each with less than the base added, the multiples decide
first. -/
theorem mul_add_lt_iff {a b m n base : Nat} (hm : m < base) (hn : n < base) :
    a * base + m < b * base + n ↔ a < b ∨ a = b ∧ m < n := by
  rcases Nat.lt_trichotomy a b with hab | rfl | hab
  · have hmul := Nat.mul_le_mul_right base (Nat.succ_le_of_lt hab)
    rw [Nat.succ_mul] at hmul
    omega
  · omega
  · have hmul := Nat.mul_le_mul_right base (Nat.succ_le_of_lt hab)
    rw [Nat.succ_mul] at hmul
    omega

/-- Digits, as many on one side as on the other, sort as their values. -/
theorem digitsValue_lt_iff {ds es : List Nat} (hlen : ds.length = es.length)
    (hds : ∀ d ∈ ds, d < 10) (hes : ∀ e ∈ es, e < 10) :
    digitsValue ds < digitsValue es ↔ ds < es := by
  induction ds generalizing es with
  | nil =>
    rw [List.eq_nil_of_length_eq_zero hlen.symm]
    simp
  | cons d ds ih =>
    cases es with
    | nil => simp at hlen
    | cons e es =>
      have htail : ds.length = es.length := by simpa using hlen
      rw [List.forall_mem_cons] at hds hes
      have hvalue := digitsValue_lt hds.2
      rw [htail] at hvalue
      rw [digitsValue_cons, digitsValue_cons, htail, mul_add_lt_iff hvalue (digitsValue_lt hes.2),
        List.cons_lt_cons_iff, ih htail hds.2 hes.2]

/-- The codes of the digits follow one another. -/
theorem map_toNat_digitChars {ds : List Nat} (h : ∀ d ∈ ds, d < 10) :
    (digitChars ds).map Char.toNat = ds.map (· + '0'.toNat) := by
  rw [digitChars, List.map_map]
  have hcode : ∀ d < 10, (Nat.digitChar d).toNat = d + '0'.toNat := by decide
  exact List.map_congr_left fun d hd => hcode d (h d hd)

theorem digitChars_lt_iff {ds es : List Nat} (hds : ∀ d ∈ ds, d < 10) (hes : ∀ e ∈ es, e < 10) :
    digitChars ds < digitChars es ↔ ds < es := by
  rw [← map_toNat_lt_iff, map_toNat_digitChars hds, map_toNat_digitChars hes]
  exact map_lt_map_iff (fun _ _ => Nat.add_lt_add_iff_right) fun _ _ => Nat.add_right_cancel_iff

theorem isDigit_of_mem_digitChars {ds : List Nat} (h : ∀ d ∈ ds, d < 10) {c : Char}
    (hc : c ∈ digitChars ds) : c.isDigit = true := by
  obtain ⟨d, hd, rfl⟩ := List.mem_map.mp hc
  have hdigit : ∀ d < 10, (Nat.digitChar d).isDigit = true := by decide
  exact hdigit d (h d hd)

/-! ## A number with zeros in front -/

/-- The digits of a number with zeros in front up to a width. -/
def paddedDigits (width n : Nat) : List Nat :=
  List.replicate (width - (decimalDigits n).length) 0 ++ decimalDigits n

namespace Timestamp

theorem padded_eq_digitChars (width n : Nat) :
    padded width n = digitChars (paddedDigits width n) := by
  rw [padded, paddedDigits, digitChars_append, digitChars_replicate_zero,
    digitChars_decimalDigits, decimalDigits_length]

theorem lt_of_mem_paddedDigits {width n d : Nat} (h : d ∈ paddedDigits width n) : d < 10 := by
  rcases List.mem_append.mp h with h | h
  · rw [List.eq_of_mem_replicate h]
    decide
  · exact lt_of_mem_decimalDigits h

theorem digitsValue_paddedDigits (width n : Nat) : digitsValue (paddedDigits width n) = n := by
  rw [paddedDigits]
  induction width - (decimalDigits n).length with
  | zero => exact digitsValue_decimalDigits n
  | succ k ih =>
    rw [List.replicate_succ, List.cons_append, digitsValue_cons, ih, Nat.zero_mul, Nat.zero_add]

variable {width m n : Nat}

theorem length_padded (hpos : 0 < width) (h : n < 10 ^ width) : (padded width n).length = width := by
  have hshort := (Nat.length_toDigits_le_iff (by decide) hpos).mpr h
  rw [padded, List.length_append, List.length_replicate]
  omega

theorem isDigit_of_mem_padded {c : Char} (h : c ∈ padded width n) : c.isDigit = true := by
  rw [padded_eq_digitChars] at h
  exact isDigit_of_mem_digitChars (fun _ => lt_of_mem_paddedDigits) h

/-- With zeros in front, texts of numbers sort as the numbers. -/
theorem padded_lt_iff (hpos : 0 < width) (hm : m < 10 ^ width) (hn : n < 10 ^ width) :
    padded width m < padded width n ↔ m < n := by
  have hlen : (paddedDigits width m).length = (paddedDigits width n).length := by
    have hlenm := length_padded hpos hm
    have hlenn := length_padded hpos hn
    rw [padded_eq_digitChars, digitChars, List.length_map] at hlenm hlenn
    rw [hlenm, hlenn]
  rw [padded_eq_digitChars, padded_eq_digitChars,
    digitChars_lt_iff (fun _ => lt_of_mem_paddedDigits) fun _ => lt_of_mem_paddedDigits,
    ← digitsValue_lt_iff hlen (fun _ => lt_of_mem_paddedDigits) fun _ => lt_of_mem_paddedDigits,
    digitsValue_paddedDigits, digitsValue_paddedDigits]

theorem padded_inj (hpos : 0 < width) (hm : m < 10 ^ width) (hn : n < 10 ^ width) :
    padded width m = padded width n ↔ m = n := by
  rw [eq_iff_not_lt, padded_lt_iff hpos hm hn, padded_lt_iff hpos hn hm]
  omega

end Timestamp

/-! ## Fields -/

/-- A field of a text: the letter that stands for its digits in a form, how many digits it
has, and what stands behind it. -/
structure Field where
  letter : Char
  width : Nat
  after : List Char
deriving DecidableEq, Repr

namespace Field

/-- The form of a text, each digit given by the letter of its field. -/
def form (fields : List Field) : List Char :=
  fields.flatMap fun f => List.replicate f.width f.letter ++ f.after

/-- The text of numbers, each in its field. -/
def filled (fields : List Field) (numbers : List Nat) : List Char :=
  (List.zipWith (fun f n => Timestamp.padded f.width n ++ f.after) fields numbers).flatten

/-- Does each field hold its number? -/
def Hold (fields : List Field) (numbers : List Nat) : Prop :=
  List.Forall₂ (fun f n => 0 < f.width ∧ n < 10 ^ f.width) fields numbers

/-- A text has a form if a digit stands for each of the letters, and every other character
for itself. -/
def Fits (letters form text : List Char) : Prop :=
  List.Forall₂ (fun l c => if l ∈ letters then c.isDigit = true else c = l) form text

theorem filled_cons (f : Field) (n : Nat) (fields : List Field) (numbers : List Nat) :
    filled (f :: fields) (n :: numbers) =
      Timestamp.padded f.width n ++ (f.after ++ filled fields numbers) := by
  rw [filled, List.zipWith_cons_cons, List.flatten_cons, List.append_assoc, filled]

variable {fields : List Field} {ms ns : List Nat}

/-- A text of fields sorts as the numbers in them. -/
theorem filled_lt_iff (hm : Hold fields ms) (hn : Hold fields ns) :
    filled fields ms < filled fields ns ↔ ms < ns := by
  induction hm generalizing ns with
  | nil =>
    cases hn
    simp [filled]
  | @cons f m fields ms hfield hm ih =>
    cases hn with
    | @cons _ n _ ns hfield' hn =>
      -- Both numbers fill the field, so the rest counts only where they are the same.
      have hlen : (Timestamp.padded f.width m).length = (Timestamp.padded f.width n).length := by
        rw [Timestamp.length_padded hfield.1 hfield.2, Timestamp.length_padded hfield'.1 hfield'.2]
      rw [filled_cons, filled_cons, append_lt_append_iff hlen, append_lt_append_iff rfl,
        Timestamp.padded_lt_iff hfield.1 hfield.2 hfield'.2,
        Timestamp.padded_inj hfield.1 hfield.2 hfield'.2, List.cons_lt_cons_iff, ih hn]
      simp only [List.lt_irrefl, false_or, true_and]

/-! ### The form -/

variable {letters : List Char}

theorem fits_replicate {l : Char} {cs : List Char} (hl : l ∈ letters)
    (h : ∀ c ∈ cs, c.isDigit = true) : Fits letters (List.replicate cs.length l) cs := by
  induction cs with
  | nil => exact List.Forall₂.nil
  | cons c cs ih =>
    rw [List.forall_mem_cons] at h
    exact List.Forall₂.cons (by rw [if_pos hl]; exact h.1) (ih h.2)

theorem fits_self {cs : List Char} (h : ∀ c ∈ cs, c ∉ letters) : Fits letters cs cs :=
  List.forall₂_same.mpr fun c hc => by rw [if_neg (h c hc)]

/-- A text of fields has their form. -/
theorem fits_filled (hletter : ∀ f ∈ fields, f.letter ∈ letters)
    (hafter : ∀ f ∈ fields, ∀ c ∈ f.after, c ∉ letters) (h : Hold fields ns) :
    Fits letters (form fields) (filled fields ns) := by
  induction h with
  | nil => exact List.Forall₂.nil
  | @cons f n fields ns hfield _ ih =>
    rw [List.forall_mem_cons] at hletter hafter
    rw [form, List.flatMap_cons, List.append_assoc, filled_cons]
    refine List.rel_append ?_ (List.rel_append (fits_self hafter.1) (ih hletter.2 hafter.2))
    have hdigits : Fits letters
        (List.replicate (Timestamp.padded f.width n).length f.letter) (Timestamp.padded f.width n) :=
      fits_replicate hletter.1 fun _ => Timestamp.isDigit_of_mem_padded
    rwa [Timestamp.length_padded hfield.1 hfield.2] at hdigits

/-- A text of an ASCII form is ASCII. -/
theorem Fits.ascii {form text : List Char} (h : Fits letters form text)
    (hform : ∀ l ∈ form, l.toNat < 128) : ∀ c ∈ text, c.toNat < 128 := by
  induction h with
  | nil => exact fun _ hc => absurd hc List.not_mem_nil
  | @cons l c form text hmatch _ ih =>
    rw [List.forall_mem_cons] at hform ⊢
    refine ⟨?_, ih hform.2⟩
    split at hmatch
    · have hrange : 48 ≤ c.toNat ∧ c.toNat ≤ 57 := by
        simpa [Char.isDigit, UInt32.le_iff_toNat_le] using hmatch
      omega
    · rw [hmatch]
      exact hform.1

end Field

/-! ## Bytes -/

/-- An ASCII character is one byte, its code. -/
theorem utf8EncodeChar_of_ascii {c : Char} (h : c.toNat < 128) :
    String.utf8EncodeChar c = [UInt8.ofNat c.toNat] := by
  unfold String.utf8EncodeChar
  dsimp only
  exact if_pos (Nat.le_of_lt_succ h)

/-- The bytes of ASCII characters are their codes. -/
theorem map_toNat_flatMap_utf8EncodeChar {cs : List Char} (h : ∀ c ∈ cs, c.toNat < 128) :
    (cs.flatMap String.utf8EncodeChar).map UInt8.toNat = cs.map Char.toNat := by
  induction cs with
  | nil => rfl
  | cons c cs ih =>
    rw [List.forall_mem_cons] at h
    rw [List.flatMap_cons, utf8EncodeChar_of_ascii h.1, List.singleton_append, List.map_cons,
      List.map_cons, ih h.2, UInt8.toNat_ofNat_of_lt' (Nat.lt_trans h.1 (by decide))]

theorem map_toNat_utf8Bytes {s : String} (h : ∀ c ∈ s.toList, c.toNat < 128) :
    (utf8Bytes s).map UInt8.toNat = s.toList.map Char.toNat :=
  map_toNat_flatMap_utf8EncodeChar h

theorem length_utf8Bytes {s : String} (h : ∀ c ∈ s.toList, c.toNat < 128) :
    (utf8Bytes s).length = s.toList.length := by
  have hlen := congrArg List.length (map_toNat_utf8Bytes h)
  rwa [List.length_map, List.length_map] at hlen

/-- Texts of ASCII characters sort as their bytes. -/
theorem utf8Bytes_lt_iff {s t : String} (hs : ∀ c ∈ s.toList, c.toNat < 128)
    (ht : ∀ c ∈ t.toList, c.toNat < 128) : utf8Bytes s < utf8Bytes t ↔ s.toList < t.toList := by
  have hbytes : (utf8Bytes s).map UInt8.toNat < (utf8Bytes t).map UInt8.toNat ↔
      utf8Bytes s < utf8Bytes t :=
    map_lt_map_iff (fun _ _ => UInt8.lt_iff_toNat_lt.symm) fun _ _ => UInt8.toNat_inj
  rw [← hbytes, map_toNat_utf8Bytes hs, map_toNat_utf8Bytes ht, map_toNat_lt_iff]

end Provisioning
