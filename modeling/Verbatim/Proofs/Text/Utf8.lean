import Verbatim.Proofs.Steps
import Verbatim.Text.Utf8

/-!
# Bytes that are read and written again

Bytes are cut into pieces, and no byte is lost. A character comes with the bytes that it is written
with, so bytes that are read as a text are the bytes of the text. Folding line ends does nothing to a
text without a carriage return.

## Main definitions

* `Text.BytePiece.bytes`: the bytes that a piece was cut from
* `Text.PartialChar.Fits`: what the bytes of a partial character have to do with its value
* `Text.utf8`: the bytes of a text

## Main results

* `Text.flatMap_bytes_scanBytes`: **every byte is in one piece**
* `Text.utf8_of_decodeBytes`: **bytes that are read are written again**
* `Text.foldLineEnds_eq_self`: texts in which there is nothing to fold
-/

namespace Verbatim.Text

variable {byte : UInt8} {raw : List UInt8} {text : String} {missing least greatest value rest : Nat}

/-! ### Writing characters -/

/-- The bytes behind a lead byte, each with six bits. -/
def trailing : Nat → Nat → List UInt8
  | 0, _ => []
  | missing + 1, value => .ofNat (0x80 + value / 64 ^ missing % 64) :: trailing missing value

/-- Only the low bits are in the bytes behind a lead byte. -/
theorem trailing_add (missing high value : Nat) :
    trailing missing (high * 64 ^ missing + value) = trailing missing value := by
  induction missing generalizing high with
  | zero => rfl
  | succ missing ih =>
    have shifted : high * 64 ^ (missing + 1) + value = high * 64 * 64 ^ missing + value := by ring
    have low : (high * 64 * 64 ^ missing + value) / 64 ^ missing % 64 = value / 64 ^ missing % 64 := by
      rw [Nat.mul_comm, Nat.mul_add_div (Nat.pow_pos (by decide)), Nat.mul_comm high,
        Nat.mul_add_mod]
    rw [trailing, trailing, shifted, low, ih]

theorem toNat_ofNat_of_valid (valid : value.isValidChar) : (Char.ofNat value).val.toNat = value := by
  rw [Char.ofNat, dif_pos valid]
  rfl

theorem utf8EncodeChar_two (least : 0x80 ≤ value) (most : value < 0x800) :
    String.utf8EncodeChar (.ofNat value) = .ofNat (0xc0 + value / 64) :: trailing 1 value := by
  have valid : value.isValidChar := .inl (by omega)
  have first : value / 64 % 0x20 + 0xc0 = 0xc0 + value / 64 := by omega
  simp only [String.utf8EncodeChar, toNat_ofNat_of_valid valid, trailing]
  rw [if_neg (by omega), if_pos (by omega), first, Nat.pow_zero, Nat.div_one, Nat.add_comm 0x80]

theorem utf8EncodeChar_three (least : 0x800 ≤ value) (most : value < 0x10000)
    (valid : value.isValidChar) : String.utf8EncodeChar (.ofNat value) =
      .ofNat (0xe0 + value / 64 ^ 2) :: trailing 2 value := by
  have first : value / 4096 % 0x10 + 0xe0 = 0xe0 + value / 64 ^ 2 := by omega
  simp only [String.utf8EncodeChar, toNat_ofNat_of_valid valid, trailing]
  rw [if_neg (by omega), if_neg (by omega), if_pos (by omega), first]
  simp only [Nat.pow_zero, Nat.pow_one, Nat.div_one, Nat.add_comm 0x80]

theorem utf8EncodeChar_four (least : 0x10000 ≤ value) (most : value < 0x110000) :
    String.utf8EncodeChar (.ofNat value) = .ofNat (0xf0 + value / 64 ^ 3) :: trailing 3 value := by
  have valid : value.isValidChar := .inr ⟨by omega, most⟩
  have first : value / 262144 % 0x08 + 0xf0 = 0xf0 + value / 64 ^ 3 := by omega
  simp only [String.utf8EncodeChar, toNat_ofNat_of_valid valid, trailing]
  rw [if_neg (by omega), if_neg (by omega), if_neg (by omega), first]
  simp only [Nat.pow_zero, Nat.pow_one, Nat.div_one, Nat.add_comm 0x80]
  rfl

theorem utf8EncodeChar_one (most : value < 0x80) :
    String.utf8EncodeChar (.ofNat value) = [.ofNat value] := by
  have valid : value.isValidChar := .inl (by omega)
  simp only [String.utf8EncodeChar, toNat_ofNat_of_valid valid]
  rw [if_pos (by omega)]

/-! ### Reading characters -/

/-- The bytes that a piece was cut from. -/
def BytePiece.bytes : BytePiece → List UInt8
  | .char c => String.utf8EncodeChar c
  | .bad _ bytes => bytes

/-- Characters with the value of a partial character in front, and with the next byte within its
bounds, are written with the bytes that were read in front. -/
structure PartialChar.Fits (p : PartialChar) : Prop where
  missing : 0 < p.missing
  least : 0x80 ≤ p.least
  greatest : p.greatest ≤ 0xbf
  written : ∀ rest < 64 ^ p.missing, p.least ≤ 0x80 + rest / 64 ^ (p.missing - 1) →
    0x80 + rest / 64 ^ (p.missing - 1) ≤ p.greatest →
      String.utf8EncodeChar (.ofNat (p.value * 64 ^ p.missing + rest)) =
        p.seen.reverse ++ trailing p.missing rest

theorem PartialChar.fits_two (lead : byte.toNat = 0xc0 + value) (low : 2 ≤ value)
    (high : value < 0x20) : PartialChar.Fits ⟨[byte], 1, 0x80, 0xbf, value⟩ where
  missing := Nat.zero_lt_one
  least := Nat.le_refl _
  greatest := Nat.le_refl _
  written rest inside _ _ := by
    dsimp only at inside ⊢
    have first : 0xc0 + (value * 64 ^ 1 + rest) / 64 = byte.toNat := by omega
    rw [utf8EncodeChar_two (by omega) (by omega), trailing_add, first, UInt8.ofNat_toNat]
    rfl

theorem PartialChar.fits_three (lead : byte.toNat = 0xe0 + value) (above : 0x80 ≤ least)
    (below : greatest ≤ 0xbf) (range : ∀ bits, least ≤ 0x80 + bits → 0x80 + bits ≤ greatest →
      0x20 ≤ value * 64 + bits ∧ value * 64 + bits < 0x400 ∧
        (value * 64 + bits < 0x360 ∨ 0x380 ≤ value * 64 + bits)) :
    PartialChar.Fits ⟨[byte], 2, least, greatest, value⟩ where
  missing := Nat.zero_lt_two
  least := above
  greatest := below
  written rest inside first last := by
    dsimp only at inside first last ⊢
    obtain ⟨enough, room, apart⟩ := range (rest / 64) (by simpa using first) (by simpa using last)
    have valid : (value * 64 ^ 2 + rest).isValidChar := by
      rcases apart with under | beyond
      · exact .inl (by omega)
      · exact .inr ⟨by omega, by omega⟩
    have first : 0xe0 + (value * 64 ^ 2 + rest) / 64 ^ 2 = byte.toNat := by omega
    rw [utf8EncodeChar_three (by omega) (by omega) valid, trailing_add, first, UInt8.ofNat_toNat]
    rfl

theorem PartialChar.fits_four (lead : byte.toNat = 0xf0 + value) (above : 0x80 ≤ least)
    (below : greatest ≤ 0xbf) (range : ∀ bits, least ≤ 0x80 + bits → 0x80 + bits ≤ greatest →
      0x10 ≤ value * 64 + bits ∧ value * 64 + bits < 0x110) :
    PartialChar.Fits ⟨[byte], 3, least, greatest, value⟩ where
  missing := Nat.succ_pos 2
  least := above
  greatest := below
  written rest inside first last := by
    dsimp only at inside first last ⊢
    obtain ⟨enough, room⟩ := range (rest / 64 ^ 2) (by simpa using first) (by simpa using last)
    have first : 0xf0 + (value * 64 ^ 3 + rest) / 64 ^ 3 = byte.toNat := by omega
    rw [utf8EncodeChar_four (by omega) (by omega), trailing_add, first, UInt8.ofNat_toNat]
    rfl

/-- Where a character starts, a piece is complete at once or a partial character fits. -/
theorem startChar_cases (byte : UInt8) :
    (∃ piece, startChar byte = .inl piece ∧ piece.bytes = [byte]) ∨
      ∃ p, startChar byte = .inr p ∧ p.Fits ∧ p.seen = [byte] := by
  have most := byte.toNat_lt
  unfold startChar
  fun_cases leadByte? byte.toNat
  · refine .inl ⟨_, rfl, ?_⟩
    rw [BytePiece.bytes, utf8EncodeChar_one ‹_›, UInt8.ofNat_toNat]
  · exact .inl ⟨_, rfl, rfl⟩
  · exact .inr ⟨_, rfl, PartialChar.fits_two (by omega) (by omega) (by omega), rfl⟩
  · exact .inr ⟨_, rfl, PartialChar.fits_three (by omega) (by omega) (by omega) (by omega), rfl⟩
  · exact .inr ⟨_, rfl, PartialChar.fits_three (by omega) (by omega) (by omega) (by omega), rfl⟩
  · exact .inr ⟨_, rfl, PartialChar.fits_three (by omega) (by omega) (by omega) (by omega), rfl⟩
  · exact .inr ⟨_, rfl, PartialChar.fits_four (by omega) (by omega) (by omega) (by omega), rfl⟩
  · exact .inr ⟨_, rfl, PartialChar.fits_four (by omega) (by omega) (by omega) (by omega), rfl⟩
  · exact .inr ⟨_, rfl, PartialChar.fits_four (by omega) (by omega) (by omega) (by omega), rfl⟩
  · exact .inl ⟨_, rfl, rfl⟩

/-- One more byte of a partial character. -/
theorem PartialChar.Fits.next {p : PartialChar} (fits : p.Fits) (above : p.least ≤ byte.toNat)
    (below : byte.toNat ≤ p.greatest) :
    (p.missing = 1 → String.utf8EncodeChar (.ofNat (64 * p.value + (byte.toNat - 0x80))) =
      p.seen.reverse ++ [byte]) ∧
    (p.missing ≠ 1 → PartialChar.Fits ⟨byte :: p.seen, p.missing - 1, 0x80, 0xbf,
      64 * p.value + (byte.toNat - 0x80)⟩) := by
  obtain ⟨seen, missing, least, greatest, value⟩ := p
  obtain ⟨positive, atLeast, atMost, written⟩ := fits
  dsimp only at above below positive atLeast atMost written ⊢
  obtain ⟨missing, rfl⟩ := Nat.exists_eq_succ_of_ne_zero (Nat.ne_of_gt positive)
  rw [Nat.succ_eq_add_one, Nat.add_sub_cancel] at written ⊢
  have bits : 0x80 + (byte.toNat - 0x80) = byte.toNat := by omega
  -- The bits of the byte in front of those that are still to come.
  have further {rest : Nat} (inside : rest < 64 ^ missing) :
      String.utf8EncodeChar (.ofNat ((64 * value + (byte.toNat - 0x80)) * 64 ^ missing + rest)) =
        (byte :: seen).reverse ++ trailing missing rest := by
    have first : ((byte.toNat - 0x80) * 64 ^ missing + rest) / 64 ^ missing = byte.toNat - 0x80 := by
      rw [Nat.mul_comm, Nat.mul_add_div (Nat.pow_pos (by decide)), Nat.div_eq_of_lt inside,
        Nat.add_zero]
    have here := written ((byte.toNat - 0x80) * 64 ^ missing + rest) ?_ ?_ ?_
    · have whole : value * 64 ^ (missing + 1) + ((byte.toNat - 0x80) * 64 ^ missing + rest) =
          (64 * value + (byte.toNat - 0x80)) * 64 ^ missing + rest := by ring
      rw [← whole, here, trailing, first, trailing_add, Nat.mod_eq_of_lt (by omega), bits,
        UInt8.ofNat_toNat, List.reverse_cons, List.append_assoc, List.singleton_append]
    · calc (byte.toNat - 0x80) * 64 ^ missing + rest
          < (byte.toNat - 0x80 + 1) * 64 ^ missing := by rw [Nat.succ_mul]; omega
        _ ≤ 64 * 64 ^ missing := Nat.mul_le_mul_right _ (by omega)
        _ = 64 ^ (missing + 1) := (Nat.pow_succ').symm
    · rw [first, bits]
      exact above
    · rw [first, bits]
      exact below
  refine ⟨fun last => ?_, fun more => ⟨Nat.pos_of_ne_zero fun none => more (congrArg Nat.succ none),
    Nat.le_refl _, Nat.le_refl _, fun rest inside _ _ => further inside⟩⟩
  obtain rfl : missing = 0 := Nat.succ.inj last
  have whole := @further 0 Nat.one_pos
  simpa [trailing] using whole

theorem fits_none : ∀ p ∈ (none : Option PartialChar), p.Fits :=
  nofun

/-- No byte is lost, with a partial character in front. -/
theorem flatMap_bytes_scanFrom {current : Option PartialChar} (fits : ∀ p ∈ current, p.Fits)
    (raw : List UInt8) : (scanFrom current raw).flatMap BytePiece.bytes =
      (current.elim [] fun p => p.seen.reverse) ++ raw := by
  induction raw generalizing current with
  | nil => cases current <;> simp [scanFrom, BytePiece.bytes]
  | cons byte rest ih =>
    -- What is read where a character starts.
    have start : (scanFrom none (byte :: rest)).flatMap BytePiece.bytes = byte :: rest := by
      rw [scanFrom]
      obtain ⟨piece, same, whole⟩ | ⟨p, same, fits, seen⟩ := startChar_cases byte <;> rw [same]
      · rw [List.flatMap_cons, whole, ih fits_none]
        rfl
      · rw [ih (fun q member => Option.some.inj member ▸ fits), Option.elim_some, seen]
        rfl
    cases current with
    | none => exact start
    | some p =>
      have fits := fits p rfl
      rw [scanFrom, Option.elim_some]
      split
      · next within =>
        obtain ⟨above, below⟩ : p.least ≤ byte.toNat ∧ byte.toNat ≤ p.greatest := by
          simpa using within
        obtain ⟨done, more⟩ := fits.next above below
        dsimp only
        split
        · next last =>
          rw [List.flatMap_cons, BytePiece.bytes, done last, ih fits_none, List.append_assoc]
          rfl
        · next last =>
          rw [ih (fun q member => Option.some.inj member ▸ more last), Option.elim_some,
            List.reverse_cons, List.append_assoc]
          rfl
      · exact congrArg (p.seen.reverse ++ ·) start

/-- **Every byte is in one piece**, and the pieces are in order. -/
theorem flatMap_bytes_scanBytes (raw : List UInt8) :
    (scanBytes raw).flatMap BytePiece.bytes = raw :=
  flatMap_bytes_scanFrom fits_none raw

/-! ### Texts -/

/-- The bytes of a text. -/
def utf8 (text : String) : List UInt8 :=
  text.toUTF8.toList

theorem loop_eq_drop (raw : ByteArray) (place : Nat) (front : List UInt8) :
    ByteArray.toList.loop raw place front = front.reverse ++ raw.data.toList.drop place := by
  fun_induction ByteArray.toList.loop raw place front with
  | case1 place front inside ih =>
    have within : place < raw.data.toList.length := by simpa using inside
    have here : raw.get! place = raw.data.toList[place] := by
      rw [ByteArray.get!, getElem!_pos raw.data place inside, Array.getElem_toList]
    rw [ih, List.drop_eq_getElem_cons within, List.reverse_cons, List.append_assoc, here]
    rfl
  | case2 place front outside =>
    rw [List.drop_eq_nil_of_le (by simpa using outside), List.append_nil]

/-- A text is written character by character. -/
theorem utf8_eq_flatMap (text : String) : utf8 text = text.toList.flatMap String.utf8EncodeChar := by
  have whole := text.ofList_toList
  calc utf8 text = text.toByteArray.data.toList := by
        rw [utf8, String.toUTF8_eq_toByteArray, ByteArray.toList, loop_eq_drop]
        rfl
    _ = (String.ofList text.toList).toByteArray.data.toList := by rw [whole]
    _ = text.toList.flatMap String.utf8EncodeChar := by
        rw [String.toByteArray_ofList, List.utf8Encode, List.toList_data_toByteArray]

theorem utf8_append (first second : String) : utf8 (first ++ second) = utf8 first ++ utf8 second := by
  simp only [utf8_eq_flatMap, String.toList_append, List.flatMap_append]

theorem eq_map_of_joinPiecesFrom {place : Nat} {pieces : List BytePiece} {chars : List Char}
    (joined : joinPiecesFrom place pieces = .ok chars) : pieces = chars.map .char := by
  induction pieces generalizing place chars with
  | nil => exact Except.ok.inj joined ▸ rfl
  | cons piece rest ih =>
    cases piece with
    | bad fault raw => exact nomatch joined
    | char c =>
      obtain ⟨later, found, rfl⟩ := map_eq_ok.1 joined
      rw [ih found]
      rfl

/-- **Bytes that are read are written again.** -/
theorem utf8_of_decodeBytes (decoded : decodeBytes raw = .ok text) : utf8 text = raw := by
  obtain ⟨chars, joined, rfl⟩ := map_eq_ok.1 decoded
  calc utf8 (String.ofList chars)
      = (chars.map BytePiece.char).flatMap BytePiece.bytes := by
        rw [utf8_eq_flatMap, String.toList_ofList, List.flatMap_map]
        rfl
    _ = raw := by rw [← eq_map_of_joinPiecesFrom joined, flatMap_bytes_scanBytes]

theorem fold_eq_self {chars : List Char} (plain : '\r' ∉ chars) :
    foldLineEnds.fold chars = chars := by
  fun_induction foldLineEnds.fold chars with
  | case1 => exact absurd List.mem_cons_self plain
  | case2 => exact absurd List.mem_cons_self plain
  | case3 c rest _ _ ih => rw [ih fun member => plain (List.mem_cons_of_mem _ member)]
  | case4 => rfl

/-- There is nothing to fold in texts without carriage returns. -/
theorem foldLineEnds_eq_self (plain : 13 ∉ utf8 text) : foldLineEnds text = text := by
  have absent : '\r' ∉ text.toList := fun member => by
    refine plain ?_
    rw [utf8_eq_flatMap]
    exact List.mem_flatMap.2 ⟨_, member, by decide⟩
  rw [foldLineEnds, fold_eq_self absent, String.ofList_toList]

end Verbatim.Text
