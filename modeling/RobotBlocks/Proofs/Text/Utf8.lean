import Mathlib.Data.List.Basic
import Mathlib.Tactic.Common
import RobotBlocks.Text.Utf8

/-!
# UTF-8 is read back

The bytes of a string are read as its characters (`Utf8.decode_toUTF8`): the first byte of a
character announces as many bytes as follow, each of these lies in its range, and together they give
back the code point.
-/

namespace RobotBlocks

/-! ## Bytes of strings -/

/-- The bytes from a place on are put behind those that were taken. -/
theorem toList_loop (bytes : ByteArray) (i : ℕ) (front : List UInt8) :
    ByteArray.toList.loop bytes i front = front.reverse ++ bytes.data.toList.drop i := by
  fun_induction ByteArray.toList.loop bytes i front with
  | case1 i front h ih =>
    have hi : i < bytes.data.toList.length := by simpa using h
    rw [ih, List.drop_eq_getElem_cons hi]
    simp [ByteArray.get!, h]
  | case2 i front h =>
    have hi : bytes.data.toList.length ≤ i := by simpa using Nat.le_of_not_lt h
    rw [List.drop_eq_nil_of_le hi, List.append_nil]

/-- The bytes of a string are those of its characters. -/
theorem toList_toUTF8 (cs : List Char) :
    (String.ofList cs).toUTF8.toList = cs.flatMap String.utf8EncodeChar := by
  change ByteArray.toList.loop (cs.flatMap String.utf8EncodeChar).toByteArray 0 [] = _
  rw [toList_loop, List.data_toByteArray]
  simp

namespace Utf8

variable {position : ℕ} {rest : List UInt8}

/-- Bytes that belong to a character before are passed over. -/
theorem decodeFrom_append (bytes : List UInt8) (position : ℕ) (rest : List UInt8) :
    decodeFrom position bytes.length (bytes ++ rest) =
      decodeFrom (position + bytes.length) 0 rest := by
  induction bytes generalizing position with
  | nil => rfl
  | cons b bytes ih =>
    rw [List.length_cons, List.cons_append, decodeFrom, ih]
    congr 1
    omega

/-- A first byte and the bytes that it announces. -/
theorem decodeFrom_cons {b : UInt8} {lead : Lead} {bytes : List UInt8} {code : ℕ}
    (hlead : lead? b.toNat = some lead) (hmore : lead.more = bytes.length)
    (hfollow : follow lead.more lead.low lead.high lead.bits 1 (bytes ++ rest) = .ok code) :
    decodeFrom position 0 (b :: (bytes ++ rest)) =
      (decodeFrom (position + 1 + bytes.length) 0 rest).map (Char.ofNat code :: ·) := by
  rw [decodeFrom, hlead]
  dsimp only
  rw [hfollow]
  dsimp only
  rw [hmore, decodeFrom_append]

theorem toNat_ofNat {n : ℕ} (h : n < 256) : (UInt8.ofNat n).toNat = n := by
  rw [UInt8.toNat_ofNat', Nat.mod_eq_of_lt h]

/-- A byte in its range continues the sequence. -/
theorem follow_cons {more low high code taken n : ℕ} (hlow : low ≤ n) (hhigh : n ≤ high)
    (hn : n < 256) : follow (more + 1) low high code taken (UInt8.ofNat n :: rest) =
      follow more 0x80 0xBF (64 * code + (n - 0x80)) (taken + 1) rest := by
  rw [follow, toNat_ofNat hn, if_pos (by simp [hlow, hhigh])]

section

variable {first special narrow wide second : ℕ}

/-- Behind one of the first bytes the range of the second byte begins later. -/
theorem narrowed_le (hnarrow : first = special → narrow ≤ second) (hwide : wide ≤ second) :
    (if first == special then narrow else wide) ≤ second := by
  split
  next h => exact hnarrow (eq_of_beq h)
  next => exact hwide

/-- Behind one of the first bytes the range of the second byte ends earlier. -/
theorem le_narrowed (hnarrow : first = special → second ≤ narrow) (hwide : second ≤ wide) :
    second ≤ if first == special then narrow else wide := by
  split
  next h => exact hnarrow (eq_of_beq h)
  next => exact hwide

end

variable {v : ℕ}

/-- A character of one byte. -/
theorem decodeFrom_one (h : v ≤ 0x7F) (position : ℕ) (rest : List UInt8) :
    decodeFrom position 0 (UInt8.ofNat v :: ([] ++ rest)) =
      (decodeFrom (position + 1 + 0) 0 rest).map (Char.ofNat v :: ·) := by
  have hlead : lead? (UInt8.ofNat v).toNat = some ⟨0, v, 0, 0⟩ := by
    rw [toNat_ofNat (by omega), lead?, if_pos (by omega)]
  exact decodeFrom_cons hlead rfl rfl

/-- A character of two bytes. -/
theorem decodeFrom_two (hlow : 0x7F < v) (h : v ≤ 0x7FF) (position : ℕ) (rest : List UInt8) :
    decodeFrom position 0
        (UInt8.ofNat (v / 64 % 32 + 192) :: ([UInt8.ofNat (v % 64 + 128)] ++ rest)) =
      (decodeFrom (position + 1 + 1) 0 rest).map (Char.ofNat v :: ·) := by
  have hlead : lead? (UInt8.ofNat (v / 64 % 32 + 192)).toNat =
      some ⟨1, v / 64 % 32 + 192 - 0xC0, 0x80, 0xBF⟩ := by
    rw [toNat_ofNat (by omega), lead?, if_neg (by omega), if_neg (by omega), if_pos (by omega)]
  refine decodeFrom_cons hlead rfl ?_
  dsimp only
  rw [List.singleton_append, follow_cons (by omega) (by omega) (by omega), follow]
  exact congrArg Except.ok (by omega)

/-- A character of three bytes. -/
theorem decodeFrom_three (hlow : 0x7FF < v) (h : v ≤ 0xFFFF) (hhalf : v < 0xD800 ∨ 0xDFFF < v)
    (position : ℕ) (rest : List UInt8) :
    decodeFrom position 0 (UInt8.ofNat (v / 4096 % 16 + 224) ::
        ([UInt8.ofNat (v / 64 % 64 + 128), UInt8.ofNat (v % 64 + 128)] ++ rest)) =
      (decodeFrom (position + 1 + 2) 0 rest).map (Char.ofNat v :: ·) := by
  have hlead : lead? (UInt8.ofNat (v / 4096 % 16 + 224)).toNat =
      some ⟨2, v / 4096 % 16 + 224 - 0xE0,
        if v / 4096 % 16 + 224 == 0xE0 then 0xA0 else 0x80,
        if v / 4096 % 16 + 224 == 0xED then 0x9F else 0xBF⟩ := by
    rw [toNat_ofNat (by omega), lead?, if_neg (by omega), if_neg (by omega), if_neg (by omega),
      if_pos (by omega)]
  refine decodeFrom_cons hlead rfl ?_
  dsimp only
  have hsecond : (if v / 4096 % 16 + 224 == 0xE0 then 0xA0 else 0x80) ≤ v / 64 % 64 + 128 :=
    narrowed_le (fun hleast => by omega) (by omega)
  have hsecond' : v / 64 % 64 + 128 ≤ if v / 4096 % 16 + 224 == 0xED then 0x9F else 0xBF :=
    le_narrowed (fun hhalves => by omega) (by omega)
  rw [List.cons_append, List.singleton_append, follow_cons hsecond hsecond' (by omega),
    follow_cons (by omega) (by omega) (by omega), follow]
  exact congrArg Except.ok (by omega)

/-- A character of four bytes. -/
theorem decodeFrom_four (hlow : 0xFFFF < v) (h : v < 0x110000) (position : ℕ)
    (rest : List UInt8) :
    decodeFrom position 0 (UInt8.ofNat (v / 262144 % 8 + 240) ::
        ([UInt8.ofNat (v / 4096 % 64 + 128), UInt8.ofNat (v / 64 % 64 + 128),
          UInt8.ofNat (v % 64 + 128)] ++ rest)) =
      (decodeFrom (position + 1 + 3) 0 rest).map (Char.ofNat v :: ·) := by
  have hlead : lead? (UInt8.ofNat (v / 262144 % 8 + 240)).toNat =
      some ⟨3, v / 262144 % 8 + 240 - 0xF0,
        if v / 262144 % 8 + 240 == 0xF0 then 0x90 else 0x80,
        if v / 262144 % 8 + 240 == 0xF4 then 0x8F else 0xBF⟩ := by
    rw [toNat_ofNat (by omega), lead?, if_neg (by omega), if_neg (by omega), if_neg (by omega),
      if_neg (by omega), if_pos (by omega)]
  refine decodeFrom_cons hlead rfl ?_
  dsimp only
  have hsecond : (if v / 262144 % 8 + 240 == 0xF0 then 0x90 else 0x80) ≤ v / 4096 % 64 + 128 :=
    narrowed_le (fun hleast => by omega) (by omega)
  have hsecond' : v / 4096 % 64 + 128 ≤ if v / 262144 % 8 + 240 == 0xF4 then 0x8F else 0xBF :=
    le_narrowed (fun hgreatest => by omega) (by omega)
  rw [List.cons_append, List.cons_append, List.singleton_append,
    follow_cons hsecond hsecond' (by omega), follow_cons (by omega) (by omega) (by omega),
    follow_cons (by omega) (by omega) (by omega), follow]
  exact congrArg Except.ok (by omega)

/-- **A character is read from its bytes.** -/
theorem decodeFrom_utf8EncodeChar (c : Char) (position : ℕ) (rest : List UInt8) :
    ∃ behind, decodeFrom position 0 (String.utf8EncodeChar c ++ rest) =
      (decodeFrom behind 0 rest).map (c :: ·) := by
  have hvalid := c.valid
  simp only [UInt32.isValidChar, Nat.isValidChar] at hvalid
  have hc : Char.ofNat c.val.toNat = c := Char.ofNat_toNat c
  unfold String.utf8EncodeChar
  generalize c.val.toNat = v at hvalid hc
  subst hc
  dsimp only
  split
  next hone => exact ⟨_, decodeFrom_one hone position rest⟩
  split
  next hone htwo => exact ⟨_, decodeFrom_two (by omega) htwo position rest⟩
  split
  next htwo hthree => exact ⟨_, decodeFrom_three (by omega) hthree (by omega) position rest⟩
  next htwo hthree => exact ⟨_, decodeFrom_four (by omega) (by omega) position rest⟩

theorem decodeFrom_flatMap (cs : List Char) (position : ℕ) :
    decodeFrom position 0 (cs.flatMap String.utf8EncodeChar) = .ok cs := by
  induction cs generalizing position with
  | nil => rfl
  | cons c cs ih =>
    obtain ⟨behind, h⟩ := decodeFrom_utf8EncodeChar c position (cs.flatMap String.utf8EncodeChar)
    rw [List.flatMap_cons, h, ih]
    rfl

/-- **The bytes of a string are read as its characters.** -/
theorem decode_toUTF8 (s : String) : decode s.toUTF8.toList = .ok s.toList := by
  have hbytes := toList_toUTF8 s.toList
  rw [String.ofList_toList] at hbytes
  rw [decode, hbytes, decodeFrom_flatMap]

end Utf8

/-- Without carriage returns, line ends stay as they are. -/
theorem plainNewlines_eq {cs : List Char} (h : '\r' ∉ cs) : plainNewlines cs = cs := by
  induction cs with
  | nil => rfl
  | cons c cs ih =>
    obtain ⟨hc, hcs⟩ := not_or.1 (List.mem_cons.not.1 h)
    rw [plainNewlines, ih hcs]
    · exact fun _ hreturn => absurd hreturn.symm hc
    · exact fun hreturn => absurd hreturn.symm hc

end RobotBlocks
