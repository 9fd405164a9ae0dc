import Mathlib.Data.List.Basic

/-!
# Bytes of texts

In UTF-8 a byte below 128 is a character of its own and no part of another one. So where a search
finds the byte of such a character, the character stands, and a text that is cut there is cut
between two characters.
-/

namespace DocPages

namespace Text

/-- The bytes of a character sequence in UTF-8. -/
def bytes (characters : List Char) : List UInt8 := characters.flatMap String.utf8EncodeChar

theorem bytes_cons (character : Char) (rest : List Char) :
    bytes (character :: rest) = String.utf8EncodeChar character ++ bytes rest := rfl

theorem bytes_append (left right : List Char) : bytes (left ++ right) = bytes left ++ bytes right :=
  List.flatMap_append

theorem bytes_eq_nil_iff {characters : List Char} : bytes characters = [] ↔ characters = [] := by
  cases characters with
  | nil => simp [bytes]
  | cons character rest => simp [bytes_cons, String.utf8EncodeChar_ne_nil]

theorem bytes_toList (text : String) : bytes text.toList = text.toUTF8.data.toList := by
  rw [String.toUTF8, ← String.utf8Encode_toList, List.utf8Encode, List.data_toByteArray]
  rfl

theorem length_bytes_toList (text : String) : (bytes text.toList).length = text.utf8ByteSize := by
  rw [bytes_toList]
  rfl

/-- All bytes of a longer character are at least 128. -/
theorem le_toNat_of_mem_utf8EncodeChar {character : Char} {byte : UInt8}
    (long : 128 ≤ character.toNat) (member : byte ∈ String.utf8EncodeChar character) :
    128 ≤ byte.toNat := by
  have isLong : ¬ character.val.toNat ≤ 127 := Nat.not_le_of_gt long
  have high : ∀ {number}, 128 ≤ number % 256 → byte = UInt8.ofNat number → 128 ≤ byte.toNat := by
    rintro number large rfl
    rwa [UInt8.toNat_ofNat']
  rw [String.utf8EncodeChar] at member
  simp only [if_neg isLong] at member
  split at member
  · simp only [List.mem_cons, List.not_mem_nil, or_false] at member
    rcases member with same | same <;> exact high (by omega) same
  split at member
  · simp only [List.mem_cons, List.not_mem_nil, or_false] at member
    rcases member with same | same | same <;> exact high (by omega) same
  · simp only [List.mem_cons, List.not_mem_nil, or_false] at member
    rcases member with same | same | same | same <;> exact high (by omega) same

section

variable {mark : Char} (ascii : mark.toNat < 128)

include ascii

theorem utf8EncodeChar_of_ascii : String.utf8EncodeChar mark = [UInt8.ofNat mark.toNat] := by
  rw [String.utf8EncodeChar]
  exact if_pos (Nat.le_of_lt_succ ascii)

theorem toNat_ofNat_of_ascii : (UInt8.ofNat mark.toNat).toNat = mark.toNat :=
  UInt8.toNat_ofNat_of_lt' (Nat.lt_trans ascii (by decide))

/-- A byte below 128 is in no other character than its own. -/
theorem eq_of_mem_utf8EncodeChar {character : Char}
    (member : UInt8.ofNat mark.toNat ∈ String.utf8EncodeChar character) : character = mark := by
  by_cases short : character.toNat < 128
  · rw [utf8EncodeChar_of_ascii short, List.mem_singleton, ← UInt8.toNat_inj,
      toNat_ofNat_of_ascii ascii, toNat_ofNat_of_ascii short] at member
    exact Char.toNat_inj.mp member.symm
  · have large := le_toNat_of_mem_utf8EncodeChar (Nat.le_of_not_lt short) member
    rw [toNat_ofNat_of_ascii ascii] at large
    exact absurd ascii (Nat.not_lt_of_le large)

/-- Where the byte of a mark stands, the mark stands. -/
theorem exists_cut_of_bytes_eq {characters : List Char} {before behind : List UInt8}
    (parts : bytes characters = before ++ UInt8.ofNat mark.toNat :: behind) :
    ∃ left right, characters = left ++ mark :: right ∧ bytes left = before ∧
      bytes right = behind := by
  induction characters generalizing before with
  | nil => simp [bytes] at parts
  | cons character rest ih =>
      by_cases here : character = mark ∧ before = []
      · obtain ⟨rfl, rfl⟩ := here
        rw [bytes_cons, utf8EncodeChar_of_ascii ascii] at parts
        exact ⟨[], rest, rfl, rfl, (List.cons.inj parts).2⟩
      -- The first character ends before the byte.
      obtain ⟨more, rfl, partsRest⟩ : ∃ more, before = String.utf8EncodeChar character ++ more ∧
          bytes rest = more ++ UInt8.ofNat mark.toNat :: behind := by
        rw [bytes_cons] at parts
        rcases List.append_eq_append_iff.mp parts with later | ⟨more, partsFirst, partsBehind⟩
        · exact later
        rcases List.cons_eq_append_iff.mp partsBehind with ⟨rfl, partsRest⟩ | ⟨more, rfl, -⟩
        · exact ⟨[], by simpa using partsFirst.symm, partsRest⟩
        · obtain rfl := eq_of_mem_utf8EncodeChar ascii
            (partsFirst ▸ List.mem_append_right before List.mem_cons_self)
          rw [utf8EncodeChar_of_ascii ascii] at partsFirst
          have nothing : before = [] := by
            cases before with
            | nil => rfl
            | cons first before => simp at partsFirst
          exact (here ⟨rfl, nothing⟩).elim
      obtain ⟨left, right, rfl, rfl, rfl⟩ := ih partsRest
      exact ⟨character :: left, right, rfl, rfl, rfl⟩

end

end Text

end DocPages
