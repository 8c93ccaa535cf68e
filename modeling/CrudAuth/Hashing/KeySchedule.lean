import Mathlib.Data.List.GetD

/-
  Keys that repeat with a terminating zero byte.

  A cipher that expands its key by cycling through the key
  and one zero byte reads a fixed count of bytes.  Two keys
  agree when those bytes agree; a key without zero bytes
  agrees with itself and with the bytes it expands to, and
  with nothing else that fits.

  Main declarations:
    * `keyBytes`
    * `keyBytes_eq_iff`
-/

namespace CrudAuth

namespace Hashing

/- The byte a repeated key has at a position. -/
def keyByte (key : List UInt8) (position : Nat) : UInt8 :=
  (key ++ [0]).getD (position % (key.length + 1)) 0

/- The first bytes of the repetition. -/
def keyBytes (count : Nat) (key : List UInt8) : List UInt8 :=
  (List.range count).map (keyByte key)

variable {count : Nat}
variable {key other : List UInt8}
variable {position : Nat}

@[simp]
theorem length_keyBytes :
    (keyBytes count key).length = count := by
  simp [keyBytes]

/- Each position repeats the key. -/
theorem getElem_keyBytes
    (hPosition : position < (keyBytes count key).length) :
    (keyBytes count key)[position] =
      keyByte key position := by
  simp [keyBytes]

/- Two keys repeat alike just when they agree. -/
theorem keyBytes_eq_keyBytes_iff :
    keyBytes count key = keyBytes count other ↔
      ∀ position < count,
        keyByte key position = keyByte other position := by
  unfold keyBytes
  rw [List.map_inj_left]
  simp only [List.mem_range]

------------------------------------------------------------
-- One Round of the Key
------------------------------------------------------------

/- The first time round is the key itself. -/
theorem keyByte_of_lt
    (hPosition : position < key.length) :
    keyByte key position = key[position] := by
  unfold keyByte
  rw [Nat.mod_eq_of_lt (by omega),
    List.getD_eq_getElem _ _ (by simp; omega),
    List.getElem_append_left hPosition]

/- The key ends with its zero byte. -/
theorem keyByte_length :
    keyByte key key.length = 0 := by
  unfold keyByte
  rw [Nat.mod_eq_of_lt (by omega),
    List.getD_eq_getElem _ _ (by simp)]
  simp

/- The second round reads the key again. -/
theorem keyByte_second
    (hPosition : position < key.length) :
    keyByte key (key.length + 1 + position) =
      key[position] := by
  rw [← keyByte_of_lt hPosition]
  unfold keyByte
  rw [Nat.add_mod_left]

/- Among two rounds, only the end of the first is zero. -/
theorem eq_length_of_keyByte_eq_zero
    (hNonzero : ∀ byte ∈ key, byte ≠ 0)
    (hPosition : position < 2 * key.length + 1)
    (hZero : keyByte key position = 0) :
    position = key.length := by
  by_cases hFirst : position < key.length
  · rw [keyByte_of_lt hFirst] at hZero
    exact absurd hZero
      (hNonzero _ (List.getElem_mem hFirst))
  · by_cases hEnd : position = key.length
    · exact hEnd
    · have hSecond :
          position - (key.length + 1) < key.length := by
        omega
      have hRound := keyByte_second hSecond
      rw [show key.length + 1 +
          (position - (key.length + 1)) = position by
        omega, hZero] at hRound
      exact absurd hRound.symm
        (hNonzero _ (List.getElem_mem hSecond))

------------------------------------------------------------
-- Agreeing Keys
------------------------------------------------------------

/- A key as long as the schedule is read once. -/
theorem keyBytes_of_length
    (hLength : key.length = count) :
    keyBytes count key = key := by
  apply List.ext_getElem
  · rw [length_keyBytes, hLength]
  · intro position hLeft hRight
    rw [getElem_keyBytes, keyByte_of_lt hRight]

/- What a shorter key expands to within two rounds. -/
theorem keyBytes_eq_append
    (hShort : key.length < count)
    (hRounds : count ≤ 2 * key.length + 1) :
    keyBytes count key =
      key ++ 0 :: key.take (count - key.length - 1) := by
  apply List.ext_getElem
  · simp only [length_keyBytes, List.length_append,
      List.length_cons, List.length_take]
    omega
  · intro position hLeft hRight
    rw [length_keyBytes] at hLeft
    rw [getElem_keyBytes]
    by_cases hFirst : position < key.length
    · rw [keyByte_of_lt hFirst,
        List.getElem_append_left hFirst]
    · rw [List.getElem_append_right (by omega)]
      by_cases hEnd : position = key.length
      · subst hEnd
        simp [keyByte_length]
      · have hSecond :
            position - (key.length + 1) < key.length := by
          omega
        have hRound := keyByte_second hSecond
        rw [show key.length + 1 +
            (position - (key.length + 1)) = position by
          omega] at hRound
        rw [hRound, List.getElem_cons]
        rw [dif_neg (by omega), List.getElem_take]
        simp only [Nat.sub_sub]

/-
  A key without zero bytes agrees with a key that fits the
  schedule exactly when that one is the key itself or its
  expansion.
-/
theorem keyBytes_eq_iff
    (hNonzero : ∀ byte ∈ key, byte ≠ 0)
    (hShort : key.length < count)
    (hRounds : count ≤ 2 * key.length + 1)
    (hFits : other.length ≤ count) :
    keyBytes count other = keyBytes count key ↔
      other = key ∨
        other =
          key ++ 0 :: key.take (count - key.length - 1) := by
  constructor
  · intro hAgree
    by_cases hFull : other.length = count
    · right
      rw [← keyBytes_eq_append hShort hRounds, ← hAgree,
        keyBytes_of_length hFull]
    · left
      -- The zero byte of `other` is where the key ends.
      have hBytes := keyBytes_eq_keyBytes_iff.mp hAgree
      have hZero := hBytes other.length (by omega)
      rw [keyByte_length] at hZero
      have hLength := eq_length_of_keyByte_eq_zero hNonzero
        (by omega) hZero.symm
      apply List.ext_getElem hLength
      intro position hLeft hRight
      have hByte := hBytes position (by omega)
      rwa [keyByte_of_lt hLeft, keyByte_of_lt hRight]
        at hByte
  · intro hOther
    rcases hOther with rfl | rfl
    · rfl
    · rw [← keyBytes_eq_append hShort hRounds,
        keyBytes_of_length length_keyBytes]

end Hashing

end CrudAuth
