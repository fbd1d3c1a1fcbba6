import Wordbook.Text.Offset

/-!
# Converting offsets

The two conversions between character and byte offsets are adjoint to one another, and where a text
is cut in two they give the length of the first part.

## Main Statements

* `charOffset_le_iff` — the conversions compare offsets alike
* `charOffset_append`, `byteOffset_append` — the offset at which a text is cut
* `append_inj_of_byteLength` — a text is cut in two by the length of the first part
* `charOffset_min` — an offset beyond the end is read as the end
* `eq_byteLength_of_charOffset` — an offset behind a character of one byte is not inside a character
-/

namespace Wordbook.Text

variable {text front after : List Char} {b n : Nat}

theorem byteLength_nil : byteLength [] = 0 := rfl

theorem byteLength_cons (c : Char) (rest : List Char) :
    byteLength (c :: rest) = byteLength rest + c.utf8Size := rfl

theorem byteLength_append (front after : List Char) :
    byteLength (front ++ after) = byteLength front + byteLength after := by
  induction front with
  | nil => rw [byteLength_nil, List.nil_append, Nat.zero_add]
  | cons c front ih =>
    rw [List.cons_append, byteLength_cons, byteLength_cons, ih]
    omega

/-- Every character takes a byte, so a text of no bytes is empty. -/
theorem eq_nil_of_byteLength (empty : byteLength text = 0) : text = [] := by
  cases text with
  | nil => rfl
  | cons c rest =>
    rw [byteLength_cons] at empty
    exact absurd (Nat.eq_zero_of_add_eq_zero_left empty) (Nat.ne_of_gt (Char.utf8Size_pos c))

/-- Up to the end, `charOffset` is adjoint to `byteOffset`: at most `n` characters start before `b`
exactly if it takes no more than `n` to reach `b`. -/
theorem charOffset_le_iff (inside : b ≤ byteLength text) :
    charOffset text b ≤ n ↔ b ≤ byteOffset text n := by
  induction text generalizing b n with
  | nil =>
    rw [byteLength_nil, Nat.le_zero] at inside
    exact iff_of_true (Nat.zero_le n) (inside ▸ Nat.zero_le _)
  | cons c rest ih =>
    rcases Nat.eq_zero_or_pos b with rfl | positive
    · rw [charOffset_zero]
      exact iff_of_true (Nat.zero_le n) (Nat.zero_le _)
    · rw [charOffset_cons c rest positive]
      rw [byteLength_cons] at inside
      cases n with
      | zero =>
        rw [byteOffset_zero]
        omega
      | succ n =>
        rw [Nat.succ_le_succ_iff, ih (Nat.sub_le_iff_le_add.mpr inside),
          byteOffset_cons_succ, Nat.sub_le_iff_le_add]

theorem byteOffset_append (front after : List Char) :
    byteOffset (front ++ after) front.length = byteLength front := by
  induction front with
  | nil => exact byteOffset_zero after
  | cons c front ih =>
    rw [List.cons_append, List.length_cons, byteOffset_cons_succ, ih,
      byteLength_cons]

theorem charOffset_append (front after : List Char) :
    charOffset (front ++ after) (byteLength front) = front.length := by
  induction front with
  | nil => exact charOffset_zero after
  | cons c front ih =>
    have positive : 0 < byteLength (c :: front) :=
      Nat.lt_of_lt_of_le (Char.utf8Size_pos c) (Nat.le_add_left _ _)
    rw [List.cons_append, charOffset_cons _ _ positive, byteLength_cons, Nat.add_sub_cancel,
      ih, List.length_cons]

/-- The character behind `front` starts before `b` exactly if `b` is behind `front`. -/
theorem length_lt_charOffset_iff (inside : b ≤ byteLength (front ++ after)) :
    front.length < charOffset (front ++ after) b ↔ byteLength front < b := by
  rw [← Nat.not_le, ← Nat.not_le, charOffset_le_iff inside, byteOffset_append]

/-- Two cuts of a text at the same byte are the same. -/
theorem append_inj_of_byteLength {front' after' : List Char}
    (same : front ++ after = front' ++ after') (long : byteLength front = byteLength front') :
    front = front' ∧ after = after' := by
  have cut := charOffset_append front after
  rw [same, long, charOffset_append] at cut
  exact List.append_inj same cut.symm

theorem charOffset_of_byteLength_le (beyond : byteLength text ≤ b) :
    charOffset text b = text.length := by
  induction text generalizing b with
  | nil => rfl
  | cons c rest ih =>
    rw [byteLength_cons] at beyond
    have positive : 0 < b :=
      Nat.lt_of_lt_of_le (Nat.add_pos_right _ (Char.utf8Size_pos c)) beyond
    rw [charOffset_cons c rest positive, ih (Nat.le_sub_of_add_le beyond),
      List.length_cons]

/-- A byte offset beyond the end is read as the end. -/
theorem charOffset_min (text : List Char) (b : Nat) :
    charOffset text (min b (byteLength text)) = charOffset text b := by
  rcases Nat.le_total b (byteLength text) with inside | beyond
  · rw [Nat.min_eq_left inside]
  · rw [Nat.min_eq_right beyond, charOffset_of_byteLength_le beyond,
      charOffset_of_byteLength_le (Nat.le_refl _)]

/-- If the characters that start before `b` end with one of a single byte, `b` is right behind that
character. -/
theorem eq_byteLength_of_charOffset {c : Char} (single : c.utf8Size = 1)
    (inside : b ≤ byteLength (front ++ [c] ++ after))
    (cut : charOffset (front ++ [c] ++ after) b = front.length + 1) :
    b = byteLength (front ++ [c]) := by
  have long : (front ++ [c]).length = front.length + 1 := List.length_append
  have upper : b ≤ byteLength (front ++ [c]) := by
    have reached := (charOffset_le_iff inside).mp (Nat.le_of_eq cut)
    rwa [← long, byteOffset_append] at reached
  have lower : byteLength front < b := by
    rw [List.append_assoc] at inside cut
    exact (length_lt_charOffset_iff inside).mp (by omega)
  rw [byteLength_append] at upper ⊢
  rw [byteLength_cons, byteLength_nil, single] at upper ⊢
  omega

end Wordbook.Text
