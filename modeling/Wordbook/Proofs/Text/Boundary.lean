import Mathlib.Order.GaloisConnection.Basic
import Mathlib.Order.MinMax
import Wordbook.Proofs.Text.Offset

/-!
# Boundaries between characters

A place among the characters of a text is a boundary between them, and every boundary is such a
place.  A byte offset can also fall inside a character.  This module shows what becomes of it when
it is converted: it moves on to the end of that character, and no offset moves further than it has
to.

## Main Definitions

* `IsBoundary` — some first characters of a text take so many bytes
* `AreAdjoint` — how the two conversions belong together

## Main Statements

* `isBoundary_toList_iff` — the boundaries are the valid positions of a string
* `gc_charOffset_byteOffset` — up to the end of a text the conversions are adjoint
* `charOffset_byteOffset` — a place among the characters is found again
* `isLeast_byteOffset_charOffset` — a byte offset is moved to the next boundary
* `offsets_areAdjoint` — all of this for strings

## Design Notes

Beyond the end the adjunction fails: an offset there is read as the end, and no place among the
characters takes more bytes than the text has.  The order of all offsets is kept nevertheless, as
`charOffset_min` leads back to those up to the end.
-/

namespace Wordbook.Text

variable {text : List Char} {b : Nat}

/-! ### Boundaries -/

/-- The byte offset `b` is a boundary of `text`: some first characters take `b` bytes. -/
def IsBoundary (text : List Char) (b : Nat) : Prop :=
  ∃ front after, text = front ++ after ∧ byteLength front = b

/-- The bytes of a string, `String.utf8ByteSize`, are those of its characters. -/
theorem byteLength_toList (text : String) : byteLength text.toList = text.utf8ByteSize := by
  have same : ∀ chars : List Char, byteLength chars = (String.ofList chars).utf8ByteSize := by
    intro chars
    induction chars with
    | nil => rfl
    | cons c rest ih =>
      have split : String.ofList (c :: rest) = String.singleton c ++ String.ofList rest := by
        rw [String.singleton_eq_ofList, ← String.ofList_append, List.singleton_append]
      rw [byteLength_cons, ih, split, String.utf8ByteSize_append,
        String.utf8ByteSize_singleton, Nat.add_comm]
  rw [same, String.ofList_toList]

/-- The boundaries of a text are what `String.Pos.Raw.IsValid` calls valid: the positions at which
the text can be read as a string. -/
theorem isBoundary_toList_iff {text : String} :
    IsBoundary text.toList b ↔ String.Pos.Raw.IsValid text ⟨b⟩ := by
  rw [String.Pos.Raw.isValid_iff_exists_append]
  constructor
  · rintro ⟨front, after, split, rfl⟩
    refine ⟨String.ofList front, String.ofList after, ?_, ?_⟩
    · rw [← String.toList_inj, split, String.toList_append, String.toList_ofList,
        String.toList_ofList]
    · rw [String.Pos.Raw.ext_iff, String.byteIdx_rawEndPos, ← byteLength_toList,
        String.toList_ofList]
  · rintro ⟨front, after, rfl, there⟩
    refine ⟨front.toList, after.toList, String.toList_append, ?_⟩
    rw [byteLength_toList]
    exact (congrArg String.Pos.Raw.byteIdx there).symm

/-- The bytes before the place `n` are those of the first `n` characters. -/
theorem byteOffset_eq_byteLength_take (text : List Char) (n : Nat) :
    byteOffset text n = byteLength (text.take n) := by
  induction text generalizing n with
  | nil => rw [byteOffset_nil, List.take_nil, byteLength_nil]
  | cons c rest ih =>
    cases n with
    | zero => rfl
    | succ n =>
      rw [byteOffset_cons_succ, List.take_succ_cons, byteLength_cons, ih]

theorem isBoundary_byteOffset (text : List Char) (n : Nat) : IsBoundary text (byteOffset text n) :=
  ⟨text.take n, text.drop n, (List.take_append_drop n text).symm,
    (byteOffset_eq_byteLength_take text n).symm⟩

theorem IsBoundary.le_byteLength (boundary : IsBoundary text b) : b ≤ byteLength text := by
  obtain ⟨front, after, rfl, rfl⟩ := boundary
  rw [byteLength_append]
  exact Nat.le_add_right _ _

/-! ### The adjunction -/

/-- Up to the end of the text `charOffset` and `byteOffset` form a `GaloisConnection`.  Beyond the
end they do not, which is why the first one is taken on `Set.Iic`. -/
theorem gc_charOffset_byteOffset (text : List Char) :
    GaloisConnection (fun b : Set.Iic (byteLength text) => charOffset text b)
      (fun n => ⟨byteOffset text n, (isBoundary_byteOffset text n).le_byteLength⟩) :=
  fun b _ => charOffset_le_iff b.2

theorem monotone_byteOffset (text : List Char) : Monotone (byteOffset text) :=
  fun _ _ le => (gc_charOffset_byteOffset text).monotone_u le

theorem monotone_charOffset (text : List Char) : Monotone (charOffset text) := by
  intro b b' le
  have upTo : ∀ b, min b (byteLength text) ∈ Set.Iic (byteLength text) :=
    fun b => min_le_right b _
  have kept := (gc_charOffset_byteOffset text).monotone_l
    (show (⟨_, upTo b⟩ : Set.Iic _) ≤ ⟨_, upTo b'⟩ from min_le_min_right _ le)
  simpa only [charOffset_min] using kept

/-- The place `n` among the characters is found again, and one beyond the end is read as the end. -/
theorem charOffset_byteOffset (text : List Char) (n : Nat) :
    charOffset text (byteOffset text n) = min n text.length := by
  have cut := charOffset_append (text.take n) (text.drop n)
  rwa [List.take_append_drop, List.length_take, ← byteOffset_eq_byteLength_take] at cut

/-! ### The next boundary -/

/-- The way to characters and back does not make a byte offset smaller, unless it is beyond the
end. -/
theorem min_le_byteOffset_charOffset (text : List Char) (b : Nat) :
    min b (byteLength text) ≤ byteOffset text (charOffset text b) := by
  rw [← charOffset_min]
  exact (gc_charOffset_byteOffset text).le_u_l ⟨_, min_le_right b (byteLength text)⟩

/-- The way to characters and back moves `b` to the next boundary, where it stays if it is one, and
to the end if it is beyond. -/
theorem isLeast_byteOffset_charOffset (text : List Char) (b : Nat) :
    IsLeast {m | IsBoundary text m ∧ min b (byteLength text) ≤ m}
      (byteOffset text (charOffset text b)) := by
  refine ⟨⟨isBoundary_byteOffset text _, min_le_byteOffset_charOffset text b⟩, ?_⟩
  rintro _ ⟨⟨front, after, rfl, rfl⟩, reached⟩
  rw [← byteOffset_append front after, ← charOffset_min]
  refine monotone_byteOffset _ ((charOffset_le_iff (min_le_right _ _)).mpr ?_)
  rwa [byteOffset_append]

/-- A byte offset `b` inside the character `c`, or at its end, is moved to the end of `c`. -/
theorem byteOffset_charOffset_inside {front after : List Char} {c : Char}
    (behind : byteLength front < b) (within : b ≤ byteLength front + c.utf8Size) :
    byteOffset (front ++ c :: after) (charOffset (front ++ c :: after) b)
      = byteLength front + c.utf8Size := by
  have whole : byteLength (front ++ c :: after)
      = byteLength front + c.utf8Size + byteLength after := by
    rw [byteLength_append, byteLength_cons]
    omega
  have stop : byteLength (front ++ [c]) = byteLength front + c.utf8Size := by
    rw [byteLength_append, byteLength_cons, byteLength_nil, Nat.zero_add]
  have inside : b ≤ byteLength (front ++ c :: after) := by omega
  apply Nat.le_antisymm
  · refine (isLeast_byteOffset_charOffset _ b).2 ⟨⟨front ++ [c], after, by simp, stop⟩, ?_⟩
    rwa [Nat.min_eq_left inside]
  · -- More characters start before the offset than stand before the character.
    have passed := (length_lt_charOffset_iff inside).mpr behind
    have bytes := monotone_byteOffset (front ++ c :: after) passed
    have upTo := byteOffset_append (front ++ [c]) after
    rw [List.append_assoc, List.length_append, List.length_singleton] at upTo
    exact stop ▸ upTo ▸ bytes

/-! ### Strings -/

/-- What `charOffset` and `byteOffset` have to do with one another for `text`. -/
structure AreAdjoint (text : String) : Prop where
  /-- A later byte offset has no fewer characters before it. -/
  monotone_char : Monotone (charOffset text.toList)
  /-- A later place among the characters has no fewer bytes before it. -/
  monotone_byte : Monotone (byteOffset text.toList)
  /-- Up to the end, each of the two can be moved to the other side of `≤`. -/
  le_iff : ∀ b n, b ≤ text.utf8ByteSize →
    (charOffset text.toList b ≤ n ↔ b ≤ byteOffset text.toList n)
  /-- The place `n` is found again, and one beyond the end is read as the end. -/
  found : ∀ n, charOffset text.toList (byteOffset text.toList n) = min n text.length
  /-- A byte offset is moved to the next valid position of `text`, and one beyond the end to the
  end. -/
  next : ∀ b, IsLeast {m | String.Pos.Raw.IsValid text ⟨m⟩ ∧ min b text.utf8ByteSize ≤ m}
    (byteOffset text.toList (charOffset text.toList b))
  /-- Inside a character `c` this is the end of `c`. -/
  inside : ∀ front c after b, text = front ++ String.singleton c ++ after →
    front.utf8ByteSize < b → b ≤ front.utf8ByteSize + c.utf8Size →
    byteOffset text.toList (charOffset text.toList b) = front.utf8ByteSize + c.utf8Size

/-- The conversions `charOffset` and `byteOffset` are monotone and adjoint.  They take a place `n`
back to `n`, and a byte offset to the least boundary that is not before it. -/
theorem offsets_areAdjoint (text : String) : AreAdjoint text where
  monotone_char := monotone_charOffset text.toList
  monotone_byte := monotone_byteOffset text.toList
  le_iff b n inside := by
    rw [← byteLength_toList] at inside
    exact charOffset_le_iff inside
  found n := by rw [charOffset_byteOffset, String.length_toList]
  next b := by
    simp only [← byteLength_toList, ← isBoundary_toList_iff]
    exact isLeast_byteOffset_charOffset text.toList b
  inside front c after b split behind within := by
    rw [← byteLength_toList] at behind within ⊢
    rw [split, String.toList_append, String.toList_append, String.toList_singleton,
      List.append_assoc]
    exact byteOffset_charOffset_inside behind within

/-- The arrow takes three bytes, behind the two of the accented letter. -/
example : [0, 1, 2, 3, 4, 5, 6, 7].map (charOffset ['é', '→', 'x']) = [0, 1, 1, 2, 2, 2, 3, 3]
    ∧ [0, 1, 2, 3, 4].map (byteOffset ['é', '→', 'x']) = [0, 2, 5, 6, 6] := by decide

end Wordbook.Text
