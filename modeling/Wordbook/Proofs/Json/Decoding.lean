import Wordbook.Document
import Wordbook.Proofs.Json.Reading

/-!
# Dialects in JSON texts

Every JSON text that denotes a datum is read as the dialect that the datum is, and as none if it is
none.  So nothing counts but the datum: neither the white space of the text, nor how its numbers and
strings are written, nor the order of members, nor members that no record knows.

## Main Statements

* `Dialect.parse_eq_ok_iff_isDialect` — a text is read as a dialect exactly if the datum it denotes
  is that dialect
-/

namespace Wordbook

/-- A text that `Json.read` reads without a fault as a tree of `v` is parsed as a dialect exactly if
`v` is that dialect. -/
theorem Dialect.parse_json_eq_ok_iff {text : String} {t : Tree} {v : Datum}
    (read : Json.read text = (t, true)) (holds : Tree.Holds t v) (kept : v.KeepsRecordsInTables)
    (dialect : Dialect) : Dialect.parse .json text = .ok dialect ↔ v.IsDialect dialect := by
  have same : Dialect.ofTree true t = .ok dialect ↔ v.IsDialect dialect :=
    holds.ofTree_eq_ok_iff kept
  rw [← same, parse, ofJson, read]
  simp only [bind_eq_ok_iff, if_true, Except.ok.injEq, exists_eq_right]

/-- For every `text` that denotes a datum `v`, in which no list stands in the place of a record,
`Dialect.parse` succeeds exactly if `v` is a dialect, and then with that dialect. -/
theorem Dialect.parse_eq_ok_iff_isDialect {text : String} {v : Datum}
    (denotes : Json.Denotes text v) (kept : v.KeepsRecordsInTables) (dialect : Dialect) :
    Dialect.parse .json text = .ok dialect ↔ v.IsDialect dialect := by
  obtain ⟨t, holds, read⟩ := Json.read_of_denotes denotes
  exact parse_json_eq_ok_iff read holds kept dialect

/-- White space, an escape, a member that no dialect knows, the fields in another order, and a
default that is absent by name. -/
theorem Dialect.parse_eq_ok_iff_isDialect_order :
    let text := "\x7b\"z\": [-1e2, null], \"commands\":[\x7b\"aliases\":[\"a\"],\"args\":"
      ++ "[\x7b\"default\":null,\"type\":\"t\"\x7d]\x7d],\n\"name\":\"\\u006e\"\x7d"
    let v := Datum.table [("z", .list [.number (-100), .null]),
      ("commands", .list [.table [("aliases", .list [.text "a"]),
        ("args", .list [.table [("default", .null), ("type", .text "t")]])]]),
      ("name", .text "n")]
    Json.Denotes text v ∧ v.KeepsRecordsInTables
      ∧ Dialect.parse .json text = .ok ⟨"n", [], [⟨["a"], "", [⟨"t", "", none⟩]⟩]⟩ := by
  intro text v
  have plain := Json.stringText_plain
  have none : Json.IsGap [] := nofun
  have space : Json.IsGap [' '] := by simp [Json.IsGap]
  have line : Json.IsGap ['\n'] := by simp [Json.IsGap]
  have one : Json.AreWhole ['1'] := ⟨⟨by decide, by simp⟩, by decide⟩
  have two : Json.AreDigits ['2'] := ⟨by decide, by simp⟩
  have hundred : Json.UnsignedText 100 ['1', 'e', '2'] := by
    have value : (100 : Rat) = Json.scaled 1 2 := by decide +kernel
    rw [value]
    exact .mk one .absent (.present (Or.inl rfl) .absent two)
  have code : Text.HexText 'n'.toNat ['0', '0', '6', 'e'] := by
    have digits : Text.HexText (16 * (16 * (16 * (16 * 0 + 0) + 0) + 6) + 14)
        ['0', '0', '6', 'e'] :=
      .snoc (.snoc (.snoc (.snoc .nil (.inl rfl)) (.inl rfl)) (.inl rfl)) (.inl rfl)
    exact digits
  have escape : Json.CharText 'n' ('\\' :: 'u' :: ['0', '0', '6', 'e']) := .point rfl code
  have escaped : Json.StringText "n" ('"' :: ('\\' :: 'u' :: ['0', '0', '6', 'e']) ++ ['"']) :=
    .mk (.cons escape .nil)
  have denotes : Json.Denotes text v := by
    refine ⟨[], _, [], none, .table (.more none (plain "z" (by simp)) none space
      (.list (.more none (.number (.negative hundred)) none (.last space .null none))) none
      (.more space (plain "commands" (by simp)) none none
        (.list (.last none (.table (.more none (plain "aliases" (by simp)) none none
          (.list (.last none (.text (plain "a" (by simp))) none)) none
          (.last none (plain "args" (by simp)) none none (.list (.last none (.table
            (.more none (plain "default" (by simp)) none none .null none
              (.last none (plain "type" (by simp)) none none (.text (plain "t" (by simp)))
                none))) none)) none))) none)) none
        (.last line (plain "name" (by simp)) none none (.text escaped) none))), none, ?_⟩
    decide
  have kept : v.KeepsRecordsInTables := by
    constructor <;> simp [v, Datum.HasItem, Datum.IsList]
  have is : v.IsDialect ⟨"n", [], [⟨["a"], "", [⟨"t", "", .none⟩]⟩]⟩ := by
    refine ⟨_, rfl, ⟨_, rfl, rfl⟩, Or.inl ⟨rfl, rfl⟩, Or.inr ⟨_, rfl, _, rfl, .cons ?_ .nil⟩⟩
    refine ⟨_, rfl, ⟨_, rfl, _, rfl, .cons rfl .nil⟩, Or.inl ⟨rfl, rfl⟩,
      Or.inr ⟨_, rfl, _, rfl, .cons ?_ .nil⟩⟩
    exact ⟨_, rfl, ⟨_, rfl, rfl⟩, Or.inl ⟨rfl, rfl⟩, Or.inr ⟨_, rfl, Or.inl ⟨rfl, rfl⟩⟩⟩
  exact ⟨denotes, kept, (Dialect.parse_eq_ok_iff_isDialect denotes kept _).mpr is⟩

end Wordbook
