import Wordbook.Proofs.Toml.Building
import Wordbook.Proofs.Toml.Reader
import Wordbook.Proofs.Toml.Scanning

/-!
# TOML documents read by the grammar

A document that `Denotes` a datum is read by `Toml.read` as a tree that `Holds` it, unless it nests
values deeper than `levels` or has a key with as many parts.

## Main Definitions

* `EndsValue` — nothing at the front of a text carries a value on
* `Reads` — a reader of values reads those of some depth
* `Statement.StandsFor` — what is read of a line is what the line says

## Main Statements

* `reads_lexValue` — values are read, as deep as there are levels left
* `lexStatement_of_lineText` — a line is read as what it says
* `read_of_denotes` — a document that denotes a datum is read as a tree that holds it

## Design Notes

The reader goes through items and entries without knowing how their values are read, and only
`lexValue` counts levels.  The proof does the same: what is between the signs of a list or table is
read if the values in it are, and the induction is on the depth.
-/

namespace Wordbook.Toml

/-! ### Where values begin and end -/

/-- Nothing at the front of `rest` carries a value on. -/
def EndsValue (rest : List Char) : Prop :=
  ∀ c ∈ rest.head?, c ∈ [' ', '\t', '\n', '\r', '#', ',', ']', '}']

theorem endsValue_cons {c : Char} (rest : List Char)
    (ends : c ∈ [' ', '\t', '\n', '\r', '#', ',', ']', '}']) : EndsValue (c :: rest) := by
  intro d head
  cases head
  exact ends

theorem EndsValue.endsText {rest : List Char} (ends : EndsValue rest) : EndsText rest := by
  refine ⟨fun head => ?_, fun head => ?_⟩
  · exact absurd (ends '"' head) (by decide)
  · exact absurd (ends '\'' head) (by decide)

theorem EndsValue.endsWord {rest : List Char} (ends : EndsValue rest) : EndsWord rest := by
  intro c head
  have closes := ends c head
  simp only [List.mem_cons, List.not_mem_nil, or_false] at closes
  rcases closes with rfl | rfl | rfl | rfl | rfl | rfl | rfl | rfl <;> rfl

theorem endsValue_blanks {blanks rest : List Char} (areBlanks : AreBlanks blanks)
    (ends : EndsValue rest) : EndsValue (blanks ++ rest) := by
  cases blanks with
  | nil => exact ends
  | cons c more =>
    apply endsValue_cons
    rcases areBlanks c List.mem_cons_self with rfl | rfl <;> decide

theorem endsValue_newline {newline : List Char} (isNewline : IsNewline newline)
    (rest : List Char) : EndsValue (newline ++ rest) := by
  rcases isNewline with rfl | rfl <;> exact endsValue_cons _ (by decide)

theorem endsValue_space {gap rest : List Char} (isSpace : SpaceText gap) (ends : EndsValue rest) :
    EndsValue (gap ++ rest) := by
  cases isSpace with
  | nil => exact ends
  | blank isBlank _ =>
    apply endsValue_cons
    rcases isBlank with rfl | rfl <;> decide
  | line noted isNewline _ =>
    rw [List.append_assoc, List.append_assoc]
    cases noted with
    | absent => exact endsValue_newline isNewline _
    | present _ => exact endsValue_cons _ (by decide)

theorem endsValue_endsLine {comment tail rest : List Char} (noted : CommentText comment)
    (ends : EndsLine tail rest) : EndsValue (comment ++ tail) := by
  cases noted with
  | present _ => exact endsValue_cons _ (by decide)
  | absent =>
    rcases ends with ⟨rfl, -⟩ | ⟨newline, isNewline, rfl⟩
    · exact nofun
    · exact endsValue_newline isNewline rest

/-- A string begins with a quote or an apostrophe. -/
theorem eq_cons_of_stringText {s : String} {cs : List Char} (spelled : StringText s cs) :
    ∃ c more, cs = c :: more ∧ (c = '"' ∨ c = '\'') := by
  cases spelled with
  | line spelled =>
    cases spelled with
    | basic _ => exact ⟨'"', _, rfl, Or.inl rfl⟩
    | literal _ => exact ⟨'\'', _, rfl, Or.inr rfl⟩
  | multiBasic _ _ => exact ⟨'"', _, rfl, Or.inl rfl⟩
  | multiLiteral _ _ => exact ⟨'\'', _, rfl, Or.inr rfl⟩

theorem isVisible_of_isWord {c : Char} (word : isWord c = true) : isVisible c = true := by
  by_contra hidden
  have oneOf : c = ' ' ∨ c = '\t' ∨ c = '\n' ∨ c = '\r' ∨ c = '#' := by
    simp only [isVisible, isBlank, Bool.and_eq_true, Bool.not_eq_true', Bool.or_eq_false_iff,
      beq_eq_false_iff_ne, bne_iff_ne] at hidden
    tauto
  rcases oneOf with rfl | rfl | rfl | rfl | rfl <;> cases word

/-- A value begins with a visible character, which does not end a list. -/
theorem eq_cons_of_valueText {limit depth : Nat} {v : Datum} {cs : List Char}
    (spelled : ValueText limit depth v cs) :
    ∃ c more, cs = c :: more ∧ isVisible c = true ∧ c ≠ ']' := by
  cases spelled with
  | text spelled =>
    obtain ⟨c, more, rfl, kind⟩ := eq_cons_of_stringText spelled
    rcases kind with rfl | rfl <;> exact ⟨_, more, rfl, rfl, by decide⟩
  | integer spelled _ =>
    have numeral := isNumeral_of_integerText spelled
    obtain ⟨c, more, rfl⟩ := List.exists_cons_of_ne_nil numeral.some
    have word := numeral.isWord c List.mem_cons_self
    refine ⟨c, more, rfl, isVisible_of_isWord word, ?_⟩
    rintro rfl
    cases word
  | yes => exact ⟨'t', _, rfl, rfl, by decide⟩
  | no => exact ⟨'f', _, rfl, rfl, by decide⟩
  | list _ => exact ⟨'[', _, rfl, rfl, by decide⟩
  | emptyTable _ => exact ⟨'{', _, rfl, rfl, by decide⟩
  | table _ _ => exact ⟨'{', _, rfl, rfl, by decide⟩

/-- An entry begins with a key. -/
theorem eq_cons_of_entryText {limit depth : Nat} {entry : List String × Datum} {cs : List Char}
    (spelled : EntryText limit depth entry cs) : ∃ c more, cs = c :: more ∧ StartsKey c := by
  cases spelled with
  | mk named _ _ _ _ =>
    obtain ⟨c, more, rfl, starts⟩ := eq_cons_of_keyText named
    exact ⟨c, _, rfl, starts⟩

/-- Blanks before entries are skipped by `skipBlanks`, up to the first key. -/
theorem skipBlanks_of_entriesText {limit depth : Nat} {entries : List (List String × Datum)}
    {cs : List Char} (spelled : EntriesText limit depth entries cs) :
    ∃ c more, StartsKey c ∧ EntriesText limit depth entries (c :: more)
      ∧ ∀ rest, skipBlanks (cs ++ rest) = c :: (more ++ rest) := by
  have skipped : ∀ {before rest : List Char} {c : Char}, AreBlanks before → StartsKey c →
      skipBlanks (before ++ c :: rest) = c :: rest := fun opens starts => by
    rw [skipBlanks_append opens,
      skipBlanks_of_visible _ (isBlank_of_isVisible (isVisible_of_startsKey starts))]
  cases spelled with
  | @last _ entry _ _ behind opens spelled closes =>
    obtain ⟨c, more, rfl, starts⟩ := eq_cons_of_entryText spelled
    have whole : EntriesText limit depth [entry] ([] ++ c :: more ++ behind) :=
      .last nofun spelled closes
    refine ⟨c, more ++ behind, starts, whole, fun rest => ?_⟩
    simp only [List.append_assoc, List.cons_append]
    exact skipped opens starts
  | @more _ entry entries _ _ behind ds opens spelled closes others =>
    obtain ⟨c, more, rfl, starts⟩ := eq_cons_of_entryText spelled
    have whole : EntriesText limit depth (entry :: entries)
        ([] ++ c :: more ++ behind ++ ',' :: ds) :=
      .more nofun spelled closes others
    refine ⟨c, more ++ behind ++ ',' :: ds, starts, whole, fun rest => ?_⟩
    simp only [List.append_assoc, List.cons_append]
    exact skipped opens starts

/-! ### What is between the signs of lists and tables -/

/-- The reader `value` reads values that nest `depth` levels at most, up to their ends. -/
def Reads (limit depth : Nat) (value : List Char → Option (Tree × List Char)) : Prop :=
  ∀ {v : Datum} {cs : List Char}, ValueText limit depth v cs →
    ∃ t, t.Keeps v ∧ ∀ rest, EndsValue rest → value (cs ++ rest) = some (t, rest)

section Between

variable {limit depth : Nat} {value : List Char → Option (Tree × List Char)}
  (reads : Reads limit depth value)

include reads

/-- The items of a list are read by `lexItems` up to its end. -/
theorem lexItems_of_itemsText {items : List Datum} {cs : List Char}
    (spelled : ItemsText limit depth items cs) :
    ∃ trees, List.Forall₂ Tree.Holds trees items
      ∧ ∀ rest, lexItems value (cs ++ ']' :: rest) = some (trees, rest) := by
  induction items generalizing cs with
  | nil =>
    cases spelled with
    | nil isSpace =>
      refine ⟨[], .nil, fun rest => lexItems_end value ?_⟩
      rw [skipSpace_append isSpace, skipSpace_of_isVisible rest rfl]
  | cons v items ih =>
    cases spelled with
    | last opens spelled closes =>
      obtain ⟨t, keeps, read⟩ := reads spelled
      obtain ⟨c, more, rfl, visible, goesOn⟩ := eq_cons_of_valueText spelled
      refine ⟨[t], .cons keeps.holds .nil, fun rest => ?_⟩
      have found := read _ (endsValue_space closes (endsValue_cons rest (c := ']') (by decide)))
      simp only [List.append_assoc, List.cons_append] at found ⊢
      apply lexItems_last _ _ found
      · rw [skipSpace_append closes, skipSpace_of_isVisible rest rfl]
      · rw [skipSpace_append opens, skipSpace_of_isVisible _ visible]
      · exact fun equal => goesOn (Option.some.inj equal)
    | @more _ _ _ before _ behind ds opens spelled closes others =>
      obtain ⟨t, keeps, read⟩ := reads spelled
      obtain ⟨c, more, rfl, visible, goesOn⟩ := eq_cons_of_valueText spelled
      obtain ⟨trees, held, later⟩ := ih others
      refine ⟨t :: trees, .cons keeps.holds held, fun rest => ?_⟩
      have found := read _
        (endsValue_space closes (endsValue_cons (ds ++ ']' :: rest) (c := ',') (by decide)))
      have here : skipSpace (before ++ c :: (more ++ (behind ++ ',' :: (ds ++ ']' :: rest))))
          = c :: (more ++ (behind ++ ',' :: (ds ++ ']' :: rest))) := by
        rw [skipSpace_append opens, skipSpace_of_isVisible _ visible]
      have comma : skipSpace (behind ++ ',' :: (ds ++ ']' :: rest))
          = ',' :: (ds ++ ']' :: rest) := by
        rw [skipSpace_append closes, skipSpace_of_isVisible _ rfl]
      simp only [List.append_assoc, List.cons_append] at found ⊢
      rw [lexItems_cons here (fun equal => goesOn (Option.some.inj equal)) found comma, later,
        Option.map_some]
      simp only [List.length_append, List.length_cons]
      omega

/-- A key and its value are read by `lexEntry` up to the end of the value. -/
theorem lexEntry_of_entryText (within : limit < levels) {entry : List String × Datum}
    {cs : List Char} (spelled : EntryText limit depth entry cs) :
    ∃ e : Entry, e.StandsFor entry ∧ ∀ {before : List Char} rest, AreBlanks before →
      EndsValue rest → lexEntry value (before ++ (cs ++ rest)) = some (e, rest) := by
  cases spelled with
  | mk named short parts opens spelled =>
    obtain ⟨t, keeps, read⟩ := reads spelled
    obtain ⟨c, more, rfl, visible, -⟩ := eq_cons_of_valueText spelled
    obtain ⟨path, key, rfl, readKey⟩ := lexKey_of_keyText named (Nat.lt_of_le_of_lt short within)
    refine ⟨⟨path, key, t⟩, ⟨rfl, keeps⟩, fun rest blanks ends => ?_⟩
    have found := read rest ends
    simp only [List.append_assoc, List.cons_append] at found ⊢
    rw [lexEntry, readKey _ blanks parts (by decide)]
    simp only [skipBlanks_append opens,
      skipBlanks_of_visible _ (isBlank_of_isVisible visible), found]

/-- The entries of an inline table are read by `lexEntries` up to its end. -/
theorem lexEntries_of_entriesText (within : limit < levels) {entries : List (List String × Datum)}
    {cs : List Char} (spelled : EntriesText limit depth entries cs) :
    ∃ es, List.Forall₂ Entry.StandsFor es entries
      ∧ ∀ rest, lexEntries value (cs ++ '}' :: rest) = some (es, rest) := by
  induction entries generalizing cs with
  | nil => cases spelled
  | cons entry entries ih =>
    cases spelled with
    | @last _ _ _ _ behind opens spelled closes =>
      obtain ⟨e, same, read⟩ := lexEntry_of_entryText reads within spelled
      refine ⟨[e], .cons same .nil, fun rest => ?_⟩
      have found := read _ opens
        (endsValue_blanks closes (endsValue_cons rest (c := '}') (by decide)))
      rw [List.append_assoc, List.append_assoc, lexEntries, found]
      have brace : skipBlanks (behind ++ '}' :: rest) = '}' :: rest := by
        rw [skipBlanks_append closes, skipBlanks_of_visible _ rfl]
      simp only [brace]
    | @more _ _ _ before cs behind ds opens spelled closes others =>
      obtain ⟨e, same, read⟩ := lexEntry_of_entryText reads within spelled
      obtain ⟨es, held, later⟩ := ih others
      refine ⟨e :: es, .cons same held, fun rest => ?_⟩
      have found := read _ opens
        (endsValue_blanks closes (endsValue_cons (ds ++ '}' :: rest) (c := ',') (by decide)))
      have comma : skipBlanks (behind ++ ',' :: (ds ++ '}' :: rest))
          = ',' :: (ds ++ '}' :: rest) := by
        rw [skipBlanks_append closes, skipBlanks_of_visible _ rfl]
      have shorter : (ds ++ '}' :: rest).length
          < (before ++ (cs ++ (behind ++ ',' :: (ds ++ '}' :: rest)))).length := by
        simp only [List.length_append, List.length_cons]
        omega
      simp only [List.append_assoc, List.cons_append]
      rw [lexEntries, found]
      simp only [comma, if_pos shorter, later]

/-- An inline table is read by `lexInline` as the table that its entries make. -/
theorem lexInline_of_entriesText (within : limit < levels) {entries : List (List String × Datum)}
    {members : List (String × Datum)} {cs : List Char}
    (spelled : EntriesText limit depth entries cs)
    (made : Makes (entries.map Piece.ofEntry) members) :
    ∃ t, Tree.Holds t (.table members)
      ∧ ∀ rest, lexInline value (cs ++ '}' :: rest) = some (t, rest) := by
  obtain ⟨c, more, starts, spelled, skipped⟩ := skipBlanks_of_entriesText spelled
  obtain ⟨es, same, read⟩ := lexEntries_of_entriesText reads within spelled
  obtain ⟨built, ran, held⟩ := made.exists_run (forall₂_ofEntry same)
  rw [run_ofEntry] at ran
  refine ⟨.table (memberTrees built) true, holds_table held, fun rest => ?_⟩
  have found := read rest
  rw [List.cons_append] at found
  rw [lexInline, skipped]
  split
  · rename_i equal
    obtain ⟨rfl, -⟩ := List.cons.inj equal
    exact absurd starts (by decide)
  · rw [found]
    simp only [tableOf, ran, Option.map_some]

end Between

/-! ### Values -/

/-- A truth value is read up to its end. -/
theorem lexSimple_of_bool (b : Bool) {rest : List Char} (ends : EndsWord rest) :
    lexSimple ((if b then "true" else "false").toList ++ rest) = some (.bool b, rest) := by
  cases b with
  | false => exact lexSimple_append (by decide) (List.all_eq_true.mp rfl) rfl ends
  | true => exact lexSimple_append (by decide) (List.all_eq_true.mp rfl) rfl ends

/-- The reader `lexValue` reads values that nest as deep as it has levels left. -/
theorem reads_lexValue {limit depth left : Nat} (within : limit < levels) (deep : depth ≤ left) :
    Reads limit depth (lexValue left) := by
  intro v cs spelled
  cases spelled with
  | @text _ s cs spelled =>
    refine ⟨.text s, Tree.keeps_text s, fun rest ends => ?_⟩
    have read := lexString_of_stringText spelled ends.endsText
    obtain ⟨c, more, rfl, kind⟩ := eq_cons_of_stringText spelled
    have simple : lexValue left (c :: (more ++ rest)) = lexSimple (c :: (more ++ rest)) := by
      rcases kind with rfl | rfl <;> exact lexValue_eq_lexSimple left _ (by decide) (by decide)
    rw [List.cons_append] at read ⊢
    rw [simple, lexSimple, read]
    simp only [String.ofList_toList]
  | @integer _ n cs spelled fits =>
    refine ⟨.integer n, Tree.keeps_integer n, fun rest ends => ?_⟩
    have read := lexSimple_of_integerText spelled fits ends.endsWord
    have numeral := isNumeral_of_integerText spelled
    obtain ⟨c, more, rfl⟩ := List.exists_cons_of_ne_nil numeral.some
    have word := numeral.isWord c List.mem_cons_self
    rw [List.cons_append] at read ⊢
    rw [lexValue_eq_lexSimple left _ _ _, read]
    · rintro rfl
      cases word
    · rintro rfl
      cases word
  | yes =>
    refine ⟨.bool true, (Tree.Holds.bool true).keeps (by rintro (_ | _) ⟨⟩), fun rest ends => ?_⟩
    exact (lexValue_eq_lexSimple left _ (by decide) (by decide)).trans
      (lexSimple_of_bool true ends.endsWord)
  | no =>
    refine ⟨.bool false, (Tree.Holds.bool false).keeps (by rintro (_ | _) ⟨⟩), fun rest ends => ?_⟩
    exact (lexValue_eq_lexSimple left _ (by decide) (by decide)).trans
      (lexSimple_of_bool false ends.endsWord)
  | @list depth items cs spelled =>
    cases left with
    | zero => exact absurd deep (Nat.not_succ_le_zero depth)
    | succ left =>
      have inside : Reads limit depth (lexValue left) :=
        reads_lexValue within (Nat.le_of_succ_le_succ deep)
      obtain ⟨trees, held, read⟩ := lexItems_of_itemsText inside spelled
      refine ⟨.list trees true, (Tree.Holds.list held).keeps (by rintro (_ | _) ⟨⟩),
        fun rest _ => ?_⟩
      rw [List.append_assoc, List.cons_append, List.singleton_append, lexValue, read]
      rfl
  | @emptyTable depth gap areBlanks =>
    cases left with
    | zero => exact absurd deep (Nat.not_succ_le_zero depth)
    | succ left =>
      refine ⟨.table [] true, (Tree.Holds.table .nil (.refl _)).keeps (by rintro (_ | _) ⟨⟩),
        fun rest _ => ?_⟩
      rw [List.append_assoc, List.cons_append, List.singleton_append, lexValue, lexInline,
        skipBlanks_append areBlanks, skipBlanks_of_visible _ rfl]
      rfl
  | @table depth entries members cs spelled made =>
    cases left with
    | zero => exact absurd deep (Nat.not_succ_le_zero depth)
    | succ left =>
      have inside : Reads limit depth (lexValue left) :=
        reads_lexValue within (Nat.le_of_succ_le_succ deep)
      obtain ⟨t, holds, read⟩ := lexInline_of_entriesText inside within spelled made
      refine ⟨t, holds.keeps (by rintro (_ | _) ⟨⟩), fun rest _ => ?_⟩
      rw [List.append_assoc, List.cons_append, List.singleton_append, lexValue, read]
termination_by depth

/-! ### Lines -/

/-- What is read of a line, if anything, is what the line says. -/
inductive Statement.StandsFor : Option Statement → Line → Prop
  | blank : StandsFor none .blank
  | entry {e : Entry} {entry : List String × Datum} (same : e.StandsFor entry) :
    StandsFor (some (.entry e)) (.entry entry)
  | table (path : List String) (key : String) :
    StandsFor (some (.header (.table path key))) (.table (path ++ [key]))
  | element (path : List String) (key : String) :
    StandsFor (some (.header (.element path key))) (.element (path ++ [key]))

/-- A key behind blanks does not begin with the sign of a header. -/
theorem ne_cons_of_keyText {keys : List String} {name blanks : List Char}
    (named : KeyText keys name) (areBlanks : AreBlanks blanks) (behind rest : List Char) :
    blanks ++ (name ++ behind) ≠ '[' :: rest := by
  intro equal
  cases blanks with
  | nil =>
    obtain ⟨c, more, rfl, starts⟩ := eq_cons_of_keyText named
    exact absurd ((List.cons.inj equal).1 ▸ starts) (by decide)
  | cons d more =>
    rcases areBlanks d List.mem_cons_self with rfl | rfl <;> cases equal

/-- A line that does not begin like a header is read by `lexEntry`. -/
theorem lexStatement_entry {blanks : List Char} (opens : AreBlanks blanks) {c : Char}
    (rest : List Char) (visible : isVisible c = true) (noHeader : c ≠ '[') :
    lexStatement (blanks ++ c :: rest) = (lexEntry (lexValue (levels - 1)) (c :: rest)).bind
      (fun found => finishLine (.entry found.1) found.2) := by
  rw [lexStatement, lineEnd_eq_none opens _ visible, skipBlanks_append opens,
    skipBlanks_of_visible _ (isBlank_of_isVisible visible)]
  simp only
  split
  case h_1 equal => exact absurd (List.cons.inj equal).1 noHeader
  case h_2 equal => exact absurd (List.cons.inj equal).1 noHeader
  case h_3 => cases lexEntry (lexValue (levels - 1)) (c :: rest) <;> rfl

theorem ne_of_startsKey {c d : Char} (starts : StartsKey c) (other : ¬ StartsKey d) : c ≠ d := by
  rintro rfl
  exact other starts

/-- A line is read by `lexStatement` as what it says, up to its end. -/
theorem lexStatement_of_lineText {limit : Nat} (within : limit < levels) {line : Line}
    {cs : List Char} (spelled : LineText limit line cs) :
    ∃ found, Statement.StandsFor found line ∧ ∀ tail rest, EndsLine tail rest →
      lexStatement (cs ++ tail) = some (found, rest) := by
  cases spelled with
  | blank opens noted =>
    refine ⟨none, .blank, fun tail rest ends => ?_⟩
    rw [List.append_assoc, lexStatement, lineEnd_append opens noted ends]
  | entry opens spelled closes noted =>
    have reads : Reads limit limit (lexValue (levels - 1)) :=
      reads_lexValue within (Nat.le_pred_of_lt within)
    obtain ⟨e, same, readBehind⟩ := lexEntry_of_entryText reads within spelled
    obtain ⟨c, more, rfl, starts⟩ := eq_cons_of_entryText spelled
    have read : ∀ {rest}, EndsValue rest →
        lexEntry (lexValue (levels - 1)) (c :: more ++ rest) = some (e, rest) :=
      fun ends => @readBehind [] _ (List.forall_mem_nil _) ends
    refine ⟨some (.entry e), .entry same, fun tail rest ends => ?_⟩
    have found := read (endsValue_blanks closes (endsValue_endsLine noted ends))
    simp only [List.append_assoc, List.cons_append] at found ⊢
    rw [lexStatement_entry opens _ (isVisible_of_startsKey starts)
      (ne_of_startsKey starts (by decide)), found]
    simp only [Option.bind_some, finishLine, lineEnd_append closes noted ends, Option.map_some]
  | table opens parts named short ends closes noted =>
    obtain ⟨path, key, rfl, read⟩ := lexKey_of_keyText named (Nat.lt_of_le_of_lt short within)
    refine ⟨some (.header (.table path key)), .table path key, fun tail rest atEnd => ?_⟩
    simp only [List.append_assoc, List.cons_append]
    rw [lexStatement, lineEnd_eq_none opens _ rfl, skipBlanks_append opens,
      skipBlanks_of_visible _ rfl]
    simp only
    -- A key does not begin like the header of a row.
    split
    case h_1 equal => exact absurd (List.cons.inj equal).2 (ne_cons_of_keyText named parts _ _)
    case h_2 equal =>
      obtain rfl := (List.cons.inj equal).2
      rw [read _ parts ends (show ClosesKey ']' by decide)]
      simp only [finishLine, lineEnd_append closes noted atEnd, Option.map_some]
    case h_3 noHeader => exact absurd rfl (noHeader _)
  | element opens parts named short ends closes noted =>
    obtain ⟨path, key, rfl, read⟩ := lexKey_of_keyText named (Nat.lt_of_le_of_lt short within)
    refine ⟨some (.header (.element path key)), .element path key, fun tail rest atEnd => ?_⟩
    simp only [List.append_assoc, List.cons_append]
    rw [lexStatement, lineEnd_eq_none opens _ rfl, skipBlanks_append opens,
      skipBlanks_of_visible _ rfl]
    simp only [read _ parts ends (show ClosesKey ']' by decide), finishLine,
      lineEnd_append closes noted atEnd, Option.map_some]

/-! ### Documents -/

/-- A document is read by `statements` line by line. -/
theorem statements_of_documentText {limit : Nat} (within : limit < levels) {lines : List Line}
    {cs : List Char} (spelled : DocumentText limit lines cs) :
    ∃ founds, List.Forall₂ Statement.StandsFor founds lines
      ∧ statements cs = some (founds.flatMap Option.toList) := by
  induction spelled with
  | @last line cs spelled =>
    obtain ⟨found, same, read⟩ := lexStatement_of_lineText within spelled
    refine ⟨[found], .cons same .nil, ?_⟩
    have all := read [] [] (Or.inl ⟨rfl, rfl⟩)
    rw [List.append_nil] at all
    rw [List.flatMap_cons, List.flatMap_nil, List.append_nil]
    cases cs with
    | nil =>
      -- There is nothing to read in an empty line.
      cases all
      exact statements_nil
    | cons c more =>
      rw [statements_of_lexStatement all (Nat.zero_lt_succ _), statements_nil, Option.map_some,
        List.append_nil]
  | @more line lines cs newline ds spelled ends _ ih =>
    obtain ⟨found, same, read⟩ := lexStatement_of_lineText within spelled
    obtain ⟨founds, others, later⟩ := ih
    refine ⟨found :: founds, .cons same others, ?_⟩
    have here := read (newline ++ ds) ds (Or.inr ⟨newline, ends, rfl⟩)
    have shorter : ds.length < (cs ++ (newline ++ ds)).length := by
      obtain ⟨c, more, rfl, -⟩ := eq_cons_of_isNewline ends
      simp only [List.length_append, List.length_cons]
      omega
    rw [List.append_assoc, statements_of_lexStatement here shorter, later, Option.map_some,
      List.flatMap_cons]

/-- What a section changes in a document. -/
def Section.changes (part : Section) : List Change :=
  match part.header with
  | .root => part.entries.map Change.ofEntry
  | .table path key => [⟨path, key, .table part.entries⟩]
  | .element path key => [⟨path, key, .element part.entries⟩]

/-- A section is added by `addSection` as its changes are `run`. -/
theorem addSection_eq_run (members : Members) (part : Section) :
    addSection members part = run members part.changes := by
  obtain ⟨header, entries⟩ := part
  cases header with
  | root => exact (run_ofEntry members entries).symm
  | table path key => exact (run_singleton members ⟨path, key, .table entries⟩).symm
  | element path key => exact (run_singleton members ⟨path, key, .element entries⟩).symm

theorem foldlM_addSection (members : Members) (parts : List Section) :
    parts.foldlM addSection members = run members (parts.flatMap Section.changes) := by
  induction parts generalizing members with
  | nil => rfl
  | cons part more ih =>
    rw [List.foldlM_cons, List.flatMap_cons, run_append, addSection_eq_run]
    exact congrArg _ (funext ih)

/-- The sections of a document stand for the pieces that `gather` finds in its lines. -/
theorem sections_of_standsFor {founds : List (Option Statement)} {lines : List Line}
    (stands : List.Forall₂ Statement.StandsFor founds lines) (header : Header) :
    ∃ entries parts, sections header (founds.flatMap Option.toList) = ⟨header, entries⟩ :: parts
      ∧ List.Forall₂ Entry.StandsFor entries (gather lines).1
      ∧ List.Forall₂ Change.StandsFor (parts.flatMap Section.changes) (gather lines).2 := by
  induction stands generalizing header with
  | nil => exact ⟨[], [], rfl, .nil, .nil⟩
  | cons first _ ih =>
    cases first with
    | blank => exact ih header
    | @entry e _ same =>
      obtain ⟨entries, parts, shape, held, others⟩ := ih header
      refine ⟨e :: entries, parts, ?_, .cons same held, others⟩
      rw [List.flatMap_cons, Option.toList_some, List.singleton_append, sections, shape]
    | table path key =>
      obtain ⟨entries, parts, shape, held, others⟩ := ih (.table path key)
      refine ⟨[], ⟨.table path key, entries⟩ :: parts, ?_, .nil, .cons ⟨rfl, .table held⟩ others⟩
      rw [List.flatMap_cons, Option.toList_some, List.singleton_append, sections_header, shape]
    | element path key =>
      obtain ⟨entries, parts, shape, held, others⟩ := ih (.element path key)
      refine ⟨[], ⟨.element path key, entries⟩ :: parts, ?_, .nil,
        .cons ⟨rfl, .element held⟩ others⟩
      rw [List.flatMap_cons, Option.toList_some, List.singleton_append, sections_header, shape]

/-- A mark of the byte order begins no line. -/
theorem statements_mark (rest : List Char) : statements ('\ufeff' :: rest) = none := by
  have line : lexStatement ('\ufeff' :: rest) = none := by
    have noPart : lexKeyPart ('\ufeff' :: rest) = none := rfl
    have noEntry : lexEntry (lexValue (levels - 1)) ('\ufeff' :: rest) = none := by
      rw [lexEntry, lexKey, lexKeyParts, skipBlanks_of_visible _ rfl, noPart]
    have entry := @lexStatement_entry [] (List.forall_mem_nil _) '\ufeff' rest rfl (by decide)
    rwa [noEntry] at entry
  rw [statements, line]

/-- A text that has statements has no mark of the byte order. -/
theorem skipMark_of_statements {cs : List Char} {found : List Statement}
    (read : statements cs = some found) : skipMark cs = cs := by
  cases cs with
  | nil => rfl
  | cons c rest =>
    apply skipMark_of_ne
    rintro rfl
    rw [statements_mark] at read
    cases read

/-- A document that denotes a datum within a `limit` below `levels` is read by `Toml.read` as a tree
that `Holds` the datum. -/
theorem read_of_denotes {limit : Nat} (within : limit < levels) {text : String} {v : Datum}
    (denotes : Denotes limit text v) : ∃ t, Toml.read text = some t ∧ Tree.Holds t v := by
  obtain ⟨lines, members, spelled, made, rfl⟩ := denotes
  obtain ⟨founds, stands, found⟩ := statements_of_documentText within spelled
  obtain ⟨entries, parts, shape, held, others⟩ := sections_of_standsFor stands .root
  obtain ⟨built, ran, holds⟩ := made.exists_run (List.rel_append (forall₂_ofEntry held) others)
  refine ⟨.table (memberTrees built) true, ?_, holds_table holds⟩
  rw [Toml.read, skipMark_of_statements found, found]
  simp only [shape, assemble, foldlM_addSection]
  rw [List.flatMap_cons]
  exact congrArg (Option.map _) ran

end Wordbook.Toml
