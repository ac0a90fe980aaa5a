import AlarmView.Json.Printer
import AlarmView.Json.Reader
import AlarmView.Proofs.Text.Decimal
import Mathlib.Tactic.SplitIfs

/-!
# Tokens of written JSON

A written value is split into the tokens of the value, wherever it stands and whatever follows it.
Texts come back character by character, numbers and words up to the comma or the line end behind
them.
-/

namespace AlarmView.Json

open Text

mutual

/-- Whether a value is one that the program writes: each of its texts has a value, and its numbers
are integers. -/
def Plain : Json → Prop
  | .fraction => False
  | .text value => value.isSome
  | .list items => PlainItems items
  | .record fields => PlainFields fields
  | .null | .bool _ | .integer _ => True

/-- Counterpart of `Plain` for the items of a list. -/
def PlainItems : List Json → Prop
  | [] => True
  | item :: items => item.Plain ∧ PlainItems items

/-- Counterpart of `Plain` for the fields of a record. -/
def PlainFields : List (JsonText × Json) → Prop
  | [] => True
  | (key, value) :: fields => key.isSome ∧ value.Plain ∧ PlainFields fields

end

mutual

def tokens : Json → List Token
  | .text value => [.text value]
  | .list [] => [.openList, .closeList]
  | .list (item :: items) => .openList :: item.tokens ++ itemTokens items ++ [.closeList]
  | .record [] => [.openRecord, .closeRecord]
  | .record ((key, value) :: fields) =>
      .openRecord :: .text key :: .colon :: value.tokens ++ fieldTokens fields ++ [.closeRecord]
  | .null => [.atom .null]
  | .bool value => [.atom (.bool value)]
  | .integer value => [.atom (.integer value)]
  | .fraction => [.atom .fraction]

/-- Tokens of the items of a list behind another one. -/
def itemTokens : List Json → List Token
  | [] => []
  | item :: items => .comma :: item.tokens ++ itemTokens items

/-- Tokens of the fields of a record behind another one. -/
def fieldTokens : List (JsonText × Json) → List Token
  | [] => []
  | (key, value) :: fields => .comma :: .text key :: .colon :: value.tokens ++ fieldTokens fields

end

section

variable {mode : Mode} {found : List Token} {units : List Nat} {c : Char} {rest : List Char}

theorem tokensFrom_step {tokens : List Token} {next : Mode}
    (steps : step? mode c = some (tokens, next)) :
    tokensFrom mode found (c :: rest) = tokensFrom next (tokens.reverse ++ found) rest := by
  rw [tokensFrom, steps]

theorem tokensFrom_silent (next : Mode) (steps : step? mode c = some ([], next)) :
    tokensFrom mode found (c :: rest) = tokensFrom next found rest :=
  tokensFrom_step steps

theorem tokensFrom_mark (token : Token) (begins : begin? c = some ([token], .between)) :
    tokensFrom .between found (c :: rest) = tokensFrom .between (token :: found) rest := by
  have enters : step? .between c = some ([token], .between) := begins
  exact tokensFrom_step enters

private theorem tokensFrom_escaped {letter : Char} (other : letter ≠ 'u')
    (means : unescape? letter = some c) : tokensFrom (.text units) found ('\\' :: letter :: rest) =
      tokensFrom (.text (c.toNat :: units)) found rest := by
  rw [tokensFrom_silent (.escape units) rfl, tokensFrom_silent (.text (c.toNat :: units))]
  rw [step?, if_neg other, means]
  rfl

private theorem hexValue?_hexDigit {digit : Nat} (small : digit < 16) :
    hexValue? (hexDigit digit) = some digit := by
  have all : ∀ digit < 16, hexValue? (hexDigit digit) = some digit := by decide
  exact all digit small

private theorem tokensFrom_unit (seen value digit : Nat) (small : digit < 16) :
    tokensFrom (.unit units seen value) found (hexDigit digit :: rest) =
      tokensFrom
        (if seen = 3 then .text ((16 * value + digit) :: units)
        else .unit units (seen + 1) (16 * value + digit)) found rest := by
  apply tokensFrom_silent
  rw [step?, hexValue?_hexDigit small]
  rfl

/-- An escaped code unit below 256, written with four digits. -/
theorem tokensFrom_codeUnit {code : Nat} (small : code < 256) :
    tokensFrom (.text units) found
        ('\\' :: 'u' :: '0' :: '0' :: hexDigit (code / 16) :: hexDigit (code % 16) :: rest) =
      tokensFrom (.text (code :: units)) found rest := by
  have zero : '0' = hexDigit 0 := rfl
  have whole : 16 * (code / 16) + code % 16 = code := by omega
  rw [tokensFrom_silent (.escape units) rfl, tokensFrom_silent (.unit units 0 0) rfl, zero,
    tokensFrom_unit 0 0 0 (by decide), if_neg (by decide),
    tokensFrom_unit 1 0 0 (by decide), if_neg (by decide),
    tokensFrom_unit 2 0 (code / 16) (by omega), if_neg (by decide),
    tokensFrom_unit 3 _ (code % 16) (by omega), if_pos rfl, Nat.mul_zero, Nat.zero_add, whole]

private theorem tokensFrom_escape (c : Char) :
    tokensFrom (.text units) found (escape c ++ rest) =
      tokensFrom (.text (c.toNat :: units)) found rest := by
  have ofCode {code : Nat} (same : c.toNat = code) : Char.ofNat code = c :=
    same ▸ Char.ofNat_toNat c
  unfold escape
  split_ifs with quote backslash newline tab carriage backspace formFeed control
  · subst quote
    exact tokensFrom_escaped (by decide) rfl
  · subst backslash
    exact tokensFrom_escaped (by decide) rfl
  · subst newline
    exact tokensFrom_escaped (by decide) rfl
  · subst tab
    exact tokensFrom_escaped (by decide) rfl
  · subst carriage
    exact tokensFrom_escaped (by decide) rfl
  · exact tokensFrom_escaped (by decide) (congrArg some (ofCode backspace))
  · exact tokensFrom_escaped (by decide) (congrArg some (ofCode formFeed))
  · exact tokensFrom_codeUnit (by omega)
  · apply tokensFrom_silent
    rw [step?, if_neg quote, if_neg backslash, if_neg control]

private theorem tokensFrom_characters (characters : List Char) :
    tokensFrom (.text units) found (characters.flatMap escape ++ rest) =
      tokensFrom (.text ((characters.map Char.toNat).reverse ++ units)) found rest := by
  induction characters generalizing units with
  | nil => rfl
  | cons c characters ih =>
      rw [List.flatMap_cons, List.append_assoc, tokensFrom_escape, ih]
      simp

end

private theorem not_surrogate (c : Char) :
    isHighSurrogate c.toNat = false ∧ isLowSurrogate c.toNat = false := by
  have valid : c.toNat < 0xD800 ∨ 0xDFFF < c.toNat := by
    rcases c.valid with low | high
    · exact .inl low
    · exact .inr high.1
  simp only [isHighSurrogate, isLowSurrogate, Bool.and_eq_false_iff, decide_eq_false_iff_not]
  omega

private theorem joinUnits_characters (characters : List Char) :
    joinUnits (characters.map Char.toNat) = some characters := by
  induction characters with
  | nil => rfl
  | cons c characters ih =>
      obtain ⟨notHigh, notLow⟩ := not_surrogate c
      cases characters with
      | nil => simp [joinUnits, notHigh, notLow]
      | cons next characters =>
          rw [List.map_cons] at ih
          simp [joinUnits, notHigh, notLow, ih]

/-- A written text is one token. -/
theorem tokensFrom_quoted (value : String) (found : List Token) (rest : List Char) :
    tokensFrom .between found (quoted (some value) ++ rest) =
      tokensFrom .between (.text (some value) :: found) rest := by
  have last (units : List Nat) : step? (.text units) '"' =
      some ([.text ((joinUnits units.reverse).map String.ofList)], .between) := by
    rw [step?, if_pos rfl]
  rw [quoted, List.cons_append, List.cons_append, List.append_assoc,
    tokensFrom_silent (.text []) rfl, tokensFrom_characters,
    List.singleton_append, tokensFrom_step (last _)]
  simp [joinUnits_characters]

/-- Whether a word or a number ends in front of a text. -/
def EndsAtom (rest : List Char) : Prop :=
  ∀ c ∈ rest.head?, c = ',' ∨ c = '\n'

private theorem EndsAtom.nil : EndsAtom [] := by
  rintro c ⟨⟩

theorem EndsAtom.comma (rest : List Char) : EndsAtom (',' :: rest) := by
  rintro c ⟨⟩
  exact .inl rfl

private theorem EndsAtom.newLine (level : Nat) (rest : List Char) :
    EndsAtom (Json.newLine level ++ rest) := by
  rintro c ⟨⟩
  exact .inr rfl

/-- A word or a number is one token, if it is read to its end and no character behind it goes on
with it. -/
theorem tokensFrom_atom {mode : Mode} {value : Json} {rest : List Char} (ends : EndsAtom rest)
    (found : List Token) (finishes : finish? mode = some [.atom value])
    (stops : ∀ c, c = ',' ∨ c = '\n' → step? mode c = endBefore (some value) c) :
    tokensFrom mode found rest = tokensFrom .between (.atom value :: found) rest := by
  cases rest with
  | nil =>
      rw [tokensFrom, tokensFrom, finishes]
      simp [finish?]
  | cons c rest =>
      have here := stops c (ends c rfl)
      rcases ends c rfl with rfl | rfl
      · rw [tokensFrom_step (here.trans rfl), tokensFrom_mark .comma rfl]
        rfl
      · rw [tokensFrom_step (here.trans rfl), tokensFrom_silent .between rfl]
        rfl

private theorem tokensFrom_letters {letters rest : List Char} (seen : List Char)
    (found : List Token)
    (all : ∀ c ∈ letters, c.isAlpha = true) :
    tokensFrom (.word seen) found (letters ++ rest) =
      tokensFrom (.word (letters.reverse ++ seen)) found rest := by
  induction letters generalizing seen with
  | nil => rfl
  | cons c letters ih =>
      obtain ⟨first, others⟩ := List.forall_mem_cons.mp all
      rw [List.cons_append, tokensFrom_silent (.word (c :: seen)), ih _ others]
      · simp
      · rw [step?, if_pos first]

private theorem tokensFrom_word {first : Char} {letters rest : List Char} {value : Json}
    (ends : EndsAtom rest) (found : List Token)
    (begins : begin? first = some ([], .word [first])) (all : letters.all Char.isAlpha = true)
    (means : word? (first :: letters) = some value) :
    tokensFrom .between found (first :: letters ++ rest) =
      tokensFrom .between (.atom value :: found) rest := by
  have whole : word? (letters.reverse ++ [first]).reverse = some value := by simpa using means
  have enters : step? .between first = some ([], .word [first]) := begins
  rw [List.cons_append, tokensFrom_silent _ enters,
    tokensFrom_letters _ _ (List.all_eq_true.mp all)]
  apply tokensFrom_atom ends
  · rw [finish?, whole]
    rfl
  · rintro c (rfl | rfl) <;> rw [step?, if_neg (by decide), whole]

private theorem tokensFrom_digits {digits rest : List Char} (seen : List Char) (found : List Token)
    (all : ∀ c ∈ digits, c.isDigit = true) : tokensFrom (.number seen) found (digits ++ rest) =
      tokensFrom (.number (digits.reverse ++ seen)) found rest := by
  induction digits generalizing seen with
  | nil => rfl
  | cons c digits ih =>
      obtain ⟨first, others⟩ := List.forall_mem_cons.mp all
      rw [List.cons_append, tokensFrom_silent (.number (c :: seen)), ih _ others]
      · simp
      · rw [step?, if_pos (by simp [continuesNumber, first])]

private theorem begin?_number {c : Char} (number : c = '-' ∨ c.isDigit = true) :
    begin? c = some ([], .number [c]) := by
  unfold begin?
  split
  case h_12 => rw [if_pos number]
  all_goals exact absurd number (by decide)

private theorem number?_unsigned {digits : List Char} (nonempty : digits ≠ [])
    (all : ∀ c ∈ digits, c.isDigit = true) (noZero : digits.head? ≠ some '0' ∨ digits = ['0']) :
    number? digits = some (.integer (Nat.ofDigitChars 10 digits 0)) := by
  have front := takeWhile_isDigit all .nil
  have behind := dropWhile_isDigit all .nil
  rw [List.append_nil] at front behind
  have unsigned : ∀ rest, digits ≠ '-' :: rest := by
    rintro rest rfl
    exact absurd (all '-' List.mem_cons_self) (by decide)
  unfold number?
  split
  next negative whole parts =>
    split at parts
    · next rest => exact absurd rfl (unsigned rest)
    · obtain ⟨rfl, rfl⟩ := Prod.mk.inj parts
      have noZeros : ¬(digits = [] ∨ (digits.head? = some '0' ∧ digits ≠ ['0'])) := by
        rintro (nothing | ⟨zero, more⟩)
        · exact nonempty nothing
        · exact noZero.elim (· zero) more
      rw [front, behind, if_neg noZeros]
      rfl

private theorem number?_natural (n : Nat) : number? (Nat.toDigits 10 n) = some (.integer n) := by
  rw [number?_unsigned Nat.toDigits_ne_nil fun _ => isDigit_of_mem_toDigits,
    Nat.ofDigitChars_ten_toDigits]
  cases n with
  | zero => exact .inr rfl
  | succ n => exact .inl (head?_toDigits n.succ_pos)

private theorem number?_negative {n : Nat} (positive : 0 < n) :
    number? ('-' :: Nat.toDigits 10 n) = some (.integer (-n)) := by
  have all : ∀ c ∈ Nat.toDigits 10 n, c.isDigit = true := fun _ => isDigit_of_mem_toDigits
  have front := takeWhile_isDigit all .nil
  have behind := dropWhile_isDigit all .nil
  rw [List.append_nil] at front behind
  have noZeros : ¬(Nat.toDigits 10 n = [] ∨
      ((Nat.toDigits 10 n).head? = some '0' ∧ Nat.toDigits 10 n ≠ ['0'])) := by
    rintro (nothing | ⟨zero, _⟩)
    · exact Nat.toDigits_ne_nil nothing
    · exact head?_toDigits positive zero
  simp only [number?, front, behind]
  rw [if_neg noZeros, if_pos trivial, if_neg (by decide), Nat.ofDigitChars_ten_toDigits,
    if_neg (by omega)]

/-- An integer is one token. -/
theorem tokensFrom_integer (value : Int) {rest : List Char} (ends : EndsAtom rest)
    (found : List Token) :
    tokensFrom .between found (integerText value ++ rest) =
      tokensFrom .between (.atom (.integer value) :: found) rest := by
  obtain ⟨first, digits, text, begins, all, means⟩ : ∃ first digits,
      integerText value = first :: digits ∧ begin? first = some ([], .number [first]) ∧
        (∀ c ∈ digits, c.isDigit = true) ∧ number? (first :: digits) = some (.integer value) := by
    rw [integerText]
    split
    · next negative =>
        have same : -(value.natAbs : Int) = value := by omega
        have means := number?_negative (n := value.natAbs) (by omega)
        rw [same] at means
        exact ⟨'-', _, rfl, rfl, fun _ => isDigit_of_mem_toDigits, means⟩
    · next natural =>
        have same : (value.natAbs : Int) = value := by omega
        obtain ⟨first, digits, parts⟩ := List.exists_cons_of_ne_nil
          (Nat.toDigits_ne_nil (b := 10) (n := value.natAbs))
        have all : ∀ c ∈ first :: digits, c.isDigit = true := fun _ member =>
          isDigit_of_mem_toDigits (parts ▸ member)
        have means := number?_natural value.natAbs
        rw [parts, same] at means
        exact ⟨first, digits, parts, begin?_number (.inr (all first List.mem_cons_self)),
          fun c member => all c (.tail _ member), means⟩
  have whole : number? (digits.reverse ++ [first]).reverse = some (.integer value) := by
    simpa using means
  have enters : step? .between first = some ([], .number [first]) := begins
  rw [text, List.cons_append, tokensFrom_silent _ enters, tokensFrom_digits _ _ all]
  apply tokensFrom_atom ends
  · rw [finish?, whole]
    rfl
  · rintro c (rfl | rfl) <;> rw [step?, if_neg (by decide), whole]

theorem tokensFrom_newLine (level : Nat) (found : List Token) (rest : List Char) :
    tokensFrom .between found (newLine level ++ rest) = tokensFrom .between found rest := by
  have blanks (count : Nat) :
      tokensFrom .between found (List.replicate count ' ' ++ rest) =
        tokensFrom .between found rest := by
    induction count with
    | zero => rfl
    | succ count ih =>
        rw [List.replicate_succ, List.cons_append, tokensFrom_silent .between rfl, ih]
  rw [newLine, List.cons_append, tokensFrom_silent .between rfl, blanks]

theorem tokensFrom_key (key : String) (found : List Token) (rest : List Char) :
    tokensFrom .between found (quoted (some key) ++ (": ".toList ++ rest)) =
      tokensFrom .between (.colon :: .text (some key) :: found) rest := by
  rw [tokensFrom_quoted]
  rfl

theorem EndsAtom.items (level : Nat) (items : List Json) {rest : List Char}
    (ends : EndsAtom rest) : EndsAtom (printItems level items ++ rest) := by
  cases items with
  | nil => exact ends
  | cons item items => exact .comma _

theorem EndsAtom.fields (level : Nat) (fields : List (JsonText × Json)) {rest : List Char}
    (ends : EndsAtom rest) : EndsAtom (printFields level fields ++ rest) := by
  cases fields with
  | nil => exact ends
  | cons field fields => exact .comma _

mutual

/-- A written value is split into its tokens. -/
theorem tokensFrom_printAt (level : Nat) :
    (json : Json) → json.Plain → ∀ (found : List Token) {rest : List Char}, EndsAtom rest →
      tokensFrom .between found (printAt level json ++ rest) =
        tokensFrom .between (json.tokens.reverse ++ found) rest
  | .null, _, found, _, ends => tokensFrom_word ends found rfl rfl rfl
  | .bool true, _, found, _, ends => tokensFrom_word ends found rfl rfl rfl
  | .bool false, _, found, _, ends => tokensFrom_word ends found rfl rfl rfl
  | .integer value, _, found, _, ends => tokensFrom_integer value ends found
  | .text (some value), _, found, _, _ => tokensFrom_quoted value found _
  | .list [], _, _, _, _ => rfl
  | .record [], _, _, _, _ => rfl
  | .list (item :: items), plain, found, rest, _ => by
      obtain ⟨itemPlain, itemsPlain⟩ := plain
      have closes : EndsAtom (newLine level ++ (']' :: rest)) := .newLine level _
      simp only [printAt, tokens, List.append_assoc, List.cons_append, List.nil_append,
        List.reverse_cons, List.reverse_append, List.reverse_nil]
      rw [tokensFrom_mark .openList rfl, tokensFrom_newLine,
        tokensFrom_printAt (level + 1) item itemPlain _ (closes.items (level + 1) items),
        tokensFrom_printItems (level + 1) items itemsPlain _ closes, tokensFrom_newLine,
        tokensFrom_mark .closeList rfl]
  | .record ((some key, value) :: fields), plain, found, rest, _ => by
      obtain ⟨_, valuePlain, fieldsPlain⟩ := plain
      have closes : EndsAtom (newLine level ++ ('\x7d' :: rest)) := .newLine level _
      simp only [printAt, tokens, List.append_assoc, List.cons_append, List.nil_append,
        List.reverse_cons, List.reverse_append, List.reverse_nil]
      rw [tokensFrom_mark .openRecord rfl, tokensFrom_newLine, tokensFrom_key,
        tokensFrom_printAt (level + 1) value valuePlain _ (closes.fields (level + 1) fields),
        tokensFrom_printFields (level + 1) fields fieldsPlain _ closes, tokensFrom_newLine,
        tokensFrom_mark .closeRecord rfl]

theorem tokensFrom_printItems (level : Nat) :
    (items : List Json) → PlainItems items → ∀ (found : List Token) {rest : List Char},
      EndsAtom rest →
      tokensFrom .between found (printItems level items ++ rest) =
        tokensFrom .between ((itemTokens items).reverse ++ found) rest
  | [], _, _, _, _ => rfl
  | item :: items, plain, found, rest, ends => by
      simp only [printItems, itemTokens, List.append_assoc, List.cons_append, List.nil_append,
        List.reverse_cons, List.reverse_append]
      rw [tokensFrom_mark .comma rfl, tokensFrom_newLine,
        tokensFrom_printAt level item plain.1 _ (ends.items level items),
        tokensFrom_printItems level items plain.2 _ ends]

theorem tokensFrom_printFields (level : Nat) :
    (fields : List (JsonText × Json)) → PlainFields fields →
      ∀ (found : List Token) {rest : List Char}, EndsAtom rest →
      tokensFrom .between found (printFields level fields ++ rest) =
        tokensFrom .between ((fieldTokens fields).reverse ++ found) rest
  | [], _, _, _, _ => rfl
  | (some key, value) :: fields, plain, found, rest, ends => by
      simp only [printFields, fieldTokens, List.append_assoc, List.cons_append, List.nil_append,
        List.reverse_cons, List.reverse_append]
      rw [tokensFrom_mark .comma rfl, tokensFrom_newLine, tokensFrom_key,
        tokensFrom_printAt level value plain.2.1 _ (ends.fields level fields),
        tokensFrom_printFields level fields plain.2.2 _ ends]

end

theorem tokens?_print {json : Json} (plain : json.Plain) :
    tokens? json.print.toList = some json.tokens := by
  have whole := tokensFrom_printAt 0 json plain [] .nil
  rw [List.append_nil, List.append_nil] at whole
  rw [tokens?, print, String.toList_ofList, whole, tokensFrom, List.reverse_reverse]
  simp [finish?]

end AlarmView.Json
