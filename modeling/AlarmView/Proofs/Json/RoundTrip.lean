import AlarmView.Proofs.Json.Tokens

/-!
# Reading written JSON

The tokens of a value build the value again, in whatever containers they stand, so a written value
is read as it was.
-/

namespace AlarmView.Json

/-- A value that follows an opening bracket is the first item of a list. -/
theorem build?_openList (item : Json) (frames : List Frame) (rest : List Token) :
    build? none frames (.openList :: (item.tokens ++ rest)) =
      build? none (.list [] :: frames) (item.tokens ++ rest) := by
  cases item with
  | null | bool | integer | fraction | text => rfl
  | list items => cases items <;> rfl
  | record fields => cases fields <;> rfl

mutual

/-- The tokens of a value build the value. -/
theorem build?_tokens : (json : Json) → ∀ (frames : List Frame) (rest : List Token),
    build? none frames (json.tokens ++ rest) = build? (some json) frames rest
  | .null, _, _ => rfl
  | .bool _, _, _ => rfl
  | .integer _, _, _ => rfl
  | .fraction, _, _ => rfl
  | .text _, _, _ => rfl
  | .list [], _, _ => rfl
  | .record [], _, _ => rfl
  | .list (item :: items), frames, rest => by
      simp only [tokens, List.cons_append, List.append_assoc, List.nil_append]
      rw [build?_openList, build?_tokens item, build?_itemTokens items]
      rfl
  | .record ((key, value) :: fields), frames, rest => by
      simp only [tokens, List.cons_append, List.append_assoc, List.nil_append]
      rw [build?, build?_tokens value, build?_fieldTokens fields]
      rfl

theorem build?_itemTokens : (items : List Json) → ∀ (item : Json) (done : List Json)
    (frames : List Frame) (rest : List Token),
    build? (some item) (.list done :: frames) (itemTokens items ++ .closeList :: rest) =
      build? (some (.list (done.reverse ++ item :: items))) frames rest
  | [], item, done, frames, rest => by
      rw [itemTokens, List.nil_append, build?, List.reverse_cons]
  | next :: items, item, done, frames, rest => by
      simp only [itemTokens, List.cons_append, List.append_assoc]
      rw [build?, build?_tokens next, build?_itemTokens items]
      simp

theorem build?_fieldTokens : (fields : List (JsonText × Json)) → ∀ (key : JsonText) (value : Json)
    (done : List (JsonText × Json)) (frames : List Frame) (rest : List Token),
    build? (some value) (.record done key :: frames) (fieldTokens fields ++ .closeRecord :: rest) =
      build? (some (.record (done.reverse ++ (key, value) :: fields))) frames rest
  | [], key, value, done, frames, rest => by
      rw [fieldTokens, List.nil_append, build?, List.reverse_cons]
  | (name, next) :: fields, key, value, done, frames, rest => by
      simp only [fieldTokens, List.cons_append, List.append_assoc]
      rw [build?, build?_tokens next, build?_fieldTokens fields]
      simp

end

/-- A value is read as it was written. -/
theorem read?_print {json : Json} (plain : json.Plain) : read? json.print = some json := by
  have whole := build?_tokens json [] []
  rw [List.append_nil] at whole
  rw [read?, tokens?_print plain, Option.bind_some, whole]
  rfl

end AlarmView.Json
